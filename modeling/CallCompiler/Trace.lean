import CallCompiler.Fault

/-!
Traces: a record of phases that start and end, one inside of another. Every event has a number of its own,
which is its place in the record. Ending a phase when none is active changes nothing.
-/
namespace CallCompiler

inductive Trace.Kind
  | started
  | ended
  | failed
  deriving DecidableEq, Repr

def Trace.Kind.label : Trace.Kind → String
  | .started => "phase_start"
  | .ended => "phase_end"
  | .failed => "phase_error"

/-- An event. The parent of a start is the phase that it happens in; the parent of an end is the phase
that it ends. -/
structure Trace.Event where
  id : Nat
  kind : Trace.Kind
  description : String
  parent : Option Nat
  metadata : List (String × Json)

/-- The events so far, in order, and the phases that have not ended, the innermost first. -/
structure Trace where
  events : List Trace.Event
  active : List Nat

namespace Trace

def empty : Trace := ⟨[], []⟩

def next (t : Trace) : Nat := t.events.length

def start (t : Trace) (name detail : String) : Trace where
  events := t.events ++ [⟨t.next, .started, name, t.active.head?, [("detail", .string detail)]⟩]
  active := t.next :: t.active

def close (t : Trace) (kind : Kind) (description : String) (metadata : List (String × Json)) :
    Trace :=
  match t.active with
  | [] => t
  | phase :: active =>
    ⟨t.events ++ [⟨t.next, kind, description, some phase, metadata⟩], active⟩

def finish (t : Trace) (metadata : List (String × Json)) : Trace :=
  t.close .ended "End Phase" metadata

def failWith (t : Trace) (label message : String) : Trace :=
  t.close .failed message [("error", .string label)]

def fail (t : Trace) (fault : Fault) : Trace := t.failWith fault.label fault.message

/-- How events are named and dated when they are written down. A time is a number of seconds, given by its
digits and how many of them stand after the point. -/
structure Stamps where
  name : Nat → String
  time : Nat → Int × Nat

def Event.toJson (stamps : Stamps) (e : Event) : Json :=
  .object [("id", .string (stamps.name e.id)), ("type", .string e.kind.label),
    ("timestamp", .number (stamps.time e.id).1 (stamps.time e.id).2),
    ("description", .string e.description),
    ("parent_id", (e.parent.map fun id => Json.string (stamps.name id)).getD .null),
    ("metadata", .object e.metadata)]

def toJson (stamps : Stamps) (events : List Event) : Json :=
  .array (events.map (Event.toJson stamps))

end Trace

end CallCompiler
