import CallCompiler.Text.Newline
import CallCompiler.Toml.Values

/-!
TOML documents. A document is read line by line into one table; a table is declared once, and neither a
header nor a dotted key reaches into what has been written in one piece.
-/
namespace CallCompiler.Toml

open Settings

structure Document where
  entries : Entries
  header : Key
  /-- Keys with a compound value. -/
  frozen : List Key
  /-- Tables that no header may declare again and no dotted key of another section may enter. -/
  declared : List Key
  /-- Tables that dotted keys made in this section. -/
  dotted : List Key

namespace Document

def empty : Document := ⟨[], [], [], [], []⟩

/-- Ends a section: the tables that its dotted keys made count as declared. -/
def endSection (d : Document) : Document :=
  { d with declared := d.dotted ++ d.declared, dotted := [] }

def openTable (d : Document) (key : Key) : Option Document :=
  if d.declared.contains key || covers d.frozen key then none
  else
    (updateAt true some key d.entries).map fun entries =>
      { d with entries, header := key, declared := key :: d.declared }

def appendTable (name : String) (entries : Entries) : Option Entries :=
  match entries.get? name with
  | none => some (entries ++ [(name, .list [.table []])])
  | some (.list items) => some (entries.replace name (.list (items ++ [.table []])))
  | some _ => none

/-- A header in double brackets: what was declared under the key before does not bind the new table. -/
def openListed (d : Document) (key : Key) : Option Document :=
  match key.getLast? with
  | none => none
  | some name =>
    if covers d.frozen key then none
    else
      let stays (k : Key) : Bool := !key.isPrefixOf k
      (updateAt true (appendTable name) key.dropLast d.entries).map fun entries =>
        { d with
          entries
          header := key
          frozen := d.frozen.filter stays
          declared := key :: d.declared.filter stays }

def through (d : Document) (key : Key) : List Key :=
  (List.range (key.length - 1)).map fun n => d.header ++ key.take (n + 1)

def addPair (d : Document) (key : Key) (value : Value) : Option Document :=
  let full := d.header ++ key
  if (d.through key).any d.declared.contains || covers d.frozen full.dropLast then none
  else
    (addAt true full value d.entries).map fun entries =>
      { d with
        entries
        dotted := d.through key ++ d.dotted
        frozen := if isCompound value then full :: d.frozen else d.frozen }

end Document

def statement (steps : Nat) (d : Document) (cs : List Char) : Except Fault (Document × List Char) :=
  match cs with
  | [] => .ok (d, cs)
  | '\n' :: _ | '#' :: _ => .ok (d, cs)
  | '[' :: '[' :: cs => do
    let (k, cs) ← key steps (skipGap cs)
    let d ← orMalformed (d.endSection.openListed k)
    match cs with
    | ']' :: ']' :: cs => return (d, cs)
    | _ => .error .malformed
  | '[' :: cs => do
    let (k, cs) ← key steps (skipGap cs)
    let d ← orMalformed (d.endSection.openTable k)
    match cs with
    | ']' :: cs => return (d, cs)
    | _ => .error .malformed
  | cs => do
    let (k, v, cs) ← pair steps cs
    let d ← orMalformed (d.addPair k v)
    return (d, cs)

def readLines (bound : Nat) : (steps : Nat) → Document → List Char → Except Fault Document
  | 0, _, _ => .error .malformed
  | steps + 1, d, cs => do
    let (d, cs) ← statement bound d (skipGap cs)
    match ← skipComment (skipGap cs) with
    | [] => return d
    | '\n' :: cs => readLines bound steps d cs
    | _ => .error .malformed

def parse (text : String) : Except Fault Entries := do
  let cs := Text.dropReturns text.toList
  let d ← readLines (2 * cs.length + 4) (cs.length + 1) .empty cs
  return d.entries

end CallCompiler.Toml
