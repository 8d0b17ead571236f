import CallCompiler.Calendar
import CallCompiler.Number.Decimal
import CallCompiler.Text.Join
import CallCompiler.Text.Quoted

/-!
Values that a setting may be given, of whatever kind, and how messages show them.
-/
namespace CallCompiler.Settings

open Calendar Number

inductive Value
  | null
  | bool (value : Bool)
  | int (value : Int)
  | float (value : Binary64)
  | text (value : String)
  | date (date : Date)
  | time (time : Time)
  /-- A date and a time, with the distance from universal time in minutes. -/
  | instant (date : Date) (time : Time) (offset : Option Int)
  | list (items : List Value)
  | table (entries : List (String × Value))
  deriving Inhabited

abbrev Entries := List (String × Value)

def Entries.get? (entries : Entries) (key : String) : Option Value := List.lookup key entries

def Entries.has (entries : Entries) (key : String) : Bool := (entries.get? key).isSome

def Entries.replace (entries : Entries) (key : String) (value : Value) : Entries :=
  entries.map fun (k, v) => if k == key then (k, value) else (k, v)

def Entries.insert (entries : Entries) (key : String) (value : Value) : Entries :=
  if entries.has key then entries.replace key value else entries ++ [(key, value)]

namespace Value

/-- Exponents are written from the seventeenth digit on, and below a ten-thousandth. -/
def floatLayout : Layout := ⟨-4, 15, 2⟩

def floatText (x : Binary64) : String := String.ofList (x.write floatLayout)

def kind : Value → String
  | .null => "NoneType"
  | .bool _ => "bool"
  | .int _ => "int"
  | .float _ => "float"
  | .text _ => "str"
  | .date _ => "date"
  | .time _ => "time"
  | .instant .. => "datetime"
  | .list _ => "list"
  | .table _ => "dict"

/-- The parts of a time that are shown: seconds and microseconds only up to the last that is not zero. -/
def timeParts (t : Time) : List Nat :=
  [t.hour, t.minute] ++
    if t.micro ≠ 0 then [t.second, t.micro] else if t.second ≠ 0 then [t.second] else []

def dateParts (d : Date) : List Nat := [d.year, d.month, d.day]

def commaSeparated (parts : List Nat) : String := Text.join ", " (parts.map toString)

def showOffset (minutes : Int) : String :=
  if minutes = 0 then "datetime.timezone.utc"
  else
    "datetime.timezone(datetime.timedelta(" ++ (if minutes < 0 then "days=-1, " else "") ++
      "seconds=" ++ toString (minutes * 60 % 86400) ++ "))"

mutual

def describe : Value → String
  | .null => "None"
  | .bool true => "True"
  | .bool false => "False"
  | .int n => toString n
  | .float x => floatText x
  | .text s => Text.quoted s
  | .date d => "datetime.date(" ++ commaSeparated (dateParts d) ++ ")"
  | .time t => "datetime.time(" ++ commaSeparated (timeParts t) ++ ")"
  | .instant d t offset =>
    "datetime.datetime(" ++ commaSeparated (dateParts d ++ timeParts t) ++
      (match offset with
      | none => ""
      | some minutes => ", tzinfo=" ++ showOffset minutes) ++ ")"
  | .list items => "[" ++ Text.join ", " (describeItems items) ++ "]"
  | .table entries => "\x7b" ++ Text.join ", " (describeEntries entries) ++ "\x7d"

def describeItems : List Value → List String
  | [] => []
  | item :: items => describe item :: describeItems items

def describeEntries : List (String × Value) → List String
  | [] => []
  | (key, value) :: entries =>
    (Text.quoted key ++ ": " ++ describe value) :: describeEntries entries

end

end Value

end CallCompiler.Settings
