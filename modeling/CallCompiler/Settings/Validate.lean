import CallCompiler.Number.Whole
import CallCompiler.Settings.Basic
import CallCompiler.Settings.Problem
import CallCompiler.Text.Blank
import CallCompiler.Text.Casing

/-!
Settings from values. Each field is checked by itself, and a value of another kind is taken where its
meaning is plain: `"yes"` for a switch, `"4.0"` for a whole number.
-/
namespace CallCompiler.Settings

def formatName (s : String) : String :=
  String.ofList ((Text.lower (Text.trim Text.isBlank s.toList)).map
    fun c => if c = '-' then '_' else c)

def checkFormat (v : Value) : Except Problem Format :=
  match v with
  | .text s =>
    match Format.ofLabel? (formatName s) with
    | some f => .ok f
    | none => .error ⟨.format, .notFormat, .text (formatName s)⟩
  | v => .error ⟨.format, .notFormat, v⟩

def machineLimit : Int := 9223372036854775808

def isMachineInt (n : Int) : Bool := -machineLimit ≤ n && n < machineLimit

/-- The whole value of a binary number, if it is a machine integer. The least one is left out. -/
def machineInt? (x : Number.Binary64) : Option Int :=
  x.toInt?.filter fun n => -machineLimit < n && n < machineLimit

def switchWords : List (String × Bool) :=
  [("0", false), ("off", false), ("f", false), ("false", false), ("n", false), ("no", false),
    ("1", true), ("on", true), ("t", true), ("true", true), ("y", true), ("yes", true)]

def switchOfInt? (n : Int) : Option Bool :=
  if n = 0 then some false else if n = 1 then some true else none

def checkTrace (v : Value) : Except Problem Bool :=
  let problem kind : Except Problem Bool := .error ⟨.trace, kind, v⟩
  let orUnclear : Option Bool → Except Problem Bool
    | some b => .ok b
    | none => problem .unclearBool
  match v with
  | .bool b => .ok b
  | .int n => if isMachineInt n then orUnclear (switchOfInt? n) else problem .notBool
  | .float x =>
    match machineInt? x with
    | some n => orUnclear (switchOfInt? n)
    | none => problem .notBool
  | .text s => orUnclear (switchWords.lookup (String.ofList (s.toList.map Char.toLower)))
  | _ => problem .notBool

def wholeProblem : Number.Whole.Fault → Problem.Kind
  | .unclear => .unclearInt
  | .oversized => .oversizedInt

def readIndent : Value → Except Problem.Kind Int
  | .bool b => .ok (if b then 1 else 0)
  | .int n => .ok n
  | .float .nan | .float (.infinite _) => .error .notFinite
  | .float x =>
    match x.toInt?, machineInt? x with
    | none, _ => .error .fractionalInt
    | some _, some n => .ok n
    | some _, none => .error .oversizedInt
  | .text s => (Number.Whole.read s.toList).mapError wholeProblem
  | _ => .error .notInt

def checkIndent (v : Value) : Except Problem Nat :=
  match readIndent v with
  | .error kind => .error ⟨.indent, kind, v⟩
  | .ok n => if n < 0 then .error ⟨.indent, .negative, v⟩ else .ok n.toNat

def field {α : Type} (values : Entries) (f : Field) (standard : α)
    (check : Value → Except Problem α) : Except Problem α :=
  match values.get? f.name with
  | none => .ok standard
  | some v => check v

def problem? {α : Type} : Except Problem α → List Problem
  | .ok _ => []
  | .error p => [p]

/-- Settings from the values of their fields; other keys do not count. All problems are reported, in the
order of the fields. -/
def ofValues (values : Entries) : Except (List Problem) Settings :=
  let format := field values .format standard.format checkFormat
  let trace := field values .trace standard.trace checkTrace
  let indent := field values .indent standard.indent checkIndent
  match format, trace, indent with
  | .ok format, .ok trace, .ok indent => .ok ⟨format, trace, indent⟩
  | _, _, _ => .error (problem? format ++ problem? trace ++ problem? indent)

end CallCompiler.Settings
