import CallCompiler.Settings.Value

/-!
What can be wrong with the values that settings are given.
-/
namespace CallCompiler.Settings

inductive Field
  | format
  | trace
  | indent
  deriving DecidableEq, Repr

def Field.name : Field → String
  | .format => "output_format"
  | .trace => "trace"
  | .indent => "indent"

def Field.all : List Field := [.format, .trace, .indent]

inductive Problem.Kind
  | notFormat
  | notBool
  | unclearBool
  | notInt
  | unclearInt
  /-- A number with too many digits, or beyond the range of machine integers. -/
  | oversizedInt
  | fractionalInt
  | notFinite
  | negative
  deriving DecidableEq, Repr

structure Problem where
  field : Field
  kind : Problem.Kind
  input : Value

namespace Problem

def Kind.code : Kind → String
  | .notFormat => "enum"
  | .notBool => "bool_type"
  | .unclearBool => "bool_parsing"
  | .notInt => "int_type"
  | .unclearInt => "int_parsing"
  | .oversizedInt => "int_parsing_size"
  | .fractionalInt => "int_from_float"
  | .notFinite => "finite_number"
  | .negative => "greater_than_equal"

def Kind.message : Kind → String
  | .notFormat => "Input should be 'code', 'tokens', 'ast' or 'target_ast'"
  | .notBool => "Input should be a valid boolean"
  | .unclearBool => "Input should be a valid boolean, unable to interpret input"
  | .notInt => "Input should be a valid integer"
  | .unclearInt => "Input should be a valid integer, unable to parse string as an integer"
  | .oversizedInt => "Unable to parse input string as an integer, exceeded maximum size"
  | .fractionalInt => "Input should be a valid integer, got a number with a fractional part"
  | .notFinite => "Input should be a finite number"
  | .negative => "Input should be greater than or equal to 0"

def takeBytes (size : Nat) : List Char → List Char
  | [] => []
  | c :: cs => if c.utf8Size ≤ size then c :: takeBytes (size - c.utf8Size) cs else []

/-- A text of more than fifty bytes is shown without its middle. -/
def abridged (s : String) : String :=
  if s.utf8ByteSize ≤ 50 then s
  else
    String.ofList (takeBytes 25 s.toList ++ "...".toList ++ (takeBytes 24 s.toList.reverse).reverse)

def describe (p : Problem) : String :=
  "\n" ++ p.field.name ++ "\n  " ++ p.kind.message ++ " [type=" ++ p.kind.code ++
    ", input_value=" ++ abridged p.input.describe ++ ", input_type=" ++ p.input.kind ++ "]"

def report (problems : List Problem) : String :=
  toString problems.length ++ " validation error" ++ (if problems.length = 1 then "" else "s") ++
    " for RuntimeConfig" ++ String.join (problems.map describe)

end Problem

end CallCompiler.Settings
