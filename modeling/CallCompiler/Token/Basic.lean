import CallCompiler.Json.Basic

/-!
Tokens: what a program text is made of, once blanks are left out.
-/
namespace CallCompiler

inductive Token.Kind
  | paren
  | name
  | number
  | string
  deriving DecidableEq, Repr

/-- A token. The text of a string stands without its quotes. -/
structure Token where
  kind : Token.Kind
  text : String
  deriving DecidableEq, Repr

namespace Token

def Kind.label : Kind → String
  | .paren => "paren"
  | .name => "name"
  | .number => "number"
  | .string => "string"

def Kind.ofLabel? : String → Option Kind
  | "paren" => some .paren
  | "name" => some .name
  | "number" => some .number
  | "string" => some .string
  | _ => none

theorem Kind.ofLabel?_label (k : Kind) : ofLabel? k.label = some k := by
  cases k <;> rfl

def isOpen (t : Token) : Bool := t.kind = .paren && t.text == "("

def isClose (t : Token) : Bool := t.kind = .paren && t.text == ")"

/-- Whether a token can stand for what is called: a name or a number, and not an empty one. -/
def isCallName (t : Token) : Bool := (t.kind = .name || t.kind = .number) && t.text != ""

def toJson (t : Token) : Json :=
  .object [("type", .string t.kind.label), ("value", .string t.text)]

end Token

end CallCompiler
