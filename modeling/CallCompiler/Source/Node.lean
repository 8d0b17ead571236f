import CallCompiler.Foreign

/-!
Source trees: calls with their parameters, as they are written in parentheses.
-/
namespace CallCompiler.Source

inductive Tag
  | program
  | call
  | number
  | string
  deriving DecidableEq, Repr

def Tag.label : Tag → String
  | .program => "Program"
  | .call => "CallExpression"
  | .number => "NumberLiteral"
  | .string => "StringLiteral"

inductive Node
  | program (body : List Node)
  | call (name : String) (params : List Node)
  | number (value : String)
  | string (value : String)
  | foreign (thing : Foreign)
  deriving Inhabited

namespace Node

def tag? : Node → Option Tag
  | .program _ => some .program
  | .call .. => some .call
  | .number _ => some .number
  | .string _ => some .string
  | .foreign _ => none

def label : Node → String
  | .foreign thing => thing.tag
  | .program _ => Tag.program.label
  | .call .. => Tag.call.label
  | .number _ => Tag.number.label
  | .string _ => Tag.string.label

def children : Node → List Node
  | .program body => body
  | .call _ params => params
  | _ => []

def isCall : Node → Bool
  | .call .. => true
  | _ => false

mutual

def toJson : Node → Json
  | .program body => .object [("type", .string Tag.program.label), ("body", .array (toJsons body))]
  | .call name params =>
    .object [("type", .string Tag.call.label), ("name", .string name),
      ("params", .array (toJsons params))]
  | .number value => .object [("type", .string Tag.number.label), ("value", .string value)]
  | .string value => .object [("type", .string Tag.string.label), ("value", .string value)]
  | .foreign thing => thing.form

def toJsons : List Node → List Json
  | [] => []
  | node :: nodes => toJson node :: toJsons nodes

end

end Node

end CallCompiler.Source
