import CallCompiler.Foreign

/-!
Target trees: statements and calls with a callee and arguments.
-/
namespace CallCompiler.Target

inductive Node
  | program (body : List Node)
  | statement (expression : Node)
  | call (callee : Node) (arguments : List Node)
  | identifier (name : String)
  | number (value : String)
  | string (value : String)
  | foreign (thing : Foreign)
  deriving Inhabited

namespace Node

def label : Node → String
  | .program _ => "Program"
  | .statement _ => "ExpressionStatement"
  | .call .. => "CallExpression"
  | .identifier _ => "Identifier"
  | .number _ => "NumberLiteral"
  | .string _ => "StringLiteral"
  | .foreign thing => thing.tag

mutual

def toJson : Node → Json
  | .program body => .object [("type", .string "Program"), ("body", .array (toJsons body))]
  | .statement expression =>
    .object [("type", .string "ExpressionStatement"), ("expression", toJson expression)]
  | .call callee arguments =>
    .object [("type", .string "CallExpression"), ("callee", toJson callee),
      ("arguments", .array (toJsons arguments))]
  | .identifier name => .object [("type", .string "Identifier"), ("name", .string name)]
  | .number value => .object [("type", .string "NumberLiteral"), ("value", .string value)]
  | .string value => .object [("type", .string "StringLiteral"), ("value", .string value)]
  | .foreign thing => thing.form

def toJsons : List Node → List Json
  | [] => []
  | node :: nodes => toJson node :: toJsons nodes

end

end Node

end CallCompiler.Target
