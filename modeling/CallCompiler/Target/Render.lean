import CallCompiler.Fault
import CallCompiler.Target.Node
import CallCompiler.Text.Join

/-!
Target trees as text. The arguments of a call are rendered before its callee, so that of two nodes
without rules the one among the arguments is named.
-/
namespace CallCompiler.Target

mutual

def render : Node → Except Fault String
  | .program body => do return Text.join "\n" (← renderAll body)
  | .statement expression => do return (← render expression) ++ ";"
  | .call callee arguments => do
    let arguments ← renderAll arguments
    let callee ← render callee
    return callee ++ "(" ++ Text.join ", " arguments ++ ")"
  | .identifier name => .ok name
  | .number value => .ok value
  | .string value => .ok ("\"" ++ value ++ "\"")
  | .foreign thing => .error (.unknownNode thing.tag)

def renderAll : List Node → Except Fault (List String)
  | [] => .ok []
  | node :: nodes => do
    let s ← render node
    let rest ← renderAll nodes
    return s :: rest

end

end CallCompiler.Target
