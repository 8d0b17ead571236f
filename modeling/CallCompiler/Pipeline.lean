import CallCompiler.Lowering
import CallCompiler.Source.Parser
import CallCompiler.Target.Render
import CallCompiler.Token.Lexer

/-!
The whole way from a program text to its rendering.
-/
namespace CallCompiler

def compile (source : String) : Except Fault String := do
  let tokens ← Token.lex source
  let tree ← Source.parse tokens
  let target ← tree.lower
  Target.render target

end CallCompiler
