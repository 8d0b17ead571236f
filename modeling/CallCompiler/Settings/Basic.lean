/-!
The settings of a run.
-/
namespace CallCompiler

inductive Settings.Format
  | code
  | tokens
  | ast
  | targetAst
  deriving DecidableEq, Repr

structure Settings where
  format : Settings.Format
  trace : Bool
  indent : Nat
  deriving DecidableEq, Repr

namespace Settings

def Format.label : Format → String
  | .code => "code"
  | .tokens => "tokens"
  | .ast => "ast"
  | .targetAst => "target_ast"

def Format.all : List Format := [.code, .tokens, .ast, .targetAst]

def Format.ofLabel? (s : String) : Option Format := all.find? fun f => f.label == s

def standard : Settings := ⟨.code, false, 2⟩

end Settings

end CallCompiler
