import CallCompiler.Text.Quoted
import CallCompiler.Token.Basic

/-!
Why a compilation fails. A fault keeps what is at fault and where it stands; its wording is given once,
by `Fault.message`, and its class by `Fault.label`.
-/
namespace CallCompiler

inductive Fault
  /-- A character that no token starts with. A remark that is not empty replaces the message. -/
  | unrecognized (character : String) (position : Int) (remark : String)
  /-- A string that is never closed, by the position of its quote. -/
  | unterminated (position : Int)
  | unexpected (token : Option Token) (position : Int)
  | unknownNode (tag : String)
  | other (description : String)
  deriving DecidableEq, Repr

namespace Fault

def message : Fault → String
  | .unrecognized character position remark =>
    if remark = "" then
      "Unrecognized character " ++ Text.quoted character ++ " at position " ++ toString position
    else remark
  | .unterminated position =>
    "Unterminated string literal starting at position " ++ toString position
  | .unexpected none position => "Unexpected end of input at token " ++ toString position
  | .unexpected (some t) position =>
    "Unexpected token " ++ t.kind.label ++ " (" ++ Text.quoted t.text ++ ") at token " ++
      toString position
  | .unknownNode tag => "No rule defined for node type '" ++ tag ++ "'"
  | .other description => description

def label : Fault → String
  | .unrecognized .. => "LexError"
  | .unterminated .. => "UnterminatedStringError"
  | .unexpected .. => "UnexpectedTokenError"
  | .unknownNode .. => "UnknownNodeTypeError"
  | .other .. => "CompileError"

def report (f : Fault) : String := f.label ++ ": " ++ f.message

def isLexical : Fault → Bool
  | .unrecognized .. | .unterminated .. => true
  | _ => false

end Fault

end CallCompiler
