import CallCompiler.Fault
import CallCompiler.Text.Blank
import CallCompiler.Text.Digit

/-!
Tokens from text. Runs of digits and runs of letters are as long as they can be, a string reaches to the
next quote, and blanks only separate.
-/
namespace CallCompiler.Token

def isLetter (c : Char) : Bool :=
  (0x41 ≤ c.toNat && c.toNat ≤ 0x5a) || (0x61 ≤ c.toNat && c.toNat ≤ 0x7a)

inductive Role
  | paren
  | blank
  | digit
  | quote
  | letter
  | stray
  deriving DecidableEq, Repr

def role (c : Char) : Role :=
  if c = '(' ∨ c = ')' then .paren
  else if Text.isBlank c then .blank
  else if Text.isDigit c then .digit
  else if c = '"' then .quote
  else if isLetter c then .letter
  else .stray

/-- A run of digits or letters that the text so far ends in, in reverse. -/
inductive Run
  | none
  | digits (text : List Char)
  | letters (text : List Char)
  deriving DecidableEq, Repr

namespace Run

def flush : Run → List Token
  | .none => []
  | .digits text => [⟨.number, String.ofList text.reverse⟩]
  | .letters text => [⟨.name, String.ofList text.reverse⟩]

/-- A digit goes on with a run of digits, and starts a new run after anything else. -/
def digit (c : Char) : Run → List Token × Run
  | .none => ([], .digits [c])
  | .digits text => ([], .digits (c :: text))
  | .letters text => (flush (.letters text), .digits [c])

def letter (c : Char) : Run → List Token × Run
  | .none => ([], .letters [c])
  | .digits text => (flush (.digits text), .letters [c])
  | .letters text => ([], .letters (c :: text))

end Run

inductive Spot
  | outside (run : Run)
  | inside (start : Nat) (text : List Char)
  deriving DecidableEq, Repr

/-- The tokens of a text that stands at a position, after what may go on in it. -/
def lexFrom (position : Nat) : Spot → List Char → Except Fault (List Token)
  | .outside run, [] => .ok run.flush
  | .inside start _, [] => .error (.unterminated start)
  | .inside start text, c :: rest =>
    if c = '"' then
      (⟨.string, String.ofList text.reverse⟩ :: ·) <$> lexFrom (position + 1) (.outside .none) rest
    else lexFrom (position + 1) (.inside start (c :: text)) rest
  | .outside run, c :: rest =>
    match role c with
    | .paren =>
      (run.flush ++ ⟨.paren, String.singleton c⟩ :: ·) <$>
        lexFrom (position + 1) (.outside .none) rest
    | .blank => (run.flush ++ ·) <$> lexFrom (position + 1) (.outside .none) rest
    | .digit => ((run.digit c).1 ++ ·) <$> lexFrom (position + 1) (.outside (run.digit c).2) rest
    | .letter => ((run.letter c).1 ++ ·) <$> lexFrom (position + 1) (.outside (run.letter c).2) rest
    | .quote => (run.flush ++ ·) <$> lexFrom (position + 1) (.inside position []) rest
    | .stray => .error (.unrecognized (String.singleton c) position "")

def lex (source : String) : Except Fault (List Token) :=
  lexFrom 0 (.outside .none) source.toList

end CallCompiler.Token
