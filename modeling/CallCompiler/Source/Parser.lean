import CallCompiler.Fault
import CallCompiler.Source.Node

/-!
Source trees from tokens. The parser takes one token at a time and keeps the calls that are still open;
a token that it cannot take is where the input goes wrong.
-/
namespace CallCompiler.Source

/-- A call that is not closed yet. Its parameters are kept in reverse. -/
structure Frame where
  name : String
  params : List Node

/-- Where the parser stands: the open calls, the innermost first, the elements outside of every call in
reverse, and whether a call has just been opened and its name comes next. -/
structure Progress where
  frames : List Frame
  done : List Node
  naming : Bool

namespace Progress

def start : Progress := ⟨[], [], false⟩

def opened : Progress := ⟨[], [], true⟩

def push (s : Progress) (node : Node) : Progress :=
  match s.frames with
  | [] => { s with done := node :: s.done }
  | frame :: frames => { s with frames := { frame with params := node :: frame.params } :: frames }

def close? (s : Progress) : Option Progress :=
  match s.frames with
  | [] => none
  | frame :: frames => some ({ s with frames }.push (.call frame.name frame.params.reverse))

def step? (s : Progress) (t : Token) : Option Progress :=
  if s.naming then
    if t.isCallName then some { s with frames := ⟨t.text, []⟩ :: s.frames, naming := false }
    else none
  else if t.kind = .number then some (s.push (.number t.text))
  else if t.kind = .string then some (s.push (.string t.text))
  else if t.isOpen then some { s with naming := true }
  else if t.isClose then s.close?
  else none

def atRest (s : Progress) : Bool := s.frames.isEmpty && !s.naming

def element? (s : Progress) : Option Node :=
  if s.atRest then s.done.head? else none

end Progress

/-- What reading some tokens comes to: a result, or the token at fault (none at the end), each with the
tokens that are left. -/
inductive Reading (α : Type)
  | done (result : α) (rest : List Token)
  | stuck (token : Option Token) (rest : List Token)

def Reading.rest {α : Type} : Reading α → List Token
  | .done _ rest => rest
  | .stuck _ rest => rest

def readElement (s : Progress) : List Token → Reading Node
  | [] => .stuck none []
  | t :: rest =>
    match s.step? t with
    | none => .stuck (some t) rest
    | some next =>
      match next.element? with
      | some node => .done node rest
      | none => readElement next rest

def readProgram (s : Progress) : List Token → Reading Node
  | [] => if s.atRest then .done (.program s.done.reverse) [] else .stuck none []
  | t :: rest =>
    match s.step? t with
    | none => .stuck (some t) rest
    | some next => readProgram next rest

/-- How many of `total` tokens stand before the token at fault. -/
def faultIndex (total : Nat) (token : Option Token) (rest : List Token) : Nat :=
  total - rest.length - if token.isSome then 1 else 0

def Reading.toExcept {α : Type} (total : Nat) : Reading α → Except Fault α
  | .done result _ => .ok result
  | .stuck token rest => .error (.unexpected token (faultIndex total token rest))

def parse (tokens : List Token) : Except Fault Node :=
  (readProgram .start tokens).toExcept tokens.length

end CallCompiler.Source
