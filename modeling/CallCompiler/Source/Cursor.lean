import CallCompiler.Source.Parser

/-!
A cursor on a list of tokens, for reading it in steps. After a fault the cursor stands where the fault
left it, and reading can go on.
-/
namespace CallCompiler.Source

structure Cursor where
  tokens : List Token
  position : Nat

namespace Cursor

def ofTokens (tokens : List Token) : Cursor := ⟨tokens, 0⟩

def rest (c : Cursor) : List Token := c.tokens.drop c.position

def advance (c : Cursor) (rest : List Token) : Cursor :=
  { c with position := c.tokens.length - rest.length }

def peek (c : Cursor) : Option Token := c.rest.head?

def follow {α : Type} (c : Cursor) (r : Reading α) : Except Fault α × Cursor :=
  (r.toExcept c.tokens.length, c.advance r.rest)

def consume (c : Cursor) : Except Fault Token × Cursor :=
  match c.rest with
  | [] => (.error (.unexpected none c.position), c)
  | t :: rest => (.ok t, c.advance rest)

def expression (c : Cursor) : Except Fault Node × Cursor :=
  c.follow (readElement .start c.rest)

/-- Reads a call whose opening parenthesis stands just before the cursor. -/
def call (c : Cursor) : Except Fault Node × Cursor :=
  c.follow (readElement .opened c.rest)

def parse (c : Cursor) : Except Fault Node × Cursor :=
  c.follow (readProgram .start c.rest)

end Cursor

end CallCompiler.Source
