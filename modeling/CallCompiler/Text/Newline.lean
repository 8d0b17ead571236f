/-!
Line ends. A text that is read from a file or from standard input ends its lines with a line feed alone,
whatever its bytes say.
-/
namespace CallCompiler.Text

/-- Writes a carriage return, with the line feed after it if there is one, as a line feed. -/
def unifyNewlines : List Char → List Char
  | '\r' :: '\n' :: rest => '\n' :: unifyNewlines rest
  | '\r' :: rest => '\n' :: unifyNewlines rest
  | c :: rest => c :: unifyNewlines rest
  | [] => []

/-- Writes a carriage return with a line feed after it as a line feed. -/
def dropReturns : List Char → List Char
  | '\r' :: '\n' :: rest => '\n' :: dropReturns rest
  | c :: rest => c :: dropReturns rest
  | [] => []

theorem unifyNewlines_of_no_return {cs : List Char} (h : '\r' ∉ cs) : unifyNewlines cs = cs := by
  induction cs with
  | nil => rfl
  | cons c rest ih =>
    simp only [List.mem_cons, not_or] at h
    have hc : c ≠ '\r' := fun e => h.1 e.symm
    rw [unifyNewlines]
    · rw [ih h.2]
    · intro r e
      exact absurd e hc
    · exact hc

theorem dropReturns_of_no_return {cs : List Char} (h : '\r' ∉ cs) : dropReturns cs = cs := by
  induction cs with
  | nil => rfl
  | cons c rest ih =>
    simp only [List.mem_cons, not_or] at h
    rw [dropReturns]
    · rw [ih h.2]
    · intro r e
      exact absurd e.symm h.1

end CallCompiler.Text
