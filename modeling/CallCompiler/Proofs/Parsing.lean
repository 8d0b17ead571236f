import CallCompiler.Proofs.Grammar

/-!
The parser against the grammar. What one token can do to the parser is said once, by `step?_cases`; what a
run of tokens does follows by induction, both from the tokens to the stack and back.
-/
namespace CallCompiler.Source
open Token

namespace Progress

theorem push_naming (s : Progress) (node : Node) : (s.push node).naming = s.naming := by
  unfold push
  split <;> rfl

def pushAll (s : Progress) (nodes : List Node) : Progress := nodes.foldl push s

theorem pushAll_done (done : List Node) (naming : Bool) (nodes : List Node) :
    pushAll ⟨[], done, naming⟩ nodes = ⟨[], nodes.reverse ++ done, naming⟩ := by
  induction nodes generalizing done with
  | nil => rfl
  | cons node nodes ih =>
    rw [List.reverse_cons, List.append_assoc]
    exact ih (node :: done)

theorem pushAll_frame (name : String) (params : List Node) (frames : List Frame)
    (done : List Node) (naming : Bool) (nodes : List Node) :
    pushAll ⟨⟨name, params⟩ :: frames, done, naming⟩ nodes =
      ⟨⟨name, nodes.reverse ++ params⟩ :: frames, done, naming⟩ := by
  induction nodes generalizing params with
  | nil => rfl
  | cons node nodes ih =>
    rw [List.reverse_cons, List.append_assoc]
    exact ih (node :: params)

theorem step?_cases {s next : Progress} {t : Token} (h : s.step? t = some next) :
    (s.naming = true ∧ t.CallName ∧ next = ⟨⟨t.text, []⟩ :: s.frames, s.done, false⟩) ∨
    (s.naming = false ∧ ∃ node, Literal t node ∧ next = s.push node) ∨
    (s.naming = false ∧ t = openParen ∧ next = ⟨s.frames, s.done, true⟩) ∨
    (s.naming = false ∧ t = closeParen ∧ ∃ name params frames,
      s.frames = ⟨name, params⟩ :: frames ∧
      next = (⟨frames, s.done, false⟩ : Progress).push (.call name params.reverse)) := by
  obtain ⟨frames, done, naming⟩ := s
  obtain ⟨kind, text⟩ := t
  unfold step? at h
  cases naming with
  | true =>
    simp only [if_true, Option.ite_none_right_eq_some, Option.some.injEq] at h
    exact .inl ⟨rfl, isCallName_iff.mp h.1, h.2.symm⟩
  | false =>
    simp only [Bool.false_eq_true, if_false] at h
    split at h
    · next hk =>
      subst hk
      exact .inr (.inl ⟨rfl, _, .number text, (Option.some.inj h).symm⟩)
    split at h
    · next hk =>
      subst hk
      exact .inr (.inl ⟨rfl, _, .string text, (Option.some.inj h).symm⟩)
    split at h
    · next ho => exact .inr (.inr (.inl ⟨rfl, isOpen_iff.mp ho, (Option.some.inj h).symm⟩))
    split at h
    · next hc =>
      refine .inr (.inr (.inr ⟨rfl, isClose_iff.mp hc, ?_⟩))
      cases frames with
      | nil => simp [close?] at h
      | cons frame frames => exact ⟨frame.name, frame.params, frames, rfl, (Option.some.inj h).symm⟩
    · cases h

section Steps

variable {s : Progress} (hs : s.naming = false)
include hs

theorem step?_literal {t : Token} {node : Node} (h : Literal t node) :
    s.step? t = some (s.push node) := by
  cases h <;> simp [step?, hs]

theorem step?_open : s.step? openParen = some { s with naming := true } := by
  simp [step?, hs, openParen, isOpen]

theorem step?_close : s.step? closeParen = s.close? := by
  simp [step?, hs, closeParen, isOpen, isClose]

end Steps

theorem step?_name (frames : List Frame) (done : List Node) {name : Token} (h : name.CallName) :
    (⟨frames, done, true⟩ : Progress).step? name = some ⟨⟨name.text, []⟩ :: frames, done, false⟩ := by
  simp [step?, isCallName_iff.mpr h]

def run? (s : Progress) : List Token → Option Progress
  | [] => some s
  | t :: ts => (s.step? t).bind (run? · ts)

theorem run?_cons {s next : Progress} {t : Token} (h : s.step? t = some next) (ts : List Token) :
    s.run? (t :: ts) = next.run? ts := by
  rw [run?, h, Option.bind_some]

theorem run?_append (s : Progress) (ts us : List Token) :
    s.run? (ts ++ us) = (s.run? ts).bind (run? · us) := by
  induction ts generalizing s with
  | nil => rfl
  | cons t ts ih =>
    rw [List.cons_append, run?, run?]
    cases s.step? t with
    | none => rfl
    | some next => exact ih next

theorem run?_expressions {ts : List Token} {nodes : List Node} (h : Expressions ts nodes)
    {s : Progress} (hs : s.naming = false) : s.run? ts = some (s.pushAll nodes) := by
  induction h using Expressions.sequence generalizing s with
  | nil => rfl
  | literal t node ts nodes hl _ ih =>
    rw [run?_cons (step?_literal hs hl), ih ((push_naming s _).trans hs)]
    rfl
  | call name us params ts nodes hn _ _ ihu iht =>
    -- the parameters go on the frame that the name opens, and closing it adds the call as one element
    obtain ⟨frames, done, naming⟩ := s
    obtain rfl : naming = false := hs
    have hparams : (⟨⟨name.text, []⟩ :: frames, done, false⟩ : Progress).run? us =
        some ⟨⟨name.text, params.reverse⟩ :: frames, done, false⟩ := by
      rw [ihu rfl, pushAll_frame, List.append_nil]
    have hclose : (⟨⟨name.text, params.reverse⟩ :: frames, done, false⟩ : Progress).step?
        closeParen = some (push ⟨frames, done, false⟩ (.call name.text params)) := by
      simp [step?_close, close?]
    rw [run?_cons (step?_open rfl), run?_cons (step?_name frames done hn), run?_append, hparams,
      Option.bind_some, run?_cons hclose, iht (push_naming _ _)]
    rfl

/-- What the stack was read from: the elements outside of every call, then for each open call its opening
parenthesis, its name and the parameters so far. -/
inductive Opened : List Frame → List Node → List Token → Prop
  | outside {done : List Node} {ts : List Token} : Expressions ts done.reverse → Opened [] done ts
  | inside {frames : List Frame} {done params : List Node} {ts us : List Token} {name : Token} :
      Opened frames done ts → name.CallName → Expressions us params.reverse →
      Opened (⟨name.text, params⟩ :: frames) done (ts ++ openParen :: name :: us)

def Reached (s : Progress) (ts : List Token) : Prop :=
  if s.naming = true then ∃ us, ts = us ++ [openParen] ∧ Opened s.frames s.done us
  else Opened s.frames s.done ts

theorem Opened.push {s : Progress} {ts us : List Token} {node : Node}
    (h : Opened s.frames s.done ts) (he : Expression us node) :
    Opened (s.push node).frames (s.push node).done (ts ++ us) := by
  obtain ⟨frames, done, naming⟩ := s
  cases h with
  | outside hd =>
    have hn := hd.concat he
    rw [← List.reverse_cons] at hn
    exact .outside hn
  | inside ho hn hp =>
    have hq := hp.concat he
    rw [← List.reverse_cons] at hq
    have hi := Opened.inside ho hn hq
    simpa [Progress.push] using hi

theorem reached_start : Reached .start [] := Opened.outside .nil

theorem Reached.step {s next : Progress} {ts : List Token} {t : Token} (h : Reached s ts)
    (hstep : s.step? t = some next) : Reached next (ts ++ [t]) := by
  obtain ⟨hn, hc, rfl⟩ | ⟨hn, node, hl, rfl⟩ | ⟨hn, rfl, rfl⟩ |
    ⟨hn, rfl, name, params, frames, hf, rfl⟩ := step?_cases hstep
  · rw [Reached, if_pos hn] at h
    obtain ⟨us, rfl, ho⟩ := h
    have hi : Opened (⟨t.text, []⟩ :: s.frames) s.done (us ++ [openParen, t]) := .inside ho hc .nil
    simpa [Reached] using hi
  · have ho : Opened s.frames s.done ts := by simpa [Reached, hn] using h
    simpa [Reached, push_naming, hn] using ho.push hl.expression
  · have ho : Opened s.frames s.done ts := by simpa [Reached, hn] using h
    exact ⟨ts, rfl, ho⟩
  · have ho : Opened s.frames s.done ts := by simpa [Reached, hn] using h
    rw [hf] at ho
    -- the innermost open call is complete, and joins what stands around it
    cases ho with
    | inside ho hc hp =>
      have hs : Opened (⟨frames, s.done, false⟩ : Progress).frames s.done _ := ho
      simpa [Reached, push_naming] using hs.push (.call hc hp)

theorem Reached.run {s last : Progress} {ts us : List Token} (h : Reached s ts)
    (hrun : s.run? us = some last) : Reached last (ts ++ us) := by
  induction us generalizing s ts with
  | nil =>
    obtain rfl : s = last := Option.some.inj hrun
    simpa using h
  | cons t us ih =>
    rw [run?] at hrun
    obtain ⟨next, hstep, hrest⟩ := Option.bind_eq_some_iff.mp hrun
    have hr := ih (h.step hstep) hrest
    simpa using hr

theorem Reached.expressions {s : Progress} {ts : List Token} (h : Reached s ts)
    (hs : s.atRest = true) : Expressions ts s.done.reverse := by
  obtain ⟨frames, done, naming⟩ := s
  obtain ⟨hf, hn⟩ : frames = [] ∧ naming = false := by simpa [atRest] using hs
  subst hf hn
  cases (h : Opened [] done ts) with
  | outside hd => exact hd

end Progress

open Progress

theorem readProgram_eq_done_iff {s : Progress} {ts rest : List Token} {tree : Node} :
    readProgram s ts = .done tree rest ↔
      rest = [] ∧ ∃ last, s.run? ts = some last ∧ last.atRest = true ∧
        tree = .program last.done.reverse := by
  induction ts generalizing s with
  | nil =>
    constructor
    · intro h
      rw [readProgram] at h
      split at h
      · next hs =>
        cases h
        exact ⟨rfl, s, rfl, hs, rfl⟩
      · cases h
    · rintro ⟨rfl, last, hrun, hs, rfl⟩
      obtain rfl : s = last := Option.some.inj hrun
      rw [readProgram, if_pos hs]
  | cons t ts ih =>
    cases ht : s.step? t with
    | none => simp [readProgram, run?, ht]
    | some next => simpa [readProgram, run?, ht] using ih

theorem parse_eq_ok_iff {ts : List Token} {tree : Node} :
    parse ts = .ok tree ↔ ∃ rest, readProgram .start ts = .done tree rest := by
  unfold parse
  cases readProgram .start ts <;> simp [Reading.toExcept]

theorem parse_eq_error_iff {ts : List Token} {f : Fault} :
    parse ts = .error f ↔ ∃ token rest, readProgram .start ts = .stuck token rest ∧
      f = .unexpected token (faultIndex ts.length token rest) := by
  unfold parse
  cases readProgram .start ts with
  | done tree rest => simp [Reading.toExcept]
  | stuck token rest =>
    constructor
    · intro h
      exact ⟨token, rest, rfl, (Except.error.inj h).symm⟩
    · rintro ⟨_, _, he, rfl⟩
      cases he
      rfl

theorem expressions_of_parse {ts : List Token} {tree : Node} (h : parse ts = .ok tree) :
    ∃ body, tree = .program body ∧ Expressions ts body := by
  obtain ⟨rest, hread⟩ := parse_eq_ok_iff.mp h
  obtain ⟨-, last, hrun, hrest, rfl⟩ := readProgram_eq_done_iff.mp hread
  exact ⟨_, rfl, (reached_start.run hrun).expressions hrest⟩

theorem parse_of_expressions {ts : List Token} {body : List Node} (h : Expressions ts body) :
    parse ts = .ok (.program body) := by
  have hrun : start.run? ts = some ⟨[], body.reverse, false⟩ := by
    rw [run?_expressions h rfl, start, pushAll_done, List.append_nil]
  refine parse_eq_ok_iff.mpr ⟨[], readProgram_eq_done_iff.mpr ⟨rfl, _, hrun, rfl, ?_⟩⟩
  rw [List.reverse_reverse]

theorem parse_error_unexpected {ts : List Token} {f : Fault} (h : parse ts = .error f) :
    ∃ token position, f = .unexpected token position := by
  obtain ⟨token, rest, -, hf⟩ := parse_eq_error_iff.mp h
  exact ⟨token, _, hf⟩

/-- The parser accepts exactly the sequences of expressions, with the one list of trees that each has, and
any other list of tokens ends in a token, or the end of the tokens, that cannot stand where it stands. -/
theorem parse_exactly_grammar (tokens : List Token) :
    (∀ body, parse tokens = .ok (.program body) ↔ Expressions tokens body) ∧
    (∀ body other, Expressions tokens body → Expressions tokens other → body = other) ∧
    ((∃ body, Expressions tokens body ∧ parse tokens = .ok (.program body)) ∨
      (∀ body, ¬Expressions tokens body) ∧
        ∃ token position, parse tokens = .error (.unexpected token position)) := by
  have hiff : ∀ body, parse tokens = .ok (.program body) ↔ Expressions tokens body := by
    intro body
    refine ⟨fun h => ?_, parse_of_expressions⟩
    obtain ⟨other, he, hx⟩ := expressions_of_parse h
    obtain rfl := Node.program.inj he
    exact hx
  refine ⟨hiff, ?_, ?_⟩
  · intro body other hb ho
    have he := (parse_of_expressions hb).symm.trans (parse_of_expressions ho)
    exact Node.program.inj (Except.ok.inj he)
  · cases hp : parse tokens with
    | ok tree =>
      obtain ⟨body, rfl, hb⟩ := expressions_of_parse hp
      exact .inl ⟨body, hb, rfl⟩
    | error f =>
      refine .inr ⟨fun body hb => ?_, ?_⟩
      · rw [parse_of_expressions hb] at hp
        cases hp
      · obtain ⟨token, position, rfl⟩ := parse_error_unexpected hp
        exact ⟨token, position, rfl⟩

end CallCompiler.Source
