import CallCompiler.Proofs.Parsing

/-!
How far a list of tokens can still become a program. The tokens that the parser takes can always be
completed, by closing the calls that are open, so the token that it refuses is the first one that no program
goes on with.
-/
namespace CallCompiler.Source
open Token

def Accepts (ts : List Token) : Prop := ∃ tree, parse ts = .ok tree

def Viable (ts : List Token) : Prop := ∃ more, Accepts (ts ++ more)

namespace Progress

theorem length_frames_push (s : Progress) (node : Node) :
    (s.push node).frames.length = s.frames.length := by
  obtain ⟨frames, done, naming⟩ := s
  cases frames <;> rfl

theorem run?_closeParens {s : Progress} (hs : s.naming = false) :
    ∃ last, s.run? (List.replicate s.frames.length closeParen) = some last ∧
      last.atRest = true := by
  induction hn : s.frames.length generalizing s with
  | zero =>
    have hf : s.frames = [] := List.length_eq_zero_iff.mp hn
    exact ⟨s, rfl, by simp [atRest, hf, hs]⟩
  | succ n ih =>
    obtain ⟨frames, done, naming⟩ := s
    obtain rfl : naming = false := hs
    cases frames with
    | nil => simp at hn
    | cons frame frames =>
      have hclose : (⟨frame :: frames, done, false⟩ : Progress).step? closeParen =
          some (push ⟨frames, done, false⟩ (.call frame.name frame.params.reverse)) :=
        step?_close rfl
      have hlen : frames.length = n := by simpa using hn
      rw [List.replicate_succ, run?_cons hclose]
      exact ih (push_naming _ _) ((length_frames_push _ _).trans hlen)

theorem exists_run?_atRest (s : Progress) :
    ∃ more last, s.run? more = some last ∧ last.atRest = true := by
  cases hs : s.naming with
  | false =>
    obtain ⟨last, hrun, hrest⟩ := run?_closeParens hs
    exact ⟨_, last, hrun, hrest⟩
  | true =>
    -- a call that has just been opened needs a name first, and any name will do
    have hname : s.step? ⟨.name, "f"⟩ = some ⟨⟨"f", []⟩ :: s.frames, s.done, false⟩ := by
      simp [step?, hs, isCallName]
    obtain ⟨last, hrun, hrest⟩ :=
      run?_closeParens (s := ⟨⟨"f", []⟩ :: s.frames, s.done, false⟩) rfl
    exact ⟨⟨.name, "f"⟩ :: _, last, (run?_cons hname _).trans hrun, hrest⟩

end Progress

open Progress

theorem readProgram_append {s last : Progress} {ts : List Token} (h : s.run? ts = some last)
    (us : List Token) : readProgram s (ts ++ us) = readProgram last us := by
  induction ts generalizing s with
  | nil =>
    obtain rfl : s = last := Option.some.inj h
    rfl
  | cons t ts ih =>
    rw [run?] at h
    obtain ⟨next, hstep, hrest⟩ := Option.bind_eq_some_iff.mp h
    rw [List.cons_append, readProgram, hstep]
    exact ih hrest

theorem viable_of_run? {ts : List Token} {s : Progress} (h : start.run? ts = some s) :
    Viable ts := by
  obtain ⟨more, last, hrun, hrest⟩ := s.exists_run?_atRest
  have hall : start.run? (ts ++ more) = some last := by
    rw [run?_append, h, Option.bind_some, hrun]
  have hread : readProgram .start (ts ++ more) = .done (.program last.done.reverse) [] :=
    readProgram_eq_done_iff.mpr ⟨rfl, last, hall, hrest, rfl⟩
  exact ⟨more, _, parse_eq_ok_iff.mpr ⟨[], hread⟩⟩

/-- Where reading gets stuck: at the end with a call still open, or at a token that cannot be taken. -/
theorem readProgram_stuck_cases {s : Progress} {ts rest : List Token} {token : Option Token}
    (h : readProgram s ts = .stuck token rest) :
    ∃ before last, s.run? before = some last ∧
      (token = none ∧ rest = [] ∧ ts = before ∧ last.atRest = false ∨
        ∃ t, token = some t ∧ ts = before ++ t :: rest ∧ last.step? t = none) := by
  induction ts generalizing s with
  | nil =>
    rw [readProgram] at h
    split at h
    · cases h
    · next hs =>
      cases h
      exact ⟨[], s, rfl, .inl ⟨rfl, rfl, rfl, Bool.not_eq_true _ ▸ hs⟩⟩
  | cons t ts ih =>
    cases hstep : s.step? t with
    | none =>
      obtain ⟨rfl, rfl⟩ : some t = token ∧ ts = rest := by simpa [readProgram, hstep] using h
      exact ⟨[], s, rfl, .inr ⟨t, rfl, rfl, hstep⟩⟩
    | some next =>
      have hnext : readProgram next ts = .stuck token rest := by
        simpa [readProgram, hstep] using h
      obtain ⟨before, last, hrun, hcases⟩ := ih hnext
      refine ⟨t :: before, last, (run?_cons hstep before).trans hrun, ?_⟩
      obtain ⟨ht, hr, rfl, hlast⟩ | ⟨u, hu, rfl, hlast⟩ := hcases
      · exact .inl ⟨ht, hr, rfl, hlast⟩
      · exact .inr ⟨u, hu, rfl, hlast⟩

theorem faultIndex_before (before : List Token) (t : Token) (rest : List Token) :
    faultIndex (before ++ t :: rest).length (some t) rest = before.length := by
  simp only [faultIndex, List.length_append, List.length_cons, Option.isSome_some, if_true]
  omega

theorem parse_error_cases {ts : List Token} {f : Fault} (h : parse ts = .error f) :
    ∃ before last, start.run? before = some last ∧
      (ts = before ∧ f = .unexpected none before.length ∨
        ∃ t rest, ts = before ++ t :: rest ∧ last.step? t = none ∧
          f = .unexpected (some t) before.length) := by
  obtain ⟨token, rest, hread, rfl⟩ := parse_eq_error_iff.mp h
  obtain ⟨before, last, hrun, hcases⟩ := readProgram_stuck_cases hread
  refine ⟨before, last, hrun, ?_⟩
  obtain ⟨rfl, rfl, rfl, -⟩ | ⟨t, rfl, rfl, hstep⟩ := hcases
  · exact .inl ⟨rfl, by simp [faultIndex]⟩
  · exact .inr ⟨t, rest, rfl, hstep, by rw [faultIndex_before]⟩

theorem parse_of_step?_eq_none {before : List Token} {last : Progress}
    (hrun : start.run? before = some last) {t : Token} (hstep : last.step? t = none)
    (rest : List Token) :
    parse (before ++ t :: rest) = .error (.unexpected (some t) before.length) := by
  have hread : readProgram .start (before ++ t :: rest) = .stuck (some t) rest := by
    rw [readProgram_append hrun, readProgram, hstep]
  exact parse_eq_error_iff.mpr ⟨_, rest, hread, by rw [faultIndex_before]⟩

/-- The tokens before a position can become a program. With the token there they no longer can; at the end
they only are none yet. -/
structure HopelessAt (ts : List Token) (token : Option Token) (k : Nat) : Prop where
  le_length : k ≤ ts.length
  none_iff : token = none ↔ k = ts.length
  viable : Viable (ts.take k)
  found : ts[k]? = token
  not_viable : token ≠ none → ¬Viable (ts.take (k+1))
  same_fault : token ≠ none →
    ∀ us, ts.take (k+1) <+: us → parse us = .error (.unexpected token k)
  not_accepts : token = none → ¬Accepts ts

theorem hopelessAt_end {ts : List Token} {s : Progress} (hrun : start.run? ts = some s)
    {f : Fault} (h : parse ts = .error f) : HopelessAt ts none ts.length where
  le_length := Nat.le_refl _
  none_iff := ⟨fun _ => rfl, fun _ => rfl⟩
  viable := by
    rw [List.take_length]
    exact viable_of_run? hrun
  found := by simp
  not_viable := fun hne => absurd rfl hne
  same_fault := fun hne => absurd rfl hne
  not_accepts := by
    rintro - ⟨tree, hok⟩
    rw [hok] at h
    cases h

theorem hopelessAt_token {before : List Token} {s : Progress} (hrun : start.run? before = some s)
    {t : Token} (hstep : s.step? t = none) (rest : List Token) :
    HopelessAt (before ++ t :: rest) (some t) before.length := by
  have htake : (before ++ t :: rest).take (before.length + 1) = before ++ [t] := by
    rw [List.take_length_add_append]
    rfl
  have hfault : ∀ us, before ++ [t] <+: us →
      parse us = .error (.unexpected (some t) before.length) := by
    rintro us ⟨more, rfl⟩
    rw [List.append_assoc]
    exact parse_of_step?_eq_none hrun hstep more
  refine ⟨by simp, by simp, ?_, by simp, ?_, ?_, by simp⟩
  · rw [List.take_left]
    exact viable_of_run? hrun
  · rintro - ⟨more, tree, hok⟩
    rw [htake, hfault _ (List.prefix_append _ _)] at hok
    cases hok
  · intro _
    rwa [htake]

/-- The parser fails at the first token that leaves no way to a program, or at the end of tokens that make
none. What follows that token does not matter. -/
theorem parse_fails_where_hopeless {tokens : List Token} {token : Option Token} {position : Int}
    (h : parse tokens = .error (.unexpected token position)) :
    ∃ k : Nat, position = k ∧ HopelessAt tokens token k := by
  obtain ⟨before, s, hrun, ⟨rfl, hf⟩ | ⟨t, rest, rfl, hstep, hf⟩⟩ := parse_error_cases h
  · obtain ⟨rfl, rfl⟩ := Fault.unexpected.inj hf
    exact ⟨_, rfl, hopelessAt_end hrun h⟩
  · obtain ⟨rfl, rfl⟩ := Fault.unexpected.inj hf
    exact ⟨_, rfl, hopelessAt_token hrun hstep rest⟩

/-- A call whose name is missing, and the same tokens cut off before the token at fault. -/
theorem parse_fails_where_hopeless_unnamed :
    (parse [openParen, ⟨.name, "f"⟩, openParen, openParen, closeParen] =
      .error (.unexpected (some openParen) 3) ∧
      ∃ k : Nat, 3 = (k : Int) ∧
        HopelessAt [openParen, ⟨.name, "f"⟩, openParen, openParen, closeParen] (some openParen) k) ∧
    (parse [openParen, ⟨.name, "f"⟩, openParen] = .error (.unexpected none 3) ∧
      ∃ k : Nat, 3 = (k : Int) ∧ HopelessAt [openParen, ⟨.name, "f"⟩, openParen] none k) := by
  have h : parse [openParen, ⟨.name, "f"⟩, openParen, openParen, closeParen] =
      .error (.unexpected (some openParen) 3) := rfl
  have h' : parse [openParen, ⟨.name, "f"⟩, openParen] = .error (.unexpected none 3) := rfl
  exact ⟨⟨h, parse_fails_where_hopeless h⟩, h', parse_fails_where_hopeless h'⟩

end CallCompiler.Source
