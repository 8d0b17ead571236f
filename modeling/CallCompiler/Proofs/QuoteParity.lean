import CallCompiler.Proofs.Scanning
import Mathlib.Algebra.Ring.Parity

/-!
Where reading characters fails, said without reading them in order. A position with an even number of
quotes before it is outside of every string; the first such position with a character that nothing can
begin with, or with a quote that is the last one, is where the lexer stops.
-/
namespace CallCompiler.Token

def Exposed (cs : List Char) (p : Nat) : Prop := Even ((cs.take p).count '"')

instance (cs : List Char) (p : Nat) : Decidable (Exposed cs p) :=
  inferInstanceAs (Decidable (Even _))

def Recognized (c : Char) : Prop :=
  (c = '(' ∨ c = ')') ∨ Text.isBlank c = true ∨ Text.isDigit c = true ∨ isLetter c = true ∨ c = '"'

/-- An exposed character that is not recognized, or an exposed quote that no other quote follows. -/
def Bad (cs : List Char) (p : Nat) : Prop :=
  ∃ c, cs[p]? = some c ∧ Exposed cs p ∧ (¬Recognized c ∨ c = '"' ∧ '"' ∉ cs.drop (p+1))

def FirstBad (cs : List Char) (p : Nat) : Prop := Bad cs p ∧ ∀ q < p, ¬Bad cs q

def faultAt (c : Char) (p : Nat) : Fault :=
  if c = '"' then .unterminated p else .unrecognized (String.singleton c) p ""

theorem recognized_iff {c : Char} : Recognized c ↔ role c ≠ .stray := by
  rw [Recognized, ← role_eq_paren_iff, ← role_eq_blank_iff, ← role_eq_digit_iff,
    ← role_eq_letter_iff, ← role_eq_quote_iff]
  cases role c <;> simp

theorem FirstBad.unique {cs : List Char} {p q : Nat} (hp : FirstBad cs p) (hq : FirstBad cs q) :
    p = q := by
  obtain h | h | h := Nat.lt_trichotomy p q
  · exact absurd hp.1 (hq.2 p h)
  · exact h
  · exact absurd hq.1 (hp.2 q h)

/-- A piece of text that closes every string it opens, and has no bad position whatever follows. -/
structure Closed (chunk : List Char) : Prop where
  even : Even (chunk.count '"')
  not_bad : ∀ rest p, p < chunk.length → ¬Bad (chunk ++ rest) p

theorem exposed_append {chunk : List Char} (h : Even (chunk.count '"')) (rest : List Char)
    (q : Nat) : Exposed (chunk ++ rest) (chunk.length + q) ↔ Exposed rest q := by
  rw [Exposed, List.take_length_add_append, List.count_append, Nat.even_add]
  simp [h, Exposed]

theorem Closed.bad_append {chunk : List Char} (h : Closed chunk) (rest : List Char) (q : Nat) :
    Bad (chunk ++ rest) (chunk.length + q) ↔ Bad rest q := by
  have hget : (chunk ++ rest)[chunk.length + q]? = rest[q]? := by
    rw [List.getElem?_append_right (Nat.le_add_right _ _), Nat.add_sub_cancel_left]
  have hdrop : (chunk ++ rest).drop (chunk.length + q + 1) = rest.drop (q+1) := by
    rw [Nat.add_assoc, List.drop_length_add_append]
  simp only [Bad, hget, hdrop, exposed_append h.even]

theorem Closed.exists_of_bad {chunk : List Char} (h : Closed chunk) {rest : List Char} {p : Nat}
    (hb : Bad (chunk ++ rest) p) : ∃ q, p = chunk.length + q ∧ Bad rest q := by
  have hle : chunk.length ≤ p := by
    by_contra hlt
    exact h.not_bad rest p (Nat.not_le.mp hlt) hb
  obtain ⟨q, rfl⟩ := Nat.exists_eq_add_of_le hle
  exact ⟨q, rfl, (h.bad_append rest q).mp hb⟩

theorem Closed.firstBad_append {chunk : List Char} (h : Closed chunk) {rest : List Char} {q : Nat}
    (hq : FirstBad rest q) : FirstBad (chunk ++ rest) (chunk.length + q) := by
  refine ⟨(h.bad_append rest q).mpr hq.1, ?_⟩
  intro p hp hb
  obtain ⟨r, rfl, hr⟩ := h.exists_of_bad hb
  exact hq.2 r (Nat.lt_of_add_lt_add_left hp) hr

theorem closed_of_role {chunk : List Char}
    (h : ∀ c ∈ chunk, role c ≠ .stray ∧ role c ≠ .quote) : Closed chunk := by
  have hq : '"' ∉ chunk := fun hm => (h _ hm).2 (by decide)
  refine ⟨by simp [List.count_eq_zero_of_not_mem hq], ?_⟩
  intro rest p hp hbad
  obtain ⟨c, hc, -, hbad⟩ := hbad
  have hm : c ∈ chunk := by
    rw [List.getElem?_append_left hp] at hc
    exact List.mem_of_getElem? hc
  cases hbad with
  | inl hr => exact hr (recognized_iff.mpr (h c hm).1)
  | inr hl => exact hq (hl.1 ▸ hm)

theorem not_exposed_inside {body : List Char} (h : '"' ∉ body) (rest : List Char) {p : Nat}
    (hp : p ≤ body.length) : ¬Exposed ('"' :: (body ++ rest)) (p+1) := by
  have htake : ('"' :: (body ++ rest)).take (p+1) = '"' :: body.take p := by
    rw [List.take_succ_cons, List.take_append_of_le_length hp]
  have hcount : (body.take p).count '"' = 0 :=
    List.count_eq_zero_of_not_mem fun hm => h (List.mem_of_mem_take hm)
  rw [Exposed, htake, List.count_cons_self, hcount]
  decide

theorem closed_string {body : List Char} (h : '"' ∉ body) : Closed ('"' :: (body ++ ['"'])) := by
  have hb : body.count '"' = 0 := List.count_eq_zero_of_not_mem h
  refine ⟨by simp [hb, List.count_append], ?_⟩
  intro rest p hp hbad
  obtain ⟨c, hc, he, hbad⟩ := hbad
  rw [List.cons_append, List.append_assoc] at hc he hbad
  -- the opening quote is exposed but has the closing one after it; nothing else is exposed
  cases p with
  | zero =>
    obtain rfl : '"' = c := by simpa using hc
    cases hbad with
    | inl hr => exact hr (.inr (.inr (.inr (.inr rfl))))
    | inr hq => exact hq.2 (by simp)
  | succ p =>
    have hp' : p ≤ body.length := by
      simp only [List.length_cons, List.length_append, List.length_nil] at hp
      omega
    exact not_exposed_inside h _ hp' he

def Verdict (cs : List Char) (n : Nat) (r : Except Fault (List Token)) : Prop :=
  ((∀ p, ¬Bad cs p) ∧ ∃ ts, r = .ok ts) ∨
    ∃ p c, FirstBad cs p ∧ cs[p]? = some c ∧ r = .error (faultAt c (n+p))

theorem Verdict.after {chunk rest : List Char} {n : Nat} {r : Except Fault (List Token)}
    (hc : Closed chunk) (ts : List Token) (h : Verdict rest (n + chunk.length) r) :
    Verdict (chunk ++ rest) n (prepend ts r) := by
  obtain ⟨hb, us, rfl⟩ | ⟨p, c, hp, hget, rfl⟩ := h
  · refine .inl ⟨fun p hp => ?_, ts ++ us, rfl⟩
    obtain ⟨q, -, hq⟩ := hc.exists_of_bad hp
    exact hb q hq
  · refine .inr ⟨chunk.length + p, c, hc.firstBad_append hp, ?_, ?_⟩
    · rw [List.getElem?_append_right (Nat.le_add_right _ _), Nat.add_sub_cancel_left, hget]
    · rw [prepend_error, Nat.add_assoc]

theorem verdict_at_start {c : Char} {rest : List Char} (n : Nat)
    (h : ¬Recognized c ∨ c = '"' ∧ '"' ∉ rest) :
    Verdict (c :: rest) n (.error (faultAt c n)) := by
  have hb : Bad (c :: rest) 0 := ⟨c, rfl, by simp [Exposed], h⟩
  exact .inr ⟨0, c, ⟨hb, fun q hq => absurd hq (Nat.not_lt_zero q)⟩, rfl, rfl⟩

theorem lexFrom_verdict (cs : List Char) (n : Nat) :
    Verdict cs n (lexFrom n (.outside .none) cs) := by
  induction cs using lexeme_induction generalizing n with
  | nil => exact .inl ⟨by simp [Bad], [], rfl⟩
  | blank c rest hc ih =>
    have hp : Closed [c] := closed_of_role (by simp [role_eq_blank_iff.mpr hc])
    rw [lexFrom_blank n rest hc, ← prepend_nil (lexFrom _ _ _)]
    exact Verdict.after hp [] (ih (n+1))
  | paren c rest hc ih =>
    have hp : Closed [c] := closed_of_role (by simp [role_eq_paren_iff.mpr hc])
    rw [lexFrom_paren n rest hc]
    exact Verdict.after hp _ (ih (n+1))
  | word k cs rest hk hne hcs hr ih =>
    have hp : Closed cs := by
      apply closed_of_role
      intro c hc
      cases role_of_member (hcs c hc) with
      | inl hd => simp [hd.2]
      | inr hl => simp [hl.2]
    rw [lexFrom_word n rest hk hne hcs hr]
    exact Verdict.after hp _ (ih _)
  | string body rest hb ih =>
    have hl : ('"' :: (body ++ ['"'])).length = body.length+2 := by simp
    have hcut : '"' :: (body ++ '"' :: rest) = '"' :: (body ++ ['"']) ++ rest := by simp
    rw [lexFrom_string n rest hb, ← hl, hcut]
    exact Verdict.after (closed_string hb) _ (ih _)
  | unterminated body hb =>
    rw [lexFrom_unterminated n hb]
    exact verdict_at_start n (.inr ⟨rfl, hb⟩)
  | stray c rest hc =>
    have hne : c ≠ '"' := by
      rintro rfl
      exact absurd hc (by decide)
    have hv : Verdict (c :: rest) n (.error (faultAt c n)) :=
      verdict_at_start n (.inl fun hr => recognized_iff.mp hr hc)
    rw [lexFrom_stray n rest hc]
    rwa [faultAt, if_neg hne] at hv

theorem even_count_iff_of_last {before after : List Char} (h : '"' ∉ after) :
    Even ((before ++ '"' :: after).count '"') ↔ ¬Even (before.count '"') := by
  rw [List.count_append, List.count_cons_self, List.count_eq_zero_of_not_mem h, Nat.even_add_one]

theorem exists_bad_of_odd {cs : List Char} (h : ¬Even (cs.count '"')) : ∃ p, Bad cs p := by
  have hmem : '"' ∈ cs.reverse := by
    rw [List.mem_reverse]
    by_contra hn
    exact h (by simp [List.count_eq_zero_of_not_mem hn])
  -- the last quote is the one that nothing closes
  obtain ⟨after, before, hsplit, ha⟩ := List.eq_append_cons_of_mem hmem
  have hlast : '"' ∉ after.reverse := by simpa using ha
  obtain rfl : cs = before.reverse ++ '"' :: after.reverse := by
    rw [← List.reverse_reverse cs, hsplit]
    simp
  rw [even_count_iff_of_last hlast, not_not] at h
  refine ⟨before.reverse.length, '"', by simp, ?_, .inr ⟨rfl, ?_⟩⟩
  · simpa [Exposed] using h
  · rwa [List.drop_length_add_append, List.drop_one, List.tail_cons]

theorem no_bad_iff (cs : List Char) : (∀ p, ¬Bad cs p) ↔
    Even (cs.count '"') ∧ ∀ p c, cs[p]? = some c → Exposed cs p → Recognized c := by
  constructor
  · intro h
    refine ⟨?_, ?_⟩
    · by_contra hodd
      obtain ⟨p, hp⟩ := exists_bad_of_odd hodd
      exact h p hp
    · intro p c hc he
      by_contra hr
      exact h p ⟨c, hc, he, .inl hr⟩
  · rintro ⟨heven, hall⟩ p ⟨c, hc, he, hr | ⟨rfl, hlast⟩⟩
    · exact hr (hall p c hc he)
    · obtain ⟨hlt, hget⟩ := List.getElem?_eq_some_iff.mp hc
      have hsplit : cs = cs.take p ++ '"' :: cs.drop (p+1) := by
        rw [← hget, List.getElem_cons_drop, List.take_append_drop]
      rw [hsplit, even_count_iff_of_last hlast] at heven
      exact heven he

theorem Verdict.ok_iff {cs : List Char} {n : Nat} {r : Except Fault (List Token)}
    (h : Verdict cs n r) : (∃ ts, r = .ok ts) ↔ ∀ p, ¬Bad cs p := by
  obtain ⟨hb, hok⟩ | ⟨p, c, hp, -, rfl⟩ := h
  · exact ⟨fun _ => hb, fun _ => hok⟩
  · constructor
    · rintro ⟨ts, he⟩
      cases he
    · intro hb
      exact absurd hp.1 (hb p)

theorem Verdict.error_iff {cs : List Char} {n : Nat} {r : Except Fault (List Token)}
    (h : Verdict cs n r) (f : Fault) :
    r = .error f ↔ ∃ p c, FirstBad cs p ∧ cs[p]? = some c ∧ f = faultAt c (n+p) := by
  obtain ⟨hb, ts, rfl⟩ | ⟨p, c, hp, hc, rfl⟩ := h
  · constructor
    · intro he
      cases he
    · rintro ⟨p, c, hp, -⟩
      exact absurd hp.1 (hb p)
  · constructor
    · intro he
      cases he
      exact ⟨p, c, hp, hc, rfl⟩
    · rintro ⟨q, d, hq, hd, rfl⟩
      obtain rfl := hp.unique hq
      obtain rfl : c = d := Option.some.inj (hc.symm.trans hd)
      rfl

/-- The lexer fails exactly on texts with a bad position, and names the first one: an unrecognized
character as such, a quote as the start of a string that is never closed. -/
theorem lex_fails_at_first_bad (source : String) :
    ((∃ tokens, lex source = .ok tokens) ↔ ∀ p, ¬Bad source.toList p) ∧
    (∀ f, lex source = .error f ↔ ∃ p c, FirstBad source.toList p ∧ source.toList[p]? = some c ∧
      f = if c = '"' then .unterminated p else .unrecognized (String.singleton c) p "") ∧
    ((∃ tokens, lex source = .ok tokens) ↔ Even (source.toList.count '"') ∧
      ∀ p c, source.toList[p]? = some c → Exposed source.toList p → Recognized c) := by
  have hv := lexFrom_verdict source.toList 0
  have hok := hv.ok_iff
  refine ⟨hok, ?_, hok.trans (no_bad_iff source.toList)⟩
  intro f
  have he := hv.error_iff f
  simp only [Nat.zero_add, faultAt] at he
  exact he

end CallCompiler.Token
