import CallCompiler.Proofs.Scanning
import Mathlib.Data.List.Chain

/-!
Layouts of tokens in a text: blanks, then tokens with blanks after each. The lexer gives a list of tokens
exactly for the texts in which the tokens can be laid out, and two runs of one kind need a blank between
them.
-/
namespace CallCompiler.Token

/-- The texts that tokens of a kind can have when they are read from characters. -/
def WellFormed (t : Token) : Prop :=
  match t.kind with
  | .paren => t.text = "(" ∨ t.text = ")"
  | .number => t.text ≠ "" ∧ ∀ c ∈ t.text.toList, Text.isDigit c = true
  | .name => t.text ≠ "" ∧ ∀ c ∈ t.text.toList, isLetter c = true
  | .string => '"' ∉ t.text.toList

def spell (t : Token) : List Char :=
  match t.kind with
  | .string => '"' :: (t.text.toList ++ ['"'])
  | _ => t.text.toList

def Merges (t u : Token) : Prop := t.kind = u.kind ∧ t.kind.isRun

/-- Blanks before the first token, and each token with the blanks after it. -/
structure Layout where
  lead : List Char
  pieces : List (Token × List Char)
  lead_blank : ∀ c ∈ lead, Text.isBlank c = true
  gap_blank : ∀ p ∈ pieces, ∀ c ∈ p.2, Text.isBlank c = true
  wellFormed : ∀ p ∈ pieces, p.1.WellFormed
  apart : pieces.IsChain fun p q => p.1.Merges q.1 → p.2 ≠ []

namespace Layout

def tokens (l : Layout) : List Token := l.pieces.map Prod.fst

def text (l : Layout) : List Char :=
  l.lead ++ l.pieces.flatMap fun p => p.1.spell ++ p.2

end Layout

theorem WellFormed.members {t : Token} (ht : t.WellFormed) (hk : t.kind.isRun) :
    t.text.toList ≠ [] ∧ ∀ c ∈ t.text.toList, t.kind.member c = true := by
  obtain ⟨k, text⟩ := t
  obtain rfl | rfl := hk <;> simpa [WellFormed, Kind.member] using ht

theorem spell_of_isRun {t : Token} (hk : t.kind.isRun) : t.spell = t.text.toList := by
  obtain ⟨k, text⟩ := t
  obtain rfl | rfl := hk <;> rfl

theorem WellFormed.kind_eq {t : Token} (ht : t.WellFormed) {k : Kind} {rest : List Char}
    (h : startsWith k.member (t.spell ++ rest) = true) : t.kind = k := by
  by_cases hk : t.kind.isRun
  · obtain ⟨hne, hm⟩ := ht.members hk
    rw [spell_of_isRun hk] at h
    cases hs : t.text.toList with
    | nil => exact absurd hs hne
    | cons c cs =>
      have hc : k.member c = true := by simpa [hs, startsWith] using h
      exact Kind.eq_of_member (hm c (by simp [hs])) hc
  · obtain ⟨kind, text⟩ := t
    cases kind with
    | number => exact absurd (.inl rfl) hk
    | name => exact absurd (.inr rfl) hk
    | paren =>
      obtain rfl | rfl := ht
      · have ha := apart_cons (c := '(') (by decide) (by decide) rest k
        exact absurd h (by simpa [spell] using ha)
      · have ha := apart_cons (c := ')') (by decide) (by decide) rest k
        exact absurd h (by simpa [spell] using ha)
    | string =>
      have ha := apart_cons (c := '"') (by decide) (by decide) (text.toList ++ ['"'] ++ rest) k
      exact absurd h (by simpa [spell] using ha)

theorem WellFormed.startsWith_spell {t : Token} (ht : t.WellFormed) (hk : t.kind.isRun)
    (rest : List Char) : startsWith t.kind.member (t.spell ++ rest) = true := by
  obtain ⟨hne, hm⟩ := ht.members hk
  rw [spell_of_isRun hk]
  cases hs : t.text.toList with
  | nil => exact absurd hs hne
  | cons c cs => exact hm c (by simp [hs])

theorem lexFrom_spell {t : Token} (ht : t.WellFormed) (n : Nat) (rest : List Char)
    (h : t.kind.isRun → startsWith t.kind.member rest = false) :
    lexFrom n (.outside .none) (t.spell ++ rest) =
      prepend [t] (lexFrom (n + t.spell.length) (.outside .none) rest) := by
  by_cases hk : t.kind.isRun
  · obtain ⟨hne, hm⟩ := ht.members hk
    rw [spell_of_isRun hk, lexFrom_word n rest hk hne hm (h hk), String.ofList_toList]
  · obtain ⟨kind, text⟩ := t
    cases kind with
    | number => exact absurd (.inl rfl) hk
    | name => exact absurd (.inr rfl) hk
    | paren =>
      obtain rfl | rfl := ht
      · exact lexFrom_paren n rest (.inl rfl)
      · exact lexFrom_paren n rest (.inr rfl)
    | string =>
      have hs := lexFrom_string n rest (show '"' ∉ text.toList from ht)
      rw [String.ofList_toList] at hs
      simpa [spell, Nat.add_assoc] using hs

namespace Layout

theorem startsWith_tail {t : Token} {gap : List Char} {pieces : List (Token × List Char)}
    (hg : ∀ c ∈ gap, Text.isBlank c = true) (hw : ∀ p ∈ pieces, p.1.WellFormed)
    (ha : ((t, gap) :: pieces).IsChain fun p q => p.1.Merges q.1 → p.2 ≠ [])
    (hk : t.kind.isRun) :
    startsWith t.kind.member (gap ++ pieces.flatMap fun p => p.1.spell ++ p.2) = false := by
  cases gap with
  | cons c gap => exact apart_blank (hg c (by simp)) _ t.kind
  | nil =>
    cases pieces with
    | nil => rfl
    | cons q pieces =>
      by_contra hs
      rw [Bool.not_eq_false, List.nil_append, List.flatMap_cons, List.append_assoc] at hs
      have he : q.1.kind = t.kind := (hw q (by simp)).kind_eq hs
      have hm : t.Merges q.1 := ⟨he.symm, hk⟩
      exact (List.isChain_cons_cons.mp ha).1 hm rfl

theorem lexFrom_text (l : Layout) (n : Nat) :
    lexFrom n (.outside .none) l.text = .ok l.tokens := by
  obtain ⟨lead, pieces, hl, hg, hw, ha⟩ := l
  -- the blanks after a token are the lead of what follows, so the lead cannot be fixed
  induction pieces generalizing lead n with
  | nil =>
    have hb := lexFrom_blanks n [] hl
    simpa [text, tokens] using hb
  | cons p pieces ih =>
    obtain ⟨t, gap⟩ := p
    have hgap : ∀ c ∈ gap, Text.isBlank c = true := hg (t, gap) (by simp)
    have hws : ∀ q ∈ pieces, q.1.WellFormed := fun q hq => hw q (List.mem_cons_of_mem _ hq)
    have htail := startsWith_tail hgap hws ha
    have hrest := ih (n + lead.length + t.spell.length) gap hgap
      (fun q hq => hg q (List.mem_cons_of_mem _ hq)) hws ha.tail
    simp only [text, tokens, List.flatMap_cons, List.append_assoc, List.map_cons] at hrest ⊢
    rw [lexFrom_blanks n _ hl, lexFrom_spell (hw (t, gap) (by simp)) _ _ htail, hrest]
    rfl

def empty : Layout := ⟨[], [], by simp, by simp, by simp, .nil⟩

def indent (l : Layout) (c : Char) (h : Text.isBlank c = true) : Layout where
  lead := c :: l.lead
  pieces := l.pieces
  lead_blank := by
    intro d hd
    obtain rfl | hm := List.mem_cons.mp hd
    · exact h
    · exact l.lead_blank d hm
  gap_blank := l.gap_blank
  wellFormed := l.wellFormed
  apart := l.apart

theorem startsWith_text {l : Layout} {p : Token × List Char} {pieces : List (Token × List Char)}
    (hp : l.pieces = p :: pieces) (hl : l.lead = []) (hk : p.1.kind.isRun) :
    startsWith p.1.kind.member l.text = true := by
  have hw : p.1.WellFormed := l.wellFormed p (by simp [hp])
  rw [text, hl, hp, List.nil_append, List.flatMap_cons, List.append_assoc]
  exact hw.startsWith_spell hk _

def cons (l : Layout) (t : Token) (ht : t.WellFormed)
    (h : t.kind.isRun → startsWith t.kind.member l.text = false) : Layout where
  lead := []
  pieces := (t, l.lead) :: l.pieces
  lead_blank := by simp
  gap_blank := by
    intro p hp
    obtain rfl | hm := List.mem_cons.mp hp
    · exact l.lead_blank
    · exact l.gap_blank p hm
  wellFormed := by
    intro p hp
    obtain rfl | hm := List.mem_cons.mp hp
    · exact ht
    · exact l.wellFormed p hm
  apart := by
    cases hp : l.pieces with
    | nil => exact .singleton _
    | cons q pieces =>
      refine .cons_cons ?_ (hp ▸ l.apart)
      rintro ⟨he, hk⟩ hlead
      -- with no blank between them, the next run would go on with this one
      have hs := startsWith_text hp hlead (he ▸ hk)
      simp [← he, h hk] at hs

theorem exists_cons {t : Token} {ts : List Token} {rest : List Char} (ht : t.WellFormed)
    (h : t.kind.isRun → startsWith t.kind.member rest = false)
    (hl : ∃ l : Layout, l.tokens = ts ∧ l.text = rest) :
    ∃ l : Layout, l.tokens = t :: ts ∧ l.text = t.spell ++ rest := by
  obtain ⟨l, rfl, rfl⟩ := hl
  refine ⟨l.cons t ht h, rfl, ?_⟩
  simp [text, cons]

theorem exists_of_lexFrom {n : Nat} {cs : List Char} {ts : List Token}
    (h : lexFrom n (.outside .none) cs = .ok ts) : ∃ l : Layout, l.tokens = ts ∧ l.text = cs := by
  induction cs using lexeme_induction generalizing n ts with
  | nil =>
    obtain rfl : ts = [] := by simpa using h.symm
    exact ⟨empty, rfl, rfl⟩
  | blank c rest hc ih =>
    rw [lexFrom_blank n rest hc] at h
    obtain ⟨l, rfl, rfl⟩ := ih h
    exact ⟨l.indent c hc, rfl, rfl⟩
  | paren c rest hc ih =>
    rw [lexFrom_paren n rest hc] at h
    obtain ⟨us, hu, rfl⟩ := prepend_eq_ok_iff.mp h
    have ht : (⟨.paren, String.singleton c⟩ : Token).WellFormed := by
      obtain rfl | rfl := hc
      · exact .inl rfl
      · exact .inr rfl
    have hl := exists_cons ht (fun hk => absurd hk (by simp [Kind.isRun])) (ih hu)
    simpa [spell] using hl
  | word k cs rest hk hne hcs hr ih =>
    rw [lexFrom_word n rest hk hne hcs hr] at h
    obtain ⟨us, hu, rfl⟩ := prepend_eq_ok_iff.mp h
    have ht : (⟨k, String.ofList cs⟩ : Token).WellFormed := by
      obtain rfl | rfl := hk <;> simpa [WellFormed, Kind.member] using ⟨hne, hcs⟩
    have hl := exists_cons ht (fun _ => hr) (ih hu)
    rw [spell_of_isRun hk, String.toList_ofList] at hl
    exact hl
  | string body rest hb ih =>
    rw [lexFrom_string n rest hb] at h
    obtain ⟨us, hu, rfl⟩ := prepend_eq_ok_iff.mp h
    have ht : (⟨.string, String.ofList body⟩ : Token).WellFormed := by
      simpa [WellFormed] using hb
    have hl := exists_cons ht (fun hk => absurd hk (by simp [Kind.isRun])) (ih hu)
    simpa [spell] using hl
  | unterminated body hb => simp [lexFrom_unterminated n hb] at h
  | stray c rest hc => simp [lexFrom_stray n rest hc] at h

end Layout

theorem wellFormed_of_lex {source : String} {tokens : List Token} (h : lex source = .ok tokens) :
    ∀ t ∈ tokens, t.WellFormed := by
  obtain ⟨l, rfl, -⟩ := Layout.exists_of_lexFrom h
  intro t ht
  obtain ⟨p, hp, rfl⟩ := List.mem_map.mp ht
  exact l.wellFormed p hp

/-- The lexer cuts a text into runs that are as long as they can be, and loses nothing but blanks: it gives
exactly the lists of tokens that have a layout in the text. -/
theorem lex_eq_ok_iff_layout (source : String) (tokens : List Token) :
    lex source = .ok tokens ↔ ∃ l : Layout, l.tokens = tokens ∧ l.text = source.toList := by
  constructor
  · intro h
    exact Layout.exists_of_lexFrom h
  · rintro ⟨l, rfl, hl⟩
    rw [lex, ← hl]
    exact l.lexFrom_text 0

end CallCompiler.Token
