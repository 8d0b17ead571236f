import CallCompiler.Console.Markup
import Mathlib.Data.List.Induction

/-!
Which tags of a message act. Texts are put together from pieces that no tag spans (`Seam`), so the tags of a
message are those of its pieces. Escaped pieces have none; what they can still do is end in backslashes that
stop the tag after them.
-/
namespace CallCompiler

namespace Console

def isBracket (c : Char) : Bool := c == '[' || c == ']'

def slashesAfter (n : Nat) (cs : List Char) : Nat := cs.foldl (fun k c => if c = '\\' then k + 1 else 0) n

@[simp]
theorem slashesAfter_nil (n : Nat) : slashesAfter n [] = n := rfl

theorem slashesAfter_append (n : Nat) (a b : List Char) :
    slashesAfter n (a ++ b) = slashesAfter (slashesAfter n a) b := List.foldl_append

theorem slashesAfter_cons {c : Char} (hc : c ≠ '\\') (n : Nat) (cs : List Char) :
    slashesAfter n (c :: cs) = slashesAfter 0 cs := by
  simp [slashesAfter, hc]

theorem slashesAfter_slashes (n k : Nat) : slashesAfter n (slashes k) = n + k := by
  induction k generalizing n with
  | zero => rfl
  | succ k ih =>
    have h : slashesAfter n (slashes (k + 1)) = slashesAfter (n + 1) (slashes k) := by
      simp [slashes, slashesAfter, List.replicate_succ]
    rw [h, ih]
    omega

/-- A bracket, one of a few characters, and the rest up to the next bracket, which closes. -/
inductive TagText : List Char → Prop
  | mk {c : Char} {body : List Char} : startsTagName c = true → (∀ d ∈ body, isBracket d = false) →
      TagText ('[' :: c :: (body ++ [']']))

/-- A tag of a text acts if an even number of backslashes stands before it. -/
structure Acts (n : Nat) (text before tag : List Char) : Prop where
  within : ∃ after, text = before ++ (tag ++ after)
  isTag : TagText tag
  even : slashesAfter n before % 2 = 0

def Quiet (n : Nat) (text : List Char) : Prop := ∀ before tag, ¬Acts n text before tag

/-- No tag starts in one text and ends in the next. -/
def Seam (a b : List Char) : Prop :=
  ∀ s t, s ≠ [] → t ≠ [] → s <:+ a → t <+: b → ¬TagText (s ++ t)

theorem isBracket_of_startsTagName {c : Char} (h : startsTagName c = true) : isBracket c = false := by
  by_contra hb
  simp only [isBracket, Bool.not_eq_false, Bool.or_eq_true, beq_iff_eq] at hb
  obtain rfl | rfl := hb <;> exact absurd h (by decide)

theorem TagText.split {s t : List Char} (h : TagText (s ++ t)) (hs : s ≠ []) (ht : t ≠ []) :
    ∃ s' t', s = '[' :: s' ∧ t = t' ++ [']'] ∧ (∀ d ∈ s', isBracket d = false) ∧
      ∀ d ∈ t', isBracket d = false := by
  obtain ⟨x, s', rfl⟩ := List.exists_cons_of_ne_nil hs
  obtain ⟨t', y, hty⟩ := (List.eq_nil_or_concat t).resolve_left ht
  rw [List.concat_eq_append] at hty
  subst hty
  generalize htag : x :: s' ++ (t' ++ [y]) = tag at h
  cases h with
  | @mk c body hc hbody =>
    obtain ⟨rfl, hrest⟩ := List.cons.inj htag
    have hrest : s' ++ t' ++ [y] = (c :: body) ++ [']'] := by simpa using hrest
    obtain ⟨hinner, hy⟩ := List.append_inj' hrest rfl
    obtain rfl := List.singleton_inj.mp hy
    have hall : ∀ d ∈ s' ++ t', isBracket d = false := by
      rw [hinner, List.forall_mem_cons]
      exact ⟨isBracket_of_startsTagName hc, hbody⟩
    rw [List.forall_mem_append] at hall
    exact ⟨s', t', rfl, rfl, hall⟩

theorem seam_of_left {a : List Char} (h : '[' ∉ a) (b : List Char) : Seam a b := by
  intro s t hs ht hsa htb htag
  obtain ⟨s', t', rfl, -⟩ := htag.split hs ht
  exact h (hsa.mem List.mem_cons_self)

theorem seam_of_right (a : List Char) {b : List Char} (h : b.find? isBracket ≠ some ']') : Seam a b := by
  intro s t hs ht hsa htb htag
  obtain ⟨s', t', -, rfl, -, hbody⟩ := htag.split hs ht
  obtain ⟨r, rfl⟩ := htb
  have hnone : t'.find? isBracket = none := List.find?_eq_none.mpr (by simpa using hbody)
  apply h
  rw [List.find?_append, List.find?_append, hnone]
  rfl

theorem seam_of_closed (a b : List Char) : Seam (a ++ [']']) b := by
  intro s t hs ht hsa htb htag
  obtain ⟨s', t', rfl, rfl, hbody, -⟩ := htag.split hs ht
  obtain hnil | ⟨u, hu, -⟩ := List.suffix_concat_iff.mp hsa
  · cases hnil
  · cases u with
    | nil => simp at hu
    | cons x u =>
      obtain ⟨-, rfl⟩ := List.cons.inj hu
      simpa [isBracket] using hbody ']' (by simp)

theorem acts_append {n : Nat} {a b before tag : List Char} (h : Seam a b) :
    Acts n (a ++ b) before tag ↔
      Acts n a before tag ∨ ∃ rest, before = a ++ rest ∧ Acts (slashesAfter n a) b rest tag := by
  constructor
  · rintro ⟨⟨after, he⟩, htag, heven⟩
    obtain ⟨rest, rfl, rfl⟩ | ⟨cut, rfl, hcut⟩ := List.append_eq_append_iff.mp he
    · rw [slashesAfter_append] at heven
      exact .inr ⟨rest, rfl, ⟨after, rfl⟩, htag, heven⟩
    · obtain ⟨u, rfl, -⟩ | ⟨u, rfl, rfl⟩ := List.append_eq_append_iff.mp hcut
      · exact .inl ⟨⟨u, rfl⟩, htag, heven⟩
      -- The tag reaches both texts unless one part of it is empty.
      · by_cases hc : cut = []
        · subst hc
          exact .inr ⟨[], by simp, ⟨after, rfl⟩, htag, by simpa using heven⟩
        · by_cases hu : u = []
          · subst hu
            exact .inl ⟨⟨[], by simp⟩, htag, heven⟩
          · exact absurd htag (h cut u hc hu (List.suffix_append _ _) (List.prefix_append _ _))
  · rintro (⟨⟨after, rfl⟩, htag, heven⟩ | ⟨rest, rfl, ⟨after, rfl⟩, htag, heven⟩)
    · exact ⟨⟨after ++ b, by simp⟩, htag, heven⟩
    · rw [← slashesAfter_append] at heven
      exact ⟨⟨after, by simp⟩, htag, heven⟩

theorem quiet_of_not_mem {text : List Char} (h : '[' ∉ text) (n : Nat) : Quiet n text := by
  rintro before tag ⟨⟨after, rfl⟩, htag, -⟩
  cases htag
  simp at h

theorem Quiet.append {n : Nat} {a b : List Char} (hseam : Seam a b) (ha : Quiet n a)
    (hb : Quiet (slashesAfter n a) b) : Quiet n (a ++ b) := by
  intro before tag h
  obtain h | ⟨rest, -, h⟩ := (acts_append hseam).mp h
  · exact ha _ _ h
  · exact hb _ _ h

section Escape

theorem find?_slashes (n : Nat) (cs : List Char) :
    (slashes n ++ cs).find? isBracket = cs.find? isBracket := by
  have h : (slashes n).find? isBracket = none :=
    List.find?_eq_none.mpr fun c hc => by
      rw [List.eq_of_mem_replicate hc]
      decide
  rw [List.find?_append, h, Option.none_or]

theorem find?_escapeTags (n : Nat) (cs : List Char) :
    (escapeTags n cs).find? isBracket = cs.find? isBracket := by
  fun_induction escapeTags n cs with
  | case1 n => simpa using find?_slashes n []
  | case2 n cs ih => exact ih
  | case3 n c cs hc htag ih => rw [find?_slashes, List.find?_cons, List.find?_cons, ih]
  | case4 n c cs hc htag ih => rw [find?_slashes, List.find?_cons, List.find?_cons, ih]

theorem slashesAfter_escapeTags (n : Nat) (cs : List Char) :
    slashesAfter 0 (escapeTags n cs) = slashesAfter n cs := by
  fun_induction escapeTags n cs with
  | case1 n => simpa using slashesAfter_slashes 0 n
  | case2 n cs ih => exact ih
  | case3 n c cs hc htag ih => rw [slashesAfter_append, slashesAfter_cons hc, slashesAfter_cons hc, ih]
  | case4 n c cs hc htag ih => rw [slashesAfter_append, slashesAfter_cons hc, slashesAfter_cons hc, ih]

theorem isTag_cons (c : Char) (cs : List Char) :
    isTag (c :: cs) = (startsTagName c && cs.find? isBracket == some ']') := rfl

theorem isTag_slashes (n : Nat) (cs : List Char) : isTag (slashes (n + 1) ++ cs) = false := by
  simp [slashes, List.replicate_succ, isTag_cons, startsTagName]

theorem TagText.isTag {cs tag : List Char} (h : TagText tag) (hp : tag <+: '[' :: cs) :
    Console.isTag cs = true := by
  obtain ⟨after, he⟩ := hp
  cases h with
  | @mk c body hc hbody =>
    obtain rfl : c :: (body ++ [']'] ++ after) = cs := (List.cons.inj he).2
    have hnone : body.find? isBracket = none := List.find?_eq_none.mpr (by simpa using hbody)
    rw [isTag_cons, hc, List.find?_append, List.find?_append, hnone]
    rfl

theorem isTag_of_isTag_escapeTags {n : Nat} {cs : List Char} (h : isTag (escapeTags n cs) = true) :
    n = 0 ∧ isTag cs = true := by
  have hzero : ∀ {k rest}, isTag (slashes k ++ rest) = true → k = 0 := by
    intro k rest hk
    cases k with
    | zero => rfl
    | succ k =>
      rw [isTag_slashes] at hk
      cases hk
  fun_induction escapeTags n cs with
  | case1 n =>
    rw [← List.append_nil (slashes n)] at h
    obtain rfl := hzero h
    cases h
  | case2 n cs ih => exact absurd (ih h).1 (Nat.succ_ne_zero n)
  | case3 n c cs hc htag ih => exact absurd (hzero h) (Nat.succ_ne_zero _)
  | case4 n c cs hc hnot ih =>
    obtain rfl := hzero h
    refine ⟨rfl, ?_⟩
    rw [isTag_cons, ← find?_escapeTags 0 cs]
    exact h

theorem Quiet.cons {n : Nat} {c : Char} {cs : List Char} (hq : Quiet 0 cs) (hc : c ≠ '\\')
    (h : ∀ tag, TagText tag → tag <+: c :: cs → n % 2 = 1) : Quiet n (c :: cs) := by
  rintro before tag ⟨⟨after, he⟩, htag, heven⟩
  cases before with
  | nil =>
    have hodd := h tag htag ⟨after, he.symm⟩
    rw [slashesAfter_nil, hodd] at heven
    cases heven
  | cons x before =>
    obtain ⟨rfl, rfl⟩ := List.cons.inj he
    rw [slashesAfter_cons hc] at heven
    exact hq before tag ⟨⟨after, rfl⟩, htag, heven⟩

theorem quiet_escapeTags (n : Nat) (cs : List Char) : Quiet 0 (escapeTags n cs) := by
  have hmem : ∀ k, '[' ∉ slashes k := fun k h => by cases List.eq_of_mem_replicate h
  fun_induction escapeTags n cs with
  | case1 n => exact quiet_of_not_mem (hmem n) 0
  | case2 n cs ih => exact ih
  | case3 n c cs hc htag ih =>
    refine .append (seam_of_left (hmem _) _) (quiet_of_not_mem (hmem _) 0) (ih.cons hc ?_)
    -- Twice as many backslashes and one more are an odd number.
    intro tag _ _
    rw [slashesAfter_slashes]
    omega
  | case4 n c cs hc hnot ih =>
    refine .append (seam_of_left (hmem _) _) (quiet_of_not_mem (hmem _) 0) (ih.cons hc ?_)
    -- A tag here would be one in the text before it was escaped.
    intro tag htag hp
    have hhead : c = '[' := by
      cases htag
      obtain ⟨after, he⟩ := hp
      exact (List.cons.inj he).1.symm
    subst hhead
    exact absurd ⟨rfl, (isTag_of_isTag_escapeTags (htag.isTag hp)).2⟩ hnot

theorem slashesAfter_concat (n : Nat) (cs : List Char) (c : Char) :
    slashesAfter n (cs ++ [c]) = if c = '\\' then slashesAfter n cs + 1 else 0 :=
  slashesAfter_append n cs [c]

theorem endsInSlash_iff (cs : List Char) : endsInSlash cs = true ↔ slashesAfter 0 cs = 1 := by
  induction cs using List.reverseRecOn with
  | nil => decide
  | append_singleton cs c _ =>
    unfold endsInSlash
    rw [List.reverse_concat, slashesAfter_concat]
    by_cases hc : c = '\\'
    · induction cs using List.reverseRecOn with
      | nil => simp [hc]
      | append_singleton cs d _ =>
        rw [List.reverse_concat, slashesAfter_concat]
        by_cases hd : d = '\\' <;> simp [hc, hd]
    · simp [hc]

theorem toList_escape (s : String) :
    (escape s).toList = escapeTags 0 s.toList ++ if slashesAfter 0 s.toList = 1 then ['\\'] else [] := by
  unfold escape
  rw [String.toList_ofList]
  have h := endsInSlash_iff (escapeTags 0 s.toList)
  rw [slashesAfter_escapeTags] at h
  simp only [h]
  split <;> simp

theorem quiet_escape (s : String) : Quiet 0 (escape s).toList := by
  rw [toList_escape]
  split
  · exact .append (seam_of_right _ (by decide)) (quiet_escapeTags 0 _) (quiet_of_not_mem (by decide) _)
  · rw [List.append_nil]
    exact quiet_escapeTags 0 _

/-- A single backslash at the end is doubled; more of them are left as they are. -/
theorem slashesAfter_escape (s : String) :
    slashesAfter 0 (escape s).toList =
      if slashesAfter 0 s.toList = 1 then 2 else slashesAfter 0 s.toList := by
  rw [toList_escape, slashesAfter_append, slashesAfter_escapeTags]
  by_cases h : slashesAfter 0 s.toList = 1
  · rw [if_pos h, if_pos h, h]
    rfl
  · rw [if_neg h, if_neg h]
    rfl

end Escape

inductive Piece
  | words (text : String)
  | tag (text : String)

def Piece.text : Piece → List Char
  | words text => text.toList
  | tag text => text.toList

def render (pieces : List Piece) : List Char := pieces.flatMap Piece.text

def OwnTags (n : Nat) (pieces : List Piece) : Prop :=
  ∀ before (tag : String), Acts n (render pieces) before tag.toList ↔
    ∃ l r, pieces = l ++ .tag tag :: r ∧ before = render l

theorem render_cons (p : Piece) (pieces : List Piece) :
    render (p :: pieces) = p.text ++ render pieces := List.flatMap_cons

theorem ownTags_nil (n : Nat) : OwnTags n [] := by
  intro before tag
  constructor
  · intro h
    exact absurd h (quiet_of_not_mem List.not_mem_nil n _ _)
  · rintro ⟨l, r, he, -⟩
    simp at he

theorem Acts.length_lt {n : Nat} {text before tag : List Char} (h : Acts n text before tag) :
    before.length < text.length := by
  obtain ⟨⟨after, rfl⟩, htag, -⟩ := h
  cases htag
  simp

theorem exists_tag_cons_iff {p : Piece} {pieces : List Piece} {before : List Char} {tag : String} :
    (∃ l r, p :: pieces = l ++ .tag tag :: r ∧ before = render l) ↔
      (p = .tag tag ∧ before = []) ∨
        ∃ rest, before = p.text ++ rest ∧ ∃ l r, pieces = l ++ .tag tag :: r ∧ rest = render l := by
  constructor
  · rintro ⟨l, r, he, rfl⟩
    cases l with
    | nil => exact .inl ⟨(List.cons.inj he).1, rfl⟩
    | cons q l =>
      obtain ⟨rfl, rfl⟩ := List.cons.inj he
      exact .inr ⟨_, render_cons p l, l, r, rfl, rfl⟩
  · rintro (⟨rfl, rfl⟩ | ⟨rest, rfl, l, r, rfl, rfl⟩)
    · exact ⟨[], pieces, rfl, rfl⟩
    · exact ⟨p :: l, r, rfl, (render_cons p l).symm⟩

theorem ownTags_cons {n : Nat} {p : Piece} {pieces : List Piece} (h : Seam p.text (render pieces))
    (hp : ∀ tag, p = .tag tag → p.text ≠ []) :
    OwnTags n (p :: pieces) ↔
      (∀ before (tag : String), Acts n p.text before tag.toList ↔ p = .tag tag ∧ before = []) ∧
      OwnTags (slashesAfter n p.text) pieces := by
  -- A tag of the first piece starts inside of it, a tag of the rest does not.
  have hlong : ∀ {rest tag}, ¬Acts n p.text (p.text ++ rest) tag := by
    intro rest tag ha
    have hlt := ha.length_lt
    rw [List.length_append] at hlt
    omega
  have hshort : ∀ {rest tag}, p = .tag tag → p.text ++ rest ≠ [] := by
    intro rest tag he hnil
    exact hp tag he (List.append_eq_nil_iff.mp hnil).1
  simp only [OwnTags, render_cons, acts_append h, exists_tag_cons_iff]
  constructor
  · intro hall
    refine ⟨fun before tag => ⟨fun ha => ?_, fun hown => ?_⟩, fun rest tag => ⟨fun ha => ?_, fun hown => ?_⟩⟩
    · obtain hown | ⟨rest, rfl, -⟩ := (hall before tag).mp (.inl ha)
      · exact hown
      · exact absurd ha hlong
    · obtain ha | ⟨rest, he, -⟩ := (hall before tag).mpr (.inl hown)
      · exact ha
      · exact absurd (he.symm.trans hown.2) (hshort hown.1)
    · obtain hown | ⟨other, he, hown⟩ := (hall (p.text ++ rest) tag).mp (.inr ⟨rest, rfl, ha⟩)
      · exact absurd hown.2 (hshort hown.1)
      · rwa [List.append_cancel_left he]
    · obtain ha | ⟨other, he, ha⟩ := (hall (p.text ++ rest) tag).mpr (.inr ⟨rest, rfl, hown⟩)
      · exact absurd ha hlong
      · rwa [List.append_cancel_left he]
  · rintro ⟨hfirst, hrest⟩ before tag
    exact or_congr (hfirst before tag) (exists_congr fun rest => and_congr_right fun _ => hrest rest tag)

theorem ownTags_words {n : Nat} {text : String} {pieces : List Piece}
    (h : Seam text.toList (render pieces)) :
    OwnTags n (.words text :: pieces) ↔
      Quiet n text.toList ∧ OwnTags (slashesAfter n text.toList) pieces := by
  rw [ownTags_cons (p := .words text) h fun tag he => by cases he]
  refine and_congr_left fun _ => ⟨fun hfirst before tag ha => ?_, fun hq before tag => ?_⟩
  · rw [← String.toList_ofList (l := tag)] at ha
    cases ((hfirst before _).mp ha).1
  · exact ⟨fun ha => absurd ha (hq before _), fun he => by cases he.1⟩

theorem TagText.eq_of_within {t before tag after : List Char} (ht : TagText t) (htag : TagText tag)
    (he : t = before ++ (tag ++ after)) : before = [] ∧ after = [] := by
  subst he
  cases htag with
  | @mk c body _ _ =>
    have hbefore : before = [] := by
      by_contra hne
      obtain ⟨-, t', -, he, -, hbody⟩ := ht.split hne (by simp)
      cases t' with
      | nil => simp at he
      | cons x t' =>
        obtain ⟨rfl, -⟩ := List.cons.inj he
        cases hbody _ List.mem_cons_self
    subst hbefore
    rw [List.nil_append] at ht
    refine ⟨rfl, ?_⟩
    by_contra hne
    obtain ⟨s', -, he, -, hbody, -⟩ := ht.split (by simp) hne
    obtain ⟨-, rfl⟩ := List.cons.inj he
    cases hbody ']' (by simp)

theorem TagText.eq_concat {t : List Char} (h : TagText t) : ∃ inner, t = inner ++ [']'] := by
  cases h with
  | @mk c body _ _ => exact ⟨'[' :: c :: body, rfl⟩

/-- A tag acts after an even number of backslashes, and what follows it starts anew. -/
theorem ownTags_tag {n : Nat} {text : String} {pieces : List Piece} (ht : TagText text.toList) :
    OwnTags n (.tag text :: pieces) ↔ n % 2 = 0 ∧ OwnTags 0 pieces := by
  obtain ⟨inner, hinner⟩ := ht.eq_concat
  have hseam : Seam text.toList (render pieces) := hinner ▸ seam_of_closed inner _
  have hslashes : slashesAfter n text.toList = 0 := by
    rw [hinner, slashesAfter_concat]
    rfl
  have hne : text.toList ≠ [] := by simp [hinner]
  rw [ownTags_cons (p := .tag text) hseam fun _ _ => hne]
  change _ ∧ OwnTags (slashesAfter n text.toList) pieces ↔ _
  rw [hslashes]
  refine and_congr_left fun _ => ⟨fun hfirst => ?_, fun heven before tag => ⟨fun ha => ?_, ?_⟩⟩
  · exact ((hfirst [] text).mpr ⟨rfl, rfl⟩).even
  · obtain ⟨⟨after, he⟩, htag, -⟩ := ha
    obtain ⟨rfl, rfl⟩ := ht.eq_of_within htag he
    have he : text = tag := String.toList_injective (by simpa [Piece.text] using he)
    exact ⟨congrArg Piece.tag he, rfl⟩
  · rintro ⟨he, rfl⟩
    obtain rfl := Piece.tag.inj he
    exact ⟨⟨[], by simp [Piece.text]⟩, ht, heven⟩

theorem ownTags_words_of_not_mem {n : Nat} {text : String} {pieces : List Piece}
    (h : '[' ∉ text.toList) :
    OwnTags n (.words text :: pieces) ↔ OwnTags (slashesAfter n text.toList) pieces := by
  rw [ownTags_words (seam_of_left h _)]
  exact and_iff_right (quiet_of_not_mem h n)

theorem ownTags_last {n : Nat} {text : String} : OwnTags n [.words text] ↔ Quiet n text.toList := by
  rw [ownTags_words (seam_of_right _ (by decide))]
  exact and_iff_left (ownTags_nil _)

end Console

end CallCompiler
