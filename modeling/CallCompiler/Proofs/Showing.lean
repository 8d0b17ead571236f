import CallCompiler.Proofs.ActiveTags

/-!
Which messages can be shown. The tags that are read are the ones that act, and a message whose only tags are
the two around an escaped path can be shown, whatever the console knows about styles.
-/
namespace CallCompiler.Console

theorem TagText.inner_ne {inner : List Char} (h : TagText ('[' :: (inner ++ [']']))) :
    ∀ d ∈ inner, isBracket d = false := by
  rw [← List.cons_append] at h
  obtain ⟨inner', -, he, -, hinner, -⟩ := h.split (List.cons_ne_nil _ _) (List.cons_ne_nil _ _)
  obtain ⟨-, rfl⟩ := List.cons.inj he
  exact hinner

theorem TagText.takeWhile_eq {inner : List Char} (h : TagText ('[' :: (inner ++ [']'])))
    (after : List Char) : (inner ++ ']' :: after).takeWhile (· != ']') = inner := by
  have hinner : ∀ d ∈ inner, (d != ']') = true := by
    intro d hd
    have hbracket := h.inner_ne d hd
    simp only [isBracket, Bool.or_eq_false_iff] at hbracket
    simpa using hbracket.2
  rw [List.takeWhile_append_of_pos hinner, List.takeWhile_cons_of_neg (by simp), List.append_nil]

theorem isTag_iff {cs : List Char} :
    isTag cs = true ↔ ∃ inner after, cs = inner ++ ']' :: after ∧ TagText ('[' :: (inner ++ [']'])) := by
  constructor
  · intro h
    cases cs with
    | nil => cases h
    | cons c cs =>
      rw [isTag_cons, Bool.and_eq_true, beq_iff_eq, List.find?_eq_some_iff_append] at h
      obtain ⟨hc, -, body, after, rfl, hbody⟩ := h
      exact ⟨c :: body, after, rfl, .mk hc (by simpa using hbody)⟩
  · rintro ⟨inner, after, rfl, htag⟩
    exact htag.isTag ⟨after, by simp⟩

section Reading

variable {n : Nat} {c : Char} {cs : List Char}

theorem acts_nil_iff {tag : List Char} :
    Acts n cs [] tag ↔ TagText tag ∧ tag <+: cs ∧ n % 2 = 0 := by
  constructor
  · rintro ⟨⟨after, rfl⟩, htag, heven⟩
    exact ⟨htag, List.prefix_append _ _, heven⟩
  · rintro ⟨htag, ⟨after, rfl⟩, heven⟩
    exact ⟨⟨after, rfl⟩, htag, heven⟩

theorem acts_cons_iff {x : Char} {before tag : List Char} :
    Acts n (c :: cs) (x :: before) tag ↔
      x = c ∧ Acts (if c = '\\' then n + 1 else 0) cs before tag := by
  constructor
  · rintro ⟨⟨after, he⟩, htag, heven⟩
    obtain ⟨rfl, rfl⟩ := List.cons.inj he
    exact ⟨rfl, ⟨after, rfl⟩, htag, heven⟩
  · rintro ⟨rfl, ⟨after, rfl⟩, htag, heven⟩
    exact ⟨⟨after, rfl⟩, htag, heven⟩

theorem tagText_prefix_iff {inner : List Char} :
    TagText ('[' :: (inner ++ [']'])) ∧ '[' :: (inner ++ [']']) <+: c :: cs ↔
      c = '[' ∧ isTag cs = true ∧ inner = cs.takeWhile (· != ']') := by
  constructor
  · rintro ⟨htag, after, he⟩
    obtain ⟨rfl, hcs⟩ := List.cons.inj he
    obtain rfl : inner ++ ']' :: after = cs := by simpa using hcs
    exact ⟨rfl, isTag_iff.mpr ⟨inner, after, rfl, htag⟩, (htag.takeWhile_eq after).symm⟩
  · rintro ⟨rfl, hcs, rfl⟩
    obtain ⟨inner, after, rfl, htag⟩ := isTag_iff.mp hcs
    rw [htag.takeWhile_eq]
    exact ⟨htag, after, by simp⟩

theorem exists_acts_cons_iff {position q : Nat} {tag : Tag} :
    (∃ before inner, Acts n (c :: cs) before ('[' :: (inner ++ [']'])) ∧
      q = position + before.length ∧ tag = .ofText inner) ↔
      ((c = '[' ∧ isTag cs = true ∧ n % 2 = 0) ∧
        (q, tag) = (position, .ofText (cs.takeWhile (· != ']')))) ∨
      ∃ before inner, Acts (if c = '\\' then n + 1 else 0) cs before ('[' :: (inner ++ [']'])) ∧
        q = position + 1 + before.length ∧ tag = .ofText inner := by
  constructor
  · rintro ⟨before, inner, hacts, rfl, rfl⟩
    cases before with
    | nil =>
      obtain ⟨htag, hprefix, heven⟩ := acts_nil_iff.mp hacts
      obtain ⟨hc, hcs, rfl⟩ := tagText_prefix_iff.mp ⟨htag, hprefix⟩
      exact .inl ⟨⟨hc, hcs, heven⟩, rfl⟩
    | cons x before =>
      obtain ⟨-, hacts⟩ := acts_cons_iff.mp hacts
      exact .inr ⟨before, inner, hacts, by rw [List.length_cons]; omega, rfl⟩
  · rintro (⟨⟨hc, hcs, heven⟩, he⟩ | ⟨before, inner, hacts, rfl, rfl⟩)
    · obtain ⟨rfl, rfl⟩ := Prod.mk.inj he
      obtain ⟨htag, hprefix⟩ := tagText_prefix_iff.mpr ⟨hc, hcs, rfl⟩
      exact ⟨[], _, acts_nil_iff.mpr ⟨htag, hprefix, heven⟩, rfl, rfl⟩
    · exact ⟨c :: before, inner, acts_cons_iff.mpr ⟨rfl, hacts⟩, by rw [List.length_cons]; omega, rfl⟩

theorem mem_activeTags_iff {position q : Nat} {tag : Tag} {text : List Char} :
    (q, tag) ∈ activeTags position n text ↔
      ∃ before inner, Acts n text before ('[' :: (inner ++ [']'])) ∧ q = position + before.length ∧
        tag = .ofText inner := by
  fun_induction activeTags position n text with
  | case1 position n =>
    refine iff_of_false List.not_mem_nil ?_
    rintro ⟨before, inner, hacts, -⟩
    exact quiet_of_not_mem List.not_mem_nil n _ _ hacts
  | case2 position n cs ih => rw [exists_acts_cons_iff, ih]; simp
  | case3 position n c cs hc htag ih => rw [exists_acts_cons_iff, List.mem_cons, ih]; simp [htag]
  | case4 position n c cs hc hnot ih => rw [exists_acts_cons_iff, ih]; simp [hc, hnot]

theorem activeTags_of_quiet {text : List Char} (h : Quiet n text) (position : Nat) :
    activeTags position n text = [] := by
  rw [List.eq_nil_iff_forall_not_mem]
  rintro ⟨q, tag⟩ hmem
  obtain ⟨before, inner, hacts, -⟩ := mem_activeTags_iff.mp hmem
  exact h _ _ hacts

end Reading

section Joining

theorem Seam.of_cons {c : Char} {a b : List Char} (h : Seam (c :: a) b) : Seam a b := by
  intro s t hs ht hsa htb
  exact h s t hs ht (hsa.trans (List.suffix_cons c a)) htb

theorem Seam.tagText_prefix {a b tag : List Char} (h : Seam a b) (htag : TagText tag)
    (hp : tag <+: a ++ b) (ha : a ≠ []) : tag <+: a := by
  obtain ⟨after, he⟩ := hp
  obtain ⟨cut, rfl, -⟩ | ⟨cut, rfl, rfl⟩ := List.append_eq_append_iff.mp he
  · exact List.prefix_append _ _
  · by_cases hcut : cut = []
    · exact ⟨[], by simp [hcut]⟩
    · exact absurd htag (h a cut ha hcut (List.suffix_refl a) (List.prefix_append _ _))

theorem Seam.isTag_append {a b : List Char} (h : Seam ('[' :: a) b) : isTag (a ++ b) = isTag a := by
  rw [Bool.eq_iff_iff]
  constructor
  · intro hab
    obtain ⟨htag, hp⟩ := tagText_prefix_iff.mpr ⟨rfl, hab, rfl⟩
    exact htag.isTag (h.tagText_prefix htag hp (List.cons_ne_nil _ _))
  · intro ha
    obtain ⟨htag, hp⟩ := tagText_prefix_iff.mpr ⟨rfl, ha, rfl⟩
    exact htag.isTag (hp.trans (List.prefix_append ('[' :: a) b))

theorem takeWhile_append_of_isTag {a : List Char} (h : isTag a = true) (b : List Char) :
    (a ++ b).takeWhile (· != ']') = a.takeWhile (· != ']') := by
  obtain ⟨inner, after, rfl, htag⟩ := isTag_iff.mp h
  rw [List.append_assoc, List.cons_append, htag.takeWhile_eq, htag.takeWhile_eq]

theorem activeTags_append {a b : List Char} (h : Seam a b) (position n : Nat) :
    activeTags position n (a ++ b) =
      activeTags position n a ++ activeTags (position + a.length) (slashesAfter n a) b := by
  induction a generalizing position n with
  | nil => simp [activeTags]
  | cons c a ih =>
    have hlength : position + (c :: a).length = position + 1 + a.length := by
      rw [List.length_cons]
      omega
    rw [List.cons_append, activeTags, activeTags, ih h.of_cons, ih h.of_cons, hlength]
    by_cases hc : c = '\\'
    · simp [hc, slashesAfter]
    · rw [if_neg hc, if_neg hc, slashesAfter_cons hc]
      by_cases hb : c = '['
      · subst hb
        rw [h.isTag_append]
        split
        · next htag => rw [takeWhile_append_of_isTag htag.2.1, List.cons_append]
        · rfl
      · rw [if_neg fun hand => hb hand.1, if_neg fun hand => hb hand.1]

theorem activeTags_words {n : Nat} {text rest : List Char} (hquiet : Quiet n text)
    (hseam : Seam text rest) (position : Nat) :
    activeTags position n (text ++ rest) =
      activeTags (position + text.length) (slashesAfter n text) rest := by
  rw [activeTags_append hseam, activeTags_of_quiet hquiet, List.nil_append]

theorem activeTags_tag {inner : List Char} (h : TagText ('[' :: (inner ++ [']']))) (position n : Nat)
    (rest : List Char) :
    activeTags position n ('[' :: (inner ++ [']']) ++ rest) =
      (if n % 2 = 0 then [(position, .ofText inner)] else []) ++
        activeTags (position + (inner.length + 2)) 0 rest := by
  have htag : isTag (inner ++ [']']) = true := isTag_iff.mpr ⟨inner, [], rfl, h⟩
  have hquiet : Quiet 0 (inner ++ [']']) := by
    refine quiet_of_not_mem (fun hmem => ?_) 0
    obtain hmem | hmem := List.mem_append.mp hmem
    · cases h.inner_ne '[' hmem
    · simp at hmem
  have hslashes : slashesAfter n ('[' :: inner ++ [']']) = 0 := slashesAfter_concat n _ ']'
  have hseam : Seam ('[' :: inner ++ [']']) rest := seam_of_closed _ _
  rw [← List.cons_append] at h ⊢
  rw [activeTags_append hseam, hslashes, List.cons_append, activeTags, if_neg (by decide),
    activeTags_of_quiet hquiet, h.takeWhile_eq]
  simp [htag]

end Joining

section Paths

theorem tagText_path : TagText ('[' :: ("path".toList ++ [']'])) :=
  @TagText.mk 'p' ['a', 't', 'h'] rfl (by simp [isBracket])

theorem tagText_endPath : TagText ('[' :: ("/path".toList ++ [']'])) :=
  @TagText.mk '/' ['p', 'a', 't', 'h'] rfl (by simp [isBracket])

/-- A message with an escaped path between its tags has no other tags; the second one may not act. -/
theorem activeTags_path {lead tail : String} (hlead : '[' ∉ lead.toList)
    (hslashes : slashesAfter 0 lead.toList = 0) (path : String) (htail : Quiet 0 tail.toList) :
    ∃ first second, activeTags 0 0 (lead ++ pathMarkup path ++ tail).toList =
      (first, .ofText "path".toList) ::
        if slashesAfter 0 (escape path).toList % 2 = 0 then [(second, .ofText "/path".toList)]
        else [] := by
  have htext : (lead ++ pathMarkup path ++ tail).toList =
      lead.toList ++ ('[' :: ("path".toList ++ [']']) ++
        ((escape path).toList ++ ('[' :: ("/path".toList ++ [']']) ++ tail.toList))) := by
    simp [pathMarkup]
  have hseam : Seam (escape path).toList ('[' :: ("/path".toList ++ [']']) ++ tail.toList) :=
    seam_of_right _ (by simp [isBracket])
  rw [htext, activeTags_words (quiet_of_not_mem hlead 0) (seam_of_left hlead _), hslashes,
    activeTags_tag tagText_path, activeTags_words (quiet_escape path) hseam,
    activeTags_tag tagText_endPath, activeTags_of_quiet htail, if_pos rfl, List.append_nil,
    List.singleton_append]
  exact ⟨_, _, rfl⟩

end Paths

namespace Styles

variable (styles : Styles)

theorem fault?_of_quiet {message : String} (h : Quiet 0 message.toList) : styles.fault? message = none := by
  rw [fault?, activeTags_of_quiet h]
  rfl

theorem readTag_of_open {tag : Tag} (h : tag.closes? = none) (opened : List Tag) (position : Nat) :
    styles.readTag opened position tag = .ok (⟨styles.normal tag.name, tag.parameters⟩ :: opened) := by
  simp only [readTag, h]

/-- A style without parameters can be closed when it is the innermost one, under any name that has the same
form. -/
theorem readTag_of_closes {tag : Tag} {name : String} (h : tag.closes? = some name) (hname : name ≠ "")
    (opened : List Tag) (position : Nat) :
    styles.readTag (⟨styles.normal name, none⟩ :: opened) position tag = .ok opened := by
  have hhandler : Tag.handler? ⟨styles.normal name, none⟩ = none := by simp [Tag.handler?]
  unfold readTag
  rw [h]
  split
  · next he => cases he
  · next he => exact absurd (Option.some.inj he) hname
  · next he =>
    obtain rfl := Option.some.inj he
    simp [close, hhandler]

theorem readTags_cons_of_ok {opened next : List Tag} {position : Nat} {tag : Tag}
    (h : styles.readTag opened position tag = .ok next) (tags : List (Nat × Tag)) :
    styles.readTags opened ((position, tag) :: tags) = styles.readTags next tags := by
  rw [readTags, h]
  rfl

theorem fault?_path {lead tail : String} (hlead : '[' ∉ lead.toList)
    (hslashes : slashesAfter 0 lead.toList = 0) (path : String) (htail : Quiet 0 tail.toList) :
    styles.fault? (lead ++ pathMarkup path ++ tail) = none := by
  have hopens : (Tag.ofText "path".toList).closes? = none := by decide +kernel
  have hcloses : (Tag.ofText "/path".toList).closes? = some "path" := by decide +kernel
  have hpath : Tag.ofText "path".toList = ⟨"path", none⟩ := by decide +kernel
  have hopen := fun position => styles.readTag_of_open hopens [] position
  rw [hpath] at hopen
  have hclose := fun position => styles.readTag_of_closes hcloses (by decide) [] position
  obtain ⟨first, second, htags⟩ := activeTags_path hlead hslashes path htail
  rw [fault?, htags, hpath, styles.readTags_cons_of_ok (hopen first)]
  split
  · rfl
  · next fault he =>
    split at he
    · rw [styles.readTags_cons_of_ok (hclose second)] at he
      cases he
    · cases he

end Styles

end CallCompiler.Console
