import CallCompiler.Proofs.Layout
import CallCompiler.Proofs.Lines
import CallCompiler.Proofs.QuoteParity

/-!
What a compilation does to the tokens of a program. With its commas and semicolons blanked out, the
rendered text reads as the tokens of the source, where each call name has moved in front of its
parenthesis; so the rendered text and the tokens of the source determine each other.
-/
namespace CallCompiler

namespace Token

def spaceOut (cs : List Char) : List Char :=
  cs.mapIdx fun p c => if (c = ',' ∨ c = ';') ∧ Exposed cs p then ' ' else c

theorem exposed_append_left {cs : List Char} (rest : List Char) {p : Nat} (h : p ≤ cs.length) :
    Exposed (cs ++ rest) p ↔ Exposed cs p := by
  rw [Exposed, Exposed, List.take_append_of_le_length h]

theorem spaceOut_append {cs : List Char} (h : Even (cs.count '"')) (rest : List Char) :
    spaceOut (cs ++ rest) = spaceOut cs ++ spaceOut rest := by
  have hleft : cs.mapIdx (fun p c =>
      if (c = ',' ∨ c = ';') ∧ Exposed (cs ++ rest) p then ' ' else c) = spaceOut cs := by
    apply List.mapIdx_eq_mapIdx_iff.mpr
    intro p hp
    simp only [exposed_append_left rest (Nat.le_of_lt hp)]
  have hright : rest.mapIdx (fun p c =>
      if (c = ',' ∨ c = ';') ∧ Exposed (cs ++ rest) (p + cs.length) then ' ' else c) =
      spaceOut rest := by
    simp only [Nat.add_comm _ cs.length, exposed_append h]
    rfl
  rw [spaceOut, List.mapIdx_append, hleft, hright]

theorem spaceOut_eq_self {cs : List Char}
    (h : ∀ p c, cs[p]? = some c → c = ',' ∨ c = ';' → ¬Exposed cs p) : spaceOut cs = cs := by
  apply List.ext_getElem?
  intro p
  rw [spaceOut, List.getElem?_mapIdx]
  cases hc : cs[p]? with
  | none => rfl
  | some c =>
    rw [Option.map_some, if_neg]
    intro hs
    exact h p c hc hs.1 hs.2

def Spacer (c : Char) : Prop := Text.isBlank c = true ∨ c = ',' ∨ c = ';'

theorem Spacer.count_quote {c : Char} (h : Spacer c) : [c].count '"' = 0 := by
  apply List.count_eq_zero_of_not_mem
  intro hm
  obtain rfl := List.mem_singleton.mp hm
  exact absurd h (by simp [Spacer, Text.isBlank])

theorem spaceOut_spacer {c : Char} (h : Spacer c) (rest : List Char) :
    ∃ b, Text.isBlank b = true ∧ spaceOut (c :: rest) = b :: spaceOut rest := by
  have hcut : spaceOut ([c] ++ rest) = spaceOut [c] ++ spaceOut rest :=
    spaceOut_append (by simp [h.count_quote]) rest
  by_cases hs : c = ',' ∨ c = ';'
  · refine ⟨' ', by decide, ?_⟩
    rw [← List.singleton_append, hcut]
    simp [spaceOut, hs, Exposed]
  · refine ⟨c, h.resolve_right hs, ?_⟩
    rw [← List.singleton_append, hcut]
    simp [spaceOut, hs]

structure Reads (cs : List Char) (ts : List Token) : Prop where
  even : Even (cs.count '"')
  lexed : lexFrom 0 (.outside .none) (spaceOut cs) = .ok ts

theorem reads_nil : Reads [] [] := ⟨by simp, rfl⟩

theorem Reads.append {cs rest : List Char} {ts us : List Token} (hc : Reads cs ts)
    (hr : Reads rest us) (ha : Apart (spaceOut rest)) : Reads (cs ++ rest) (ts ++ us) := by
  refine ⟨?_, ?_⟩
  · rw [List.count_append]
    exact hc.even.add hr.even
  · rw [spaceOut_append hc.even, lexFrom_append hc.lexed 0 ha, lexFrom_shift hr.lexed, prepend_ok]

theorem Reads.space {c : Char} (h : Spacer c) {rest : List Char} {us : List Token}
    (hr : Reads rest us) : Reads (c :: rest) us := by
  obtain ⟨b, hb, hs⟩ := spaceOut_spacer h rest
  refine ⟨?_, ?_⟩
  · rw [← List.singleton_append, List.count_append, h.count_quote, Nat.zero_add]
    exact hr.even
  · rw [hs, lexFrom_blank 0 _ hb, lexFrom_shift hr.lexed]

theorem Reads.spaces {gap : List Char} (h : ∀ c ∈ gap, Spacer c) {rest : List Char}
    {us : List Token} (hr : Reads rest us) : Reads (gap ++ rest) us := by
  induction gap with
  | nil => exact hr
  | cons c gap ih =>
    exact Reads.space (h c (by simp)) (ih fun d hd => h d (List.mem_cons_of_mem c hd))

theorem apart_spacer {c : Char} (h : Spacer c) (rest : List Char) : Apart (spaceOut (c :: rest)) := by
  obtain ⟨b, hb, hs⟩ := spaceOut_spacer h rest
  rw [hs]
  exact apart_blank hb _

theorem WellFormed.role_spell {t : Token} (ht : t.WellFormed) (hs : t.kind ≠ .string) :
    ∀ c ∈ t.spell, role c = .paren ∨ role c = .digit ∨ role c = .letter := by
  intro c hc
  by_cases hk : t.kind.isRun
  · rw [spell_of_isRun hk] at hc
    cases role_of_member ((ht.members hk).2 c hc) with
    | inl hd => exact .inr (.inl hd.2)
    | inr hl => exact .inr (.inr hl.2)
  · obtain ⟨kind, text⟩ := t
    cases kind with
    | number => exact absurd (.inl rfl) hk
    | name => exact absurd (.inr rfl) hk
    | string => exact absurd rfl hs
    | paren =>
      left
      cases ht with
      | inl hp =>
        obtain rfl : text = "(" := hp
        obtain rfl : c = '(' := by simpa [spell] using hc
        decide
      | inr hp =>
        obtain rfl : text = ")" := hp
        obtain rfl : c = ')' := by simpa [spell] using hc
        decide

theorem WellFormed.spaceOut_spell {t : Token} (ht : t.WellFormed) :
    Even (t.spell.count '"') ∧ spaceOut t.spell = t.spell := by
  by_cases hs : t.kind = .string
  · obtain ⟨kind, text⟩ := t
    subst hs
    have hb : '"' ∉ text.toList := ht
    refine ⟨(closed_string hb).even, spaceOut_eq_self fun p c hc hsep => ?_⟩
    cases p with
    | zero =>
      obtain rfl : '"' = c := by simpa [spell] using hc
      exact absurd hsep (by decide)
    | succ p =>
      have hlt := (List.getElem?_eq_some_iff.mp hc).1
      have hp : p ≤ text.toList.length := by
        simp only [spell, List.length_cons, List.length_append, List.length_nil] at hlt
        omega
      exact not_exposed_inside hb ['"'] hp
  · have hrole := ht.role_spell hs
    have hq : '"' ∉ t.spell := fun hm => absurd (hrole _ hm) (by decide)
    refine ⟨by simp [List.count_eq_zero_of_not_mem hq], spaceOut_eq_self fun p c hc hsep => ?_⟩
    have hr := hrole c (List.mem_of_getElem? hc)
    cases hsep with
    | inl he => exact absurd (he ▸ hr) (by decide)
    | inr he => exact absurd (he ▸ hr) (by decide)

theorem Reads.token {t : Token} (ht : t.WellFormed) {rest : List Char} {us : List Token}
    (hr : Reads rest us) (h : t.kind.isRun → startsWith t.kind.member (spaceOut rest) = false) :
    Reads (t.spell ++ rest) (t :: us) := by
  obtain ⟨heven, hs⟩ := ht.spaceOut_spell
  refine ⟨?_, ?_⟩
  · rw [List.count_append]
    exact heven.add hr.even
  · rw [spaceOut_append heven, hs, lexFrom_spell ht 0 _ h, lexFrom_shift hr.lexed]
    rfl

theorem WellFormed.apart_paren {t : Token} (ht : t.WellFormed) (hk : t.kind = .paren)
    (rest : List Char) : Apart (spaceOut (t.spell ++ rest)) := by
  obtain ⟨heven, hs⟩ := ht.spaceOut_spell
  obtain ⟨kind, text⟩ := t
  subst hk
  rw [spaceOut_append heven, hs]
  cases ht with
  | inl hp =>
    obtain rfl : text = "(" := hp
    exact apart_cons (by decide) (by decide) _
  | inr hp =>
    obtain rfl : text = ")" := hp
    exact apart_cons (by decide) (by decide) _

theorem reads_join {separator : String} (hne : separator.toList ≠ [])
    (hsep : ∀ c ∈ separator.toList, Spacer c) {texts : List String} {tss : List (List Token)}
    (h : List.Forall₂ (fun text ts => Reads text.toList ts) texts tss) :
    Reads (Text.join separator texts).toList tss.flatten := by
  induction h with
  | nil => exact reads_nil
  | @cons text ts texts tss htext hrest ih =>
    cases hrest with
    | nil => simpa using htext
    | @cons next us texts tss hnext hmore =>
      have htail := Reads.spaces hsep ih
      have ha : Apart (spaceOut
          (separator.toList ++ (Text.join separator (next :: texts)).toList)) := by
        cases hs : separator.toList with
        | nil => exact absurd hs hne
        | cons c gap => exact apart_spacer (hsep c (by simp [hs])) _
      have hr := htext.append htail ha
      rw [Text.join_cons_cons, String.toList_append, String.toList_append, List.append_assoc]
      exact hr

end Token

namespace Source
open Token

/-- Every opening parenthesis changes places with the token after it. -/
def swapNames : List Token → List Token
  | t :: name :: rest =>
    if t.isOpen then name :: t :: swapNames rest else t :: swapNames (name :: rest)
  | ts => ts

def unswapNames : List Token → List Token
  | name :: t :: rest =>
    if t.isOpen then t :: name :: unswapNames rest else name :: unswapNames (t :: rest)
  | ts => ts

theorem swapNames_open (name : Token) (rest : List Token) :
    swapNames (openParen :: name :: rest) = name :: openParen :: swapNames rest := by
  rw [swapNames, if_pos (isOpen_iff.mpr rfl)]

theorem swapNames_cons {t : Token} (h : t.isOpen = false) (rest : List Token) :
    swapNames (t :: rest) = t :: swapNames rest := by
  cases rest with
  | nil => rfl
  | cons u rest => simp [swapNames, h]

theorem swapNames_append {ts : List Token} {nodes : List Node} (h : Expressions ts nodes)
    (rest : List Token) : swapNames (ts ++ rest) = swapNames ts ++ swapNames rest := by
  induction h using Expressions.sequence generalizing rest with
  | nil => rfl
  | literal t node ts nodes hl _ ih =>
    have ho := hl.isOpen_eq_false
    rw [List.cons_append, swapNames_cons ho, swapNames_cons ho, ih, List.cons_append]
  | call name us params ts nodes _ _ _ ihu iht =>
    have hc : closeParen.isOpen = false := rfl
    simp only [List.cons_append, List.append_assoc, swapNames_open, ihu, swapNames_cons hc, iht]

/-- Not at an opening parenthesis, which would belong to the name before it. -/
def AfterName (ts : List Token) : Prop := ∀ t ∈ ts.head?, t.isOpen = false

theorem unswapNames_open (name : Token) (rest : List Token) :
    unswapNames (name :: openParen :: rest) = openParen :: name :: unswapNames rest := by
  rw [unswapNames, if_pos (isOpen_iff.mpr rfl)]

theorem unswapNames_cons (t : Token) {rest : List Token} (h : AfterName rest) :
    unswapNames (t :: rest) = t :: unswapNames rest := by
  cases rest with
  | nil => rfl
  | cons u rest =>
    have hu : u.isOpen = false := h u rfl
    simp [unswapNames, hu]

theorem afterName_swapNames {ts : List Token} {nodes : List Node} (h : Expressions ts nodes)
    {rest : List Token} (hr : AfterName rest) : AfterName (swapNames ts ++ rest) := by
  induction h using Expressions.sequence with
  | nil => exact hr
  | literal t node ts nodes hl _ _ =>
    rw [swapNames_cons hl.isOpen_eq_false]
    intro u hu
    obtain rfl := Option.some.inj hu
    exact hl.isOpen_eq_false
  | call name us params ts nodes hn _ _ _ _ =>
    rw [swapNames_open]
    intro t ht
    obtain rfl := Option.some.inj ht
    obtain hk | hk := hn.1 <;> simp [isOpen, hk]

theorem unswapNames_swapNames_append {ts : List Token} {nodes : List Node}
    (h : Expressions ts nodes) {rest : List Token} (hr : AfterName rest) :
    unswapNames (swapNames ts ++ rest) = ts ++ unswapNames rest := by
  induction h using Expressions.sequence generalizing rest with
  | nil => rfl
  | literal t node ts nodes hl ht ih =>
    rw [swapNames_cons hl.isOpen_eq_false, List.cons_append,
      unswapNames_cons t (afterName_swapNames ht hr), ih hr, List.cons_append]
  | call name us params ts nodes _ hu ht ihu iht =>
    -- what stands after the parameters is the closing parenthesis, which is no one's opening
    have hc : AfterName (closeParen :: (swapNames ts ++ rest)) := by
      intro t ht
      obtain rfl := Option.some.inj ht
      rfl
    rw [swapNames_open, swapNames_append hu, swapNames_cons rfl]
    simp only [List.cons_append, List.append_assoc]
    rw [unswapNames_open, ihu hc, unswapNames_cons _ (afterName_swapNames ht hr), iht hr]

theorem swapNames_inj {ts us : List Token} {nodes more : List Node} (ht : Expressions ts nodes)
    (hu : Expressions us more) (h : swapNames ts = swapNames us) : ts = us := by
  have hend : AfterName [] := fun _ hm => absurd hm (by simp)
  have h1 := unswapNames_swapNames_append ht hend
  have h2 := unswapNames_swapNames_append hu hend
  rw [h, h2] at h1
  simpa [unswapNames] using h1.symm

theorem Literal.texts {t : Token} {node : Node} (h : Literal t node) (inCall : Bool) :
    ∃ text, node.texts inCall = [text] ∧ text.toList = t.spell := by
  cases h with
  | number text => exact ⟨text, rfl, rfl⟩
  | string text => exact ⟨_, rfl, by simp [spell]⟩

theorem openParen_wellFormed : openParen.WellFormed := .inl rfl

theorem closeParen_wellFormed : closeParen.WellFormed := .inr rfl

theorem reads_call {name : Token} (hw : name.WellFormed) (hn : name.CallName)
    {args : List Char} {us : List Token} (ha : Reads args us) {tail : List Char}
    (htail : Reads tail []) :
    Reads (name.text.toList ++ '(' :: (args ++ ')' :: tail))
      (name :: openParen :: (us ++ [closeParen])) := by
  have hrun : name.kind.isRun := hn.1.symm
  have hclose : Reads (')' :: tail) [closeParen] :=
    Reads.token closeParen_wellFormed htail fun hk => absurd hk (by simp [Kind.isRun, closeParen])
  have hargs : Reads (args ++ ')' :: tail) (us ++ [closeParen]) :=
    ha.append hclose (closeParen_wellFormed.apart_paren rfl tail)
  have hopen : Reads ('(' :: (args ++ ')' :: tail)) (openParen :: (us ++ [closeParen])) :=
    Reads.token openParen_wellFormed hargs fun hk => absurd hk (by simp [Kind.isRun, openParen])
  rw [← spell_of_isRun hrun]
  exact Reads.token hw hopen fun _ => openParen_wellFormed.apart_paren rfl _ name.kind

theorem reads_texts {ts : List Token} {nodes : List Node} (h : Expressions ts nodes)
    (hw : ∀ t ∈ ts, t.WellFormed) (inCall : Bool) :
    ∃ tss, List.Forall₂ (fun text us => Reads text.toList us) (Node.textsAll inCall nodes) tss ∧
      tss.flatten = swapNames ts := by
  induction h using Expressions.sequence generalizing inCall with
  | nil => exact ⟨[], .nil, rfl⟩
  | literal t node ts nodes hl _ ih =>
    obtain ⟨tss, hall, hflat⟩ := ih (fun u hu => hw u (List.mem_cons_of_mem t hu)) inCall
    obtain ⟨text, htext, hspell⟩ := hl.texts inCall
    have hr : Reads text.toList [t] := by
      have ht := Reads.token (hw t (by simp)) reads_nil fun _ => rfl
      rwa [List.append_nil, ← hspell] at ht
    refine ⟨[t] :: tss, ?_, ?_⟩
    · rw [Node.textsAll, htext]
      exact .cons hr hall
    · rw [List.flatten_cons, hflat, swapNames_cons hl.isOpen_eq_false]
      rfl
  | call name us params ts nodes hn hu _ ihu iht =>
    obtain ⟨pss, hargs, hpflat⟩ := ihu (fun u hu => hw u (by simp [hu])) true
    obtain ⟨tss, hall, hflat⟩ := iht (fun u hu => hw u (by simp [hu])) inCall
    have hj : Reads (Text.join ", " (Node.textsAll true params)).toList (swapNames us) := by
      rw [← hpflat]
      exact reads_join (by simp) (by simp [Spacer, Text.isBlank]) hargs
    -- only a call that stands alone ends in a semicolon, which reads as nothing
    have htail : Reads (if inCall then [] else [';']) [] := by
      cases inCall with
      | true => exact reads_nil
      | false => exact Reads.space (.inr (.inr rfl)) reads_nil
    have hc := reads_call (hw name (by simp)) hn hj htail
    refine ⟨(name :: openParen :: (swapNames us ++ [closeParen])) :: tss, ?_, ?_⟩
    · refine .cons ?_ hall
      cases inCall <;> simpa using hc
    · rw [List.flatten_cons, hflat, swapNames_open, swapNames_append hu, swapNames_cons rfl]
      simp

end Source

open Source Token

theorem lex_spaceOut_of_compile {source out : String} {tokens : List Token} {body : List Node}
    (hl : lex source = .ok tokens) (hx : Expressions tokens body)
    (ho : out = Text.join "\n" (Node.textsAll false body)) :
    lex (String.ofList (spaceOut out.toList)) = .ok (swapNames tokens) := by
  obtain ⟨tss, hall, hflat⟩ := reads_texts hx (wellFormed_of_lex hl) false
  have hr : Reads out.toList tss.flatten := by
    rw [ho]
    exact reads_join (by simp) (by simp [Spacer, Text.isBlank]) hall
  rw [lex, String.toList_ofList, ← hflat]
  exact hr.lexed

/-- No token is lost, made up or moved, but for the names that go in front of their parentheses; and two
programs compile to the same text exactly if they have the same tokens. -/
theorem compile_keeps_tokens {source out : String} (h : compile source = .ok out) :
    (∃ tokens, lex source = .ok tokens ∧
      lex (String.ofList (spaceOut out.toList)) = .ok (swapNames tokens)) ∧
    ∀ other out', compile other = .ok out' →
      (compile source = compile other ↔ lex source = lex other) := by
  obtain ⟨tokens, body, hl, hx, ho⟩ := compile_eq_ok_iff.mp h
  refine ⟨⟨tokens, hl, lex_spaceOut_of_compile hl hx ho⟩, ?_⟩
  intro other out' h'
  obtain ⟨tokens', body', hl', hx', ho'⟩ := compile_eq_ok_iff.mp h'
  constructor
  · intro he
    obtain rfl : out = out' := Except.ok.inj (h.symm.trans (he.trans h'))
    have hs := (lex_spaceOut_of_compile hl hx ho).symm.trans (lex_spaceOut_of_compile hl' hx' ho')
    rw [hl, hl', swapNames_inj hx hx' (Except.ok.inj hs)]
  · intro he
    rw [compile, compile, he]

/-- A call with a number for its name, a string with separators in it, and the same tokens with other
blanks. -/
theorem compile_keeps_tokens_nested :
    compile "(add 2 (12 \"a,;)\"))" = .ok "add(2, 12(\"a,;)\"));" ∧
    (∃ tokens, lex "(add 2 (12 \"a,;)\"))" = .ok tokens ∧
      lex (String.ofList (spaceOut "add(2, 12(\"a,;)\"));".toList)) = .ok (swapNames tokens)) ∧
    compile "( add 2(12\"a,;)\") )" = .ok "add(2, 12(\"a,;)\"));" ∧
    (compile "(add 2 (12 \"a,;)\"))" = compile "( add 2(12\"a,;)\") )" ↔
      lex "(add 2 (12 \"a,;)\"))" = lex "( add 2(12\"a,;)\") )") := by
  have h : compile "(add 2 (12 \"a,;)\"))" = .ok "add(2, 12(\"a,;)\"));" := by decide +kernel
  have h' : compile "( add 2(12\"a,;)\") )" = .ok "add(2, 12(\"a,;)\"));" := by decide +kernel
  obtain ⟨hread, hsame⟩ := compile_keeps_tokens h
  exact ⟨h, hread, h', hsame _ _ h'⟩

end CallCompiler
