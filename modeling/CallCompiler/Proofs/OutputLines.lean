import CallCompiler.Proofs.Layout
import CallCompiler.Proofs.Lines
import Mathlib.Algebra.GroupWithZero.Nat

/-!
The lines of a compiled program. Its elements are separated by line feeds, so each has a line of its own as
long as no string brings line feeds with it.
-/
namespace CallCompiler

namespace Text

def lines (s : String) : List String := (s.toList.splitOn '\n').map String.ofList

def lineFeeds (s : String) : Nat := s.toList.count '\n'

@[simp] theorem lineFeeds_append (s t : String) : lineFeeds (s ++ t) = lineFeeds s + lineFeeds t := by
  simp [lineFeeds]

theorem lineFeeds_eq_zero_iff {s : String} : lineFeeds s = 0 ↔ '\n' ∉ s.toList := List.count_eq_zero

theorem length_splitOn (c : Char) (cs : List Char) : (cs.splitOn c).length = cs.count c + 1 := by
  induction cs with
  | nil => rfl
  | cons d cs ih =>
    rw [List.splitOn_cons_eq_if_modifyHead, List.count_cons]
    by_cases h : d = c
    · simp [h, ih]
    · simp [h, ih]

theorem length_lines (s : String) : (lines s).length = lineFeeds s + 1 := by
  rw [lines, List.length_map, length_splitOn, lineFeeds]

theorem toList_join (separator : String) (texts : List String) :
    (join separator texts).toList = separator.toList.intercalate (texts.map String.toList) := by
  induction texts with
  | nil => rfl
  | cons s texts ih =>
    cases texts with
    | nil => simp
    | cons t texts =>
      rw [join_cons_cons, String.toList_append, String.toList_append, ih, List.map_cons, List.map_cons,
        List.map_cons, List.intercalate_cons_cons]

theorem lines_join {texts : List String} (hne : texts ≠ []) (h : ∀ s ∈ texts, '\n' ∉ s.toList) :
    lines (join "\n" texts) = texts := by
  have hsep : "\n".toList = ['\n'] := rfl
  have hsplit : (['\n'].intercalate (texts.map String.toList)).splitOn '\n' =
      texts.map String.toList := by
    refine List.splitOn_intercalate '\n' ?_ (by simpa using hne)
    simpa using h
  rw [lines, toList_join, hsep, hsplit, List.map_map]
  simp [Function.comp_def]

theorem lineFeeds_join (separator : String) {texts : List String} (hne : texts ≠ []) :
    lineFeeds (join separator texts) + lineFeeds separator =
      (texts.map lineFeeds).sum + texts.length * lineFeeds separator := by
  induction texts with
  | nil => exact absurd rfl hne
  | cons s texts ih =>
    cases texts with
    | nil => simp
    | cons t texts =>
      have hi := ih (List.cons_ne_nil t texts)
      rw [join_cons_cons, lineFeeds_append, lineFeeds_append, List.map_cons, List.sum_cons,
        List.length_cons, Nat.succ_mul]
      omega

theorem length_lines_join {texts : List String} (hne : texts ≠ []) :
    (lines (join "\n" texts)).length = texts.length + (texts.map lineFeeds).sum := by
  have hone : lineFeeds "\n" = 1 := rfl
  have hjoin := lineFeeds_join "\n" hne
  rw [hone] at hjoin
  rw [length_lines]
  omega

theorem lineFeeds_join_of_eq_zero {separator : String} (h : lineFeeds separator = 0)
    (texts : List String) : lineFeeds (join separator texts) = (texts.map lineFeeds).sum := by
  by_cases hne : texts = []
  · rw [hne]
    rfl
  · have hjoin := lineFeeds_join separator hne
    rw [h] at hjoin
    omega

def endsIn (c : Char) (s : String) : Bool := s.toList.getLast? == some c

theorem endsIn_append (c : Char) (s : String) {t : String} (ht : t ≠ "") :
    endsIn c (s ++ t) = endsIn c t := by
  have hne : t.toList ≠ [] := by simpa using ht
  rw [endsIn, endsIn, String.toList_append, List.getLast?_append_of_ne_nil _ hne]

theorem endsIn_eq_false {c : Char} {s : String} (h : c ∉ s.toList) : endsIn c s = false := by
  rw [endsIn, beq_eq_false_iff_ne]
  intro hlast
  exact h (List.mem_of_getLast? hlast)

end Text

open Source Token

theorem Target.map_render_of_renderAll {nodes : List Target.Node} {texts : List String}
    (h : renderAll nodes = .ok texts) : nodes.map render = texts.map .ok := by
  induction nodes generalizing texts with
  | nil =>
    obtain rfl : [] = texts := Except.ok.inj h
    rfl
  | cons node nodes ih =>
    rw [renderAll] at h
    cases h1 : render node with
    | error f => simp [h1, bind, Except.bind] at h
    | ok text =>
      cases h2 : renderAll nodes with
      | error f => simp [h1, h2, bind, Except.bind] at h
      | ok others =>
        obtain rfl : text :: others = texts := by
          simpa [h1, h2, bind, Except.bind, pure, Except.pure] using h
        rw [List.map_cons, List.map_cons, h1, ih h2]

namespace Source

theorem Node.lineFeeds_call (inCall : Bool) (name : String) (params : List Node) :
    ((Node.texts inCall (.call name params)).map Text.lineFeeds).sum =
      Text.lineFeeds name + ((Node.textsAll true params).map Text.lineFeeds).sum := by
  have hmarks : Text.lineFeeds "(" = 0 ∧ Text.lineFeeds ")" = 0 ∧ Text.lineFeeds ";" = 0 :=
    ⟨rfl, rfl, rfl⟩
  have hjoin := Text.lineFeeds_join_of_eq_zero (by decide : Text.lineFeeds ", " = 0)
    (Node.textsAll true params)
  cases inCall <;> simp [Node.texts, hmarks, hjoin]

theorem sum_lineFeeds_texts {ts : List Token} {nodes : List Node} (h : Expressions ts nodes)
    (inCall : Bool) :
    ((Node.textsAll inCall nodes).map Text.lineFeeds).sum =
      (ts.map fun t => Text.lineFeeds t.text).sum := by
  induction h using Expressions.sequence generalizing inCall with
  | nil => rfl
  | literal t node ts nodes hl _ ih =>
    have hquote : Text.lineFeeds "\"" = 0 := rfl
    rw [Node.textsAll, List.map_append, List.sum_append, ih, List.map_cons, List.sum_cons]
    cases hl with
    | number text => simp [Node.texts]
    | string text => simp [Node.texts, hquote]
  | call name us params ts nodes _ _ _ ihu iht =>
    have hparens : Text.lineFeeds openParen.text = 0 ∧ Text.lineFeeds closeParen.text = 0 :=
      ⟨rfl, rfl⟩
    rw [Node.textsAll, List.map_append, List.sum_append, iht, Node.lineFeeds_call, ihu]
    simp [hparens, Nat.add_assoc]

theorem map_endsIn_texts {ts : List Token} {nodes : List Node} (h : Expressions ts nodes)
    (hw : ∀ t ∈ ts, t.WellFormed) :
    (Node.textsAll false nodes).map (Text.endsIn ';') = nodes.map Node.isCall := by
  induction h using Expressions.sequence with
  | nil => rfl
  | literal t node ts nodes hl _ ih =>
    rw [Node.textsAll, List.map_append, ih fun u hu => hw u (List.mem_cons_of_mem t hu), List.map_cons]
    cases hl with
    | number text =>
      have hdigits : ∀ c ∈ text.toList, Text.isDigit c = true := (hw ⟨.number, text⟩ (by simp)).2
      have hnot : ';' ∉ text.toList := fun hc => absurd (hdigits ';' hc) (by decide)
      simp [Node.texts, Text.endsIn_eq_false hnot, Node.isCall]
    | string text =>
      have hquote : Text.endsIn ';' "\"" = false := rfl
      simp [Node.texts, Text.endsIn_append, hquote, Node.isCall]
  | call name us params ts nodes _ _ _ _ iht =>
    have hsemicolon : Text.endsIn ';' ";" = true := rfl
    rw [Node.textsAll, List.map_append, iht fun u hu => hw u (by simp [hu]), List.map_cons]
    simp [Node.texts, Text.endsIn_append, hsemicolon, Node.isCall]

end Source

/-- Each element of a program has a line of its own, which is its rendering, and ends with a semicolon if
and only if the element is a call. -/
structure OneLineEach (body : List Source.Node) (targets : List Target.Node) (out : String) : Prop where
  length_eq : (Text.lines out).length = body.length
  rendered : targets.map Target.render = (Text.lines out).map .ok
  semicolons : (Text.lines out).map (Text.endsIn ';') = body.map Source.Node.isCall

theorem lineFeeds_eq_zero_of_wellFormed {t : Token} (ht : t.WellFormed) (hk : t.kind ≠ .string) :
    Text.lineFeeds t.text = 0 := by
  obtain ⟨kind, text⟩ := t
  rw [Text.lineFeeds_eq_zero_iff]
  cases kind with
  | paren => obtain rfl | rfl : text = "(" ∨ text = ")" := ht <;> decide
  | name => exact fun hc => absurd (ht.2 '\n' hc) (by decide)
  | number => exact fun hc => absurd (ht.2 '\n' hc) (by decide)
  | string => exact absurd rfl hk

theorem sum_lineFeeds_eq_zero_iff {tokens : List Token} (hw : ∀ t ∈ tokens, t.WellFormed) :
    (tokens.map fun t => Text.lineFeeds t.text).sum = 0 ↔
      ∀ t ∈ tokens, t.kind = .string → '\n' ∉ t.text.toList := by
  simp only [List.sum_eq_zero_iff_forall_eq_nat, List.forall_mem_map]
  constructor
  · intro h t ht _
    exact Text.lineFeeds_eq_zero_iff.mp (h t ht)
  · intro h t ht
    by_cases hk : t.kind = .string
    · exact Text.lineFeeds_eq_zero_iff.mpr (h t ht hk)
    · exact lineFeeds_eq_zero_of_wellFormed (hw t ht) hk

/-- A program is rendered as its elements with a line feed between them, so there are as many lines as
elements, and as many more as there are line feeds in its tokens. Each element has a line of its own exactly
if no string of the program has a line feed in it. -/
theorem compile_one_line_each_iff {source : String} {tokens : List Token} {body : List Source.Node}
    (hl : lex source = .ok tokens) (hp : parse tokens = .ok (.program body)) (hne : body ≠ []) :
    ∃ out targets texts, compile source = .ok out ∧
      (Source.Node.program body).lower = .ok (.program targets) ∧
      out = Text.join "\n" texts ∧ targets.map Target.render = texts.map .ok ∧
      texts.map (Text.endsIn ';') = body.map Source.Node.isCall ∧
      (Text.lines out).length = body.length + (tokens.map fun t => Text.lineFeeds t.text).sum ∧
      (OneLineEach body targets out ↔ ∀ t ∈ tokens, t.kind = .string → '\n' ∉ t.text.toList) := by
  obtain ⟨body', he, hx⟩ := expressions_of_parse hp
  obtain rfl := Source.Node.program.inj he
  have hw := wellFormed_of_lex hl
  have hrender := Target.map_render_of_renderAll (Target.renderAll_emitAll false body)
  have hends := map_endsIn_texts hx hw
  have hlength : (Source.Node.textsAll false body).length = body.length := by
    have h := congrArg List.length hends
    rwa [List.length_map, List.length_map] at h
  have htexts : Source.Node.textsAll false body ≠ [] := by
    rw [← List.length_pos_iff, hlength, List.length_pos_iff]
    exact hne
  have hsum := sum_lineFeeds_texts hx false
  have hlines := Text.length_lines_join htexts
  rw [hlength, hsum] at hlines
  refine ⟨_, _, Source.Node.textsAll false body, compile_eq_ok_iff.mpr ⟨tokens, body, hl, hx, rfl⟩,
    Source.Node.lower_of_known hx.known, rfl, hrender, hends, hlines, ?_⟩
  rw [← sum_lineFeeds_eq_zero_iff hw]
  constructor
  · intro h
    have heq := h.length_eq
    omega
  · intro h
    have hplain : Text.lines (Text.join "\n" (Source.Node.textsAll false body)) =
        Source.Node.textsAll false body := by
      refine Text.lines_join htexts fun text ht => Text.lineFeeds_eq_zero_iff.mp ?_
      rw [← hsum, List.sum_eq_zero_iff_forall_eq_nat] at h
      exact h _ (List.mem_map_of_mem ht)
    exact ⟨by rw [hplain, hlength], by rw [hplain]; exact hrender, by rw [hplain, hends]⟩

theorem compile_one_line_each_iff_plain :
    lex "(f \"a b\") \"c\" 7" = .ok [openParen, ⟨.name, "f"⟩, ⟨.string, "a b"⟩, closeParen,
      ⟨.string, "c"⟩, ⟨.number, "7"⟩] ∧
    compile "(f \"a b\") \"c\" 7" = .ok "f(\"a b\");\n\"c\"\n7" ∧
    ∃ targets, OneLineEach [.call "f" [.string "a b"], .string "c", .number "7"] targets
      "f(\"a b\");\n\"c\"\n7" := by
  have hl : lex "(f \"a b\") \"c\" 7" = .ok [openParen, ⟨.name, "f"⟩, ⟨.string, "a b"⟩, closeParen,
      ⟨.string, "c"⟩, ⟨.number, "7"⟩] := by decide +kernel
  have hc : compile "(f \"a b\") \"c\" 7" = .ok "f(\"a b\");\n\"c\"\n7" := by decide +kernel
  have hp : parse [openParen, ⟨.name, "f"⟩, ⟨.string, "a b"⟩, closeParen, ⟨.string, "c"⟩,
      ⟨.number, "7"⟩] = .ok (.program [.call "f" [.string "a b"], .string "c", .number "7"]) := rfl
  obtain ⟨out, targets, texts, hout, -, -, -, -, -, hiff⟩ :=
    compile_one_line_each_iff hl hp (List.cons_ne_nil _ _)
  obtain rfl := Except.ok.inj (hout.symm.trans hc)
  exact ⟨hl, hc, targets, hiff.mpr (by decide)⟩

/-- A string with a line feed in it is one element and two lines. -/
theorem compile_lineFeed_in_string :
    lex "\"a\nb\"" = .ok [⟨.string, "a\nb"⟩] ∧
    parse [⟨.string, "a\nb"⟩] = .ok (.program [.string "a\nb"]) ∧
    compile "\"a\nb\"" = .ok "\"a\nb\"" ∧ Text.lines "\"a\nb\"" = ["\"a", "b\""] ∧
    ∀ targets, ¬OneLineEach [.string "a\nb"] targets "\"a\nb\"" := by
  refine ⟨by decide +kernel, rfl, by decide +kernel, by decide +kernel, fun targets h => ?_⟩
  have heq := h.length_eq
  have hlines : (Text.lines "\"a\nb\"").length = 2 := by decide +kernel
  rw [hlines] at heq
  cases heq

end CallCompiler
