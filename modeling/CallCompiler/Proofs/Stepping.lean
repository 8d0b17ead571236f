import CallCompiler.Proofs.Prefixes
import CallCompiler.Source.Cursor

/-!
Reading in steps, in any order and after any fault. Every step takes tokens from where the cursor stands, so
what the cursor has passed is what the steps have read, and a fault leaves it just behind the token at
fault.
-/
namespace CallCompiler.Source
open Token Progress

theorem Expression.of_singleton {ts : List Token} {node : Node} (h : Expressions ts [node]) :
    Expression ts node := by
  cases h with
  | cons he hrest =>
    cases hrest with
    | nil => simpa using he

theorem Expression.length_pos {ts : List Token} {node : Node} (h : Expression ts node) :
    0 < ts.length := by
  cases h <;> simp

inductive CallTail : List Token → Node → Prop
  | intro {name : Token} {ts : List Token} {params : List Node} : name.CallName →
      Expressions ts params → CallTail (name :: (ts ++ [closeParen])) (.call name.text params)

theorem CallTail.length_pos {ts : List Token} {node : Node} (h : CallTail ts node) :
    0 < ts.length := by
  cases h
  simp

theorem callTail_iff {ts : List Token} {node : Node} :
    CallTail ts node ↔ Expression (openParen :: ts) node := by
  constructor
  · rintro ⟨hn, hp⟩
    exact .call hn hp
  · intro h
    cases h with
    | call hn hp => exact .intro hn hp

section FirstElement

theorem push_first (frames : List Frame) (node : Node) :
    push ⟨frames, [], false⟩ node = ⟨[], [node], false⟩ ∨
      (push ⟨frames, [], false⟩ node).element? = none ∧ (push ⟨frames, [], false⟩ node).done = [] := by
  cases frames with
  | nil => exact .inl rfl
  | cons frame frames => exact .inr ⟨rfl, rfl⟩

/-- As long as no element is complete there is none, and the first one that is complete is alone. -/
theorem step?_first {s next : Progress} {t : Token} (hd : s.done = []) (h : s.step? t = some next) :
    (∃ node, next = ⟨[], [node], false⟩) ∨ next.element? = none ∧ next.done = [] := by
  obtain ⟨frames, done, naming⟩ := s
  obtain rfl : done = [] := hd
  obtain ⟨rfl, -, rfl⟩ | ⟨rfl, node, -, rfl⟩ | ⟨rfl, -, rfl⟩ | ⟨rfl, -, name, params, frames, -, rfl⟩ :=
    step?_cases h
  · exact .inr ⟨rfl, rfl⟩
  · exact (push_first frames node).imp_left fun he => ⟨node, he⟩
  · refine .inr ⟨?_, rfl⟩
    simp [element?, atRest]
  · exact (push_first frames _).imp_left fun he => ⟨_, he⟩

theorem readElement_skip {s next : Progress} {t : Token} (hstep : s.step? t = some next)
    (hnone : next.element? = none) (rest : List Token) :
    readElement s (t :: rest) = readElement next rest := by
  simp only [readElement, hstep, hnone]

theorem readElement_last {s next : Progress} {t : Token} {node : Node}
    (hstep : s.step? t = some next) (hnode : next.element? = some node) (rest : List Token) :
    readElement s (t :: rest) = .done node rest := by
  simp only [readElement, hstep, hnode]

theorem readElement_eq_done {s : Progress} {ts rest : List Token} {node : Node} (hd : s.done = [])
    (h : readElement s ts = .done node rest) :
    ∃ before, ts = before ++ rest ∧ s.run? before = some ⟨[], [node], false⟩ := by
  induction ts generalizing s with
  | nil => cases h
  | cons t ts ih =>
    cases hstep : s.step? t with
    | none => simp [readElement, hstep] at h
    | some next =>
      obtain ⟨first, rfl⟩ | ⟨hnone, hnext⟩ := step?_first hd hstep
      · rw [readElement_last hstep rfl] at h
        cases h
        exact ⟨[t], rfl, run?_cons hstep []⟩
      · rw [readElement_skip hstep hnone] at h
        obtain ⟨before, rfl, hrun⟩ := ih hnext h
        exact ⟨t :: before, rfl, (run?_cons hstep before).trans hrun⟩

theorem element?_eq_none_of_frames {s : Progress} (h : s.frames ≠ []) : s.element? = none := by
  simp [element?, atRest, h]

theorem frames_push_ne_nil {s : Progress} (h : s.frames ≠ []) (node : Node) :
    (s.push node).frames ≠ [] := by
  rw [← List.length_pos_iff, length_frames_push, List.length_pos_iff]
  exact h

theorem readElement_expressions {ts : List Token} {nodes : List Node} (h : Expressions ts nodes)
    {s : Progress} (hs : s.naming = false) (hf : s.frames ≠ []) (rest : List Token) :
    readElement s (ts ++ rest) = readElement (s.pushAll nodes) rest := by
  induction h using Expressions.sequence generalizing s rest with
  | nil => rfl
  | literal t node ts nodes hl _ ih =>
    have hf' := frames_push_ne_nil hf node
    rw [List.cons_append, readElement_skip (step?_literal hs hl) (element?_eq_none_of_frames hf')]
    exact ih ((push_naming s node).trans hs) hf' rest
  | call name us params ts nodes hn _ _ ihu iht =>
    obtain ⟨frames, done, naming⟩ := s
    obtain rfl : naming = false := hs
    have hclose : (⟨⟨name.text, params.reverse⟩ :: frames, done, false⟩ : Progress).step?
        closeParen = some (push ⟨frames, done, false⟩ (.call name.text params)) := by
      simp [step?_close, close?]
    have hf' := frames_push_ne_nil (s := ⟨frames, done, false⟩) hf (.call name.text params)
    have hopened : (⟨frames, done, true⟩ : Progress).element? = none := by simp [element?, atRest]
    calc readElement ⟨frames, done, false⟩
            (openParen :: name :: (us ++ closeParen :: ts) ++ rest)
        = readElement ⟨⟨name.text, []⟩ :: frames, done, false⟩
            (us ++ closeParen :: (ts ++ rest)) := by
          rw [List.cons_append, readElement_skip (step?_open rfl) hopened, List.cons_append,
            readElement_skip (step?_name frames done hn) rfl, List.append_assoc, List.cons_append]
      _ = readElement ⟨⟨name.text, params.reverse⟩ :: frames, done, false⟩
            (closeParen :: (ts ++ rest)) := by
          rw [ihu rfl (List.cons_ne_nil _ _), pushAll_frame, List.append_nil]
      _ = readElement (push ⟨frames, done, false⟩ (.call name.text params)) (ts ++ rest) :=
          readElement_skip hclose (element?_eq_none_of_frames hf') _
      _ = _ := iht (push_naming _ _) hf' rest

theorem readElement_callTail {ts : List Token} {node : Node} (h : CallTail ts node)
    (rest : List Token) : readElement .opened (ts ++ rest) = .done node rest := by
  obtain @⟨name, us, params, hn, hp⟩ := h
  have hclose : (⟨[⟨name.text, params.reverse⟩], [], false⟩ : Progress).step? closeParen =
      some ⟨[], [.call name.text params], false⟩ := by
    simp [step?_close, close?, push]
  rw [List.cons_append, opened, readElement_skip (step?_name [] [] hn) rfl, List.append_assoc,
    readElement_expressions hp rfl (List.cons_ne_nil _ _), pushAll_frame, List.append_nil]
  exact readElement_last hclose rfl rest

theorem readElement_expression {ts : List Token} {node : Node} (h : Expression ts node)
    (rest : List Token) : readElement .start (ts ++ rest) = .done node rest := by
  cases h with
  | number text => exact readElement_last (step?_literal rfl (.number text)) rfl rest
  | string text => exact readElement_last (step?_literal rfl (.string text)) rfl rest
  | call hn hp =>
    rw [List.cons_append, readElement_skip (step?_open rfl) rfl]
    exact readElement_callTail (.intro hn hp) rest

theorem readElement_start_iff {ts rest : List Token} {node : Node} :
    readElement .start ts = .done node rest ↔ ∃ before, ts = before ++ rest ∧ Expression before node := by
  constructor
  · intro h
    obtain ⟨before, rfl, hrun⟩ := readElement_eq_done rfl h
    have hreached := reached_start.run hrun
    exact ⟨before, rfl, .of_singleton (hreached.expressions rfl)⟩
  · rintro ⟨before, rfl, he⟩
    exact readElement_expression he rest

theorem readElement_opened_iff {ts rest : List Token} {node : Node} :
    readElement .opened ts = .done node rest ↔ ∃ before, ts = before ++ rest ∧ CallTail before node := by
  constructor
  · intro h
    obtain ⟨before, rfl, hrun⟩ := readElement_eq_done rfl h
    have hopened : Reached .opened [openParen] := ⟨[], rfl, .outside .nil⟩
    have hreached := hopened.run hrun
    exact ⟨before, rfl, callTail_iff.mpr (.of_singleton (hreached.expressions rfl))⟩
  · rintro ⟨before, rfl, hc⟩
    exact readElement_callTail hc rest

end FirstElement

theorem readProgram_start_iff {ts rest : List Token} {tree : Node} :
    readProgram .start ts = .done tree rest ↔
      rest = [] ∧ ∃ body, tree = .program body ∧ Expressions ts body := by
  constructor
  · intro h
    exact ⟨(readProgram_eq_done_iff.mp h).1, expressions_of_parse (parse_eq_ok_iff.mpr ⟨rest, h⟩)⟩
  · rintro ⟨rfl, body, rfl, hx⟩
    obtain ⟨rest, h⟩ := parse_eq_ok_iff.mp (parse_of_expressions hx)
    obtain rfl := (readProgram_eq_done_iff.mp h).1
    exact h

/-- The tokens that a reading leaves are the last ones, and a token at fault stands just before them. -/
def Reading.StopsIn {α : Type} (ts : List Token) : Reading α → Prop
  | .done _ rest => rest <:+ ts
  | .stuck none rest => rest = []
  | .stuck (some t) rest => t :: rest <:+ ts

theorem Reading.StopsIn.cons {α : Type} {ts : List Token} {r : Reading α} (h : r.StopsIn ts)
    (t : Token) : r.StopsIn (t :: ts) := by
  cases r with
  | done result rest => exact h.trans (List.suffix_cons t ts)
  | stuck token rest =>
    cases token with
    | none => exact h
    | some u => exact List.IsSuffix.trans h (List.suffix_cons t ts)

theorem readElement_stopsIn (s : Progress) (ts : List Token) : (readElement s ts).StopsIn ts := by
  induction ts generalizing s with
  | nil => rfl
  | cons t ts ih =>
    rw [readElement]
    split
    · exact List.suffix_refl _
    · next next _ =>
      split
      · exact List.suffix_cons t ts
      · exact (ih next).cons t

theorem readProgram_stopsIn (s : Progress) (ts : List Token) : (readProgram s ts).StopsIn ts := by
  induction ts generalizing s with
  | nil =>
    rw [readProgram]
    split
    · exact List.suffix_refl _
    · rfl
  | cons t ts ih =>
    rw [readProgram]
    split
    · exact List.suffix_refl _
    · next next _ => exact (ih next).cons t

namespace Cursor

inductive Op
  | peek
  | consume
  | expression
  | call
  | parse

inductive Answer
  | token (token : Option Token)
  | tree (node : Node)

def apply (c : Cursor) : Op → Except Fault Answer × Cursor
  | .peek => (.ok (.token c.peek), c)
  | .consume => (c.consume.1.map fun t => .token (some t), c.consume.2)
  | .expression => (c.expression.1.map .tree, c.expression.2)
  | .call => (c.call.1.map .tree, c.call.2)
  | .parse => (c.parse.1.map .tree, c.parse.2)

def after (c : Cursor) (ops : List Op) : Cursor := ops.foldl (fun c op => (c.apply op).2) c

def span (c : Cursor) (position : Nat) : List Token := (c.tokens.take position).drop c.position

def Reads (c : Cursor) (position : Nat) : Op → Answer → Prop
  | .peek, answer => answer = .token c.tokens[c.position]? ∧ position = c.position
  | .consume, answer =>
    ∃ t, c.tokens[c.position]? = some t ∧ answer = .token (some t) ∧ position = c.position + 1
  | .expression, answer =>
    c.position < position ∧ ∃ node, Expression (c.span position) node ∧ answer = .tree node
  | .call, answer =>
    c.position < position ∧ ∃ node, CallTail (c.span position) node ∧ answer = .tree node
  | .parse, answer =>
    position = c.tokens.length ∧
      ∃ body, Expressions (c.span position) body ∧ answer = .tree (.program body)

structure Moves (c : Cursor) (op : Op) (answer : Except Fault Answer) (next : Cursor) : Prop where
  tokens_eq : next.tokens = c.tokens
  position_le : c.position ≤ next.position
  position_le_length : next.position ≤ c.tokens.length
  peeked : op = .peek → next = c
  consumed : op = .consume → (∃ a, answer = .ok a) ∧ next.position = c.position + 1 ∨
    (∃ f, answer = .error f) ∧ next = c ∧ c.position = c.tokens.length
  reads : ∀ a, answer = .ok a → Reads c next.position op a
  complete : ∀ a position, position ≤ c.tokens.length → Reads c position op a →
    answer = .ok a ∧ next.position = position
  fault : ∀ f, answer = .error f → ∃ (token : Option Token) (k : Nat),
    f = .unexpected token k ∧ c.tokens[k]? = token ∧ c.position ≤ k ∧
    (token ≠ none → next.position = k + 1) ∧
    (token = none → k = c.tokens.length ∧ next.position = k)

section Spans

variable {c : Cursor} {q : Nat} (hq : q ≤ c.tokens.length)
include hq

theorem length_span : (c.span q).length = q - c.position := by
  rw [span, List.length_drop, List.length_take]
  omega

theorem rest_eq_span_append (h : c.position ≤ q) : c.rest = c.span q ++ c.tokens.drop q := by
  have hlen : c.position ≤ (c.tokens.take q).length := by
    rw [List.length_take]
    omega
  rw [rest, span, ← List.drop_append_of_le_length hlen, List.take_append_drop]

theorem span_iff_done {P : List Token → Node → Prop} (hP : ∀ {ts node}, P ts node → 0 < ts.length)
    {r : Reading Node}
    (hr : ∀ {node rest}, r = .done node rest ↔ ∃ before, c.rest = before ++ rest ∧ P before node)
    (a : Answer) :
    (c.position < q ∧ ∃ node, P (c.span q) node ∧ a = .tree node) ↔
      ∃ node, a = .tree node ∧ c.position ≤ q ∧ r = .done node (c.tokens.drop q) := by
  constructor
  · rintro ⟨hlt, node, hp, rfl⟩
    have hle := Nat.le_of_lt hlt
    exact ⟨node, rfl, hle, hr.mpr ⟨_, rest_eq_span_append hq hle, hp⟩⟩
  · rintro ⟨node, rfl, hle, hdone⟩
    obtain ⟨before, he, hp⟩ := hr.mp hdone
    obtain rfl := List.append_cancel_right (he.symm.trans (rest_eq_span_append hq hle))
    have hpos := hP hp
    rw [length_span hq] at hpos
    exact ⟨by omega, node, hp, rfl⟩

theorem reads_expression_iff (a : Answer) :
    Reads c q .expression a ↔ ∃ node, a = .tree node ∧ c.position ≤ q ∧
      readElement .start c.rest = .done node (c.tokens.drop q) :=
  span_iff_done hq Expression.length_pos readElement_start_iff a

theorem reads_call_iff (a : Answer) :
    Reads c q .call a ↔ ∃ node, a = .tree node ∧ c.position ≤ q ∧
      readElement .opened c.rest = .done node (c.tokens.drop q) :=
  span_iff_done hq CallTail.length_pos readElement_opened_iff a

theorem reads_parse_iff (hc : c.position ≤ c.tokens.length) (a : Answer) :
    Reads c q .parse a ↔ ∃ node, a = .tree node ∧ c.position ≤ q ∧
      readProgram .start c.rest = .done node (c.tokens.drop q) := by
  have hend : c.span c.tokens.length = c.rest := by rw [span, List.take_length, rest]
  simp only [Reads, readProgram_start_iff, List.drop_eq_nil_iff]
  constructor
  · rintro ⟨rfl, body, hx, rfl⟩
    rw [hend] at hx
    exact ⟨_, rfl, hc, Nat.le_refl _, body, rfl, hx⟩
  · rintro ⟨node, rfl, -, hle, body, rfl, hx⟩
    obtain rfl := Nat.le_antisymm hq hle
    rw [← hend] at hx
    exact ⟨rfl, body, hx, rfl⟩

end Spans

theorem drop_eq_of_suffix {ts rest : List Token} (h : rest <:+ ts) :
    ts.drop (ts.length - rest.length) = rest := by
  obtain ⟨before, rfl⟩ := h
  simp

section Steps

variable {c : Cursor} (hc : c.position ≤ c.tokens.length)
include hc

theorem length_le_of_suffix {rest : List Token} (h : rest <:+ c.rest) :
    rest.length + c.position ≤ c.tokens.length := by
  have hle := h.length_le
  rw [Cursor.rest, List.length_drop] at hle
  omega

theorem faultIndex_spec {token : Option Token} {rest : List Token}
    (hs : (Reading.stuck token rest : Reading Node).StopsIn c.rest) {k : Nat}
    (hk : k = faultIndex c.tokens.length token rest) :
    c.tokens[k]? = token ∧ c.position ≤ k ∧
      (token ≠ none → c.tokens.length - rest.length = k + 1) ∧
      (token = none → k = c.tokens.length ∧ c.tokens.length - rest.length = k) := by
  cases token with
  | none =>
    obtain rfl : rest = [] := hs
    obtain rfl : k = c.tokens.length := hk
    exact ⟨List.getElem?_eq_none (Nat.le_refl _), hc, by simp, by simp⟩
  | some t =>
    have hlen := length_le_of_suffix hc hs
    rw [List.length_cons] at hlen
    have hk : k = c.tokens.length - (t :: rest).length := by
      rw [hk, faultIndex, List.length_cons, Option.isSome_some, if_pos rfl]
      omega
    have hdrop := drop_eq_of_suffix (List.IsSuffix.trans hs (List.drop_suffix _ _))
    rw [← hk] at hdrop
    rw [List.length_cons] at hk
    refine ⟨?_, by omega, by omega, by simp⟩
    rw [← List.head?_drop, hdrop, List.head?_cons]

theorem follow_moves {op : Op} (hpeek : op ≠ .peek) (hconsume : op ≠ .consume) {r : Reading Node}
    (hs : r.StopsIn c.rest)
    (hr : ∀ {q}, q ≤ c.tokens.length → ∀ a, Reads c q op a ↔
      ∃ node, a = .tree node ∧ c.position ≤ q ∧ r = .done node (c.tokens.drop q)) :
    Moves c op ((c.follow r).1.map .tree) (c.follow r).2 := by
  have hbound : (c.follow r).2.position ≤ c.tokens.length := Nat.sub_le _ _
  cases r with
  | done node rest =>
    have hlen := length_le_of_suffix hc hs
    have hposition : c.position ≤ c.tokens.length - rest.length := by omega
    have hdrop := drop_eq_of_suffix (List.IsSuffix.trans hs (List.drop_suffix _ _))
    refine ⟨rfl, hposition, hbound, fun h => absurd h hpeek, fun h => absurd h hconsume, ?_, ?_, ?_⟩
    · intro a ha
      cases ha
      exact (hr hbound _).mpr ⟨node, rfl, hposition, congrArg (Reading.done node) hdrop.symm⟩
    · intro a q hq hreads
      obtain ⟨other, rfl, -, he⟩ := (hr hq a).mp hreads
      obtain ⟨rfl, rfl⟩ := Reading.done.inj he
      refine ⟨rfl, ?_⟩
      change c.tokens.length - (c.tokens.drop q).length = q
      rw [List.length_drop]
      omega
    · intro f hf
      cases hf
  | stuck token rest =>
    obtain ⟨hfound, hle, hsome, hnone⟩ := faultIndex_spec hc hs rfl
    have hposition : c.position ≤ c.tokens.length - rest.length := by
      cases token with
      | none => exact (hnone rfl).2 ▸ hle
      | some t => rw [hsome (by simp)]; omega
    refine ⟨rfl, hposition, hbound, fun h => absurd h hpeek, fun h => absurd h hconsume, ?_, ?_, ?_⟩
    · intro a ha
      cases ha
    · intro a q hq hreads
      obtain ⟨node, -, -, he⟩ := (hr hq a).mp hreads
      cases he
    · intro f hf
      cases hf
      exact ⟨token, _, rfl, hfound, hle, hsome, hnone⟩

theorem peek_moves : Moves c .peek (.ok (.token c.peek)) c := by
  have hpeek : c.peek = c.tokens[c.position]? := List.head?_drop
  refine ⟨rfl, Nat.le_refl _, hc, fun _ => rfl, by simp, ?_, ?_, by simp⟩
  · intro a ha
    cases ha
    exact ⟨by rw [hpeek], rfl⟩
  · rintro a q - ⟨rfl, rfl⟩
    exact ⟨by rw [hpeek], rfl⟩

theorem consume_moves :
    Moves c .consume (c.consume.1.map fun t => .token (some t)) c.consume.2 := by
  cases hrest : c.rest with
  | nil =>
    have hend : c.position = c.tokens.length := by
      have hle : c.tokens.length ≤ c.position := List.drop_eq_nil_iff.mp hrest
      omega
    have hnone : c.tokens[c.position]? = none := List.getElem?_eq_none (by omega)
    have hconsume : c.consume = (.error (.unexpected none c.position), c) := by
      rw [consume, hrest]
    rw [hconsume]
    refine ⟨rfl, Nat.le_refl _, hc, by simp, ?_, by simp [Except.map], ?_, ?_⟩
    · exact fun _ => .inr ⟨⟨_, rfl⟩, rfl, hend⟩
    · rintro a q - ⟨t, ht, -, -⟩
      rw [hnone] at ht
      cases ht
    · intro f hf
      cases hf
      exact ⟨none, c.position, rfl, hnone, Nat.le_refl _, by simp, fun _ => ⟨hend, rfl⟩⟩
  | cons t rest =>
    have hsome : c.tokens[c.position]? = some t := by
      rw [← List.head?_drop]
      exact congrArg List.head? hrest
    have hlen : rest.length + 1 = c.tokens.length - c.position := by
      rw [← List.length_cons, ← hrest, Cursor.rest, List.length_drop]
    have hconsume : c.consume = (.ok t, c.advance rest) := by rw [consume, hrest]
    have hposition : (c.advance rest).position = c.position + 1 := by
      change c.tokens.length - rest.length = c.position + 1
      omega
    have hle : c.position ≤ (c.advance rest).position := by omega
    rw [hconsume]
    refine ⟨rfl, hle, Nat.sub_le _ _, by simp, ?_, ?_, ?_, by simp [Except.map]⟩
    · exact fun _ => .inl ⟨⟨_, rfl⟩, hposition⟩
    · intro a ha
      cases ha
      exact ⟨t, hsome, rfl, hposition⟩
    · rintro a q - ⟨u, hu, rfl, rfl⟩
      rw [hsome] at hu
      cases hu
      exact ⟨rfl, hposition⟩

theorem apply_moves (op : Op) : Moves c op (c.apply op).1 (c.apply op).2 := by
  cases op with
  | peek => exact peek_moves hc
  | consume => exact consume_moves hc
  | expression =>
    exact follow_moves hc (by simp) (by simp) (readElement_stopsIn _ _) reads_expression_iff
  | call => exact follow_moves hc (by simp) (by simp) (readElement_stopsIn _ _) reads_call_iff
  | parse =>
    exact follow_moves hc (by simp) (by simp) (readProgram_stopsIn _ _)
      fun hq => reads_parse_iff hq hc

end Steps

theorem after_spec {c : Cursor} (hc : c.position ≤ c.tokens.length) (ops : List Op) :
    (c.after ops).tokens = c.tokens ∧ c.position ≤ (c.after ops).position ∧
      (c.after ops).position ≤ c.tokens.length := by
  induction ops generalizing c with
  | nil => exact ⟨rfl, Nat.le_refl _, hc⟩
  | cons op ops ih =>
    have hm := apply_moves hc op
    have hnext : (c.apply op).2.position ≤ (c.apply op).2.tokens.length := by
      rw [hm.tokens_eq]
      exact hm.position_le_length
    obtain ⟨htokens, hle, hlength⟩ := ih hnext
    rw [hm.tokens_eq] at htokens hlength
    exact ⟨htokens, Nat.le_trans hm.position_le hle, hlength⟩

/-- Whatever has been done with the cursor, it still stands among the same tokens, and the next operation
moves it forward over exactly what it reads, or to just behind the token that it fails at. -/
theorem operations_move_forward (tokens : List Token) (ops : List Op) (op : Op) :
    let c := (ofTokens tokens).after ops
    c.tokens = tokens ∧ c.position ≤ tokens.length ∧ Moves c op (c.apply op).1 (c.apply op).2 := by
  have hstart : (ofTokens tokens).position ≤ (ofTokens tokens).tokens.length := Nat.zero_le _
  obtain ⟨htokens, -, hle⟩ := after_spec hstart ops
  refine ⟨htokens, hle, apply_moves ?_ op⟩
  rw [htokens]
  exact hle

end Cursor

end CallCompiler.Source
