import CallCompiler.Pipeline
import CallCompiler.Proofs.Lowered
import CallCompiler.Proofs.Parsing

/-!
The text of a program without its target tree. Each element of a source tree has its own text, and a
compilation gives the texts of the elements in lines.
-/
namespace CallCompiler

namespace Source.Node

mutual

def texts (inCall : Bool) : Node → List String
  | .program body => textsAll false body
  | .call name params =>
    let text := name ++ "(" ++ Text.join ", " (textsAll true params) ++ ")"
    [if inCall then text else text ++ ";"]
  | .number value => [value]
  | .string value => ["\"" ++ value ++ "\""]
  | .foreign _ => []

def textsAll (inCall : Bool) : List Node → List String
  | [] => []
  | node :: nodes => texts inCall node ++ textsAll inCall nodes

end

theorem textsAll_append (inCall : Bool) (nodes more : List Node) :
    textsAll inCall (nodes ++ more) =
      textsAll inCall nodes ++ textsAll inCall more := by
  induction nodes with
  | nil => rfl
  | cons node nodes ih => rw [List.cons_append, textsAll, textsAll, ih, List.append_assoc]

end Source.Node

namespace Target

theorem renderAll_append {nodes more : List Node} {texts rest : List String}
    (hn : renderAll nodes = .ok texts) (hm : renderAll more = .ok rest) :
    renderAll (nodes ++ more) = .ok (texts ++ rest) := by
  induction nodes generalizing texts with
  | nil =>
    obtain rfl : [] = texts := Except.ok.inj hn
    exact hm
  | cons node nodes ih =>
    rw [renderAll] at hn
    cases h1 : render node with
    | error f => simp [h1, bind, Except.bind] at hn
    | ok text =>
      cases h2 : renderAll nodes with
      | error f => simp [h1, h2, bind, Except.bind] at hn
      | ok others =>
        obtain rfl : text :: others = texts := by
          simpa [h1, h2, bind, Except.bind, pure, Except.pure] using hn
        rw [List.cons_append, renderAll, h1, ih h2]
        rfl

theorem renderAll_singleton {node : Node} {text : String} (h : render node = .ok text) :
    renderAll [node] = .ok [text] := by
  rw [renderAll, h]
  rfl

theorem render_call (name : String) {arguments : List Node} {texts : List String}
    (h : renderAll arguments = .ok texts) :
    render (.call (.identifier name) arguments) =
      .ok (name ++ "(" ++ Text.join ", " texts ++ ")") := by
  rw [render, h, render]
  rfl

mutual

theorem renderAll_emit (inCall : Bool) : (node : Source.Node) →
    renderAll (node.emit inCall) = .ok (node.texts inCall)
  | .program body => renderAll_emitAll false body
  | .call name params => by
    have hc := render_call name (renderAll_emitAll true params)
    cases inCall with
    | true => exact renderAll_singleton hc
    | false =>
      refine renderAll_singleton ?_
      change render (.statement (.call _ _)) = _
      rw [render, hc]
      rfl
  | .number _ => rfl
  | .string _ => rfl
  | .foreign _ => rfl

theorem renderAll_emitAll (inCall : Bool) : (nodes : List Source.Node) →
    renderAll (Source.Node.emitAll inCall nodes) = .ok (Source.Node.textsAll inCall nodes)
  | [] => rfl
  | node :: nodes =>
    renderAll_append (renderAll_emit inCall node) (renderAll_emitAll inCall nodes)

end

end Target

open Source

theorem Source.Expressions.known {tokens : List Token} {nodes : List Node}
    (h : Expressions tokens nodes) : Node.knownAll nodes = true := by
  induction h using Expressions.sequence with
  | nil => rfl
  | literal t node ts nodes hl _ ih =>
    cases hl <;> exact ih
  | call name us params ts nodes _ _ _ ihu iht =>
    rw [Node.knownAll, Node.known, ihu, iht]
    rfl

theorem render_lower {tokens : List Token} {body : List Node} (h : Expressions tokens body) :
    ((Node.program body).lower >>= Target.render) =
      .ok (Text.join "\n" (Node.textsAll false body)) := by
  have hl : (Node.program body).lower = .ok (.program (Node.emitAll false body)) :=
    Node.lower_of_known h.known
  rw [hl]
  change Target.render (.program _) = _
  rw [Target.render, Target.renderAll_emitAll]
  rfl

/-- A text compiles exactly if its tokens are a sequence of expressions. -/
theorem compile_eq_ok_iff {source out : String} :
    compile source = .ok out ↔ ∃ tokens body, Token.lex source = .ok tokens ∧
      Expressions tokens body ∧ out = Text.join "\n" (Node.textsAll false body) := by
  unfold compile
  constructor
  · intro h
    cases hl : Token.lex source with
    | error f => simp [hl, bind, Except.bind] at h
    | ok tokens =>
      cases hp : parse tokens with
      | error f => simp [hl, hp, bind, Except.bind] at h
      | ok tree =>
        obtain ⟨body, rfl, hx⟩ := expressions_of_parse hp
        rw [hl] at h
        change (parse tokens >>= _) = _ at h
        rw [hp] at h
        exact ⟨tokens, body, rfl, hx, (Except.ok.inj ((render_lower hx).symm.trans h)).symm⟩
  · rintro ⟨tokens, body, hl, hx, rfl⟩
    rw [hl]
    change (parse tokens >>= _) = _
    rw [parse_of_expressions hx]
    exact render_lower hx

theorem compile_eq_error_iff {source : String} {f : Fault} :
    compile source = .error f ↔
      Token.lex source = .error f ∨ ∃ tokens, Token.lex source = .ok tokens ∧ parse tokens = .error f := by
  unfold compile
  cases hl : Token.lex source with
  | error g => simp [bind, Except.bind]
  | ok tokens =>
    change (parse tokens >>= _) = _ ↔ _
    cases hp : parse tokens with
    | error g => simp [bind, Except.bind, hp]
    | ok tree =>
      obtain ⟨body, rfl, hx⟩ := expressions_of_parse hp
      have hr := render_lower hx
      change (Node.lower _ >>= _) = _ ↔ _
      simp [hr, hp]

end CallCompiler
