import CallCompiler.Target.Render
import Mathlib.Logic.Relation

/-!
The nodes of a target tree in the order in which rendering comes to them: a node before what it holds, and
what is called after its arguments, although it is written before them. Rendering succeeds if no node on the
way is foreign, and otherwise names the first one that is.
-/
namespace CallCompiler.Target

namespace Node

def isForeign : Node → Bool
  | .foreign _ => true
  | _ => false

inductive Holds : Node → Node → Prop
  | element {body : List Node} {node : Node} : node ∈ body → Holds (.program body) node
  | expression (node : Node) : Holds (.statement node) node
  | argument {callee : Node} {arguments : List Node} {node : Node} :
      node ∈ arguments → Holds (.call callee arguments) node
  | callee (node : Node) (arguments : List Node) : Holds (.call node arguments) node

def Reaches : Node → Node → Prop := Relation.ReflTransGen Holds

mutual

/-- The nodes of a tree, in the order in which they are rendered. -/
def order : Node → List Node
  | .program body => .program body :: orderAll body
  | .statement expression => .statement expression :: order expression
  | .call callee arguments => .call callee arguments :: (orderAll arguments ++ order callee)
  | .identifier name => [.identifier name]
  | .number value => [.number value]
  | .string value => [.string value]
  | .foreign thing => [.foreign thing]

def orderAll : List Node → List Node
  | [] => []
  | node :: nodes => order node ++ orderAll nodes

end

section Order

def parts : Node → List Node
  | .program body => body
  | .statement expression => [expression]
  | .call callee arguments => arguments ++ [callee]
  | .identifier _ | .number _ | .string _ | .foreign _ => []

theorem holds_iff_mem_parts {node part : Node} : node.Holds part ↔ part ∈ node.parts := by
  constructor
  · intro h
    cases h with
    | element h => exact h
    | expression => exact List.mem_singleton_self _
    | argument h => exact List.mem_append_left _ h
    | callee => exact List.mem_append_right _ (List.mem_singleton_self _)
  · intro h
    cases node with
    | program body => exact .element h
    | statement expression =>
      rw [List.mem_singleton.mp h]
      exact .expression expression
    | call callee arguments =>
      obtain h | h := List.mem_append.mp h
      · exact .argument h
      · rw [List.mem_singleton.mp h]
        exact .callee callee arguments
    | identifier _ | number _ | string _ | foreign _ => cases h

theorem orderAll_eq_flatMap (nodes : List Node) : orderAll nodes = nodes.flatMap order := by
  induction nodes with
  | nil => rfl
  | cons node nodes ih => rw [orderAll, ih, List.flatMap_cons]

theorem order_eq (node : Node) : node.order = node :: node.parts.flatMap order := by
  cases node with
  | program body => rw [order, orderAll_eq_flatMap, parts]
  | statement expression => rw [order, parts, List.flatMap_singleton]
  | call callee arguments =>
    rw [order, orderAll_eq_flatMap, parts, List.flatMap_append, List.flatMap_singleton]
  | identifier _ | number _ | string _ | foreign _ => rfl

@[elab_as_elim]
theorem parts_induction {P : Node → Prop}
    (family : ∀ node, (∀ part ∈ node.parts, P part) → P node) (node : Node) : P node :=
  @Node.rec P (fun nodes => ∀ part ∈ nodes, P part)
    (fun body ih => family (.program body) ih)
    (fun expression ih => family (.statement expression) (List.forall_mem_singleton.mpr ih))
    (fun callee arguments hcallee harguments => family (.call callee arguments)
      (List.forall_mem_append.mpr ⟨harguments, List.forall_mem_singleton.mpr hcallee⟩))
    (fun name => family (.identifier name) fun _ h => nomatch h)
    (fun value => family (.number value) fun _ h => nomatch h)
    (fun value => family (.string value) fun _ h => nomatch h)
    (fun thing => family (.foreign thing) fun _ h => nomatch h)
    (fun _ h => nomatch h)
    (fun _ _ hnode hnodes => List.forall_mem_cons.mpr ⟨hnode, hnodes⟩) node

theorem mem_order_iff_reaches {root node : Node} : node ∈ root.order ↔ root.Reaches node := by
  constructor
  · intro h
    induction root using parts_induction with
    | family root ih =>
      rw [order_eq] at h
      obtain h | h := List.mem_cons.mp h
      · rw [h]
        exact .refl
      · obtain ⟨part, hpart, hnode⟩ := List.mem_flatMap.mp h
        exact .head (holds_iff_mem_parts.mpr hpart) (ih part hpart hnode)
  · intro h
    induction h using Relation.ReflTransGen.head_induction_on with
    | refl =>
      rw [order_eq]
      exact List.mem_cons_self
    | head hholds _ ih =>
      rw [order_eq]
      exact List.mem_cons_of_mem _ (List.mem_flatMap.mpr ⟨_, holds_iff_mem_parts.mp hholds, ih⟩)

end Order

end Node

section Stopping

open Node

variable {α β : Type}

def StopsAtForeign (nodes : List Node) (result : Except Fault α) : Prop :=
  match nodes.find? isForeign with
  | none => ∃ a, result = .ok a
  | some node => result = .error (.unknownNode node.label)

theorem stopsAtForeign_nil (a : α) : StopsAtForeign [] (.ok a) := ⟨a, rfl⟩

theorem StopsAtForeign.cons {node : Node} {nodes : List Node} {result : Except Fault α}
    (hnode : node.isForeign = false) (h : StopsAtForeign nodes result) :
    StopsAtForeign (node :: nodes) result := by
  rw [StopsAtForeign, List.find?_cons_of_neg (by simp [hnode])]
  exact h

theorem StopsAtForeign.bind {nodes more : List Node} {result : Except Fault α}
    {next : α → Except Fault β} (h : StopsAtForeign nodes result)
    (hnext : ∀ a, StopsAtForeign more (next a)) : StopsAtForeign (nodes ++ more) (result >>= next) := by
  unfold StopsAtForeign at h ⊢
  rw [List.find?_append]
  cases hfirst : nodes.find? isForeign with
  | some node =>
    rw [hfirst] at h
    rw [h]
    rfl
  | none =>
    rw [hfirst] at h
    obtain ⟨a, ha⟩ := h
    rw [ha]
    exact hnext a

theorem StopsAtForeign.map {nodes : List Node} {result : Except Fault α} (f : α → β)
    (h : StopsAtForeign nodes result) : StopsAtForeign nodes (do return f (← result)) := by
  have hbind := h.bind fun a => stopsAtForeign_nil (f a)
  rw [List.append_nil] at hbind
  exact hbind

mutual

theorem render_stopsAtForeign : (node : Node) → StopsAtForeign node.order (render node)
  | .program body => by
    rw [order, render]
    exact ((renderAll_stopsAtForeign body).map _).cons rfl
  | .statement expression => by
    rw [order, render]
    exact ((render_stopsAtForeign expression).map _).cons rfl
  | .call callee arguments => by
    rw [order, render]
    refine StopsAtForeign.cons rfl ((renderAll_stopsAtForeign arguments).bind fun texts => ?_)
    exact (render_stopsAtForeign callee).map _
  | .identifier name => (stopsAtForeign_nil name).cons rfl
  | .number value => (stopsAtForeign_nil value).cons rfl
  | .string value => (stopsAtForeign_nil _).cons rfl
  | .foreign thing => rfl

theorem renderAll_stopsAtForeign : (nodes : List Node) →
    StopsAtForeign (orderAll nodes) (renderAll nodes)
  | [] => stopsAtForeign_nil []
  | node :: nodes => by
    rw [orderAll, renderAll]
    exact (render_stopsAtForeign node).bind fun text => (renderAll_stopsAtForeign nodes).map _

end

theorem StopsAtForeign.ok_iff {nodes : List Node} {result : Except Fault α}
    (h : StopsAtForeign nodes result) :
    (∃ a, result = .ok a) ↔ ∀ node ∈ nodes, node.isForeign = false := by
  unfold StopsAtForeign at h
  cases hfirst : nodes.find? isForeign with
  | none =>
    rw [hfirst] at h
    simpa [h] using List.find?_eq_none.mp hfirst
  | some node =>
    rw [hfirst] at h
    have hforeign := List.find?_some hfirst
    have hmem := List.mem_of_find?_eq_some hfirst
    constructor
    · intro hok
      obtain ⟨a, ha⟩ := hok
      rw [h] at ha
      cases ha
    · intro hall
      rw [hall node hmem] at hforeign
      cases hforeign

theorem StopsAtForeign.error_iff {nodes : List Node} {result : Except Fault α}
    (h : StopsAtForeign nodes result) (fault : Fault) :
    result = .error fault ↔ ∃ before node after, nodes = before ++ node :: after ∧
      node.isForeign = true ∧ (∀ earlier ∈ before, earlier.isForeign = false) ∧
      fault = .unknownNode node.label := by
  unfold StopsAtForeign at h
  cases hfirst : nodes.find? isForeign with
  | none =>
    rw [hfirst] at h
    obtain ⟨a, ha⟩ := h
    have hnone := List.find?_eq_none.mp hfirst
    constructor
    · intro he
      rw [ha] at he
      cases he
    · intro hsplit
      obtain ⟨before, node, after, hnodes, hforeign, -⟩ := hsplit
      exact absurd hforeign (hnone node (by simp [hnodes]))
  | some node =>
    rw [hfirst] at h
    obtain ⟨hforeign, before, after, hnodes, hbefore⟩ := List.find?_eq_some_iff_append.mp hfirst
    constructor
    · intro he
      have hfault := Except.error.inj (h.symm.trans he)
      exact ⟨before, node, after, hnodes, hforeign, by simpa using hbefore, hfault.symm⟩
    · intro hsplit
      obtain ⟨before', node', after', hnodes', hforeign', hbefore', hfault⟩ := hsplit
      have hsame : nodes.find? isForeign = some node' :=
        List.find?_eq_some_iff_append.mpr ⟨hforeign', before', after', hnodes', by simpa using hbefore'⟩
      rw [hfirst] at hsame
      rw [h, hfault, Option.some.inj hsame]

end Stopping

/-- A tree is rendered exactly if no node of it is foreign. Otherwise the fault names the first foreign node,
in an order that goes through all nodes of the tree. -/
theorem render_names_first_foreign (root : Node) :
    ((∃ text, render root = .ok text) ↔ ∀ node, root.Reaches node → node.isForeign = false) ∧
    (∀ fault, render root = .error fault ↔ ∃ before node after, root.order = before ++ node :: after ∧
      node.isForeign = true ∧ (∀ earlier ∈ before, earlier.isForeign = false) ∧
      fault = .unknownNode node.label) ∧
    ∀ node, node ∈ root.order ↔ root.Reaches node := by
  have h := render_stopsAtForeign root
  refine ⟨?_, h.error_iff, fun node => Node.mem_order_iff_reaches⟩
  simp only [← Node.mem_order_iff_reaches]
  exact h.ok_iff

/-- A source node among the arguments is named before the callee, which would be written first. -/
example : render (.call (.call (.foreign ⟨"int", .null⟩) [])
    [.number "1", .foreign ⟨"CallExpression", .null⟩]) = .error (.unknownNode "CallExpression") := rfl

end CallCompiler.Target
