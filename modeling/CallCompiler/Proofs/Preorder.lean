import CallCompiler.Proofs.Lowered

/-!
The nodes of a source tree in the order in which a walk comes to them. Whatever a walk visits, it ends at
the first node that has no rules; so lowering either builds the whole target tree or names that node.
-/
namespace CallCompiler

namespace Source

namespace Node

mutual

def preorder : Node → List Node
  | .program body => .program body :: preorderAll body
  | .call name params => .call name params :: preorderAll params
  | .number value => [.number value]
  | .string value => [.string value]
  | .foreign thing => [.foreign thing]

def preorderAll : List Node → List Node
  | [] => []
  | node :: nodes => preorder node ++ preorderAll nodes

end

def unknown (node : Node) : Bool := node.tag?.isNone

mutual

theorem known_eq_isNone : (node : Node) → node.known = (node.preorder.find? unknown).isNone
  | .program body => knownAll_eq_isNone body
  | .call _ params => knownAll_eq_isNone params
  | .number _ => rfl
  | .string _ => rfl
  | .foreign _ => rfl

theorem knownAll_eq_isNone : (nodes : List Node) →
    knownAll nodes = ((preorderAll nodes).find? unknown).isNone
  | [] => rfl
  | node :: nodes => by
    rw [knownAll, preorderAll, List.find?_append, Option.isNone_or, known_eq_isNone node,
      knownAll_eq_isNone nodes]

end

end Node

section Failure

variable {γ : Type}

theorem Trail.failure_andThen (a b : Trail γ) :
    (a.andThen b).failure = a.failure.or b.failure := by
  obtain ⟨visits, failure⟩ := a
  cases failure <;> rfl

theorem Hooks.failure_around (hooks : Hooks γ) (node : Node) (parent : Option Node) (context : γ)
    (children : Trail γ) : (hooks.around node parent context children).failure = children.failure := by
  simp [around, Trail.failure_andThen, entering, leaving]

mutual

theorem failure_walk (table : Hooks.Table γ) (parent : Option Node) (context : γ) :
    (node : Node) →
    (walk table parent context node).failure = (node.preorder.find? Node.unknown).map Node.label
  | .program body => by
    rw [walk, Hooks.failure_around]
    exact failure_walkAll table _ _ body
  | .call name params => by
    rw [walk, Hooks.failure_around]
    exact failure_walkAll table _ _ params
  | .number value => by
    rw [walk, Hooks.failure_around]
    rfl
  | .string value => by
    rw [walk, Hooks.failure_around]
    rfl
  | .foreign _ => rfl

theorem failure_walkAll (table : Hooks.Table γ) (parent : Node) (context : γ) :
    (nodes : List Node) → (walkAll table parent context nodes).failure =
      ((Node.preorderAll nodes).find? Node.unknown).map Node.label
  | [] => rfl
  | node :: nodes => by
    rw [walkAll, Trail.failure_andThen, failure_walk table _ _ node, failure_walkAll table _ _ nodes,
      Node.preorderAll, List.find?_append, Option.map_or]

end

end Failure

end Source

open Source

/-- Lowering is the recursion on the tree, if all nodes are known, and otherwise fails with the first
unknown node. -/
theorem lower_eq_emit_unless_unknown (root : Node) :
    root.lower =
      match root.preorder.find? Node.unknown with
      | none => .ok (.program (root.emit false))
      | some node => .error (.unknownNode node.label) := by
  cases hf : root.preorder.find? Node.unknown with
  | none =>
    have hk : root.known = true := by rw [Node.known_eq_isNone, hf, Option.isNone_none]
    exact Node.lower_of_known hk
  | some node =>
    have hw : (walk Lowering.rules none 0 root).failure = some node.label := by
      rw [failure_walk, hf, Option.map_some]
    rw [Node.lower]
    simp only [hw]

/-- The elements of a program inside of a call are arguments of the call, and its calls are statements. -/
example : (Node.call "f" [.program [.call "g" []], .number "1"]).lower =
    .ok (.program [.statement (.call (.identifier "f")
      [.statement (.call (.identifier "g") []), .number "1"])]) := rfl

end CallCompiler
