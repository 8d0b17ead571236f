import CallCompiler.Source.Node

/-!
Walks over source trees. A table says for each kind of node whether its entering and leaving are visited.
Entering may change the context that the children get; leaving is visited with the context that entering
had. A walk ends at the first node that has no rules.
-/
namespace CallCompiler.Source

/-- What to do at a kind of node: the context for the children on entering, and whether leaving counts. -/
structure Hooks (γ : Type) where
  enter : Option (Node → Option Node → γ → γ) := none
  exit : Bool := false

abbrev Hooks.Table (γ : Type) := Tag → Hooks γ

inductive Moment
  | enter
  | exit
  deriving DecidableEq, Repr

structure Visit (γ : Type) where
  moment : Moment
  node : Node
  parent : Option Node
  context : γ

/-- The visits of a walk, and the tag of the node that ended it early. -/
structure Trail (γ : Type) where
  visits : List (Visit γ)
  failure : Option String

namespace Trail

variable {γ : Type}

def empty : Trail γ := ⟨[], none⟩

def andThen (a b : Trail γ) : Trail γ :=
  match a.failure with
  | none => ⟨a.visits ++ b.visits, b.failure⟩
  | some _ => a

@[simp] theorem empty_andThen (a : Trail γ) : empty.andThen a = a := rfl

@[simp] theorem andThen_empty (a : Trail γ) : a.andThen empty = a := by
  rcases a with ⟨visits, _ | tag⟩ <;> simp [andThen, empty]

theorem andThen_assoc (a b c : Trail γ) : (a.andThen b).andThen c = a.andThen (b.andThen c) := by
  rcases a with ⟨_, _ | _⟩ <;> rcases b with ⟨_, _ | _⟩ <;> simp [andThen]

end Trail

namespace Hooks

variable {γ : Type}

def inside (hooks : Hooks γ) (node : Node) (parent : Option Node) (context : γ) : γ :=
  match hooks.enter with
  | some f => f node parent context
  | none => context

def entering (hooks : Hooks γ) (node : Node) (parent : Option Node) (context : γ) : Trail γ :=
  ⟨if hooks.enter.isSome then [⟨.enter, node, parent, context⟩] else [], none⟩

def leaving (hooks : Hooks γ) (node : Node) (parent : Option Node) (context : γ) : Trail γ :=
  ⟨if hooks.exit then [⟨.exit, node, parent, context⟩] else [], none⟩

def around (hooks : Hooks γ) (node : Node) (parent : Option Node) (context : γ)
    (children : Trail γ) : Trail γ :=
  ((hooks.entering node parent context).andThen children).andThen
    (hooks.leaving node parent context)

end Hooks

mutual

def walk {γ : Type} (table : Hooks.Table γ) (parent : Option Node) (context : γ) : Node → Trail γ
  | .program body =>
    let node := Node.program body
    (table .program).around node parent context
      (walkAll table node ((table .program).inside node parent context) body)
  | .call name params =>
    let node := Node.call name params
    (table .call).around node parent context
      (walkAll table node ((table .call).inside node parent context) params)
  | .number value => (table .number).around (.number value) parent context .empty
  | .string value => (table .string).around (.string value) parent context .empty
  | .foreign thing => ⟨[], some thing.tag⟩

def walkAll {γ : Type} (table : Hooks.Table γ) (parent : Node) (context : γ) :
    List Node → Trail γ
  | [] => .empty
  | node :: nodes =>
    (walk table (some parent) context node).andThen (walkAll table parent context nodes)

end

end CallCompiler.Source
