import CallCompiler.Fault
import CallCompiler.Source.Walk
import CallCompiler.Target.Node

/-!
Target trees from source trees. The source tree is walked once. The context of the walk is how many calls
deep the elements stand, and every element is added to the target tree at the end of its last branch, that
many calls deep.
-/
namespace CallCompiler.Lowering

def mapLast {α : Type} (f : α → α) : List α → List α
  | [] => []
  | [a] => [f a]
  | a :: b :: rest => a :: mapLast f (b :: rest)

@[simp] theorem mapLast_concat {α : Type} (f : α → α) (init : List α) (a : α) :
    mapLast f (init ++ [a]) = init ++ [f a] := by
  induction init with
  | nil => rfl
  | cons b init ih =>
    cases init with
    | nil => rfl
    | cons c init => simpa [mapLast] using ih

def mapArguments (f : List Target.Node → List Target.Node) : Target.Node → Target.Node
  | .call callee arguments => .call callee (f arguments)
  | .statement (.call callee arguments) => .statement (.call callee (f arguments))
  | node => node

/-- Adds a node after the others, or to the arguments of the last call at a depth. -/
def grow (new : Target.Node) : (depth : Nat) → List Target.Node → List Target.Node
  | 0, nodes => nodes ++ [new]
  | depth + 1, nodes => mapLast (mapArguments (grow new depth)) nodes

/-- What a call becomes before its arguments are known: an expression inside of another call, a statement
anywhere else. -/
def callNode (parent : Option Source.Node) (name : String) : Target.Node :=
  let node := Target.Node.call (.identifier name) []
  if parent.any Source.Node.isCall then node else .statement node

/-- Elements inside of a call stand one call deeper. -/
def rules : Source.Hooks.Table Nat
  | .program => ⟨none, false⟩
  | .call => ⟨some fun _ _ depth => depth + 1, false⟩
  | .number | .string => ⟨some fun _ _ depth => depth, false⟩

def place (body : List Target.Node) (visit : Source.Visit Nat) : List Target.Node :=
  match visit.node with
  | .call name _ => grow (callNode visit.parent name) visit.context body
  | .number value => grow (.number value) visit.context body
  | .string value => grow (.string value) visit.context body
  | .program _ | .foreign _ => body

end Lowering

def Source.Node.lower (root : Source.Node) : Except Fault Target.Node :=
  let trail := Source.walk Lowering.rules none 0 root
  match trail.failure with
  | some tag => .error (.unknownNode tag)
  | none => .ok (.program (trail.visits.foldl Lowering.place []))

end CallCompiler
