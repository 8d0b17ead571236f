import CallCompiler.Proofs.Lowered
import Mathlib.Data.Set.Function

/-!
Source programs and target programs, one to one. Lowering loses nothing: `raise` leads back from the target
tree. The target trees that come from a source program are told by their shape alone, and calls are nested as
deep in them as in the source.
-/
namespace CallCompiler

namespace Source.Node

mutual

/-- An element of a program: its nodes are all known, and none of them is a program. -/
def isElement : Node → Bool
  | .call _ params => areElements params
  | .number _ | .string _ => true
  | .program _ | .foreign _ => false

def areElements : List Node → Bool
  | [] => true
  | node :: nodes => isElement node && areElements nodes

end

def isProgram : Node → Bool
  | .program body => areElements body
  | _ => false

theorem isProgram_iff {root : Node} :
    root.isProgram = true ↔ ∃ body, root = .program body ∧ areElements body = true := by
  cases root <;> simp [isProgram]

mutual

def depth : Node → Nat
  | .call _ params => depthAll params + 1
  | _ => 0

def depthAll : List Node → Nat
  | [] => 0
  | node :: nodes => max (depth node) (depthAll nodes)

end

theorem depthAll_eq (nodes : List Node) : depthAll nodes = (nodes.map depth).foldr max 0 := by
  induction nodes with
  | nil => rfl
  | cons node nodes ih => rw [depthAll, ih, List.map_cons, List.foldr_cons]

mutual

theorem known_of_isElement : (node : Node) → node.isElement = true → node.known = true
  | .call _ params, h => knownAll_of_areElements params h
  | .number _, _ => rfl
  | .string _, _ => rfl

theorem knownAll_of_areElements : (nodes : List Node) → areElements nodes = true →
    knownAll nodes = true
  | [], _ => rfl
  | node :: nodes, h => by
    obtain ⟨hn, hns⟩ := Bool.and_eq_true_iff.mp h
    rw [knownAll, known_of_isElement node hn, knownAll_of_areElements nodes hns]
    rfl

end

end Source.Node

namespace Target.Node

mutual

/-- What may stand among arguments: a literal, or a call of an identifier on such arguments. -/
def isArgument : Node → Bool
  | .number _ | .string _ => true
  | .call (.identifier _) arguments => areArguments arguments
  | _ => false

def areArguments : List Node → Bool
  | [] => true
  | node :: nodes => isArgument node && areArguments nodes

end

def isLine : Node → Bool
  | .number _ | .string _ => true
  | .statement (.call callee arguments) => isArgument (.call callee arguments)
  | _ => false

def isProgram : Node → Bool
  | .program body => body.all isLine
  | _ => false

theorem isProgram_iff {target : Node} :
    target.isProgram = true ↔ ∃ lines, target = .program lines ∧ lines.all isLine = true := by
  cases target <;> simp [isProgram]

mutual

def depth : Node → Nat
  | .statement expression => depth expression
  | .call _ arguments => depthAll arguments + 1
  | _ => 0

def depthAll : List Node → Nat
  | [] => 0
  | node :: nodes => max (depth node) (depthAll nodes)

end

def calleeName : Node → String
  | .identifier name => name
  | _ => ""

mutual

/-- The source tree that a target tree comes from. An identifier comes from none by itself. -/
def raise : Node → Source.Node
  | .program body => .program (raiseAll body)
  | .statement expression => raise expression
  | .call callee arguments => .call callee.calleeName (raiseAll arguments)
  | .identifier name => .string name
  | .number value => .number value
  | .string value => .string value
  | .foreign thing => .foreign thing

def raiseAll : List Node → List Source.Node
  | [] => []
  | node :: nodes => raise node :: raiseAll nodes

end

theorem areArguments_eq_all (nodes : List Node) : areArguments nodes = nodes.all isArgument := by
  induction nodes with
  | nil => rfl
  | cons node nodes ih => rw [areArguments, ih, List.all_cons]

theorem depthAll_eq (nodes : List Node) : depthAll nodes = (nodes.map depth).foldr max 0 := by
  induction nodes with
  | nil => rfl
  | cons node nodes ih => rw [depthAll, ih, List.map_cons, List.foldr_cons]

theorem raiseAll_eq_map (nodes : List Node) : raiseAll nodes = nodes.map raise := by
  induction nodes with
  | nil => rfl
  | cons node nodes ih => rw [raiseAll, ih, List.map_cons]

end Target.Node

open Source.Node (emit emitAll isElement areElements)
open Target.Node (raise raiseAll isArgument areArguments isLine)

section Elements

/-! From a source program: its elements come back, with their shape and their depth. -/

mutual

theorem map_raise_emit (inCall : Bool) : (node : Source.Node) → node.isElement = true →
    (node.emit inCall).map raise = [node]
  | .call name params, h => by
    have hp := map_raise_emitAll true params h
    cases inCall <;> simp [emit, raise, Target.Node.raiseAll_eq_map, Target.Node.calleeName, hp]
  | .number _, _ => rfl
  | .string _, _ => rfl

theorem map_raise_emitAll (inCall : Bool) : (nodes : List Source.Node) →
    areElements nodes = true → (emitAll inCall nodes).map raise = nodes
  | [], _ => rfl
  | node :: nodes, h => by
    obtain ⟨hn, hns⟩ := Bool.and_eq_true_iff.mp h
    rw [emitAll, List.map_append, map_raise_emit inCall node hn, map_raise_emitAll inCall nodes hns]
    rfl

end

mutual

theorem map_depth_emit (inCall : Bool) : (node : Source.Node) → node.isElement = true →
    (node.emit inCall).map Target.Node.depth = [node.depth]
  | .call name params, h => by
    have hp := map_depth_emitAll true params h
    cases inCall <;>
      simp [emit, Target.Node.depth, Target.Node.depthAll_eq, Source.Node.depth,
        Source.Node.depthAll_eq, hp]
  | .number _, _ => rfl
  | .string _, _ => rfl

theorem map_depth_emitAll (inCall : Bool) : (nodes : List Source.Node) →
    areElements nodes = true →
    (emitAll inCall nodes).map Target.Node.depth = nodes.map Source.Node.depth
  | [], _ => rfl
  | node :: nodes, h => by
    obtain ⟨hn, hns⟩ := Bool.and_eq_true_iff.mp h
    rw [emitAll, List.map_append, map_depth_emit inCall node hn, map_depth_emitAll inCall nodes hns]
    rfl

end

mutual

theorem all_isArgument_emit : (node : Source.Node) → node.isElement = true →
    (node.emit true).all isArgument = true
  | .call name params, h => by
    have hp := all_isArgument_emitAll params h
    simp only [emit, if_true, List.all_cons, List.all_nil, isArgument,
      Target.Node.areArguments_eq_all, hp, Bool.and_true]
  | .number _, _ => rfl
  | .string _, _ => rfl

theorem all_isArgument_emitAll : (nodes : List Source.Node) → areElements nodes = true →
    (emitAll true nodes).all isArgument = true
  | [], _ => rfl
  | node :: nodes, h => by
    obtain ⟨hn, hns⟩ := Bool.and_eq_true_iff.mp h
    rw [emitAll, List.all_append, all_isArgument_emit node hn, all_isArgument_emitAll nodes hns]
    rfl

end

theorem all_isLine_emit {node : Source.Node} (h : node.isElement = true) :
    (node.emit false).all isLine = true := by
  cases node with
  | call name params =>
    have hp := all_isArgument_emitAll params h
    rw [← Target.Node.areArguments_eq_all] at hp
    simp [emit, isLine, isArgument, hp]
  | number _ | string _ => rfl
  | program _ | foreign _ => cases h

theorem all_isLine_emitAll {nodes : List Source.Node} (h : areElements nodes = true) :
    (emitAll false nodes).all isLine = true := by
  induction nodes with
  | nil => rfl
  | cons node nodes ih =>
    obtain ⟨hn, hns⟩ := Bool.and_eq_true_iff.mp h
    rw [emitAll, List.all_append, all_isLine_emit hn, ih hns]
    rfl

end Elements

section Shapes

/-! From a target program: what its parts come from are elements, and lowering these gives the parts. -/

mutual

theorem raise_argument : (node : Target.Node) → node.isArgument = true →
    node.raise.isElement = true ∧ node.raise.emit true = [node]
  | .call (.identifier name) arguments, h => by
    obtain ⟨he, hs⟩ := raiseAll_arguments arguments h
    refine ⟨he, ?_⟩
    simp [raise, emit, Target.Node.calleeName, hs]
  | .number _, _ => ⟨rfl, rfl⟩
  | .string _, _ => ⟨rfl, rfl⟩

theorem raiseAll_arguments : (nodes : List Target.Node) → areArguments nodes = true →
    areElements (raiseAll nodes) = true ∧ emitAll true (raiseAll nodes) = nodes
  | [], _ => ⟨rfl, rfl⟩
  | node :: nodes, h => by
    obtain ⟨hn, hns⟩ := Bool.and_eq_true_iff.mp h
    obtain ⟨he, hs⟩ := raise_argument node hn
    obtain ⟨hes, hss⟩ := raiseAll_arguments nodes hns
    rw [raiseAll, areElements, emitAll, he, hes, hs, hss]
    exact ⟨rfl, rfl⟩

end

theorem raise_line {node : Target.Node} (h : node.isLine = true) :
    node.raise.isElement = true ∧ node.raise.emit false = [node] := by
  unfold isLine at h
  split at h
  · exact ⟨rfl, rfl⟩
  · exact ⟨rfl, rfl⟩
  · next callee arguments =>
    -- the statement comes from what its call comes from, and only the wrapping differs
    obtain ⟨he, hs⟩ := raise_argument _ h
    refine ⟨he, ?_⟩
    simp only [raise, emit, if_true, List.cons.injEq, and_true] at hs
    simp only [raise, emit, hs]
    rfl
  · cases h

theorem raiseAll_lines {nodes : List Target.Node} (h : nodes.all isLine = true) :
    areElements (raiseAll nodes) = true ∧ emitAll false (raiseAll nodes) = nodes := by
  induction nodes with
  | nil => exact ⟨rfl, rfl⟩
  | cons node nodes ih =>
    rw [List.all_cons, Bool.and_eq_true] at h
    obtain ⟨he, hs⟩ := raise_line h.1
    obtain ⟨hes, hss⟩ := ih h.2
    rw [raiseAll, areElements, emitAll, he, hes, hs, hss]
    exact ⟨rfl, rfl⟩

end Shapes

theorem lower_program {body : List Source.Node} (h : areElements body = true) :
    (Source.Node.program body).lower = .ok (.program (emitAll false body)) :=
  Source.Node.lower_of_known (Source.Node.knownAll_of_areElements body h)

/-- Lowering takes the source programs one to one onto the target programs of the right shape, and keeps the
depth of every element. -/
theorem lower_bijOn_programs :
    Set.BijOn Source.Node.lower {root | root.isProgram = true}
      (Except.ok '' {target | target.isProgram = true}) ∧
    ∀ body, areElements body = true → ∃ targets,
      (Source.Node.program body).lower = .ok (.program targets) ∧
      targets.map Target.Node.depth = body.map Source.Node.depth := by
  refine ⟨⟨?_, ?_, ?_⟩, ?_⟩
  · intro root hroot
    obtain ⟨body, rfl, h⟩ := Source.Node.isProgram_iff.mp hroot
    exact ⟨_, all_isLine_emitAll h, (lower_program h).symm⟩
  · intro root hroot root' hroot' heq
    obtain ⟨body, rfl, h⟩ := Source.Node.isProgram_iff.mp hroot
    obtain ⟨body', rfl, h'⟩ := Source.Node.isProgram_iff.mp hroot'
    rw [lower_program h, lower_program h'] at heq
    have hemit : emitAll false body = emitAll false body' :=
      Target.Node.program.inj (Except.ok.inj heq)
    rw [← map_raise_emitAll false body h, hemit, map_raise_emitAll false body' h']
  · rintro _ ⟨target, htarget, rfl⟩
    obtain ⟨lines, rfl, h⟩ := Target.Node.isProgram_iff.mp htarget
    obtain ⟨he, hs⟩ := raiseAll_lines h
    refine ⟨.program (raiseAll lines), he, ?_⟩
    rw [lower_program he, hs]
  · intro body h
    exact ⟨_, lower_program h, map_depth_emitAll false body h⟩

end CallCompiler
