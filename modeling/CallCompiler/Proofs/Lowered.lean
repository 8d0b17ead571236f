import CallCompiler.Lowering

/-!
Lowering as a recursion on the tree. The walk adds each element at a depth of the target tree while the
elements around it are still incomplete; `lower_of_known` says that this comes to the same as building the
arguments of every call on their own.
-/
namespace CallCompiler

namespace Source.Node

mutual

/-- What a node becomes, inside of a call or not. The elements of a program stand where the program
stands. -/
def emit (inCall : Bool) : Node → List Target.Node
  | .program body => emitAll false body
  | .call name params =>
    let node := Target.Node.call (.identifier name) (emitAll true params)
    [if inCall then node else .statement node]
  | .number value => [.number value]
  | .string value => [.string value]
  | .foreign _ => []

def emitAll (inCall : Bool) : List Node → List Target.Node
  | [] => []
  | node :: nodes => emit inCall node ++ emitAll inCall nodes

end

mutual

def known : Node → Bool
  | .program body => knownAll body
  | .call _ params => knownAll params
  | .number _ | .string _ => true
  | .foreign _ => false

def knownAll : List Node → Bool
  | [] => true
  | node :: nodes => known node && knownAll nodes

end

end Source.Node

namespace Target.Node

mutual

def known : Node → Bool
  | .program body => knownAll body
  | .statement expression => known expression
  | .call callee arguments => known callee && knownAll arguments
  | .identifier _ | .number _ | .string _ => true
  | .foreign _ => false

def knownAll : List Node → Bool
  | [] => true
  | node :: nodes => known node && knownAll nodes

end

theorem knownAll_append (nodes more : List Node) :
    knownAll (nodes ++ more) = (knownAll nodes && knownAll more) := by
  induction nodes with
  | nil => rfl
  | cons node nodes ih => rw [List.cons_append, knownAll, knownAll, ih, Bool.and_assoc]

end Target.Node

namespace Lowering
open Source

theorem mapLast_mapLast {α : Type} (f g : α → α) (xs : List α) :
    mapLast f (mapLast g xs) = mapLast (fun x => f (g x)) xs := by
  obtain rfl | ⟨init, a, rfl⟩ := List.eq_nil_or_concat xs
  · rfl
  · simp

theorem mapArguments_mapArguments (f g : List Target.Node → List Target.Node)
    (node : Target.Node) :
    mapArguments f (mapArguments g node) = mapArguments (fun args => f (g args)) node := by
  cases node with
  | statement expression => cases expression <;> rfl
  | program _ | call _ _ | identifier _ | number _ | string _ | foreign _ => rfl

theorem mapArguments_id (node : Target.Node) : mapArguments (fun args => args) node = node := by
  cases node with
  | statement expression => cases expression <;> rfl
  | program _ | call _ _ | identifier _ | number _ | string _ | foreign _ => rfl

/-- Growing below a node that has just been added grows the node itself. -/
theorem grow_grow (new node : Target.Node) (depth : Nat) (body : List Target.Node) :
    grow new (depth+1) (grow node depth body) =
      grow (mapArguments (fun args => args ++ [new]) node) depth body := by
  induction depth generalizing body with
  | zero => exact mapLast_concat _ body node
  | succ depth ih =>
    have hstep : (fun args => grow new (depth+1) (grow node depth args)) =
        grow (mapArguments (fun args => args ++ [new]) node) depth := funext ih
    rw [grow, grow, mapLast_mapLast]
    simp only [mapArguments_mapArguments, hstep]
    rfl

def plant (depth : Nat) (news body : List Target.Node) : List Target.Node :=
  news.foldl (fun body new => grow new depth body) body

theorem plant_append (depth : Nat) (news more body : List Target.Node) :
    plant depth (news ++ more) body = plant depth more (plant depth news body) :=
  List.foldl_append

theorem plant_zero (news body : List Target.Node) : plant 0 news body = body ++ news := by
  induction news generalizing body with
  | nil => simp [plant]
  | cons new news ih =>
    have h := ih (body ++ [new])
    rw [List.append_assoc] at h
    exact h

theorem plant_grow (node : Target.Node) (depth : Nat) (news body : List Target.Node) :
    plant (depth+1) news (grow node depth body) =
      grow (mapArguments (fun args => args ++ news) node) depth body := by
  induction news generalizing node with
  | nil => simp [plant, mapArguments_id]
  | cons new news ih =>
    have h := ih (mapArguments (fun args => args ++ [new]) node)
    rw [mapArguments_mapArguments] at h
    simp only [List.append_assoc, List.singleton_append] at h
    rw [← h, ← grow_grow]
    rfl

theorem mapArguments_callNode (parent : Option Node) (name : String) (news : List Target.Node) :
    mapArguments (fun args => args ++ news) (callNode parent name) =
      if parent.any Node.isCall then .call (.identifier name) news
      else .statement (.call (.identifier name) news) := by
  unfold callNode
  split <;> rfl

def Plants (depth : Nat) (trail : Trail Nat) (news : List Target.Node) : Prop :=
  trail.failure = none ∧ ∀ body, trail.visits.foldl place body = plant depth news body

theorem Plants.andThen {depth : Nat} {a b : Trail Nat} {news more : List Target.Node}
    (ha : Plants depth a news) (hb : Plants depth b more) :
    Plants depth (a.andThen b) (news ++ more) := by
  obtain ⟨visits, failure⟩ := a
  obtain rfl : failure = none := ha.1
  refine ⟨hb.1, fun body => ?_⟩
  rw [plant_append, ← ha.2, ← hb.2]
  exact List.foldl_append

theorem plants_empty (depth : Nat) : Plants depth .empty [] := ⟨rfl, fun _ => rfl⟩

theorem walk_program (parent : Option Node) (depth : Nat) (body : List Node) :
    walk rules parent depth (.program body) = walkAll rules (.program body) depth body := by
  change (Trail.empty.andThen (walkAll rules (.program body) depth body)).andThen .empty = _
  rw [Trail.empty_andThen, Trail.andThen_empty]

theorem walk_call (parent : Option Node) (depth : Nat) (name : String) (params : List Node) :
    walk rules parent depth (.call name params) =
      Trail.andThen ⟨[⟨.enter, .call name params, parent, depth⟩], none⟩
        (walkAll rules (.call name params) (depth+1) params) := by
  change (Trail.andThen ⟨[⟨.enter, .call name params, parent, depth⟩], none⟩
    (walkAll rules (.call name params) (depth+1) params)).andThen .empty = _
  rw [Trail.andThen_empty]

mutual

theorem walk_plants (parent : Option Node) (depth : Nat) : (node : Node) → node.known = true →
    Plants depth (walk rules parent depth node) (node.emit (parent.any Node.isCall))
  | .program body, hk => by
    rw [walk_program]
    exact walkAll_plants (.program body) depth body hk
  | .call name params, hk => by
    obtain ⟨hfail, hfold⟩ := walkAll_plants (.call name params) (depth+1) params hk
    rw [walk_call]
    refine ⟨hfail, fun body => ?_⟩
    -- the call goes in first, without arguments, and then grows by its parameters
    calc _ = (walkAll rules (.call name params) (depth+1) params).visits.foldl place
            (grow (callNode parent name) depth body) := rfl
      _ = plant (depth+1) (Node.emitAll true params) (grow (callNode parent name) depth body) :=
          hfold _
      _ = grow (mapArguments (fun args => args ++ Node.emitAll true params) (callNode parent name))
            depth body := plant_grow _ _ _ _
      _ = plant depth (Node.emit (parent.any Node.isCall) (.call name params)) body := by
          rw [mapArguments_callNode, Node.emit]
          rfl
  | .number value, _ => ⟨rfl, fun _ => rfl⟩
  | .string value, _ => ⟨rfl, fun _ => rfl⟩

theorem walkAll_plants (parent : Node) (depth : Nat) : (nodes : List Node) →
    Node.knownAll nodes = true →
    Plants depth (walkAll rules parent depth nodes) (Node.emitAll parent.isCall nodes)
  | [], _ => plants_empty depth
  | node :: nodes, hk => by
    obtain ⟨hn, hns⟩ : node.known = true ∧ Node.knownAll nodes = true := by
      simpa [Node.knownAll] using hk
    have h1 := walk_plants (some parent) depth node hn
    exact h1.andThen (walkAll_plants parent depth nodes hns)

end

end Lowering

theorem Source.Node.lower_of_known {root : Source.Node} (h : root.known = true) :
    root.lower = .ok (.program (root.emit false)) := by
  obtain ⟨hfail, hfold⟩ := Lowering.walk_plants none 0 root h
  have hbody := (hfold []).trans (Lowering.plant_zero _ [])
  rw [List.nil_append] at hbody
  simp only [lower, hfail, hbody]
  rfl

namespace Source.Node

mutual

theorem knownAll_emit (inCall : Bool) : (node : Node) → Target.Node.knownAll (node.emit inCall) = true
  | .program body => knownAll_emitAll false body
  | .call name params => by
    have hp := knownAll_emitAll true params
    cases inCall <;> simp [emit, Target.Node.knownAll, Target.Node.known, hp]
  | .number _ | .string _ | .foreign _ => rfl

theorem knownAll_emitAll (inCall : Bool) : (nodes : List Node) →
    Target.Node.knownAll (emitAll inCall nodes) = true
  | [] => rfl
  | node :: nodes => by
    rw [emitAll, Target.Node.knownAll_append, knownAll_emit inCall node, knownAll_emitAll inCall nodes]
    rfl

end

end Source.Node

end CallCompiler
