import CallCompiler.Proofs.Preorder
import Mathlib.Data.List.TakeWhile

/-!
The tour of a tree: every node is entered, then its children are toured in order, then it is left. A walk
follows the tour of its tree up to the first node that has no rules. Its table only picks the stops at which
something is called, and the context at a stop depends on nothing but the nodes that the stop is under.
-/
namespace CallCompiler.Source

namespace Node

theorem preorder_eq (node : Node) : node.preorder = node :: preorderAll node.children := by
  cases node <;> rfl

theorem preorderAll_eq_flatMap (nodes : List Node) : preorderAll nodes = nodes.flatMap preorder := by
  induction nodes with
  | nil => rfl
  | cons node nodes ih => rw [preorderAll, ih, List.flatMap_cons]

@[elab_as_elim]
theorem family_induction {P : Node → Prop}
    (family : ∀ node, (∀ child ∈ node.children, P child) → P node) (node : Node) : P node :=
  @Node.rec P (fun nodes => ∀ child ∈ nodes, P child)
    (fun body ih => family (.program body) ih)
    (fun name params ih => family (.call name params) ih)
    (fun value => family (.number value) fun _ h => nomatch h)
    (fun value => family (.string value) fun _ h => nomatch h)
    (fun thing => family (.foreign thing) fun _ h => nomatch h)
    (fun _ h => nomatch h)
    (fun _ _ hnode hnodes => List.forall_mem_cons.mpr ⟨hnode, hnodes⟩) node

end Node

/-- A moment at a place of a tree. The place is a node with the nodes that it stands in, the nearest first. -/
structure Stop where
  moment : Moment
  node : Node
  above : List Node

namespace Node

def block (above : List Node) (node : Node) (below : List Stop) : List Stop :=
  ⟨.enter, node, above⟩ :: (below ++ [⟨.exit, node, above⟩])

mutual

def tour (above : List Node) : Node → List Stop
  | .program body => block above (.program body) (tourAll (.program body :: above) body)
  | .call name params => block above (.call name params) (tourAll (.call name params :: above) params)
  | .number value => block above (.number value) []
  | .string value => block above (.string value) []
  | .foreign thing => block above (.foreign thing) []

def tourAll (above : List Node) : List Node → List Stop
  | [] => []
  | node :: nodes => tour above node ++ tourAll above nodes

end

theorem tour_eq (above : List Node) (node : Node) :
    node.tour above = block above node (tourAll (node :: above) node.children) := by
  cases node <;> rfl

theorem tourAll_eq_flatMap (above nodes : List Node) :
    tourAll above nodes = nodes.flatMap (tour above) := by
  induction nodes with
  | nil => rfl
  | cons node nodes ih => rw [tourAll, ih, List.flatMap_cons]

end Node

def Stop.unknown (stop : Stop) : Bool := stop.node.unknown

def reached (stops : List Stop) : List Stop := stops.takeWhile fun stop => !stop.unknown

section Tables

variable {γ : Type}

def Hooks.hears (hooks : Hooks γ) : Moment → Bool
  | .enter => hooks.enter.isSome
  | .exit => hooks.exit

namespace Hooks.Table

def hears (table : Hooks.Table γ) (moment : Moment) (node : Node) : Bool :=
  node.tag?.any fun tag => (table tag).hears moment

def Complete (table : Hooks.Table γ) : Prop := ∀ tag moment, (table tag).hears moment = true

def inside (table : Hooks.Table γ) (node : Node) (parent : Option Node) (context : γ) : γ :=
  match node.tag? with
  | some tag => (table tag).inside node parent context
  | none => context

/-- The context that comes down to a place: the first one, passed through the enter hooks of the nodes above
from the root on. -/
def handDown (table : Hooks.Table γ) (start : γ) : List Node → γ
  | [] => start
  | node :: above => table.inside node above.head? (table.handDown start above)

end Hooks.Table

def Stop.visit (table : Hooks.Table γ) (start : γ) (stop : Stop) : Visit γ :=
  ⟨stop.moment, stop.node, stop.above.head?, table.handDown start stop.above⟩

def Stop.trail (table : Hooks.Table γ) (start : γ) (stop : Stop) : Trail γ :=
  if stop.unknown then ⟨[], some stop.node.label⟩
  else ⟨if table.hears stop.moment stop.node then [stop.visit table start] else [], none⟩

def follow (table : Hooks.Table γ) (start : γ) : List Stop → Trail γ
  | [] => .empty
  | stop :: stops => (stop.trail table start).andThen (follow table start stops)

variable (table : Hooks.Table γ) (start : γ)

theorem follow_append (stops more : List Stop) :
    follow table start (stops ++ more) =
      (follow table start stops).andThen (follow table start more) := by
  induction stops with
  | nil => rfl
  | cons stop stops ih => rw [List.cons_append, follow, ih, ← Trail.andThen_assoc, follow]

theorem follow_singleton (stop : Stop) : follow table start [stop] = stop.trail table start :=
  Trail.andThen_empty _

theorem follow_of_unknown {stop : Stop} (h : stop.unknown = true) (stops : List Stop) :
    follow table start (stop :: stops) = ⟨[], some stop.node.label⟩ := by
  rw [follow, Stop.trail, if_pos h]
  rfl

theorem follow_of_known {stop : Stop} (h : stop.unknown = false) (stops : List Stop) :
    follow table start (stop :: stops) =
      ⟨(if table.hears stop.moment stop.node then [stop.visit table start] else []) ++
        (follow table start stops).visits, (follow table start stops).failure⟩ := by
  rw [follow, Stop.trail, if_neg (by simp [h])]
  rfl

theorem reached_of_known {stop : Stop} (h : stop.unknown = false) (stops : List Stop) :
    reached (stop :: stops) = stop :: reached stops := by
  simp [reached, h]

theorem reached_of_unknown {stop : Stop} (h : stop.unknown = true) (stops : List Stop) :
    reached (stop :: stops) = [] := by
  simp [reached, h]

theorem visits_follow (stops : List Stop) :
    (follow table start stops).visits =
      ((reached stops).filter fun stop => table.hears stop.moment stop.node).map
        (Stop.visit table start) := by
  induction stops with
  | nil => rfl
  | cons stop stops ih =>
    cases hu : stop.unknown with
    | true =>
      rw [follow_of_unknown table start hu, reached_of_unknown hu]
      rfl
    | false =>
      rw [follow_of_known table start hu, reached_of_known hu, List.filter_cons, ih]
      split <;> rfl

theorem walk_of_tag {node : Node} {tag : Tag} (h : node.tag? = some tag) (parent : Option Node)
    (context : γ) :
    walk table parent context node = (table tag).around node parent context
      (walkAll table node ((table tag).inside node parent context) node.children) := by
  cases node <;> cases h <;> rfl

theorem walk_of_unknown {node : Node} (h : node.tag? = none) (parent : Option Node) (context : γ) :
    walk table parent context node = ⟨[], some node.label⟩ := by
  cases node with
  | foreign _ => rfl
  | program _ | call _ _ | number _ | string _ => cases h

theorem trail_of_tag {node : Node} {tag : Tag} (h : node.tag? = some tag) (moment : Moment)
    (above : List Node) :
    Stop.trail table start ⟨moment, node, above⟩ =
      ⟨if (table tag).hears moment then
        [⟨moment, node, above.head?, table.handDown start above⟩] else [], none⟩ := by
  simp [Stop.trail, Stop.unknown, Node.unknown, Hooks.Table.hears, Stop.visit, h]

theorem walkAll_eq_follow (parent : Node) (above nodes : List Node)
    (h : ∀ node ∈ nodes, walk table (some parent) (table.handDown start (parent :: above)) node =
      follow table start (node.tour (parent :: above))) :
    walkAll table parent (table.handDown start (parent :: above)) nodes =
      follow table start (Node.tourAll (parent :: above) nodes) := by
  induction nodes with
  | nil => rfl
  | cons node nodes ih =>
    obtain ⟨hnode, hnodes⟩ := List.forall_mem_cons.mp h
    rw [walkAll, hnode, ih hnodes, Node.tourAll, follow_append]

theorem walk_eq_follow (node : Node) (above : List Node) :
    walk table above.head? (table.handDown start above) node =
      follow table start (node.tour above) := by
  induction node using Node.family_induction generalizing above with
  | family node ih =>
    rw [Node.tour_eq, Node.block]
    cases htag : node.tag? with
    | none =>
      have hu : Stop.unknown ⟨.enter, node, above⟩ = true := by simp [Stop.unknown, Node.unknown, htag]
      rw [walk_of_unknown table htag, follow_of_unknown table start hu]
    | some tag =>
      have hinside : (table tag).inside node above.head? (table.handDown start above) =
          table.handDown start (node :: above) := by
        simp [Hooks.Table.handDown, Hooks.Table.inside, htag]
      have hbelow := walkAll_eq_follow table start node above node.children
        fun child hchild => ih child hchild (node :: above)
      rw [walk_of_tag table htag, hinside, hbelow, Hooks.around, Trail.andThen_assoc, follow,
        follow_append, follow_singleton, trail_of_tag table start htag,
        trail_of_tag table start htag]
      rfl

theorem visits_walk (root : Node) :
    (walk table none start root).visits =
      ((reached (root.tour [])).filter fun stop => table.hears stop.moment stop.node).map
        (Stop.visit table start) := by
  rw [← visits_follow, ← walk_eq_follow]
  rfl

end Tables

section Order

theorem find?_tourAll {above nodes : List Node}
    (h : ∀ node ∈ nodes, ((node.tour above).find? Stop.unknown).map (fun s => (s.moment, s.node)) =
      (node.preorder.find? Node.unknown).map fun first => (.enter, first)) :
    ((Node.tourAll above nodes).find? Stop.unknown).map (fun s => (s.moment, s.node)) =
      ((Node.preorderAll nodes).find? Node.unknown).map fun first => (.enter, first) := by
  induction nodes with
  | nil => rfl
  | cons node nodes ih =>
    obtain ⟨hnode, hnodes⟩ := List.forall_mem_cons.mp h
    rw [Node.tourAll, Node.preorderAll, List.find?_append, List.find?_append, Option.map_or,
      Option.map_or, hnode, ih hnodes]

/-- A tour comes to its first unknown node on entering it, and that node is the first in preorder. -/
theorem find?_tour (node : Node) (above : List Node) :
    ((node.tour above).find? Stop.unknown).map (fun s => (s.moment, s.node)) =
      (node.preorder.find? Node.unknown).map fun first => (.enter, first) := by
  induction node using Node.family_induction generalizing above with
  | family node ih =>
    rw [Node.tour_eq, Node.block, Node.preorder_eq]
    have hstop (moment : Moment) : Stop.unknown ⟨moment, node, above⟩ = node.unknown := rfl
    cases hu : node.unknown with
    | true =>
      rw [List.find?_cons_of_pos ((hstop .enter).trans hu), List.find?_cons_of_pos hu]
      rfl
    | false =>
      have hbelow := find?_tourAll fun child hchild => ih child hchild (node :: above)
      have hexit : [Stop.mk .exit node above].find? Stop.unknown = none :=
        List.find?_cons_of_neg (by simp [hstop, hu])
      rw [List.find?_cons_of_neg (by simp [hstop, hu]), List.find?_cons_of_neg (by simp [hu]),
        List.find?_append, hexit, Option.or_none, hbelow]

theorem Node.known_iff_find?_tour (node : Node) (above : List Node) :
    node.known = true ↔ (node.tour above).find? Stop.unknown = none := by
  rw [Node.known_eq_isNone, Option.isNone_iff_eq_none, ← Option.map_eq_none_iff,
    ← find?_tour node above, Option.map_eq_none_iff]

theorem reached_tour_of_known {node : Node} (h : node.known = true) (above : List Node) :
    reached (node.tour above) = node.tour above := by
  have hnone := List.find?_eq_none.mp ((node.known_iff_find?_tour above).mp h)
  exact List.takeWhile_eq_self_iff.mpr fun stop hstop => by simpa using hnone stop hstop

theorem unknown_of_mem_reached {stop : Stop} {stops : List Stop} (h : stop ∈ reached stops) :
    stop.unknown = false := by
  have hknown := List.mem_takeWhile_imp h
  simpa using hknown

theorem mem_reached_append {stop : Stop} {stops more : List Stop}
    (h : stop ∈ reached (stops ++ more)) :
    stop ∈ reached stops ∨ (∀ s ∈ stops, s.unknown = false) ∧ stop ∈ reached more := by
  induction stops with
  | nil => exact .inr ⟨by simp, h⟩
  | cons first stops ih =>
    cases hu : first.unknown with
    | true =>
      rw [List.cons_append, reached_of_unknown hu] at h
      cases h
    | false =>
      rw [List.cons_append, reached_of_known hu, List.mem_cons] at h
      rw [reached_of_known hu, List.mem_cons, List.forall_mem_cons]
      obtain rfl | h := h
      · exact .inl (.inl rfl)
      · obtain h | ⟨hall, h⟩ := ih h
        · exact .inl (.inr h)
        · exact .inr ⟨⟨hu, hall⟩, h⟩

theorem exists_mem_of_mem_reached_tourAll {stop : Stop} {above nodes : List Node}
    (h : stop ∈ reached (Node.tourAll above nodes)) :
    ∃ node ∈ nodes, stop ∈ reached (node.tour above) := by
  induction nodes with
  | nil => cases h
  | cons node nodes ih =>
    obtain h | ⟨-, h⟩ := mem_reached_append h
    · exact ⟨node, List.mem_cons_self, h⟩
    · obtain ⟨other, hother, h⟩ := ih h
      exact ⟨other, List.mem_cons_of_mem node hother, h⟩

theorem known_of_left {node : Node} {above : List Node} {stop : Stop}
    (h : stop ∈ reached (node.tour above)) (hm : stop.moment = .exit) : stop.node.known = true := by
  induction node using Node.family_induction generalizing above with
  | family node ih =>
    rw [Node.tour_eq, Node.block] at h
    have hstop (moment : Moment) : Stop.unknown ⟨moment, node, above⟩ = node.unknown := rfl
    cases hu : node.unknown with
    | true =>
      rw [reached_of_unknown ((hstop .enter).trans hu)] at h
      cases h
    | false =>
      rw [reached_of_known ((hstop .enter).trans hu), List.mem_cons] at h
      obtain rfl | h := h
      · cases hm
      · obtain h | ⟨hbelow, h⟩ := mem_reached_append h
        · obtain ⟨child, hchild, h⟩ := exists_mem_of_mem_reached_tourAll h
          exact ih child hchild h
        · -- the walk has come back to the node, so its whole tour was reached
          rw [reached_of_known ((hstop .exit).trans hu), List.mem_cons] at h
          obtain rfl | h := h
          · refine (node.known_iff_find?_tour above).mpr (List.find?_eq_none.mpr fun s hs => ?_)
            rw [Node.tour_eq, Node.block, List.mem_cons, List.mem_append, List.mem_singleton] at hs
            obtain rfl | hs | rfl := hs
            · simp [hstop, hu]
            · simp [hbelow s hs]
            · simp [hstop, hu]
          · cases h

theorem mem_tour {node : Node} {above : List Node} {stop : Stop} (h : stop ∈ node.tour above) :
    stop.node ∈ node.preorder ∧ ∀ a ∈ stop.above, a ∈ above ∨ stop.node ∈ a.preorder := by
  induction node using Node.family_induction generalizing above with
  | family node ih =>
    rw [Node.tour_eq, Node.block, Node.tourAll_eq_flatMap, List.mem_cons, List.mem_append,
      List.mem_flatMap, List.mem_singleton] at h
    rw [Node.preorder_eq, Node.preorderAll_eq_flatMap]
    obtain rfl | ⟨child, hchild, h⟩ | rfl := h
    · exact ⟨List.mem_cons_self, fun a ha => .inl ha⟩
    · obtain ⟨hnode, habove⟩ := ih child hchild h
      have hmem : stop.node ∈ node :: node.children.flatMap Node.preorder :=
        List.mem_cons_of_mem node (List.mem_flatMap.mpr ⟨child, hchild, hnode⟩)
      refine ⟨hmem, fun a ha => ?_⟩
      obtain ha | ha := habove a ha
      · obtain rfl | ha := List.mem_cons.mp ha
        · rw [Node.preorder_eq, Node.preorderAll_eq_flatMap]
          exact .inr hmem
        · exact .inl ha
      · exact .inr ha
    · exact ⟨List.mem_cons_self, fun a ha => .inl ha⟩

theorem Node.known_eq_false_of_mem {node below : Node} (h : below ∈ node.preorder)
    (hu : below.unknown = true) : node.known = false := by
  rw [Node.known_eq_isNone, Option.isNone_eq_false_iff, List.find?_isSome]
  exact ⟨below, h, hu⟩

end Order

def Visit.bare {γ : Type} (visit : Visit γ) : Visit Unit :=
  ⟨visit.moment, visit.node, visit.parent, ()⟩

def Trail.log {γ : Type} (trail : Trail γ) : List (Visit Unit) := trail.visits.map Visit.bare

def Stop.bare (stop : Stop) : Visit Unit := ⟨stop.moment, stop.node, stop.above.head?, ()⟩

theorem log_walk {γ : Type} (table : Hooks.Table γ) (start : γ) (root : Node) :
    (walk table none start root).log =
      ((reached (root.tour [])).map Stop.bare).filter fun visit =>
        table.hears visit.moment visit.node := by
  rw [Trail.log, visits_walk, List.map_map, List.filter_map]
  rfl

theorem Hooks.Table.Complete.hears_of_known {γ : Type} {full : Hooks.Table γ} (h : full.Complete)
    {node : Node} (hn : node.unknown = false) (moment : Moment) : full.hears moment node = true := by
  cases htag : node.tag? with
  | none => simp [Node.unknown, htag] at hn
  | some tag => simp [hears, htag, h tag moment]

theorem Hooks.Table.Complete.log_walk {γ : Type} {full : Hooks.Table γ} (h : full.Complete)
    (start : γ) (root : Node) :
    (walk full none start root).log = (reached (root.tour [])).map Stop.bare := by
  rw [Source.log_walk, List.filter_eq_self]
  intro visit hvisit
  obtain ⟨stop, hstop, rfl⟩ := List.mem_map.mp hvisit
  exact h.hears_of_known (unknown_of_mem_reached hstop) stop.moment

/-- A walk under any table calls what the walk under a complete table calls, less what the table has no hook
for, and both end at the same node. The complete log is the tour of the tree, up to the entering of the first
unknown node if there is one; so nothing is called at that node, and no node is left that it stands in. -/
theorem walk_keeps_to_tour {γ δ : Type} {full : Hooks.Table δ} (hfull : full.Complete)
    (table : Hooks.Table γ) (context : γ) (start : δ) (root : Node) :
    (walk table none context root).log =
      (walk full none start root).log.filter (fun visit => table.hears visit.moment visit.node) ∧
    (walk table none context root).failure = (walk full none start root).failure ∧
    (root.preorder.find? Node.unknown = none →
      (walk full none start root).failure = none ∧
      (walk full none start root).log = (root.tour []).map Stop.bare) ∧
    ∀ node, root.preorder.find? Node.unknown = some node →
      (walk full none start root).failure = some node.label ∧
      ∃ before above after, root.tour [] = before ++ ⟨.enter, node, above⟩ :: after ∧
        (walk full none start root).log = before.map Stop.bare ∧
        ∀ visit ∈ (walk full none start root).log, visit.node.unknown = false ∧
          (visit.moment = .exit → visit.node ∉ above) := by
  rw [hfull.log_walk start root, failure_walk, failure_walk]
  refine ⟨log_walk table context root, rfl, fun hnone => ?_, fun node hfirst => ?_⟩
  · have hk : root.known = true := by rw [Node.known_eq_isNone, hnone, Option.isNone_none]
    rw [reached_tour_of_known hk, hnone]
    exact ⟨rfl, rfl⟩
  · have hmap := find?_tour root []
    rw [hfirst, Option.map_some, Option.map_eq_some_iff] at hmap
    obtain ⟨⟨moment, first, above⟩, hfind, hstop⟩ := hmap
    obtain ⟨rfl, rfl⟩ := Prod.mk.inj hstop
    obtain ⟨hu, before, after, htour, hbefore⟩ := List.find?_eq_some_iff_append.mp hfind
    have hreached : reached (root.tour []) = before := by
      rw [htour, reached, List.takeWhile_append_of_pos hbefore, List.takeWhile_cons_of_neg (by simp [hu]),
        List.append_nil]
    have hmem : Stop.mk .enter first above ∈ root.tour [] := by simp [htour]
    refine ⟨by rw [hfirst, Option.map_some], before, above, after, htour, by rw [hreached], ?_⟩
    intro visit hvisit
    obtain ⟨stop, hstop, rfl⟩ := List.mem_map.mp hvisit
    refine ⟨unknown_of_mem_reached hstop, fun hexit habove => ?_⟩
    -- what has been left is known throughout, and what stands above an unknown node is not
    have hleft : stop.node.known = true := known_of_left hstop hexit
    obtain hnil | hbelow := (mem_tour hmem).2 stop.node habove
    · cases hnil
    · rw [Node.known_eq_false_of_mem hbelow hu] at hleft
      cases hleft

def everyHook : Hooks.Table Unit := fun _ => ⟨some fun _ _ context => context, true⟩

def numberHooks : Hooks.Table Nat
  | .number => ⟨some fun _ _ context => context + 1, true⟩
  | .program | .call | .string => ⟨none, false⟩

def strayCall : Node := .call "f" [.number "1", .foreign ⟨"Symbol", .null⟩, .number "2"]

theorem walk_keeps_to_tour_stray :
    everyHook.Complete ∧
    (walk everyHook none () (.program [strayCall])).log =
      [⟨.enter, .program [strayCall], none, ()⟩, ⟨.enter, strayCall, some (.program [strayCall]), ()⟩,
        ⟨.enter, .number "1", some strayCall, ()⟩, ⟨.exit, .number "1", some strayCall, ()⟩] ∧
    (walk numberHooks none 0 (.program [strayCall])).log =
      (walk everyHook none () (.program [strayCall])).log.filter
        (fun visit => numberHooks.hears visit.moment visit.node) ∧
    (walk numberHooks none 0 (.program [strayCall])).failure = some "Symbol" ∧
    ∃ before above after, (Node.program [strayCall]).tour [] =
        before ++ ⟨.enter, .foreign ⟨"Symbol", .null⟩, above⟩ :: after ∧
      (walk everyHook none () (.program [strayCall])).log = before.map Stop.bare := by
  have hfull : everyHook.Complete := fun _ moment => by cases moment <;> rfl
  obtain ⟨hlog, hfailure, -, hfirst⟩ :=
    walk_keeps_to_tour hfull numberHooks 0 () (.program [strayCall])
  obtain ⟨hlabel, before, above, after, htour, hbefore, -⟩ := hfirst _ rfl
  exact ⟨hfull, rfl, hlog, hfailure.trans hlabel, before, above, after, htour, hbefore⟩

section Contexts

def Node.head : Node → Option Tag × String
  | .program _ => (some .program, "")
  | .call name _ => (some .call, name)
  | .number value => (some .number, value)
  | .string value => (some .string, value)
  | .foreign thing => (none, thing.tag)

theorem Node.head_fst (node : Node) : node.head.1 = node.tag? := by
  cases node <;> rfl

variable {γ : Type}

namespace Hooks.Table

def Agree (table other : Hooks.Table γ) : List Node → List Node → Prop
  | [], [] => True
  | node :: above, node' :: above' =>
    (∀ context, table.inside node above.head? context = other.inside node' above'.head? context) ∧
      table.Agree other above above'
  | _, _ => False

/-- Enter hooks that look at what a node and its parent are, and not at what stands below them. -/
def Shallow (table : Hooks.Table γ) : Prop :=
  ∀ node node' parent parent', node.head = node'.head →
    Option.map Node.head parent = Option.map Node.head parent' →
    ∀ context, table.inside node parent context = table.inside node' parent' context

theorem Agree.handDown_eq {table other : Hooks.Table γ} {above above' : List Node}
    (h : table.Agree other above above') (start : γ) :
    table.handDown start above = other.handDown start above' := by
  induction above generalizing above' with
  | nil =>
    cases above' with
    | nil => rfl
    | cons node' above' => exact h.elim
  | cons node above ih =>
    cases above' with
    | nil => exact h.elim
    | cons node' above' =>
      obtain ⟨hnode, habove⟩ := h
      rw [handDown, handDown, ih habove, hnode]

theorem inside_of_enter {table other : Hooks.Table γ}
    (h : ∀ tag, (other tag).enter = (table tag).enter) (node : Node) (parent : Option Node)
    (context : γ) : other.inside node parent context = table.inside node parent context := by
  unfold inside
  split
  · rw [Hooks.inside, Hooks.inside, h]
  · rfl

theorem agree_of_enter {table other : Hooks.Table γ}
    (h : ∀ tag, (other tag).enter = (table tag).enter) (above : List Node) :
    table.Agree other above above := by
  induction above with
  | nil => trivial
  | cons node above ih => exact ⟨fun context => (inside_of_enter h node _ context).symm, ih⟩

theorem Shallow.agree {table other : Hooks.Table γ} (hs : table.Shallow)
    (h : ∀ tag, (other tag).enter = (table tag).enter) {above above' : List Node}
    (hline : above.map Node.head = above'.map Node.head) : table.Agree other above above' := by
  induction above generalizing above' with
  | nil =>
    cases above' with
    | nil => trivial
    | cons node' above' => cases hline
  | cons node above ih =>
    cases above' with
    | nil => cases hline
    | cons node' above' =>
      obtain ⟨hnode, habove⟩ := List.cons.inj hline
      have hparent : above.head?.map Node.head = above'.head?.map Node.head := by
        rw [← List.head?_map, ← List.head?_map, habove]
      refine ⟨fun context => ?_, ih habove⟩
      rw [inside_of_enter h]
      exact hs node node' _ _ hnode hparent context

end Hooks.Table

def placed (table : Hooks.Table γ) (start : γ) (root : Node) : List (Stop × Visit γ) :=
  ((root.tour []).filter fun stop => table.hears stop.moment stop.node).zip
    (walk table none start root).visits

theorem visits_walk_of_known {root : Node} (h : root.known = true) (table : Hooks.Table γ) (start : γ) :
    (walk table none start root).visits =
      ((root.tour []).filter fun stop => table.hears stop.moment stop.node).map
        (Stop.visit table start) := by
  rw [visits_walk, reached_tour_of_known h]

theorem eq_visit_of_mem_placed {root : Node} (h : root.known = true) {table : Hooks.Table γ}
    {start : γ} {p : Stop × Visit γ} (hp : p ∈ placed table start root) :
    p.2 = p.1.visit table start := by
  rw [placed, visits_walk_of_known h, ← List.map_prod_left_eq_zip] at hp
  obtain ⟨stop, -, rfl⟩ := List.mem_map.mp hp
  rfl

/-- In a tree without unknown nodes, every visit has the context that comes down through the enter hooks of
the nodes above. So a node gets the same context in another tree and under another table, whenever the nodes
above it hand down contexts alike. They do if the enter hooks are the same and either the nodes are the same,
or the hooks do not look below a node and the nodes differ only there, as they do when siblings of the node or
of those above it are replaced, added or removed. -/
theorem contexts_come_from_above {root : Node} (hroot : root.known = true) (table : Hooks.Table γ)
    (start : γ) :
    (walk table none start root).visits =
      ((root.tour []).filter fun stop => table.hears stop.moment stop.node).map (fun stop =>
        ⟨stop.moment, stop.node, stop.above.head?, table.handDown start stop.above⟩) ∧
    ∀ (other : Hooks.Table γ) (changed : Node), changed.known = true →
      ∀ p ∈ placed table start root, ∀ q ∈ placed other start changed,
        (table.Agree other p.1.above q.1.above → p.2.context = q.2.context) ∧
        ((∀ tag, (other tag).enter = (table tag).enter) →
          p.1.above = q.1.above ∨
            table.Shallow ∧ p.1.above.map Node.head = q.1.above.map Node.head →
          p.2.context = q.2.context) := by
  refine ⟨visits_walk_of_known hroot table start, fun other changed hchanged p hp q hq => ?_⟩
  rw [eq_visit_of_mem_placed hroot hp, eq_visit_of_mem_placed hchanged hq]
  refine ⟨fun hagree => hagree.handDown_eq start, fun henter hline => ?_⟩
  suffices hagree : table.Agree other p.1.above q.1.above from hagree.handDown_eq start
  obtain heq | ⟨hshallow, hheads⟩ := hline
  · rw [← heq]
    exact Hooks.Table.agree_of_enter henter p.1.above
  · exact hshallow.agree henter hheads

def countChildren : Hooks.Table Nat := fun _ => ⟨some fun node _ _ => node.children.length, false⟩

def numberLevels : Hooks.Table Nat
  | .program => ⟨some fun _ _ context => context + 1, false⟩
  | .number => ⟨some fun _ _ context => context, true⟩
  | .call | .string => ⟨none, false⟩

/-- What stands beside a node counts after all: a hook that looks below the parent hands down more when the
node gets a sibling, and a node after an unknown one gets no context. -/
theorem contexts_change_with_siblings :
    (walk countChildren none 0 (.call "f" [.number "1"])).visits =
      [⟨.enter, .call "f" [.number "1"], none, 0⟩,
        ⟨.enter, .number "1", some (.call "f" [.number "1"]), 1⟩] ∧
    (walk countChildren none 0 (.call "f" [.number "1", .number "2"])).visits =
      [⟨.enter, .call "f" [.number "1", .number "2"], none, 0⟩,
        ⟨.enter, .number "1", some (.call "f" [.number "1", .number "2"]), 2⟩,
        ⟨.enter, .number "2", some (.call "f" [.number "1", .number "2"]), 2⟩] ∧
    (walk numberLevels none 0 (.program [.number "1"])).visits =
      [⟨.enter, .program [.number "1"], none, 0⟩,
        ⟨.enter, .number "1", some (.program [.number "1"]), 1⟩,
        ⟨.exit, .number "1", some (.program [.number "1"]), 1⟩] ∧
    (walk numberLevels none 0 (.program [.foreign ⟨"Mystery", .null⟩, .number "1"])).visits =
      [⟨.enter, .program [.foreign ⟨"Mystery", .null⟩, .number "1"], none, 0⟩] :=
  ⟨rfl, rfl, rfl, rfl⟩

theorem lowering_rules_shallow : Lowering.rules.Shallow := by
  intro node node' parent parent' hhead _ context
  have htag : node.tag? = node'.tag? := by rw [← node.head_fst, hhead, node'.head_fst]
  rw [Hooks.Table.inside, Hooks.Table.inside, htag]
  cases node'.tag? with
  | none => rfl
  | some tag => cases tag <;> rfl

/-- The depth at which lowering adds a call stays when elements before it go and others come, and when exit
hooks are added. -/
theorem contexts_come_from_above_lowering :
    (Node.program [.number "1", .call "a" [.call "b" []]]).known = true ∧
    (walk Lowering.rules none 0 (.program [.number "1", .call "a" [.call "b" []]])).visits =
      [⟨.enter, .number "1", some (.program [.number "1", .call "a" [.call "b" []]]), 0⟩,
        ⟨.enter, .call "a" [.call "b" []], some (.program [.number "1", .call "a" [.call "b" []]]), 0⟩,
        ⟨.enter, .call "b" [], some (.call "a" [.call "b" []]), 1⟩] ∧
    ∀ q ∈ placed (fun tag => ⟨(Lowering.rules tag).enter, true⟩) 0
        (.program [.call "a" [.string "x", .call "b" []]]),
      q.1.above.map Node.head = [(some .call, "a"), (some .program, "")] → q.2.context = 1 := by
  have hknown : (Node.program [.number "1", .call "a" [.call "b" []]]).known = true := rfl
  obtain ⟨hvisits, hsame⟩ := contexts_come_from_above hknown Lowering.rules 0
  refine ⟨hknown, hvisits, fun q hq hheads => ?_⟩
  have hp : (_, _) ∈ placed Lowering.rules 0 (.program [.number "1", .call "a" [.call "b" []]]) :=
    .tail _ (.tail _ (.head _))
  exact ((hsame _ _ rfl _ hp q hq).2 (fun _ => rfl) (.inr ⟨lowering_rules_shallow, hheads.symm⟩)).symm

end Contexts

end CallCompiler.Source
