import CallCompiler.Trace
import Mathlib.Data.List.Basic
import Mathlib.Data.List.Nodup
import Mathlib.Logic.Function.Basic

/-!
The history that a trace records. The phases that are open can be read off the events alone: those that have
started and that no event closes. Whatever is called on a trace, every event is linked to the innermost phase
that is open when it is recorded, and the active phases are the open ones.
-/
namespace CallCompiler.Trace

inductive Step
  | start (name detail : String)
  | finish (metadata : List (String × Json))
  | fail (label message : String)

def Step.isStart : Step → Bool
  | .start .. => true
  | _ => false

def apply (t : Trace) : Step → Trace
  | .start name detail => t.start name detail
  | .finish metadata => t.finish metadata
  | .fail label message => t.failWith label message

def run (steps : List Step) : Trace := steps.foldl apply empty

/-- How many of the steps close a phase: those that are no starts, while some phase is active. -/
def closings (t : Trace) : List Step → Nat
  | [] => 0
  | step :: steps =>
    (if step.isStart || t.active.isEmpty then 0 else 1) + closings (t.apply step) steps

section Steps

theorem apply_cases (t : Trace) (step : Step) :
    (step.isStart = true ∧ ∃ e : Event, e.id = t.next ∧ e.kind = .started ∧
      e.parent = t.active.head? ∧ t.apply step = ⟨t.events ++ [e], t.next :: t.active⟩) ∨
    (step.isStart = false ∧ t.active = [] ∧ t.apply step = t) ∨
    (step.isStart = false ∧ ∃ (e : Event) (phase : Nat) (active : List Nat), e.id = t.next ∧
      e.kind ≠ .started ∧ e.parent = some phase ∧ t.active = phase :: active ∧
      t.apply step = ⟨t.events ++ [e], active⟩) := by
  obtain ⟨events, active⟩ := t
  cases step with
  | start name detail => exact .inl ⟨rfl, _, rfl, rfl, rfl, rfl⟩
  | finish metadata | fail label message =>
    right
    cases active with
    | nil => exact .inl ⟨rfl, rfl, rfl⟩
    | cons phase active => exact .inr ⟨rfl, _, phase, active, rfl, by simp, rfl, rfl, rfl⟩

theorem events_prefix_apply (t : Trace) (step : Step) : t.events <+: (t.apply step).events := by
  obtain ⟨-, e, -, -, -, h⟩ | ⟨-, -, h⟩ | ⟨-, e, phase, active, -, -, -, -, h⟩ := apply_cases t step
  · exact ⟨[e], by rw [h]⟩
  · exact ⟨[], by rw [h, List.append_nil]⟩
  · exact ⟨[e], by rw [h]⟩

theorem events_prefix_foldl (t : Trace) (steps : List Step) :
    t.events <+: (steps.foldl apply t).events := by
  induction steps generalizing t with
  | nil => exact List.prefix_refl _
  | cons step steps ih => exact (events_prefix_apply t step).trans (ih (t.apply step))

theorem length_events_foldl (t : Trace) (steps : List Step) :
    (steps.foldl apply t).events.length =
      t.events.length + steps.countP Step.isStart + closings t steps := by
  induction steps generalizing t with
  | nil => simp [closings]
  | cons step steps ih =>
    rw [List.foldl_cons, ih, List.countP_cons, closings]
    obtain ⟨hs, e, -, -, -, h⟩ | ⟨hs, ha, h⟩ | ⟨hs, e, phase, active, -, -, -, ha, h⟩ :=
      apply_cases t step
    · simp only [h, hs, Bool.true_or, if_true, List.length_append, List.length_singleton]
      omega
    · simp only [h, hs, ha, List.isEmpty_nil, Bool.or_true, if_true, Bool.false_eq_true, if_false]
      omega
    · simp only [h, hs, ha, List.isEmpty_cons, Bool.or_false, Bool.false_eq_true, if_false,
        List.length_append, List.length_singleton]
      omega

def Numbered (t : Trace) : Prop := t.events.map Event.id = List.range t.events.length

theorem Numbered.concat {t : Trace} (h : t.Numbered) {e : Event} (he : e.id = t.next)
    (active : List Nat) : Numbered ⟨t.events ++ [e], active⟩ := by
  have hid : t.events.map Event.id = List.range t.events.length := h
  simp only [Numbered, List.map_append, List.length_append, List.length_singleton, List.range_succ,
    hid, List.map_singleton, he, next]

theorem Numbered.apply {t : Trace} (h : t.Numbered) (step : Step) : (t.apply step).Numbered := by
  obtain ⟨-, e, he, -, -, ht⟩ | ⟨-, -, ht⟩ | ⟨-, e, phase, active, he, -, -, -, ht⟩ :=
    apply_cases t step
  · rw [ht]
    exact h.concat he _
  · rwa [ht]
  · rw [ht]
    exact h.concat he _

end Steps

section History

variable {ι : Type}

structure Mark (ι : Type) where
  id : ι
  kind : Kind
  parent : Option ι

def Mark.Closes (m : Mark ι) (phase : ι) : Prop := m.kind ≠ .started ∧ m.parent = some phase

/-- Histories with the phases that are open in them, built up event by event. -/
inductive History : List (Mark ι) → List ι → Prop
  | empty : History [] []
  | start {log : List (Mark ι)} {opened : List ι} {id : ι} : History log opened →
      id ∉ log.map Mark.id → History (log ++ [⟨id, .started, opened.getLast?⟩]) (opened ++ [id])
  | close {log : List (Mark ι)} {opened : List ι} {phase id : ι} {kind : Kind} :
      History log (opened ++ [phase]) → kind ≠ .started →
      History (log ++ [⟨id, kind, some phase⟩]) opened

namespace History

theorem exists_start {log : List (Mark ι)} {opened : List ι} (h : History log opened) :
    ∀ phase ∈ opened, ∃ s ∈ log, s.kind = .started ∧ s.id = phase := by
  induction h with
  | empty => simp
  | @start log opened id _ _ ih =>
    intro phase hphase
    obtain hold | hnew := List.mem_append.mp hphase
    · obtain ⟨s, hs, hk, hid⟩ := ih phase hold
      exact ⟨s, List.mem_append_left _ hs, hk, hid⟩
    · exact ⟨_, List.mem_concat_self, rfl, (List.mem_singleton.mp hnew).symm⟩
  | close _ _ ih =>
    intro phase hphase
    obtain ⟨s, hs, hk, hid⟩ := ih phase (List.mem_append_left _ hphase)
    exact ⟨s, List.mem_append_left _ hs, hk, hid⟩

theorem not_mem_opened {log : List (Mark ι)} {opened : List ι} (h : History log opened) {id : ι}
    (hid : id ∉ log.map Mark.id) : id ∉ opened := by
  intro hmem
  obtain ⟨s, hs, -, rfl⟩ := h.exists_start id hmem
  exact hid (List.mem_map_of_mem hs)

theorem nodup {log : List (Mark ι)} {opened : List ι} (h : History log opened) : opened.Nodup := by
  induction h with
  | empty => exact List.nodup_nil
  | start h hid ih =>
    rw [← List.concat_eq_append]
    exact ih.concat (h.not_mem_opened hid)
  | close _ _ ih => exact ih.of_append_left

theorem forall_mark {P : List (Mark ι) → Mark ι → Prop}
    (hstart : ∀ log opened id, History log opened → P log ⟨id, .started, opened.getLast?⟩)
    (hclose : ∀ log opened phase id kind, History log (opened ++ [phase]) → kind ≠ .started →
      P log ⟨id, kind, some phase⟩)
    {log : List (Mark ι)} {opened : List ι} (h : History log opened) :
    ∀ before m, before ++ [m] <+: log → P before m := by
  induction h with
  | empty => simp
  | start h _ ih =>
    intro before m hp
    obtain heq | hp := List.prefix_concat_iff.mp hp
    · obtain ⟨rfl, hm⟩ := List.append_inj' heq rfl
      rw [(List.cons.inj hm).1]
      exact hstart _ _ _ h
    · exact ih before m hp
  | close h hk ih =>
    intro before m hp
    obtain heq | hp := List.prefix_concat_iff.mp hp
    · obtain ⟨rfl, hm⟩ := List.append_inj' heq rfl
      rw [(List.cons.inj hm).1]
      exact hclose _ _ _ _ _ h hk
    · exact ih before m hp

theorem not_closes {log : List (Mark ι)} {opened : List ι} (h : History log opened) {id : ι}
    (hid : id ∉ log.map Mark.id) : ∀ m ∈ log, ¬m.Closes id := by
  have hearlier : ∀ before m, before ++ [m] <+: log → m.Closes id → id ∈ before.map Mark.id := by
    refine h.forall_mark ?_ ?_
    · intro log opened new _ hc
      exact absurd rfl hc.1
    · intro log opened phase new kind h _ hc
      obtain rfl : phase = id := Option.some.inj hc.2
      obtain ⟨s, hs, -, rfl⟩ := h.exists_start phase List.mem_concat_self
      exact List.mem_map_of_mem hs
  intro m hm hc
  obtain ⟨before, after, rfl⟩ := List.append_of_mem hm
  have hmem := hearlier before m ⟨after, by simp⟩ hc
  rw [List.map_append] at hid
  exact hid (List.mem_append_left _ hmem)

end History

def Event.mark (name : Nat → ι) (e : Event) : Mark ι := ⟨name e.id, e.kind, e.parent.map name⟩

def log (t : Trace) (name : Nat → ι) : List (Mark ι) := t.events.map (Event.mark name)

theorem log_concat (t : Trace) (name : Nat → ι) (e : Event) (active : List Nat) :
    log ⟨t.events ++ [e], active⟩ name = t.log name ++ [e.mark name] := by
  simp [log]

theorem Numbered.not_mem_log {t : Trace} (h : t.Numbered) {name : Nat → ι}
    (hname : Function.Injective name) : name t.next ∉ (t.log name).map Mark.id := by
  have hids : (t.log name).map Mark.id = (t.events.map Event.id).map name := by
    simp [log, Event.mark]
  have hnum : t.events.map Event.id = List.range t.events.length := h
  rw [hids, hnum, List.mem_map_of_injective hname]
  exact List.not_mem_range_self

/-- A trace whose events have numbers of their own and whose active phases are those that its history leaves
open. -/
def Sound (t : Trace) (name : Nat → ι) : Prop :=
  t.Numbered ∧ History (t.log name) (t.active.map name).reverse

theorem Sound.apply {t : Trace} {name : Nat → ι} (h : t.Sound name)
    (hname : Function.Injective name) (step : Step) : (t.apply step).Sound name := by
  obtain ⟨hnum, hist⟩ := h
  refine ⟨hnum.apply step, ?_⟩
  obtain ⟨-, e, he, hk, hp, ht⟩ | ⟨-, -, ht⟩ | ⟨-, e, phase, active, he, hk, hp, ha, ht⟩ :=
    apply_cases t step
  · have hmark : e.mark name = ⟨name t.next, .started, (t.active.map name).reverse.getLast?⟩ := by
      simp [Event.mark, he, hk, hp]
    rw [ht, log_concat, hmark, List.map_cons, List.reverse_cons]
    exact hist.start (hnum.not_mem_log hname)
  · rwa [ht]
  · have hmark : e.mark name = ⟨name t.next, e.kind, some (name phase)⟩ := by
      simp [Event.mark, he, hp]
    rw [ha, List.map_cons, List.reverse_cons] at hist
    rw [ht, log_concat, hmark]
    exact hist.close hk

theorem Sound.foldl {t : Trace} {name : Nat → ι} (h : t.Sound name)
    (hname : Function.Injective name) (steps : List Step) : (steps.foldl Trace.apply t).Sound name := by
  induction steps generalizing t with
  | nil => exact h
  | cons step steps ih => exact ih (h.apply hname step)

variable [DecidableEq ι]

instance (m : Mark ι) (phase : ι) : Decidable (m.Closes phase) := inferInstanceAs (Decidable (_ ∧ _))

def openPhases (log : List (Mark ι)) : List ι :=
  (log.filter fun m => m.kind = .started ∧ ∀ c ∈ log, ¬c.Closes m.id).map Mark.id

theorem openPhases_start {log : List (Mark ι)} {m : Mark ι} (hk : m.kind = .started)
    (hc : ∀ c ∈ log, ¬c.Closes m.id) : openPhases (log ++ [m]) = openPhases log ++ [m.id] := by
  have hm (phase : ι) : ¬m.Closes phase := fun h => h.1 hk
  simp only [openPhases, List.forall_mem_append, List.forall_mem_singleton, hm, not_false_eq_true,
    and_true]
  rw [List.filter_append, List.map_append, List.filter_cons, if_pos (decide_eq_true ⟨hk, hc⟩)]
  rfl

theorem openPhases_close {log : List (Mark ι)} {m : Mark ι} {phase : ι} (hk : m.kind ≠ .started)
    (hp : m.parent = some phase) :
    openPhases (log ++ [m]) = (openPhases log).filter (fun id => id ≠ phase) := by
  have hm (id : ι) : ¬m.Closes id ↔ id ≠ phase := by
    simp [Mark.Closes, hk, hp, eq_comm]
  simp only [openPhases, List.forall_mem_append, List.forall_mem_singleton, hm]
  rw [List.filter_append, List.filter_cons, if_neg (by simp [hk]), List.filter_nil, List.append_nil,
    List.filter_map, List.filter_filter]
  refine congrArg (List.map Mark.id) (List.filter_congr fun s _ => ?_)
  by_cases hs : s.id = phase <;> simp [hs]

theorem History.openPhases_eq {log : List (Mark ι)} {opened : List ι} (h : History log opened) :
    openPhases log = opened := by
  induction h with
  | empty => rfl
  | start h hid ih => rw [openPhases_start rfl (h.not_closes hid), ih]
  | @close log opened phase id kind h hk ih =>
    -- the phase that is closed stands once among the open ones, at their end
    obtain ⟨-, -, hne⟩ := List.nodup_append.mp h.nodup
    have hopened : opened.filter (fun id => id ≠ phase) = opened :=
      List.filter_eq_self.mpr fun id hid => decide_eq_true (hne id hid phase List.mem_cons_self)
    rw [openPhases_close hk rfl, ih, List.filter_append, hopened]
    simp

/-- Every event is linked to the innermost phase that is open when it comes; a closing event finds one open,
and no phase is closed twice. -/
structure WellNested (log : List (Mark ι)) : Prop where
  start_parent : ∀ before m, before ++ [m] <+: log → m.kind = .started →
    m.parent = (openPhases before).getLast?
  close_parent : ∀ before m, before ++ [m] <+: log → m.kind ≠ .started →
    ∃ s ∈ before, s.kind = .started ∧ m.parent = some s.id ∧
      (openPhases before).getLast? = some s.id
  closed_once : ∀ phase, log.countP (fun m => m.Closes phase) ≤ 1

namespace History

theorem not_closes_opened {log : List (Mark ι)} {opened : List ι} (h : History log opened) {phase : ι}
    (hp : phase ∈ opened) : ∀ m ∈ log, ¬m.Closes phase := by
  rw [← h.openPhases_eq] at hp
  obtain ⟨s, hs, rfl⟩ := List.mem_map.mp hp
  exact (of_decide_eq_true (List.mem_filter.mp hs).2).2

theorem closed_once {log : List (Mark ι)} {opened : List ι} (h : History log opened) (phase : ι) :
    log.countP (fun m => m.Closes phase) ≤ 1 := by
  induction h with
  | empty => simp
  | @start log opened id _ _ ih =>
    have hm : ¬(⟨id, .started, opened.getLast?⟩ : Mark ι).Closes phase := fun hc => hc.1 rfl
    rw [List.countP_append, List.countP_singleton, if_neg (by simpa using hm)]
    exact ih
  | @close log opened last id kind h hk ih =>
    rw [List.countP_append, List.countP_singleton]
    by_cases hl : last = phase
    · -- the phase was open, so nothing has closed it before
      have hopen : ∀ m ∈ log, ¬m.Closes phase := h.not_closes_opened (by simp [hl])
      rw [List.countP_eq_zero.mpr (by simpa using hopen)]
      split <;> simp
    · have hm : ¬(⟨id, kind, some last⟩ : Mark ι).Closes phase := fun hc => hl (Option.some.inj hc.2)
      rw [if_neg (by simpa using hm)]
      exact ih

theorem wellNested {log : List (Mark ι)} {opened : List ι} (h : History log opened) :
    WellNested log where
  start_parent := by
    refine h.forall_mark ?_ ?_
    · intro log opened id h _
      rw [h.openPhases_eq]
    · intro log opened phase id kind _ hk hs
      exact absurd hs hk
  close_parent := by
    refine h.forall_mark ?_ ?_
    · intro log opened id _ hk
      exact absurd rfl hk
    · intro log opened phase id kind h _ _
      obtain ⟨s, hs, hk, rfl⟩ := h.exists_start phase List.mem_concat_self
      exact ⟨s, hs, hk, rfl, by rw [h.openPhases_eq, List.getLast?_concat]⟩
  closed_once := h.closed_once

end History

end History

/-- Whatever is called on a fresh trace, and in whatever order: if events have names of their own, the
history is well nested, the active phases are its open ones, what is recorded stays, and only a start or the
closing of an open phase adds an event. -/
theorem run_records_nested_history {ι : Type} [DecidableEq ι] {name : Nat → ι}
    (hname : Function.Injective name) (steps : List Step) :
    WellNested ((run steps).log name) ∧
    (run steps).active.reverse.map name = openPhases ((run steps).log name) ∧
    (∀ more, (run steps).events <+: (run (steps ++ more)).events) ∧
    (run steps).events.length = steps.countP Step.isStart + closings empty steps ∧
    ∀ step, step.isStart = false → openPhases ((run steps).log name) = [] →
      run (steps ++ [step]) = run steps := by
  have hsound : (run steps).Sound name :=
    Sound.foldl (t := empty) ⟨rfl, History.empty⟩ hname steps
  have hactive : openPhases ((run steps).log name) = ((run steps).active.map name).reverse :=
    hsound.2.openPhases_eq
  refine ⟨hsound.2.wellNested, ?_, ?_, ?_, ?_⟩
  · rw [hactive, List.map_reverse]
  · intro more
    rw [run, run, List.foldl_append]
    exact events_prefix_foldl _ more
  · rw [run, length_events_foldl]
    simp [empty]
  · intro step hs hopen
    rw [hactive] at hopen
    have hnone : (run steps).active = [] := by simpa using hopen
    have hrun : run (steps ++ [step]) = (run steps).apply step := by simp [run]
    rw [hrun]
    obtain ⟨hs', -⟩ | ⟨-, -, h⟩ | ⟨-, e, phase, active, -, -, -, ha, -⟩ :=
      apply_cases (run steps) step
    · rw [hs] at hs'
      cases hs'
    · exact h
    · rw [hnone] at ha
      cases ha

def restart : List Step :=
  [.finish [], .start "outer" "", .start "inner" "", .fail "ValueError" "", .start "inner" "", .finish []]

/-- The numbers of the events are names of their own. -/
theorem run_records_nested_history_restart :
    Function.Injective (id : Nat → Nat) ∧
    (run restart).log id = [⟨0, .started, none⟩, ⟨1, .started, some 0⟩, ⟨2, .failed, some 1⟩,
      ⟨3, .started, some 0⟩, ⟨4, .ended, some 3⟩] ∧
    WellNested ((run restart).log id) ∧
    openPhases ((run restart).log id) = [0] ∧
    (run restart).events.length = 3 + 2 := by
  obtain ⟨hnested, hopen, -, hlength, -⟩ := run_records_nested_history Function.injective_id restart
  exact ⟨Function.injective_id, rfl, hnested, hopen.symm, hlength⟩

end CallCompiler.Trace
