import CallCompiler.Proofs.Correspondence
import CallCompiler.Proofs.Runs

/-!
The record of a run. Its events come in pairs, one for each stage that the run attempts: a start, and the
event that closes it. Only the last pair can close with a failure, and it does exactly if the run fails.
-/
namespace CallCompiler.Engine

open Source Token

inductive Stage
  | lexing
  | parsing
  | transforming
  | rendering

namespace Stage

def name : Stage → String
  | .lexing => "Lexing"
  | .parsing => "Parsing"
  | .transforming => "Transforming"
  | .rendering => "Rendering"

def detail (source : String) : Stage → String
  | .lexing => toString source.length ++ " characters"
  | .parsing | .transforming | .rendering => ""

def outcome (source : String) : Stage → Except Fault (String × Nat)
  | .lexing => do
    let tokens ← lex source
    return ("tokens", tokens.length)
  | .parsing => do
    let tree ← lex source >>= parse
    return ("top_level", tree.children.length)
  | .transforming => do
    let tree ← lex source >>= parse
    let _ ← tree.lower
    return ("top_level", tree.children.length)
  | .rendering => do
    let code ← compile source
    return ("characters", code.length)

def upTo : Settings.Format → List Stage
  | .tokens => [.lexing]
  | .ast => [.lexing, .parsing]
  | .targetAst => [.lexing, .parsing, .transforming]
  | .code => [.lexing, .parsing, .transforming, .rendering]

end Stage

structure Attempt where
  stage : Stage
  outcome : Except Fault (String × Nat)

/-- The stages that are attempted: one after the other, until one fails. -/
def attempts (source : String) : List Stage → List Attempt
  | [] => []
  | stage :: stages =>
    match stage.outcome source with
    | .ok counted => ⟨stage, .ok counted⟩ :: attempts source stages
    | .error f => [⟨stage, .error f⟩]

namespace Attempt

def opening (source : String) (id : Nat) (a : Attempt) : Trace.Event :=
  ⟨id, .started, a.stage.name, none, [("detail", .string (a.stage.detail source))]⟩

def closing (id : Nat) (a : Attempt) : Trace.Event :=
  match a.outcome with
  | .ok (label, n) => ⟨id + 1, .ended, "End Phase", some id, [(label, .number n)]⟩
  | .error f => ⟨id + 1, .failed, f.message, some id, [("error", .string f.label)]⟩

end Attempt

def record (source : String) (id : Nat) : List Attempt → List Trace.Event
  | [] => []
  | a :: rest => a.opening source id :: a.closing id :: record source (id + 2) rest

/-- A computation that adds the attempts of the stages to a trace without active phases. -/
def Records (source : String) (stages : List Stage) (c : Trace → Trace × Except Fault String) : Prop :=
  ∀ events, (c ⟨events, []⟩).1 =
    ⟨events ++ record source events.length (attempts source stages), []⟩

theorem records_nil (source : String) (output : Except Fault String) :
    Records source [] fun t => (t, output) := by
  intro events
  simp [attempts, record]

theorem Records.phase {α : Type} {source : String} {stage : Stage} {stages : List Stage}
    {value : Except Fault α} {label : String} {size : α → Nat}
    {next : Trace → α → Trace × Except Fault String}
    (houtcome : stage.outcome source = value.map fun a => (label, size a))
    (hnext : ∀ a, value = .ok a → Records source stages fun t => next t a) :
    Records source (stage :: stages) fun t =>
      Engine.phase t stage.name (stage.detail source) value (fun a => count label (size a)) next := by
  intro events
  cases value with
  | error f =>
    replace houtcome : stage.outcome source = .error f := houtcome
    simp [Engine.phase, Trace.start, Trace.fail, Trace.failWith, Trace.close, Trace.next, attempts,
      houtcome, record, Attempt.opening, Attempt.closing]
  | ok a =>
    replace houtcome : stage.outcome source = .ok (label, size a) := houtcome
    have h := hnext a rfl (events ++ [Attempt.opening source events.length ⟨stage, .ok (label, size a)⟩,
      Attempt.closing events.length ⟨stage, .ok (label, size a)⟩])
    simpa [Engine.phase, Trace.start, Trace.finish, Trace.close, Trace.next, attempts, houtcome, record,
      Attempt.opening, Attempt.closing, count] using h

section Sizes

theorem areElements_of_expressions {tokens : List Token} {nodes : List Node}
    (h : Expressions tokens nodes) : Node.areElements nodes = true := by
  induction h using Expressions.sequence with
  | nil => rfl
  | literal t node ts nodes hl _ ih =>
    cases hl <;> exact ih
  | call name us params ts nodes _ _ _ ihu iht =>
    rw [Node.areElements, Node.isElement, ihu, iht]
    rfl

theorem sourceSize_of_parse {tokens : List Token} {tree : Node} (h : parse tokens = .ok tree) :
    sourceSize tree = tree.children.length := by
  obtain ⟨body, rfl, -⟩ := expressions_of_parse h
  rfl

theorem targetSize_of_parse {tokens : List Token} {tree : Node} {target : Target.Node}
    (h : parse tokens = .ok tree) (ht : tree.lower = .ok target) :
    targetSize target = tree.children.length := by
  obtain ⟨body, rfl, hx⟩ := expressions_of_parse h
  have helements := areElements_of_expressions hx
  rw [lower_program helements] at ht
  obtain rfl := Except.ok.inj ht
  have hlength := congrArg List.length (map_raise_emitAll false body helements)
  rwa [List.length_map] at hlength

end Sizes

section Outcomes

variable {source : String} {tokens : List Token} {tree : Node} {target : Target.Node}

theorem outcome_lexing : Stage.lexing.outcome source =
    (lex source).map fun tokens => ("tokens", tokens.length) := by
  rw [Stage.outcome]
  cases lex source <;> rfl

theorem outcome_parsing (hl : lex source = .ok tokens) : Stage.parsing.outcome source =
    (parse tokens).map fun tree => ("top_level", sourceSize tree) := by
  rw [Stage.outcome, hl]
  cases hp : parse tokens with
  | error f => simp [hp, bind, Except.bind, Except.map]
  | ok tree =>
    simp [hp, bind, Except.bind, pure, Except.pure, Except.map, sourceSize_of_parse hp]

theorem outcome_transforming (hl : lex source = .ok tokens) (hp : parse tokens = .ok tree) :
    Stage.transforming.outcome source =
      tree.lower.map fun target => ("top_level", targetSize target) := by
  rw [Stage.outcome, hl]
  cases ht : tree.lower with
  | error f => simp [hp, ht, bind, Except.bind, Except.map]
  | ok target =>
    simp [hp, ht, bind, Except.bind, pure, Except.pure, Except.map, targetSize_of_parse hp ht]

theorem outcome_rendering (hl : lex source = .ok tokens) (hp : parse tokens = .ok tree)
    (ht : tree.lower = .ok target) : Stage.rendering.outcome source =
      (Target.render target).map fun code => ("characters", code.length) := by
  have hc : compile source = Target.render target := by simp [compile, hl, hp, ht, bind, Except.bind]
  rw [Stage.outcome, hc]
  cases Target.render target <;> rfl

end Outcomes

theorem stages_fst (settings : Settings) (source : String) :
    (stages settings source).1 =
      ⟨record source 0 (attempts source (Stage.upTo settings.format)), []⟩ := by
  obtain ⟨format, trace, indent⟩ := settings
  -- each format cuts the chain of phases after another stage
  cases format with
  | tokens =>
    simp only [stages, if_true]
    exact Records.phase outcome_lexing (fun tokens _ => records_nil source _) []
  | ast =>
    simp only [stages, reduceCtorEq, if_false, if_true]
    exact Records.phase outcome_lexing (fun tokens hl => .phase (outcome_parsing hl) fun tree _ =>
      records_nil source _) []
  | targetAst =>
    simp only [stages, reduceCtorEq, if_false, if_true]
    exact Records.phase outcome_lexing (fun tokens hl => .phase (outcome_parsing hl) fun tree hp =>
      .phase (outcome_transforming hl hp) fun target _ => records_nil source _) []
  | code =>
    simp only [stages, reduceCtorEq, if_false]
    exact Records.phase outcome_lexing (fun tokens hl => .phase (outcome_parsing hl) fun tree hp =>
      .phase (outcome_transforming hl hp) fun target ht => .phase (outcome_rendering hl hp ht)
        fun code _ => records_nil source _) []

section Failures

theorem outcome_eq_error_iff {source : String} {stage : Stage} {f : Fault} :
    stage.outcome source = .error f ↔ lex source = .error f ∨
      stage ≠ .lexing ∧ ∃ tokens, lex source = .ok tokens ∧ parse tokens = .error f := by
  cases stage with
  | rendering =>
    simp only [ne_eq, reduceCtorEq, not_false_eq_true, true_and]
    rw [← compile_eq_error_iff, Stage.outcome]
    cases compile source <;> simp [bind, Except.bind, pure, Except.pure]
  | lexing =>
    cases hl : lex source <;> simp [Stage.outcome, hl, bind, Except.bind, pure, Except.pure]
  | parsing | transforming =>
    cases hl : lex source with
    | error g => simp [Stage.outcome, hl, bind, Except.bind]
    | ok tokens =>
      cases hp : parse tokens with
      | error g => simp [Stage.outcome, hl, hp, bind, Except.bind]
      | ok tree =>
        obtain ⟨target, ht⟩ := exists_lower_of_parse hp
        simp [Stage.outcome, hl, hp, ht, bind, Except.bind, pure, Except.pure]

theorem unreadable_iff {format : Settings.Format} {source : String} {f : Fault} :
    Unreadable format source f ↔ ∃ stage ∈ Stage.upTo format, stage.outcome source = .error f := by
  cases format <;> simp [Unreadable, Stage.upTo, outcome_eq_error_iff]

def Attempt.Completed (a : Attempt) : Prop := ∃ counted, a.outcome = .ok counted

theorem Attempt.Completed.kind_closing {a : Attempt} (h : a.Completed) (id : Nat) :
    (a.closing id).kind ≠ .failed := by
  obtain ⟨counted, h⟩ := h
  simp [closing, h]

/-- Either all stages are attempted and come to their end, or the last that is attempted fails. -/
theorem attempts_cases (source : String) (stages : List Stage) :
    ((∀ stage ∈ stages, ∀ f, stage.outcome source ≠ .error f) ∧
      ∀ a ∈ attempts source stages, a.Completed) ∨
    ∃ before, ∃ stage ∈ stages, ∃ f, stage.outcome source = .error f ∧
      attempts source stages = before ++ [⟨stage, .error f⟩] ∧ ∀ a ∈ before, a.Completed := by
  induction stages with
  | nil => simp [attempts]
  | cons stage stages ih =>
    cases ho : stage.outcome source with
    | error f => exact .inr ⟨[], stage, by simp, f, ho, by simp [attempts, ho], by simp⟩
    | ok counted =>
      have hfirst : Attempt.Completed ⟨stage, .ok counted⟩ := ⟨counted, rfl⟩
      have hattempts : attempts source (stage :: stages) =
          ⟨stage, .ok counted⟩ :: attempts source stages := by rw [attempts, ho]
      rw [hattempts]
      obtain ⟨hnone, hall⟩ | ⟨before, last, hlast, f, hf, heq, hbefore⟩ := ih
      · refine .inl ⟨List.forall_mem_cons.mpr ⟨?_, hnone⟩, List.forall_mem_cons.mpr ⟨hfirst, hall⟩⟩
        simp [ho]
      · exact .inr ⟨_ :: before, last, List.mem_cons_of_mem stage hlast, f, hf, by rw [heq]; rfl,
          List.forall_mem_cons.mpr ⟨hfirst, hbefore⟩⟩

theorem record_append (source : String) (id : Nat) (before after : List Attempt) :
    record source id (before ++ after) =
      record source id before ++ record source (id + 2 * before.length) after := by
  induction before generalizing id with
  | nil => rfl
  | cons a before ih =>
    have hid : id + 2 + 2 * before.length = id + 2 * (before.length + 1) := by omega
    simp only [List.cons_append, record, ih, List.length_cons, hid]

theorem kind_of_mem_record {source : String} {id : Nat} {as : List Attempt}
    (h : ∀ a ∈ as, a.Completed) : ∀ e ∈ record source id as, e.kind ≠ .failed := by
  induction as generalizing id with
  | nil => simp [record]
  | cons a as ih =>
    obtain ⟨ha, has⟩ := List.forall_mem_cons.mp h
    rw [record, List.forall_mem_cons, List.forall_mem_cons]
    exact ⟨by simp [Attempt.opening], ha.kind_closing id, ih has⟩

end Failures

theorem events_run (settings : Settings) (source : String) :
    (run settings source).events =
      if settings.trace then record source 0 (attempts source (Stage.upTo settings.format)) else [] := by
  rw [run_eq_ofOutput, stages_fst]
  cases shown settings.format settings.indent source <;> rfl

/-- A run that keeps a record has, for each stage that it attempts, a start outside of every phase and then
the event that closes it; what is counted in these is what `Stage.outcome` says. A run fails exactly if its
last event, and no other, is a failure, which then tells the fault. Without a record there are no events. -/
theorem run_records_attempts (settings : Settings) (source : String) :
    (settings.trace = false → (run settings source).events = []) ∧
    (settings.trace = true →
      (run settings source).events =
        record source 0 (attempts source (Stage.upTo settings.format)) ∧
      ((run settings source).success = true →
        ∀ e ∈ (run settings source).events, e.kind ≠ .failed) ∧
      ((run settings source).success = false →
        ∃ (before : List Trace.Event) (last : Trace.Event) (f : Fault),
          (run settings source).events = before ++ [last] ∧
          (∀ e ∈ before, e.kind ≠ .failed) ∧ last.kind = .failed ∧ last.description = f.message ∧
          last.metadata = [("error", .string f.label)] ∧
          (run settings source).errors = [f.label ++ ": " ++ f.message])) ∧
    (settings.format = .code → (run settings source).success = true →
      Stage.rendering.outcome source = .ok ("characters", (run settings source).code.length)) := by
  have hevents := events_run settings source
  refine ⟨fun htrace => by rw [hevents, htrace]; rfl, fun htrace => ?_, fun hformat hsuccess => ?_⟩
  · rw [if_pos htrace] at hevents
    rw [hevents]
    obtain ⟨hnone, hall⟩ | ⟨before, stage, hstage, f, hf, heq, hbefore⟩ :=
      attempts_cases source (Stage.upTo settings.format)
    · refine ⟨rfl, fun _ => kind_of_mem_record hall, fun hfail => ?_⟩
      obtain ⟨f, hs, -⟩ := shown_of_failure hfail
      obtain ⟨stage, hstage, hf⟩ := unreadable_iff.mp (shown_eq_error_iff.mp hs)
      exact absurd hf (hnone stage hstage f)
    · have hs : shown settings.format settings.indent source = .error f :=
        shown_eq_error_iff.mpr (unreadable_iff.mpr ⟨stage, hstage, hf⟩)
      refine ⟨rfl, fun hsuccess => ?_, fun hfail => ?_⟩
      · rw [shown_of_success hsuccess] at hs
        cases hs
      · obtain ⟨g, hg, -, herrors⟩ := shown_of_failure hfail
        obtain rfl : f = g := Except.error.inj (hs.symm.trans hg)
        -- the last attempt opens a phase, and closes it with its fault
        refine ⟨record source 0 before ++ [Attempt.opening source (0 + 2 * before.length) ⟨stage, .error f⟩],
          Attempt.closing (0 + 2 * before.length) ⟨stage, .error f⟩, f, ?_, ?_, rfl, rfl, rfl, herrors⟩
        · rw [heq, record_append, List.append_assoc]
          rfl
        · rw [List.forall_mem_append, List.forall_mem_singleton]
          exact ⟨kind_of_mem_record hbefore, by simp [Attempt.opening]⟩
  · have hs := shown_of_success hsuccess
    rw [hformat, shown] at hs
    rw [Stage.outcome, hs]
    rfl

end CallCompiler.Engine
