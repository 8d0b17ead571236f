import CallCompiler.Engine
import CallCompiler.Proofs.Lines
import CallCompiler.Proofs.QuoteParity

/-!
Runs against the stages that they go through. A run keeps a record and may stop early; its output is still
what the plain stages come to, and it fails only where the text cannot be read.
-/
namespace CallCompiler

open Source Token

theorem Token.isLexical_of_lex {source : String} {f : Fault} (h : lex source = .error f) :
    f.isLexical = true := by
  obtain ⟨p, c, -, -, rfl⟩ := ((lexFrom_verdict source.toList 0).error_iff f).mp h
  unfold faultAt
  split <;> rfl

theorem Source.exists_lower_of_parse {tokens : List Token} {tree : Node}
    (h : parse tokens = .ok tree) : ∃ target, tree.lower = .ok target := by
  obtain ⟨body, rfl, hx⟩ := expressions_of_parse h
  exact ⟨_, Node.lower_of_known hx.known⟩

theorem compile_ne_unknownNode (source tag : String) :
    compile source ≠ .error (.unknownNode tag) := by
  intro h
  obtain hl | ⟨tokens, -, hp⟩ := compile_eq_error_iff.mp h
  · cases isLexical_of_lex hl
  · obtain ⟨token, position, hf⟩ := parse_error_unexpected hp
    cases hf

namespace Engine

def shown (format : Settings.Format) (indent : Nat) (source : String) : Except Fault String :=
  match format with
  | .tokens => do
    let tokens ← lex source
    return (Json.array (tokens.map Token.toJson)).dump indent
  | .ast => do
    let tree ← lex source >>= parse
    return tree.toJson.dump indent
  | .targetAst => do
    let target ← lex source >>= parse >>= Node.lower
    return target.toJson.dump indent
  | .code => compile source

def Unreadable (format : Settings.Format) (source : String) (f : Fault) : Prop :=
  lex source = .error f ∨
    format ≠ .tokens ∧ ∃ tokens, lex source = .ok tokens ∧ parse tokens = .error f

theorem phase_snd {α β : Type} (t : Trace) (name detail : String) (value : Except Fault α)
    (metadata : α → List (String × Json)) (next : Trace → α → Trace × Except Fault β) :
    (phase t name detail value metadata next).2 =
      value >>= fun a => (next ((t.start name detail).finish (metadata a)) a).2 := by
  cases value <;> rfl

theorem stages_snd (settings : Settings) (source : String) :
    (stages settings source).2 = shown settings.format settings.indent source := by
  obtain ⟨format, trace, indent⟩ := settings
  have hlast (r : Except Fault String) : (r >>= fun code => .ok code) = r := bind_pure r
  -- each format cuts the chain of phases after another stage
  cases format with
  | tokens => simp only [stages, phase_snd, if_true, shown]; rfl
  | ast => simp only [stages, phase_snd, reduceCtorEq, if_false, if_true, shown, bind_assoc]; rfl
  | targetAst =>
    simp only [stages, phase_snd, reduceCtorEq, if_false, if_true, shown, bind_assoc]; rfl
  | code => simp only [stages, phase_snd, reduceCtorEq, if_false, shown, compile, hlast]

theorem shown_eq_error_iff {format : Settings.Format} {indent : Nat} {source : String} {f : Fault} :
    shown format indent source = .error f ↔ Unreadable format source f := by
  unfold Unreadable
  cases format with
  | code => simp [shown, compile_eq_error_iff]
  | tokens | ast | targetAst =>
    cases hl : lex source with
    | error g => simp [shown, hl, bind, Except.bind]
    | ok tokens =>
      cases hp : parse tokens with
      | error g => simp [shown, hl, hp, bind, Except.bind, pure, Except.pure]
      | ok tree =>
        -- what has been parsed is always lowered, so nothing after the parser fails
        obtain ⟨target, ht⟩ := exists_lower_of_parse hp
        simp [shown, hl, hp, ht, bind, Except.bind, pure, Except.pure]

def Result.ofOutput (events : List Trace.Event) : Except Fault String → Result
  | .ok code => ⟨code, [], true, events⟩
  | .error f => ⟨"", [f.report], false, events⟩

theorem run_eq_ofOutput (settings : Settings) (source : String) :
    run settings source =
      .ofOutput (if settings.trace then (stages settings source).1.events else [])
        (shown settings.format settings.indent source) := by
  rw [← stages_snd, run]
  obtain ⟨t, output⟩ := stages settings source
  cases output <;> rfl

theorem shown_of_success {settings : Settings} {source : String}
    (h : (run settings source).success = true) :
    shown settings.format settings.indent source = .ok (run settings source).code := by
  rw [run_eq_ofOutput] at h ⊢
  cases hs : shown settings.format settings.indent source with
  | ok code => rfl
  | error f =>
    rw [hs] at h
    cases h

theorem shown_of_failure {settings : Settings} {source : String}
    (h : (run settings source).success = false) :
    ∃ f, shown settings.format settings.indent source = .error f ∧
      (run settings source).code = "" ∧ (run settings source).errors = [f.report] := by
  rw [run_eq_ofOutput] at h ⊢
  cases hs : shown settings.format settings.indent source with
  | ok code =>
    rw [hs] at h
    cases h
  | error f => exact ⟨f, rfl, rfl, rfl⟩

theorem run_congr {settings other : Settings} {source : String}
    (h : shown settings.format settings.indent source = shown other.format other.indent source) :
    (run settings source).code = (run other source).code ∧
      (run settings source).errors = (run other source).errors ∧
      (run settings source).success = (run other source).success := by
  rw [run_eq_ofOutput, run_eq_ofOutput, h]
  cases shown other.format other.indent source <;> exact ⟨rfl, rfl, rfl⟩

/-- All formats but the tokens need the whole text to be read. -/
theorem run_verdict_congr {settings other : Settings} (source : String)
    (h : settings.format ≠ .tokens) (ho : other.format ≠ .tokens) :
    (run settings source).success = (run other source).success ∧
      (run settings source).errors = (run other source).errors := by
  have hiff (f : Fault) : shown settings.format settings.indent source = .error f ↔
      shown other.format other.indent source = .error f := by
    rw [shown_eq_error_iff, shown_eq_error_iff]
    simp [Unreadable, h, ho]
  rw [run_eq_ofOutput, run_eq_ofOutput]
  cases hs : shown settings.format settings.indent source with
  | error f =>
    rw [(hiff f).mp hs]
    exact ⟨rfl, rfl⟩
  | ok code =>
    cases hs' : shown other.format other.indent source with
    | error f =>
      have hf := hs.symm.trans ((hiff f).mpr hs')
      cases hf
    | ok code' => exact ⟨rfl, rfl⟩

/-- A run fails exactly if its text cannot be read, with one line on the fault, and otherwise shows what the
stages come to. So no node is ever unknown to a compilation, all formats but the tokens fail together, and
keeping a record changes nothing else. -/
theorem run_agrees_with_stages (settings : Settings) (source : String) :
    (∀ f, Unreadable settings.format source f →
      (run settings source).success = false ∧ (run settings source).code = "" ∧
        (run settings source).errors = [f.label ++ ": " ++ f.message]) ∧
    ((∀ f, ¬Unreadable settings.format source f) →
      (run settings source).success = true ∧ (run settings source).errors = [] ∧
        shown settings.format settings.indent source = .ok (run settings source).code) ∧
    (∀ tag, compile source ≠ .error (.unknownNode tag)) ∧
    (∀ other : Settings, settings.format ≠ .tokens → other.format ≠ .tokens →
      (run settings source).success = (run other source).success ∧
        (run settings source).errors = (run other source).errors) ∧
    ∀ trace, (run { settings with trace } source).code = (run settings source).code ∧
      (run { settings with trace } source).errors = (run settings source).errors ∧
      (run { settings with trace } source).success = (run settings source).success := by
  refine ⟨?_, ?_, compile_ne_unknownNode source, fun other => run_verdict_congr source,
    fun trace => run_congr rfl⟩
  · intro f hf
    rw [run_eq_ofOutput, shown_eq_error_iff.mpr hf]
    exact ⟨rfl, rfl, rfl⟩
  · intro hnone
    rw [run_eq_ofOutput]
    cases hshown : shown settings.format settings.indent source with
    | error f => exact absurd (shown_eq_error_iff.mp hshown) (hnone f)
    | ok code => exact ⟨rfl, rfl, rfl⟩

end Engine

end CallCompiler
