import CallCompiler.Command.Script
import CallCompiler.Proofs.Notices
import CallCompiler.Proofs.Runs

/-!
What a run of the compile command leaves behind. `runCompile_course` says once which ways a run can go; what
holds of exit codes, output, messages and files is read off from that. All that can come between a run and
its end, besides files that cannot be written, is a warning about the settings that cannot be shown.
-/
namespace CallCompiler

theorem Engine.run_cases (settings : Settings) (source : String) :
    (run settings source).success = true ∨
      (run settings source).success = false ∧ ∃ error, (run settings source).errors = [error] := by
  rw [run_eq_ofOutput]
  cases shown settings.format settings.indent source with
  | ok code => exact .inl rfl
  | error f => exact .inr ⟨rfl, _, rfl⟩

theorem Files.Tree.descend_ne_unusable (t : Tree) (place : Place) (parts : List String) :
    t.descend place parts ≠ .error .unusable := by
  induction parts generalizing place with
  | nil => simp [descend]
  | cons part rest ih =>
    rw [descend]
    split
    · simp
    · simp
    · split
      · simp
      · exact ih _

theorem Files.Tree.read_ne_unusable {t : Tree} {path : Path} (h : '\x00' ∉ path.text.toList) :
    t.read path ≠ .error .unusable := by
  have hlocate : t.locate path ≠ .error .unusable := by
    unfold locate
    rw [if_neg (by simpa using h)]
    split
    · simp
    · exact t.descend_ne_unusable _ _
  unfold read
  cases hl : t.locate path with
  | error fault =>
    rw [hl] at hlocate
    simpa [bind, Except.bind] using hlocate
  | ok place =>
    simp only [bind, Except.bind]
    split
    · next content hopened =>
      rw [opened?] at hopened
      obtain ⟨bytes, -, rfl⟩ := Option.map_eq_some_iff.mp hopened
      split <;> simp
    · split <;> simp

namespace Command

open Console (Notice)

section Performing

variable (styles : Console.Styles) (ending : Ending)

def Shown (entries : List Console.Entry) : Prop := ∀ e ∈ entries, styles.fault? e.message = none

theorem perform_logs {entries : List Console.Entry} (h : Shown styles entries) (steps : List Step)
    (o : Outcome) :
    perform styles ending (entries.map .log ++ steps) o =
      perform styles ending steps { o with logs := o.logs ++ entries } := by
  induction entries generalizing o with
  | nil => simp
  | cons e entries ih =>
    obtain ⟨he, hrest⟩ := List.forall_mem_cons.mp h
    rw [List.map_cons, List.cons_append, perform, he]
    simp only [ih hrest, List.append_assoc, List.singleton_append]

theorem perform_logs_unshown {entries : List Console.Entry} (h : ¬Shown styles entries)
    (steps : List Step) (o : Outcome) :
    ∃ before entry after fault, entries = before ++ entry :: after ∧
      styles.fault? entry.message = some fault ∧
      perform styles ending (entries.map .log ++ steps) o =
        { o with logs := o.logs ++ before, ending := .unshown entry fault } := by
  induction entries generalizing o with
  | nil => exact absurd (List.forall_mem_nil _) h
  | cons e entries ih =>
    cases hfault : styles.fault? e.message with
    | some fault =>
      refine ⟨[], e, entries, fault, rfl, hfault, ?_⟩
      simp [perform, hfault]
    | none =>
      have hrest : ¬Shown styles entries := fun hshown =>
        h (List.forall_mem_cons.mpr ⟨hfault, hshown⟩)
      obtain ⟨before, entry, after, fault, rfl, hentry, he⟩ :=
        ih hrest { o with logs := o.logs ++ [e] }
      refine ⟨e :: before, entry, after, fault, rfl, hentry, ?_⟩
      rw [List.map_cons, List.cons_append, perform, hfault]
      simpa using he

theorem perform_notice {n : Notice} (h : n.level ≠ .warning) (steps : List Step) (o : Outcome) :
    perform styles ending (.log n.entry :: steps) o =
      perform styles ending steps { o with logs := o.logs ++ [n.entry] } := by
  rw [perform, Notice.fault?_entry styles h]

theorem perform_writeSteps {message : String → Console.Entry} {path : Files.Path} {n : Notice}
    (hn : message (Console.pathMarkup path.text) = n.entry) (hlevel : n.level ≠ .warning) (text : String)
    (steps : List Step) (o : Outcome) :
    perform styles ending (writeSteps path text message ++ steps) o =
      match o.tree.write path (Text.Utf8.encode text) with
      | .ok tree => perform styles ending steps { o with tree, logs := o.logs ++ [n.entry] }
      | .error fault => { o with ending := .fileFault path fault } := by
  rw [writeSteps, hn, List.cons_append, List.cons_append, List.nil_append, perform]
  cases o.tree.write path (Text.Utf8.encode text) with
  | ok tree => exact perform_notice styles ending hlevel steps _
  | error fault => rfl

end Performing

def traceText (stamps : Trace.Stamps) (result : Engine.Result) : String :=
  (Trace.toJson stamps result.events).dump 2

def traceSteps (request : Request) (stamps : Trace.Stamps) (result : Engine.Result) : List Step :=
  match request.traceFile with
  | none => []
  | some path =>
    writeSteps path (traceText stamps result) fun path => Console.say .info ("Trace written to " ++ path)

def closingScript (request : Request) (result : Engine.Result) : Script :=
  if result.success then outputScript request.out (result.code ++ "\n")
  else ⟨result.errors.map fun e => complain (Console.escape e), .exit 1⟩

theorem resultScript_eq (request : Request) (stamps : Trace.Stamps) (result : Engine.Result) :
    resultScript request stamps result =
      ⟨traceSteps request stamps result ++ (closingScript request result).steps,
        (closingScript request result).ending⟩ := by
  unfold resultScript closingScript
  cases result.success <;> rfl

def loadedScript (request : Request) (stamps : Trace.Stamps) (source : String)
    (loaded : Settings.Loaded) : Script :=
  match loaded.result with
  | .error fault => ⟨[complain ("Invalid configuration: " ++ Console.escape fault.message)], .exit 1⟩
  | .ok settings => resultScript request stamps (Engine.run settings source)

section Courses

variable (env : Environment) (tree : Files.Tree) (input : List UInt8) (stamps : Trace.Stamps)
  (request : Request)

def loading : Settings.Loaded := Settings.loadFrom env.wording tree tree.here request.overrides

def WarningsShown : Prop := Shown env.styles (loading env tree request).logs

def Unreadable : Prop := ∃ fault, sourceText tree.read input request = .error fault

def Misconfigured : Prop := ∃ fault, (loading env tree request).result = .error fault

structure Ready (source : String) (settings : Settings) : Prop where
  source_eq : sourceText tree.read input request = .ok source
  settings_eq : (loading env tree request).result = .ok settings

inductive Traced (result : Engine.Result) : Files.Tree → Prop
  | unasked : request.traceFile = none → Traced result tree
  | written {path : Files.Path} {traced : Files.Tree} : request.traceFile = some path →
      tree.write path (Text.Utf8.encode (traceText stamps result)) = .ok traced → Traced result traced

def Calm (notes : List Console.Entry) : Prop := ∀ e ∈ notes, e.level ≠ .error

inductive Course : Outcome → Prop
  | unreadable {entry : Console.Entry} : Unreadable tree input request → entry.level = .error →
      Course ⟨tree, [entry], "", none, .exit 1⟩
  | unshown {source : String} {notes : List Console.Entry} {entry : Console.Entry}
      {fault : Console.MarkupFault} : sourceText tree.read input request = .ok source →
      entry ∈ (loading env tree request).logs → env.styles.fault? entry.message = some fault →
      Calm notes → Course ⟨tree, notes, "", none, .unshown entry fault⟩
  | invalid {notes : List Console.Entry} {entry : Console.Entry} :
      WarningsShown env tree request → Misconfigured env tree request →
      Calm notes → entry.level = .error → Course ⟨tree, notes ++ [entry], "", none, .exit 1⟩
  | traceFault {source : String} {settings : Settings} {notes : List Console.Entry}
      {path : Files.Path} {fault : Files.Fault} :
      WarningsShown env tree request → Ready env tree input request source settings →
      request.traceFile = some path → ¬tree.Writable path →
      Course ⟨tree, notes, "", none, .fileFault path fault⟩
  | failed {source : String} {settings : Settings} {traced : Files.Tree}
      {notes : List Console.Entry} {entry : Console.Entry} :
      WarningsShown env tree request → Ready env tree input request source settings →
      (Engine.run settings source).success = false →
      Traced tree stamps request (Engine.run settings source) traced →
      Calm notes → entry.level = .error → Course ⟨traced, notes ++ [entry], "", none, .exit 1⟩
  | printed {source : String} {settings : Settings} {traced : Files.Tree}
      {notes : List Console.Entry} :
      WarningsShown env tree request → Ready env tree input request source settings →
      (Engine.run settings source).success = true →
      Traced tree stamps request (Engine.run settings source) traced → request.out = none →
      Course ⟨traced, notes, (Engine.run settings source).code ++ "\n", none, .exit 0⟩
  | noPlace {source : String} {settings : Settings} {traced : Files.Tree}
      {notes : List Console.Entry} :
      WarningsShown env tree request → Ready env tree input request source settings →
      (Engine.run settings source).success = true →
      Traced tree stamps request (Engine.run settings source) traced → request.out = some none →
      Course ⟨traced, notes, "", none, .noPlace⟩
  | outFault {source : String} {settings : Settings} {traced : Files.Tree}
      {notes : List Console.Entry} {path : Files.Path} {fault : Files.Fault} :
      WarningsShown env tree request → Ready env tree input request source settings →
      (Engine.run settings source).success = true →
      Traced tree stamps request (Engine.run settings source) traced →
      request.out = some (some path) → ¬traced.Writable path →
      Course ⟨traced, notes, "", none, .fileFault path fault⟩
  | written {source : String} {settings : Settings} {traced final : Files.Tree}
      {notes : List Console.Entry} {path : Files.Path} :
      WarningsShown env tree request → Ready env tree input request source settings →
      (Engine.run settings source).success = true →
      Traced tree stamps request (Engine.run settings source) traced →
      request.out = some (some path) →
      traced.write path (Text.Utf8.encode ((Engine.run settings source).code ++ "\n")) = .ok final →
      Course ⟨final, notes, "", none, .exit 0⟩

end Courses

section

variable {env : Environment} {tree : Files.Tree} {input : List UInt8} {stamps : Trace.Stamps}
  {request : Request}

theorem cannotRead_eq (path : Files.Path) (reason : String) :
    cannotRead path reason = ⟨[.log (Notice.cannotRead path.text reason).entry], .exit 1⟩ := by
  rw [Notice.entry_cannotRead]
  rfl

theorem script_of_sourceText_error {fault : SourceFault}
    (hpath : ∀ path, request.path = some path → '\x00' ∉ path.text.toList)
    (hinput : ∃ text, Text.Utf8.decode input = .ok text)
    (h : sourceText tree.read input request = .error fault) :
    ∃ path reason, fault.script = ⟨[.log (Notice.cannotRead path reason).entry], .exit 1⟩ := by
  unfold sourceText at h
  split at h
  · cases h
  · next path _ hp =>
    split at h
    · next fault' hread =>
      obtain rfl := Except.error.inj h
      have husable : fault' ≠ .unusable := by
        rintro rfl
        exact Files.Tree.read_ne_unusable (hpath path hp) hread
      cases fault' with
      | unusable => exact absurd rfl husable
      | missing | notFolder | isFolder | nameTooLong | refused => exact ⟨_, _, cannotRead_eq path _⟩
    · next bytes _ =>
      cases hr : readText bytes with
      | ok text => simp [hr, Except.mapError] at h
      | error fault' =>
        rw [hr] at h
        obtain rfl := Except.error.inj h
        exact ⟨_, _, cannotRead_eq path _⟩
  · obtain ⟨text, ht⟩ := hinput
    simp [readText, ht, Except.map, Except.mapError] at h

theorem Calm.concat {notes : List Console.Entry} (h : Calm notes) {entry : Console.Entry}
    (he : entry.level ≠ .error) : Calm (notes ++ [entry]) := by
  intro e hmem
  obtain hmem | hmem := List.mem_append.mp hmem
  · exact h e hmem
  · rwa [List.mem_singleton.mp hmem]

theorem calm_loading (env : Environment) (tree : Files.Tree) (request : Request) :
    Calm (loading env tree request).logs := by
  intro e he hlevel
  obtain ⟨n, hn, rfl⟩ := Notice.exists_of_mem_load he
  have hwarning : n.entry.level = .warning := hn
  rw [hwarning] at hlevel
  cases hlevel

theorem not_warningsShown_of_fault {entry : Console.Entry} {fault : Console.MarkupFault}
    (hmem : entry ∈ (loading env tree request).logs)
    (hfault : env.styles.fault? entry.message = some fault) : ¬WarningsShown env tree request := by
  intro hshown
  rw [hshown entry hmem] at hfault
  cases hfault

theorem not_writable_of_write {t : Files.Tree} {path : Files.Path} {bytes : Files.Bytes}
    {fault : Files.Fault} (h : t.write path bytes = .error fault) : ¬t.Writable path := by
  intro hw
  obtain ⟨u, hu⟩ := (Files.Tree.writable_iff_write bytes).mp hw
  rw [h] at hu
  cases hu

theorem course_of_traced {source : String} {settings : Settings} {traced : Files.Tree}
    {notes : List Console.Entry} {ending : Ending} (hshown : WarningsShown env tree request)
    (hready : Ready env tree input request source settings)
    (ht : Traced tree stamps request (Engine.run settings source) traced) (hc : Calm notes) :
    Course env tree input stamps request
      (perform env.styles (closingScript request (Engine.run settings source)).ending
        (closingScript request (Engine.run settings source)).steps
        ⟨traced, notes, "", none, ending⟩) := by
  unfold closingScript
  obtain hsuccess | ⟨hfail, error, herrors⟩ := Engine.run_cases settings source
  · rw [if_pos hsuccess]
    cases hout : request.out with
    | none =>
      simp only [outputScript, perform, String.empty_append]
      exact .printed hshown hready hsuccess ht hout
    | some out =>
      cases out with
      | none => exact .noPlace hshown hready hsuccess ht hout
      | some path =>
        simp only [outputScript]
        rw [← List.append_nil (writeSteps _ _ _),
          perform_writeSteps _ _ (Notice.entry_wrote path.text).symm (by nofun)]
        cases hw : traced.write path
            (Text.Utf8.encode ((Engine.run settings source).code ++ "\n")) with
        | ok final => exact .written hshown hready hsuccess ht hout hw
        | error fault => exact .outFault hshown hready hsuccess ht hout (not_writable_of_write hw)
  · rw [if_neg (by simp [hfail]), herrors]
    simp only [List.map_cons, List.map_nil, complain, ← Notice.entry_failed]
    rw [perform_notice _ _ (by nofun)]
    exact .failed hshown hready hfail ht hc rfl

theorem runCompile_of_source {source : String}
    (h : sourceText tree.read input request = .ok source) :
    runCompile env tree input stamps request =
      perform env.styles (loadedScript request stamps source (loading env tree request)).ending
        ((loading env tree request).logs.map Step.log ++
          (loadedScript request stamps source (loading env tree request)).steps)
        (.of tree (.exit 0)) := by
  have hload : Settings.load env.wording ((Settings.find? tree tree.here).map Prod.snd)
      request.overrides = loading env tree request := rfl
  unfold runCompile compileScript loadedScript
  simp only [h, hload]
  cases (loading env tree request).result <;> rfl

theorem runCompile_course (hpath : ∀ path, request.path = some path → '\x00' ∉ path.text.toList)
    (hinput : ∃ text, Text.Utf8.decode input = .ok text) :
    Course env tree input stamps request (runCompile env tree input stamps request) := by
  cases hs : sourceText tree.read input request with
  | error fault =>
    obtain ⟨path, reason, hscript⟩ := script_of_sourceText_error hpath hinput hs
    simp only [runCompile, compileScript, hs, hscript]
    rw [perform_notice _ _ (by nofun)]
    exact .unreadable ⟨fault, hs⟩ rfl
  | ok source =>
    rw [runCompile_of_source hs]
    -- Loading only warns, so a complaint is the only one of its run.
    have hcalm := calm_loading env tree request
    by_cases hshown : WarningsShown env tree request
    · rw [perform_logs env.styles _ hshown, loadedScript]
      cases hl : (loading env tree request).result with
      | error fault =>
        simp only [complain, ← Notice.entry_invalidSettings]
        rw [perform_notice _ _ (by nofun)]
        exact .invalid hshown ⟨fault, hl⟩ hcalm rfl
      | ok settings =>
        simp only [resultScript_eq]
        unfold traceSteps
        cases htrace : request.traceFile with
        | none => exact course_of_traced hshown ⟨hs, hl⟩ (.unasked htrace) hcalm
        | some path =>
          rw [perform_writeSteps _ _ (Notice.entry_traceWritten path.text).symm (by nofun)]
          split
          · next traced hw =>
            exact course_of_traced hshown ⟨hs, hl⟩ (.written htrace hw) (hcalm.concat (by nofun))
          · next fault hw =>
            exact .traceFault hshown ⟨hs, hl⟩ htrace (not_writable_of_write hw)
    · generalize loadedScript request stamps source (loading env tree request) = script
      obtain ⟨before, entry, after, fault, hlogs, hfault, he⟩ :=
        perform_logs_unshown env.styles script.ending hshown script.steps (.of tree (.exit 0))
      rw [he]
      rw [hlogs] at hcalm
      refine .unshown hs (by simp [hlogs]) hfault fun e hmem => hcalm e ?_
      exact List.mem_append_left _ hmem

theorem Ready.unique {source other : String} {settings others : Settings}
    (h : Ready env tree input request source settings)
    (ho : Ready env tree input request other others) : source = other ∧ settings = others :=
  ⟨Except.ok.inj (h.source_eq.symm.trans ho.source_eq),
    Except.ok.inj (h.settings_eq.symm.trans ho.settings_eq)⟩

theorem not_unreadable_of_source {source : String}
    (h : sourceText tree.read input request = .ok source) : ¬Unreadable tree input request := by
  rintro ⟨fault, hs⟩
  rw [h] at hs
  cases hs

theorem Ready.not_unreadable {source : String} {settings : Settings}
    (h : Ready env tree input request source settings) : ¬Unreadable tree input request :=
  not_unreadable_of_source h.source_eq

theorem Ready.not_misconfigured {source : String} {settings : Settings}
    (h : Ready env tree input request source settings) : ¬Misconfigured env tree request := by
  rintro ⟨fault, hl⟩
  rw [h.settings_eq] at hl
  cases hl

namespace Traced

variable {result : Engine.Result} {traced : Files.Tree} (h : Traced tree stamps request result traced)
include h

theorem writable {path : Files.Path} (hp : request.traceFile = some path) : tree.Writable path := by
  cases h with
  | unasked hnone =>
    rw [hp] at hnone
    cases hnone
  | written hsome hw =>
    obtain rfl := Option.some.inj (hp.symm.trans hsome)
    exact (Files.Tree.writable_iff_write _).mpr ⟨_, hw⟩

theorem unique {other : Files.Tree} (ho : Traced tree stamps request result other) : other = traced := by
  cases h with
  | unasked hnone =>
    cases ho with
    | unasked => rfl
    | written hsome => cases hnone.symm.trans hsome
  | written hsome hw =>
    cases ho with
    | unasked hnone => cases hnone.symm.trans hsome
    | written hsome' hw' =>
      obtain rfl := Option.some.inj (hsome.symm.trans hsome')
      exact Except.ok.inj (hw'.symm.trans hw)

theorem locate_eq_ok_iff {path : Files.Path} {q : Files.Place} :
    traced.locate path = .ok q ↔ tree.locate path = .ok q := by
  cases h with
  | unasked _ => rfl
  | written _ hw => exact Files.Tree.locate_write_eq_ok_iff hw

theorem sameBut {final : Files.Tree} {paths : List Files.Path} (hf : traced.SameBut paths final) :
    tree.SameBut (request.traceFile.toList ++ paths) final := by
  cases h with
  | unasked hnone =>
    rw [hnone]
    exact hf
  | written hsome hw =>
    rw [hsome]
    exact Files.Tree.SameBut.after_write hw hf

theorem sameBut_traced : tree.SameBut request.traceFile.toList traced := by
  simpa using h.sameBut (Files.Tree.sameBut_self [] traced)

end Traced

variable (env tree input stamps request) in
/-- Everything that a run needs to end well, but for warnings that can be shown. -/
structure Succeeds (source : String) (settings : Settings) : Prop
    extends Ready env tree input request source settings where
  success : (Engine.run settings source).success = true
  trace_writable : ∀ path, request.traceFile = some path → tree.Writable path
  out_writable : ∀ traced, Traced tree stamps request (Engine.run settings source) traced →
    ∀ out, request.out = some out → ∃ path, out = some path ∧ traced.Writable path

variable (env tree input request) in
structure Fails (source : String) (settings : Settings) : Prop
    extends Ready env tree input request source settings where
  failure : (Engine.run settings source).success = false
  trace_writable : ∀ path, request.traceFile = some path → tree.Writable path

def Outcome.complaints (o : Outcome) : List Console.Entry := o.logs.filter fun e => e.level = .error

theorem filter_calm {notes : List Console.Entry} (h : Calm notes) :
    notes.filter (fun e => e.level = .error) = [] := by
  rw [List.filter_eq_nil_iff]
  intro e hmem
  simpa using h e hmem

theorem length_complaints {notes : List Console.Entry} (h : Calm notes) {entry : Console.Entry}
    (he : entry.level = .error) {o : Outcome} (ho : o.logs = notes ++ [entry]) :
    o.complaints.length = 1 := by
  rw [Outcome.complaints, ho, List.filter_append, filter_calm h]
  simp [he]

variable (tree request) in
/-- The text is where it was asked for, and nothing else has changed. -/
structure Delivered (text : String) (o : Outcome) : Prop where
  printed : request.out = none → o.output = text
  written : ∀ path, request.out = some (some path) → o.output = "" ∧
    ∃ place, tree.locate path = .ok place ∧ o.tree.content? place = some (Text.Utf8.encode text)
  sameBut : tree.SameBut (request.traceFile.toList ++ request.out.join.toList) o.tree

variable (env tree input request) in
/-- Nothing is printed, one message says why, and at most the trace has been written. -/
structure Refused (o : Outcome) : Prop where
  output_eq : o.output = ""
  complaints_length : o.complaints.length = 1
  sameBut : tree.SameBut request.traceFile.toList o.tree
  unchanged : Unreadable tree input request ∨ Misconfigured env tree request → o.tree = tree

variable (env tree input request) in
/-- A warning about the settings could not be shown, and nothing was done. -/
structure CutShort (o : Outcome) : Prop where
  ending_eq : ∃ entry ∈ (loading env tree request).logs, ∃ fault,
    env.styles.fault? entry.message = some fault ∧ o.ending = .unshown entry fault
  readable : ¬Unreadable tree input request
  tree_eq : o.tree = tree
  complaints_eq : o.complaints = []

theorem cutShort_of_unshown {source : String} {notes : List Console.Entry} {entry : Console.Entry}
    {fault : Console.MarkupFault} (hs : sourceText tree.read input request = .ok source)
    (hmem : entry ∈ (loading env tree request).logs)
    (hfault : env.styles.fault? entry.message = some fault) (hcalm : Calm notes) :
    CutShort env tree input request ⟨tree, notes, "", none, .unshown entry fault⟩ :=
  ⟨⟨entry, hmem, fault, hfault, rfl⟩, not_unreadable_of_source hs, rfl, filter_calm hcalm⟩

namespace Course

variable {o : Outcome} (h : Course env tree input stamps request o)
include h

theorem exit_zero_iff :
    o.ending = .exit 0 ↔ WarningsShown env tree request ∧
      ∃ source settings, Succeeds env tree input stamps request source settings := by
  constructor
  · intro he
    cases h with
    | unreadable | unshown | invalid | traceFault | failed | noPlace | outFault => cases he
    | printed hshown hready hsuccess ht hout =>
      exact ⟨hshown, _, _, hready, hsuccess, fun _ => ht.writable, by simp [hout]⟩
    | written hshown hready hsuccess ht hout hw =>
      refine ⟨hshown, _, _, hready, hsuccess, fun _ => ht.writable, fun other hother out ho => ?_⟩
      obtain rfl := Option.some.inj (hout.symm.trans ho)
      rw [ht.unique hother]
      exact ⟨_, rfl, (Files.Tree.writable_iff_write _).mpr ⟨_, hw⟩⟩
  · rintro ⟨hall, source, settings, hs⟩
    cases h with
    | printed | written => rfl
    | unreadable hfault _ => exact absurd hfault hs.not_unreadable
    | unshown _ hmem hfault _ => exact absurd hall (not_warningsShown_of_fault hmem hfault)
    | invalid _ hfault _ _ => exact absurd hfault hs.not_misconfigured
    | traceFault _ _ htrace hnot => exact absurd (hs.trace_writable _ htrace) hnot
    | failed _ hready hfail _ _ _ =>
      obtain ⟨rfl, rfl⟩ := hready.unique hs.toReady
      rw [hs.success] at hfail
      cases hfail
    | noPlace _ hready _ ht hout =>
      obtain ⟨rfl, rfl⟩ := hready.unique hs.toReady
      obtain ⟨path, he, -⟩ := hs.out_writable _ ht _ hout
      cases he
    | outFault _ hready _ ht hout hnot =>
      obtain ⟨rfl, rfl⟩ := hready.unique hs.toReady
      obtain ⟨path, he, hw⟩ := hs.out_writable _ ht _ hout
      obtain rfl := Option.some.inj he
      exact absurd hw hnot

theorem delivered (hshown : WarningsShown env tree request) {source : String} {settings : Settings}
    (hs : Succeeds env tree input stamps request source settings) :
    Delivered tree request ((Engine.run settings source).code ++ "\n") o := by
  have he := h.exit_zero_iff.mpr ⟨hshown, source, settings, hs⟩
  cases h with
  | unreadable | unshown | invalid | traceFault | failed | noPlace | outFault => cases he
  | printed _ hready hsuccess ht hout =>
    obtain ⟨rfl, rfl⟩ := hready.unique hs.toReady
    refine ⟨fun _ => rfl, by simp [hout], ?_⟩
    rw [hout]
    exact ht.sameBut (Files.Tree.sameBut_self _ _)
  | written _ hready hsuccess ht hout hw =>
    obtain ⟨rfl, rfl⟩ := hready.unique hs.toReady
    refine ⟨by simp [hout], fun path hp => ⟨rfl, ?_⟩, ?_⟩
    -- The trace may be in the same file, but it was written first.
    · obtain rfl := Option.some.inj (Option.some.inj (hout.symm.trans hp))
      obtain ⟨place, hl, hcontent⟩ := Files.Tree.content?_write hw
      exact ⟨place, ht.locate_eq_ok_iff.mp hl, hcontent⟩
    · rw [hout]
      exact ht.sameBut (Files.Tree.SameBut.after_write hw (Files.Tree.sameBut_self _ _))

theorem exit_one_iff :
    o.ending = .exit 1 ↔ Unreadable tree input request ∨ WarningsShown env tree request ∧
      (Misconfigured env tree request ∨
        ∃ source settings, Fails env tree input request source settings) := by
  constructor
  · intro he
    cases h with
    | unshown | traceFault | printed | noPlace | outFault | written => cases he
    | unreadable hfault _ => exact .inl hfault
    | invalid hshown hfault _ _ => exact .inr ⟨hshown, .inl hfault⟩
    | failed hshown hready hfail ht _ _ =>
      exact .inr ⟨hshown, .inr ⟨_, _, hready, hfail, fun _ => ht.writable⟩⟩
  · rintro (hfault | ⟨hall, hfault | ⟨source, settings, hf⟩⟩)
    · cases h with
      | unreadable | invalid | failed => rfl
      | unshown hs => exact absurd hfault (not_unreadable_of_source hs)
      | traceFault _ hready | printed _ hready | noPlace _ hready | outFault _ hready
        | written _ hready => exact absurd hfault hready.not_unreadable
    · cases h with
      | unreadable | invalid | failed => rfl
      | unshown _ hmem hfault _ => exact absurd hall (not_warningsShown_of_fault hmem hfault)
      | traceFault _ hready | printed _ hready | noPlace _ hready | outFault _ hready
        | written _ hready => exact absurd hfault hready.not_misconfigured
    · cases h with
      | unreadable | invalid | failed => rfl
      | unshown _ hmem hfault _ => exact absurd hall (not_warningsShown_of_fault hmem hfault)
      | traceFault _ _ htrace hnot => exact absurd (hf.trace_writable _ htrace) hnot
      | printed _ hready hsuccess | noPlace _ hready hsuccess | outFault _ hready hsuccess
        | written _ hready hsuccess =>
        obtain ⟨rfl, rfl⟩ := hready.unique hf.toReady
        rw [hf.failure] at hsuccess
        cases hsuccess

theorem refused (he : o.ending = .exit 1) : Refused env tree input request o := by
  cases h with
  | unshown | traceFault | printed | noPlace | outFault | written => cases he
  | unreadable _ hlevel =>
    exact ⟨rfl, by simp [Outcome.complaints, hlevel], Files.Tree.sameBut_self _ _, fun _ => rfl⟩
  | invalid _ _ hcalm hlevel =>
    exact ⟨rfl, length_complaints hcalm hlevel rfl, Files.Tree.sameBut_self _ _, fun _ => rfl⟩
  | failed _ hready _ ht hcalm hlevel =>
    refine ⟨rfl, length_complaints hcalm hlevel rfl, ht.sameBut_traced, fun hfault => ?_⟩
    obtain hfault | hfault := hfault
    · exact absurd hfault hready.not_unreadable
    · exact absurd hfault hready.not_misconfigured

theorem cutShort_iff :
    CutShort env tree input request o ↔
      ¬Unreadable tree input request ∧ ¬WarningsShown env tree request := by
  constructor
  · rintro ⟨⟨entry, hmem, fault, hfault, -⟩, hreadable, -⟩
    exact ⟨hreadable, not_warningsShown_of_fault hmem hfault⟩
  · rintro ⟨hreadable, hnot⟩
    cases h with
    | unshown hs hmem hfault hcalm => exact cutShort_of_unshown hs hmem hfault hcalm
    | unreadable hfault => exact absurd hfault hreadable
    | invalid hshown | traceFault hshown | failed hshown | printed hshown | noPlace hshown
      | outFault hshown | written hshown => exact absurd hshown hnot

theorem output_eq (he : o.ending ≠ .exit 0) : o.output = "" := by
  cases h with
  | printed => exact absurd rfl he
  | unreadable | unshown | invalid | traceFault | failed | noPlace | outFault | written => rfl

/-- Only a warning that cannot be shown and a file that cannot be written stop a run without an exit
code. -/
theorem exit_or_fault :
    (o.ending = .exit 0 ∨ o.ending = .exit 1) ∨ CutShort env tree input request o ∨
      (∃ path fault, o.ending = .fileFault path fault ∧ request.traceFile = some path ∧
        ¬tree.Writable path ∧ o.tree = tree) ∨
      (o.ending = .noPlace ∧ request.out = some none ∨
        ∃ path fault, o.ending = .fileFault path fault ∧ request.out = some (some path) ∧
          ¬o.tree.Writable path) ∧ tree.SameBut request.traceFile.toList o.tree := by
  cases h with
  | printed | written => exact .inl (.inl rfl)
  | unreadable | invalid | failed => exact .inl (.inr rfl)
  | unshown hs hmem hfault hcalm =>
    exact .inr (.inl (cutShort_of_unshown hs hmem hfault hcalm))
  | traceFault _ _ htrace hnot => exact .inr (.inr (.inl ⟨_, _, rfl, htrace, hnot, rfl⟩))
  | noPlace _ _ _ ht hout => exact .inr (.inr (.inr ⟨.inl ⟨rfl, hout⟩, ht.sameBut_traced⟩))
  | outFault _ _ _ ht hout hnot =>
    exact .inr (.inr (.inr ⟨.inr ⟨_, _, rfl, hout, hnot⟩, ht.sameBut_traced⟩))

end Course

end

/-- Says the text itself of a text that is no document, and knows no other names for a style. -/
def plainEnvironment : Environment := ⟨id, id, fun _ => none⟩

def plainStamps : Trace.Stamps := ⟨toString, fun _ => (0, 0)⟩

def sourceAndOther : Files.Tree where
  files := [(["source"], Text.Utf8.encode "(add 1 2)"), (["other"], [])]
  folders := []
  here := []

def overwriting : Request where
  path := some ⟨"", ["source"]⟩
  out := some (some ⟨"", ["source"]⟩)
  traceFile := some ⟨"", ["source"]⟩

theorem writable_source : sourceAndOther.Writable ⟨"", ["source"]⟩ :=
  ⟨["source"], by decide +kernel, by decide +kernel, rfl⟩

theorem succeeds_overwriting :
    Succeeds plainEnvironment sourceAndOther [] plainStamps overwriting "(add 1 2)" ⟨.code, true, 2⟩ where
  source_eq := eq_ok_of_toOption (by decide +kernel)
  settings_eq := eq_ok_of_toOption (by decide +kernel)
  success := by decide +kernel
  trace_writable := by
    rintro path ⟨⟩
    exact writable_source
  out_writable := by
    rintro traced htraced out ⟨⟩
    cases htraced with
    | unasked hnone => cases hnone
    | written hsome hw => exact ⟨_, rfl, Files.Tree.Writable.after_write hw writable_source fun _ _ => rfl⟩

def closingKeyProject : Files.Tree :=
  Settings.projectOf (Text.Utf8.encode "[tool.lisp_to_c]\n\"[/red]\" = 1\n")

end Command

end CallCompiler
