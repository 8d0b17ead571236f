import CallCompiler.Proofs.Effects

/-!
The ways that a source text comes to the compile command: in the command line, in a file, or on standard
input. A run depends on the text alone, so that the same text in another way leads to the same messages, the
same output and the same files.
-/
namespace CallCompiler

namespace Files.Tree

theorem mem_files_iff {t : Tree} {q : Place} :
    q ∈ t.files.map Prod.fst ↔ ∃ bytes, t.content? q = some bytes := by
  unfold content?
  induction t.files with
  | nil => simp
  | cons file files ih =>
    obtain ⟨p, bytes⟩ := file
    rw [List.map_cons, List.mem_cons, ih, List.lookup_cons]
    by_cases hq : q = p
    · simp [hq]
    · have hbeq : (q == p) = false := by simpa using hq
      simp [hq, hbeq]

/-- A tree that has some bytes at a place, where they may be read, and is otherwise as another one. -/
structure WithFile (t : Tree) (place : Place) (bytes : Bytes) (u : Tree) : Prop where
  here_eq : u.here = t.here
  folders_eq : u.folders = t.folders
  content?_eq : ∀ q, u.content? q = if q = place then some bytes else t.content? q
  unread_eq : ∀ q, u.unread q = if q = place then none else t.unread q
  unwritten_eq : u.unwritten = t.unwritten
  writes_eq : u.writes = t.writes

theorem kind?_congr {t u : Tree} (hhere : u.here = t.here) (hfolders : u.folders = t.folders)
    (hcontent : ∀ q, u.content? q = t.content? q) (q : Place) : u.kind? q = t.kind? q := by
  have hfile : u.isFile q = t.isFile q := by rw [isFile, isFile, hcontent]
  have habove : u.Above q ↔ t.Above q := by
    unfold Above
    simp only [mem_files_iff, hhere, hfolders, hcontent]
  cases hf : t.isFile q with
  | true => rw [kind?_of_isFile hf, kind?_of_isFile (hfile.trans hf)]
  | false =>
    by_cases ha : t.Above q
    · rw [kind?_of_above hf ha, kind?_of_above (hfile.trans hf) (habove.mpr ha)]
    · rw [kind?_of_not_above hf ha, kind?_of_not_above (hfile.trans hf) (mt habove.mp ha)]

namespace WithFile

variable {t u : Tree} {place : Place} {bytes : Bytes} (h : t.WithFile place bytes u)
include h

theorem opened?_eq (q : Place) : u.opened? q = if q = place then some (.ok bytes) else t.opened? q := by
  rw [opened?, h.content?_eq, h.unread_eq]
  by_cases hq : q = place
  · rw [if_pos hq, if_pos hq, if_pos hq]
    rfl
  · rw [if_neg hq, if_neg hq, if_neg hq]
    rfl

theorem kind?_eq (hplace : t.Reachable place) (q : Place) :
    u.kind? q = if q = place then some .file else t.kind? q := by
  have hhere : u.here = (t.put place bytes).here := h.here_eq
  have hfolders : u.folders = (t.put place bytes).folders := h.folders_eq
  have hcontent : ∀ q, u.content? q = (t.put place bytes).content? q := by
    intro q
    rw [h.content?_eq, content?_put]
  rw [kind?_congr hhere hfolders hcontent, kind?_put hplace]

theorem alike (hplace : t.Reachable place) (hk : t.kind? place ≠ some .folder) : t.Alike u := by
  refine ⟨h.here_eq, fun q => ?_⟩
  rw [h.kind?_eq hplace]
  by_cases hq : q = place
  · simp [hq, hk]
  · rw [if_neg hq]

theorem nearest_eq {name : String} {start : Place}
    (hunread : ∀ folder found, u.nearest name start = some (folder, found) → folder ++ [name] ≠ place) :
    u.nearest name start = t.nearest name start := by
  -- if the file were on the way, the lookup would have stopped there
  have hother : ∀ {folder : Place},
      (∀ found, u.opened? (folder ++ [name]) = some found → folder ++ [name] ≠ place) →
      u.opened? (folder ++ [name]) = t.opened? (folder ++ [name]) := by
    intro folder hf
    rw [h.opened?_eq, if_neg]
    intro he
    exact hf (.ok bytes) (by rw [he, h.opened?_eq, if_pos rfl]) he
  induction start using List.reverseRecOn with
  | nil =>
    have hopened : u.opened? ([] ++ [name]) = t.opened? ([] ++ [name]) := by
      refine hother fun found hfound => hunread [] found ?_
      rw [List.nil_append] at hfound
      rw [nearest_nil, hfound]
      rfl
    rw [List.nil_append] at hopened
    rw [nearest_nil, nearest_nil, hopened]
  | append_singleton start part ih =>
    have hopened : u.opened? (start ++ [part] ++ [name]) = t.opened? (start ++ [part] ++ [name]) := by
      refine hother fun found hfound => hunread _ found ?_
      rw [nearest_concat, hfound]
    rw [nearest_concat, nearest_concat, ← hopened]
    cases hfound : u.opened? (start ++ [part] ++ [name]) with
    | some found => rfl
    | none =>
      rw [nearest_concat, hfound] at hunread
      exact ih hunread

end WithFile

structure Matched (t u : Tree) : Prop extends Alike t u where
  unwritten_eq : u.unwritten = t.unwritten
  writes_eq : u.writes = t.writes

theorem matched_self (t : Tree) : t.Matched t := ⟨⟨rfl, fun _ => Iff.rfl⟩, rfl, rfl⟩

structure SameKinds (t u : Tree) : Prop where
  here_eq : u.here = t.here
  kind?_eq : ∀ q, u.kind? q = t.kind? q

section Lockstep

variable {t u : Tree}

theorem SameKinds.locate_eq (h : t.SameKinds u) (path : Path) : u.locate path = t.locate path := by
  have hdescend : ∀ start, u.descend start path.parts = t.descend start path.parts := by
    induction path.parts with
    | nil => exact fun _ => rfl
    | cons part rest ih =>
      intro start
      rw [descend, descend, h.kind?_eq, ih]
  unfold locate
  rw [h.here_eq, hdescend]

theorem Matched.takes_iff (h : t.Matched u) {place : Place} : u.Takes place ↔ t.Takes place := by
  have hrefused : u.unwritten u.writes place = t.unwritten t.writes place := by
    rw [h.unwritten_eq, h.writes_eq]
  constructor
  · intro hu
    exact ⟨mt (h.folder_iff place).mpr hu.not_folder, hrefused.symm.trans hu.not_refused⟩
  · intro ht
    exact ⟨mt (h.folder_iff place).mp ht.not_folder, hrefused.trans ht.not_refused⟩

theorem Matched.write_error (h : t.Matched u) (hs : t.SameKinds u) {path : Path} {bytes : Bytes}
    {fault : Fault} (hw : t.write path bytes = .error fault) (other : Bytes) :
    u.write path other = .error fault := by
  unfold write at hw ⊢
  rw [hs.locate_eq]
  cases hl : t.locate path with
  | error f =>
    rw [hl] at hw
    exact hw
  | ok place =>
    rw [hl] at hw
    simp only [bind, Except.bind, hs.kind?_eq, h.unwritten_eq, h.writes_eq] at hw ⊢
    split at hw
    · next hk =>
      rw [if_pos hk]
      exact hw
    · next hk =>
      rw [if_neg hk]
      split at hw
      · exact hw
      · cases hw

theorem Matched.write_cases (h : t.Matched u) (path : Path) (bytes other : Bytes) :
    (∃ place, t.write path bytes = .ok (t.put place bytes) ∧ u.write path other = .ok (u.put place other) ∧
      (t.put place bytes).Matched (u.put place other) ∧
      (t.SameKinds u → (t.put place bytes).SameKinds (u.put place other))) ∨
    ∃ f g, t.write path bytes = .error f ∧ u.write path other = .error g ∧ (t.SameKinds u → g = f) := by
  cases hw : t.write path bytes with
  | ok v =>
    obtain ⟨place, hl, htakes, hv⟩ := write_eq_ok_iff.mp hw
    have hl' : u.locate path = .ok place := h.locate_eq_ok_iff.mpr hl
    have htakes' : u.Takes place := h.takes_iff.mpr htakes
    have hreach := reachable_of_locate hl
    have hreach' := reachable_of_locate hl'
    refine .inl ⟨place, by rw [hv], write_eq_ok_iff.mpr ⟨place, hl', htakes', rfl⟩,
      ⟨⟨h.here_eq, fun q => ?_⟩, h.unwritten_eq, congrArg (· + 1) h.writes_eq⟩,
      fun hs => ⟨hs.here_eq, fun q => ?_⟩⟩
    · rw [kind?_put_eq_folder_iff hreach' htakes'.not_folder,
        kind?_put_eq_folder_iff hreach htakes.not_folder, h.folder_iff]
    · rw [kind?_put hreach', kind?_put hreach, hs.kind?_eq]
  | error f =>
    cases hw' : u.write path other with
    | ok v =>
      obtain ⟨place, hl, htakes, -⟩ := write_eq_ok_iff.mp hw'
      have hok := write_eq_ok_iff.mpr ⟨place, h.locate_eq_ok_iff.mp hl, h.takes_iff.mp htakes,
        (rfl : t.put place bytes = _)⟩
      rw [hw] at hok
      cases hok
    | error g =>
      refine .inr ⟨f, g, rfl, rfl, fun hs => ?_⟩
      rw [h.write_error hs hw] at hw'
      exact (Except.error.inj hw').symm

end Lockstep

end Files.Tree

namespace Command

section Acts

/-- What a run writes into a file. In a trace, each run names and dates the events in its own way. -/
inductive Product
  | plain (text : String)
  | trace (events : List Trace.Event)

def Product.written (stamps : Trace.Stamps) : Product → String
  | .plain text => text
  | .trace events => (Trace.toJson stamps events).dump 2

inductive Act
  | log (entry : Console.Entry)
  | write (path : Files.Path) (product : Product)
  | print (text : String)

def Act.step (stamps : Trace.Stamps) : Act → Step
  | .log entry => .log entry
  | .write path product => .write path (product.written stamps)
  | .print text => .print text

def Step.act : Step → Act
  | .log entry => .log entry
  | .write path text => .write path (.plain text)
  | .print text => .print text

theorem map_step_act (stamps : Trace.Stamps) (steps : List Step) :
    (steps.map Step.act).map (Act.step stamps) = steps := by
  induction steps with
  | nil => rfl
  | cons step steps ih =>
    rw [List.map_cons, List.map_cons, ih]
    cases step <;> rfl

def traceActs (request : Request) (result : Engine.Result) : List Act :=
  match request.traceFile with
  | none => []
  | some path =>
    [.write path (.trace result.events),
      .log (Console.say .info ("Trace written to " ++ Console.pathMarkup path.text))]

theorem map_step_traceActs (request : Request) (stamps : Trace.Stamps) (result : Engine.Result) :
    (traceActs request result).map (Act.step stamps) = traceSteps request stamps result := by
  unfold traceActs traceSteps
  cases request.traceFile <;> rfl

def plan (wording : String → String) (request : Request) (source : String)
    (file : Option Settings.File) : List Act × Ending :=
  let loaded := Settings.load wording file request.overrides
  let logs := loaded.logs.map Act.log
  match loaded.result with
  | .error fault =>
    (logs ++ [(complain ("Invalid configuration: " ++ Console.escape fault.message)).act], .exit 1)
  | .ok settings =>
    let result := Engine.run settings source
    (logs ++ (traceActs request result ++ (closingScript request result).steps.map Step.act),
      (closingScript request result).ending)

theorem compileScript_eq_plan (env : Environment) (request : Request) (stamps : Trace.Stamps)
    (source : String) (file : Option Settings.File) :
    compileScript env request stamps (.ok source) file =
      ⟨(plan env.wording request source file).1.map (Act.step stamps),
        (plan env.wording request source file).2⟩ := by
  have hlogs (entries : List Console.Entry) :
      (entries.map Act.log).map (Act.step stamps) = entries.map Step.log := by
    rw [List.map_map]
    rfl
  simp only [compileScript, plan]
  cases (Settings.load env.wording file request.overrides).result with
  | error fault =>
    simp only [List.map_append, hlogs]
    rfl
  | ok settings =>
    simp only [resultScript_eq, List.map_append, hlogs, map_step_traceActs, map_step_act]

end Acts

section Agreement

def deliver (stamps : Trace.Stamps) (tree : Files.Tree) (products : List (Files.Place × Product)) :
    Files.Tree :=
  products.foldl (fun t (place, product) => t.put place (Text.Utf8.encode (product.written stamps))) tree

/-- Two runs, each in its own tree and with its own stamps, that cannot be told apart: they say and print the
same, end in the same way, and put the same products at the same places. Where a file cannot be written, the
reason is the same if the same things stand in both trees. -/
structure Agree (stamps others : Trace.Stamps) (t u : Files.Tree) (o p : Outcome) : Prop where
  logs_eq : p.logs = o.logs
  output_eq : p.output = o.output
  usage_eq : p.usage = o.usage
  exit_iff : ∀ code, p.ending = .exit code ↔ o.ending = .exit code
  ending_eq : t.SameKinds u → p.ending = o.ending
  delivered : ∃ products, o.tree = deliver stamps t products ∧ p.tree = deliver others u products

theorem agree_perform (styles : Console.Styles) (stamps others : Trace.Stamps) (ending : Ending)
    (acts : List Act) {t u : Files.Tree} (h : t.Matched u) (logs : List Console.Entry)
    (output : String) (usage : Option String) (e e' : Ending) :
    Agree stamps others t u
      (perform styles ending (acts.map (Act.step stamps)) ⟨t, logs, output, usage, e⟩)
      (perform styles ending (acts.map (Act.step others)) ⟨u, logs, output, usage, e'⟩) := by
  induction acts generalizing t u logs output with
  | nil => exact ⟨rfl, rfl, rfl, fun _ => Iff.rfl, fun _ => rfl, [], rfl, rfl⟩
  | cons act acts ih =>
    cases act with
    | log entry =>
      simp only [List.map_cons, Act.step, perform]
      cases styles.fault? entry.message with
      | none => exact ih h (logs ++ [entry]) output
      | some fault => exact ⟨rfl, rfl, rfl, fun _ => Iff.rfl, fun _ => rfl, [], rfl, rfl⟩
    | print text => exact ih h logs (output ++ text)
    | write path product =>
      simp only [List.map_cons, Act.step, perform]
      obtain ⟨place, hw, hw', halike, hkinds⟩ | ⟨f, g, hw, hw', hfault⟩ :=
        h.write_cases path (Text.Utf8.encode (product.written stamps))
          (Text.Utf8.encode (product.written others))
      · have hrest := ih halike logs output
        obtain ⟨products, ho, hp⟩ := hrest.delivered
        rw [hw, hw']
        exact ⟨hrest.logs_eq, hrest.output_eq, hrest.usage_eq, hrest.exit_iff,
          fun hs => hrest.ending_eq (hkinds hs), (place, product) :: products, ho, hp⟩
      · rw [hw, hw']
        refine ⟨rfl, rfl, rfl, fun code => ⟨fun he => ?_, fun he => ?_⟩, fun hs => ?_, [], rfl, rfl⟩
        · cases he
        · cases he
        · rw [hfault hs]

theorem readText_encode {s : String} (h : '\r' ∉ s.toList) : readText (Text.Utf8.encode s) = .ok s := by
  rw [readText, Text.Utf8.decode_encode]
  simp only [Except.map, Text.unifyNewlines_of_no_return h, String.ofList_toList]

theorem runCompile_eq_perform (env : Environment) {tree : Files.Tree} {input : List UInt8}
    {request : Request} {source : String} (h : sourceText tree.read input request = .ok source)
    (stamps : Trace.Stamps) :
    runCompile env tree input stamps request =
      perform env.styles
        (plan env.wording request source ((Settings.find? tree tree.here).map Prod.snd)).2
        ((plan env.wording request source ((Settings.find? tree tree.here).map Prod.snd)).1.map
          (Act.step stamps))
        (.of tree (.exit 0)) := by
  simp only [runCompile, h, compileScript_eq_plan]

end Agreement

/-- A text without carriage returns may come in the command line, in a file or on standard input: the runs
cannot be told apart. The file may have had any other content before, or may be new, as long as the lookup of
the project file does not come to it. -/
theorem runCompile_agrees_between_channels (env : Environment) {tree u : Files.Tree} {path : Files.Path}
    {place : Files.Place} {s : String} (hs : '\r' ∉ s.toList) (hplace : tree.locate path = .ok place)
    (hk : tree.kind? place ≠ some .folder) (hu : tree.WithFile place (Text.Utf8.encode s) u)
    (hunread : ∀ folder file, Settings.find? u u.here = some (folder, file) →
      folder ++ [Settings.fileName] ≠ place)
    (request : Request) (input input' : List UInt8) (stamps stamps' stamps'' : Trace.Stamps) :
    Agree stamps stamps' tree u
      (runCompile env tree input stamps { request with code := some s })
      (runCompile env u input' stamps' { request with code := none, path := some path }) ∧
    Agree stamps stamps'' tree tree
      (runCompile env tree input stamps { request with code := some s })
      (runCompile env tree (Text.Utf8.encode s) stamps'' { request with code := none, path := none }) := by
  have halike := hu.alike (Files.Tree.reachable_of_locate hplace) hk
  have hmatched : tree.Matched u := ⟨halike, hu.unwritten_eq, hu.writes_eq⟩
  have hread : u.read path = .ok (Text.Utf8.encode s) := by
    unfold Files.Tree.read
    rw [halike.locate_eq_ok_iff.mpr hplace]
    simp only [bind, Except.bind, hu.opened?_eq, if_true]
  have hfind : Settings.find? u u.here = Settings.find? tree tree.here := by
    unfold Settings.find? at hunread ⊢
    rw [hu.here_eq] at hunread ⊢
    rw [hu.nearest_eq]
    intro folder found hfound
    exact hunread folder _ (by rw [hfound]; rfl)
  have hcode : sourceText tree.read input { request with code := some s } = .ok s := rfl
  have hfile : sourceText u.read input' { request with code := none, path := some path } = .ok s := by
    simp only [sourceText, hread, readText_encode hs, Except.mapError]
  have hinput : sourceText tree.read (Text.Utf8.encode s) { request with code := none, path := none } =
      .ok s := by
    simp only [sourceText, readText_encode hs, Except.mapError]
  rw [runCompile_eq_perform env hcode, runCompile_eq_perform env hfile,
    runCompile_eq_perform env hinput, hfind]
  -- the three requests ask for the same things, so their plans are the same
  exact ⟨agree_perform _ _ _ _ _ hmatched _ _ _ _ _,
    agree_perform _ _ _ _ _ (Files.Tree.matched_self tree) _ _ _ _ _⟩

def markedText : String := "\ufeff1"

def sourceInProject (source : Files.Bytes) : Files.Tree where
  files := [([Settings.fileName], Text.Utf8.encode "[tool.lisp_to_c]\nsize = 1\n"), (["source"], source)]
  folders := []
  here := []

theorem withFile_sourceInProject (old source : Files.Bytes) :
    (sourceInProject old).WithFile ["source"] source (sourceInProject source) where
  here_eq := rfl
  folders_eq := rfl
  content?_eq q := by
    rw [← Files.Tree.content?_put]
    rfl
  unread_eq q := (ite_self none).symm
  unwritten_eq := rfl
  writes_eq := rfl

def traced : Request where
  traceFile := some ⟨"", ["trace"]⟩

/-- The project file is read and the mark is kept, so that the complaints are the same. -/
theorem runCompile_agrees_between_channels_mark :
    let messages := [Settings.warn "Ignoring unknown config key 'size'",
      Console.say .info "Trace written to [path]trace[/path]",
      Console.say .error "LexError: Unrecognized character '\\ufeff' at position 0"]
    (runCompile plainEnvironment (sourceInProject []) [] plainStamps
      { traced with code := some markedText }).logs = messages ∧
    (runCompile plainEnvironment (sourceInProject (Text.Utf8.encode markedText)) [] plainStamps
      { traced with code := none, path := some ⟨"", ["source"]⟩ }).logs = messages ∧
    (runCompile plainEnvironment (sourceInProject []) (Text.Utf8.encode markedText) plainStamps
      { traced with code := none, path := none }).logs = messages := by
  intro messages
  have hunread : ∀ folder file, Settings.find? (sourceInProject (Text.Utf8.encode markedText)) [] =
      some (folder, file) → folder ++ [Settings.fileName] ≠ ["source"] := by
    intro folder file hfound
    have hfolder : (Settings.find? (sourceInProject (Text.Utf8.encode markedText)) []).map Prod.fst =
        some [] := by decide +kernel
    rw [hfound] at hfolder
    have hnil : folder = [] := Option.some.inj hfolder
    rw [hnil]
    decide
  have hplace : (sourceInProject []).locate ⟨"", ["source"]⟩ = .ok ["source"] :=
    eq_ok_of_toOption (by decide +kernel)
  obtain ⟨hfile, hinput⟩ := runCompile_agrees_between_channels plainEnvironment (by decide +kernel) hplace
    (by decide +kernel) (withFile_sourceInProject [] (Text.Utf8.encode markedText)) hunread traced
    [] [] plainStamps plainStamps plainStamps
  have hcode : (runCompile plainEnvironment (sourceInProject []) [] plainStamps
      { traced with code := some markedText }).logs = messages := by decide +kernel
  exact ⟨hcode, hfile.logs_eq.trans hcode, hinput.logs_eq.trans hcode⟩

end Command

end CallCompiler
