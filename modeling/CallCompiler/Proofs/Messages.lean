import CallCompiler.Proofs.Effects
import Mathlib.Data.Set.List

/-!
The messages of a run, and the tags that act in them. A message that cannot be shown counts: it is what the run
ends with.
-/
namespace CallCompiler.Command

open Console (Notice)

/-- The messages of a run, with the one that it could not show. -/
def Outcome.messages (o : Outcome) : List Console.Entry :=
  o.logs ++
    match o.ending with
    | .unshown entry _ => [entry]
    | _ => []

theorem mem_messages_iff {o : Outcome} {e : Console.Entry} :
    e ∈ o.messages ↔ e ∈ o.logs ∨ ∃ fault, o.ending = .unshown e fault := by
  rw [Outcome.messages, List.mem_append]
  cases o.ending <;> simp [eq_comm]

theorem mem_perform_messages {styles : Console.Styles} {ending : Ending} {steps : List Step} {o : Outcome}
    {e : Console.Entry} (hending : ∀ fault, ending ≠ .unshown e fault)
    (h : e ∈ (perform styles ending steps o).messages) : e ∈ o.logs ∨ .log e ∈ steps := by
  rw [mem_messages_iff] at h
  fun_induction perform styles ending steps o with
  | case1 o => exact h.imp_right fun ⟨fault, he⟩ => absurd he (hending fault)
  | case2 entry steps o hshown ih =>
    obtain h | h := ih h
    · obtain h | h := List.mem_append.mp h
      · exact .inl h
      · rw [List.mem_singleton.mp h]
        exact .inr List.mem_cons_self
    · exact .inr (List.mem_cons_of_mem _ h)
  | case3 entry steps o fault hfault =>
    refine h.imp_right fun ⟨other, he⟩ => ?_
    obtain ⟨rfl, -⟩ := Ending.unshown.inj he
    exact List.mem_cons_self
  | case4 text steps o ih => exact (ih h).imp_right (List.mem_cons_of_mem _)
  | case5 path text steps o tree hw ih => exact (ih h).imp_right (List.mem_cons_of_mem _)
  | case6 path text steps o fault hw =>
    refine h.imp_right fun ⟨other, he⟩ => ?_
    cases he

theorem notice_of_mem_script {fault : SourceFault} {e : Console.Entry}
    (h : .log e ∈ fault.script.steps) : e ∈ Set.range Notice.entry := by
  have hcannot : ∀ {path : Files.Path} {message : String},
      .log e ∈ (cannotRead path message).steps → e ∈ Set.range Notice.entry := by
    intro path message h
    rw [cannotRead_eq] at h
    obtain rfl := Step.log.inj (List.mem_singleton.mp h)
    exact ⟨_, rfl⟩
  cases fault with
  | file path fault =>
    cases fault with
    | unusable => cases h
    | missing | notFolder | isFolder | nameTooLong | refused => exact hcannot h
  | content path fault => exact hcannot h
  | input fault => cases h

theorem eq_of_mem_writeSteps {path : Files.Path} {text : String} {message : String → Console.Entry}
    {e : Console.Entry} (h : .log e ∈ writeSteps path text message) :
    e = message (Console.pathMarkup path.text) := by
  simpa [writeSteps] using h

theorem notice_of_mem_resultScript {request : Request} {stamps : Trace.Stamps} {result : Engine.Result}
    {e : Console.Entry} (h : .log e ∈ (resultScript request stamps result).steps) :
    e ∈ Set.range Notice.entry := by
  rw [resultScript_eq] at h
  obtain h | h := List.mem_append.mp h
  · unfold traceSteps at h
    split at h
    · cases h
    · rw [eq_of_mem_writeSteps h]
      exact ⟨.traceWritten _, Notice.entry_traceWritten _⟩
  · unfold closingScript at h
    split at h
    · unfold outputScript at h
      split at h
      · simp at h
      · cases h
      · dsimp only at h
        rw [eq_of_mem_writeSteps h]
        exact ⟨.wrote _, Notice.entry_wrote _⟩
    · obtain ⟨error, -, he⟩ := List.mem_map.mp h
      obtain rfl := Step.log.inj he
      exact ⟨.failed error, Notice.entry_failed _⟩

theorem notice_of_mem_load {wording : String → String} {file : Option Settings.File}
    {overrides : Settings.Entries} {e : Console.Entry}
    (h : .log e ∈ (Settings.load wording file overrides).logs.map Step.log) :
    e ∈ Set.range Notice.entry := by
  obtain ⟨entry, hmem, he⟩ := List.mem_map.mp h
  obtain rfl := Step.log.inj he
  obtain ⟨n, -, hn⟩ := Notice.exists_of_mem_load hmem
  exact ⟨n, hn⟩

theorem notice_of_mem_compileScript {env : Environment} {request : Request} {stamps : Trace.Stamps}
    {source : Except SourceFault String} {file : Option Settings.File} {e : Console.Entry}
    (h : .log e ∈ (compileScript env request stamps source file).steps) :
    e ∈ Set.range Notice.entry := by
  unfold compileScript at h
  split at h
  · exact notice_of_mem_script h
  · simp only at h
    split at h
    · obtain h | h := List.mem_append.mp h
      · exact notice_of_mem_load h
      · obtain rfl := Step.log.inj (List.mem_singleton.mp h)
        exact ⟨.invalidSettings _, Notice.entry_invalidSettings _⟩
    · obtain h | h := List.mem_append.mp h
      · exact notice_of_mem_load h
      · exact notice_of_mem_resultScript h

theorem closingScript_ending_ne (request : Request) (result : Engine.Result) (entry : Console.Entry)
    (fault : Console.MarkupFault) : (closingScript request result).ending ≠ .unshown entry fault := by
  unfold closingScript outputScript
  split
  · split <;> nofun
  · nofun

theorem compileScript_ending_ne (env : Environment) (request : Request) (stamps : Trace.Stamps)
    (source : Except SourceFault String) (file : Option Settings.File) (entry : Console.Entry)
    (fault : Console.MarkupFault) :
    (compileScript env request stamps source file).ending ≠ .unshown entry fault := by
  unfold compileScript
  split
  · next missing =>
    cases missing with
    | file path reason => cases reason <;> nofun
    | content | input => nofun
  · simp only [resultScript_eq]
    split
    · nofun
    · exact closingScript_ending_ne request _ entry fault

theorem notice_of_mem_run {env : Environment} {tree : Files.Tree} {input : List UInt8}
    {stamps : Trace.Stamps} {words : List String} {e : Console.Entry}
    (h : e ∈ (run env tree input stamps words).messages) : e ∈ Set.range Notice.entry := by
  unfold run at h
  split at h
  · obtain h | h := mem_perform_messages (compileScript_ending_ne _ _ _ _ _ e) h
    · cases h
    · exact notice_of_mem_compileScript h
  · cases h
  · cases h

/-- Every message of every run is one of the notices, and its own tags are the ones that act exactly if the
texts in it are harmless. -/
theorem run_logs_own_tags_iff (env : Environment) (tree : Files.Tree) (input : List UInt8)
    (stamps : Trace.Stamps) (words : List String) :
    ∃ notices : List Notice, (run env tree input stamps words).messages = notices.map Notice.entry ∧
      ∀ n ∈ notices, Console.OwnTags 0 n.pieces ↔ n.Harmless := by
  have hmessages : (run env tree input stamps words).messages ∈ Set.range (List.map Notice.entry) := by
    rw [Set.range_list_map]
    intro e he
    exact notice_of_mem_run he
  obtain ⟨notices, hnotices⟩ := hmessages
  exact ⟨notices, hnotices.symm, fun n _ => Console.ownTags_pieces_iff n⟩

/-- A key that reads as a tag acts as one in the warning about it. -/
theorem run_logs_key_as_tag :
    let project := Settings.projectOf (Text.Utf8.encode "[tool.lisp_to_c]\n\"[red]\" = 1\n")
    (run plainEnvironment project [] plainStamps ["compile", "--code", "1"]).messages =
      [⟨.warning, "Ignoring unknown config key '[red]'"⟩] ∧
    Console.Acts 0 "Ignoring unknown config key '[red]'".toList
      "Ignoring unknown config key '".toList "[red]".toList := by
  refine ⟨by decide +kernel, ⟨"'".toList, by decide +kernel⟩, ?_, by decide +kernel⟩
  exact @Console.TagText.mk 'r' ['e', 'd'] rfl (by simp [Console.isBracket])

end CallCompiler.Command
