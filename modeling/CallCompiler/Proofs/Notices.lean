import CallCompiler.Proofs.Precedence
import CallCompiler.Proofs.Showing

/-!
The messages of the compile command. `ownTags_pieces_iff` says for each of them which texts can be put into
it without a tag of theirs acting. All but the warnings can be shown, whatever they are about.
-/
namespace CallCompiler

namespace Console

inductive Notice
  | cannotRead (path reason : String)
  | invalidSettings (reason : String)
  | failed (reason : String)
  | traceWritten (path : String)
  | wrote (path : String)
  | unreadableFile (path reason : String)
  | notTable (path : String)
  | unknownKey (key : String)

def pathPieces (lead path tail : String) : List Piece :=
  [.words lead, .tag "[path]", .words (escape path), .tag "[/path]", .words tail]

namespace Notice

def level : Notice → Level
  | cannotRead _ _ | invalidSettings _ | failed _ => .error
  | traceWritten _ => .info
  | wrote _ => .success
  | unreadableFile _ _ | notTable _ | unknownKey _ => .warning

def pieces : Notice → List Piece
  | cannotRead path reason => pathPieces (Level.error.sign ++ "Cannot read ") path (": " ++ escape reason)
  | invalidSettings reason =>
    [.words (Level.error.sign ++ "Invalid configuration: " ++ escape reason)]
  | failed reason => [.words (Level.error.sign ++ escape reason)]
  | traceWritten path => pathPieces (Level.info.sign ++ "Trace written to ") path ""
  | wrote path => pathPieces (Level.success.sign ++ "Wrote ") path ""
  | unreadableFile path reason => [.words "Could not read ", .words (path ++ ": " ++ reason)]
  | notTable path =>
    [.words "Ignoring non-table ", .words ("[tool." ++ Settings.sectionName ++ "]"),
      .words (" in " ++ path)]
  | unknownKey key => [.words "Ignoring unknown config key '", .words key, .words "'"]

def entry (n : Notice) : Entry := ⟨n.level, String.ofList (render n.pieces)⟩

/-- What keeps the tags of a message as they are meant. Paths between tags and reasons are escaped, the
other texts are not. -/
def Harmless : Notice → Prop
  | cannotRead path _ | traceWritten path | wrote path =>
    slashesAfter 0 path.toList = 1 ∨ slashesAfter 0 path.toList % 2 = 0
  | invalidSettings _ | failed _ => True
  | unreadableFile path reason => Quiet 0 (path ++ ": " ++ reason).toList
  | notTable _ => False
  | unknownKey key => Quiet 0 key.toList

end Notice

theorem tagText_section : TagText ("[tool." ++ Settings.sectionName ++ "]").toList :=
  @TagText.mk 't' ("ool." ++ Settings.sectionName).toList rfl
    (by simp [Settings.sectionName, isBracket])

/-- Only an odd number of backslashes at the end of a path, but more than one, stops the tag after it. -/
theorem ownTags_pathPieces {lead path tail : String} (hlead : '[' ∉ lead.toList)
    (hslashes : slashesAfter 0 lead.toList = 0) (htail : Quiet 0 tail.toList) :
    OwnTags 0 (pathPieces lead path tail) ↔
      slashesAfter 0 path.toList = 1 ∨ slashesAfter 0 path.toList % 2 = 0 := by
  have hseam : Seam (escape path).toList (render [.tag "[/path]", .words tail]) := by
    have hfirst : (Piece.tag "[/path]").text.find? isBracket = some '[' := by decide
    apply seam_of_right
    rw [render_cons, List.find?_append, hfirst]
    simp
  have hopen : TagText "[path]".toList := tagText_path
  have hclose : TagText "[/path]".toList := tagText_endPath
  rw [pathPieces, ownTags_words_of_not_mem hlead, hslashes, ownTags_tag hopen, ownTags_words hseam,
    ownTags_tag hclose, ownTags_last, slashesAfter_escape]
  simp only [quiet_escape, htail, true_and, and_true]
  by_cases hone : slashesAfter 0 path.toList = 1
  · simp [hone]
  · simp [hone]

theorem quiet_append_escape {lead : String} (h : '[' ∉ lead.toList)
    (hslashes : slashesAfter 0 lead.toList = 0) (reason : String) :
    Quiet 0 (lead ++ escape reason).toList := by
  rw [String.toList_append]
  refine .append (seam_of_left h _) (quiet_of_not_mem h 0) ?_
  rw [hslashes]
  exact quiet_escape reason

theorem ownTags_pieces_iff (n : Notice) : OwnTags 0 n.pieces ↔ n.Harmless := by
  cases n with
  | cannotRead path reason =>
    exact ownTags_pathPieces (by decide) (by decide) (quiet_append_escape (by decide) (by decide) reason)
  | traceWritten path | wrote path =>
    exact ownTags_pathPieces (by decide) (by decide) (quiet_of_not_mem (by decide) 0)
  | invalidSettings reason | failed reason =>
    exact iff_of_true (ownTags_last.mpr (quiet_append_escape (by decide) (by decide) reason)) trivial
  | unreadableFile path reason =>
    rw [Notice.pieces, ownTags_words_of_not_mem (by decide), ownTags_last]
    rfl
  | notTable path =>
    have hseam : Seam ("[tool." ++ Settings.sectionName ++ "]").toList (render [.words (" in " ++ path)]) :=
      seam_of_closed "[tool.lisp_to_c".toList _
    rw [Notice.pieces, ownTags_words_of_not_mem (by decide), ownTags_words hseam]
    refine iff_of_false (fun ⟨hquiet, _⟩ => ?_) id
    exact hquiet [] _ ⟨⟨[], rfl⟩, tagText_section, by decide⟩
  | unknownKey key =>
    have hseam : Seam key.toList (render [.words "'"]) := seam_of_right _ (by decide)
    rw [Notice.pieces, ownTags_words_of_not_mem (by decide), ownTags_words hseam, ownTags_last]
    exact and_iff_left (quiet_of_not_mem (by decide) _)

namespace Notice

theorem entry_eq {n : Notice} {message : String} (h : render n.pieces = message.toList) :
    n.entry = ⟨n.level, message⟩ := by
  rw [entry, h, String.ofList_toList]

theorem entry_cannotRead (path reason : String) :
    (cannotRead path reason).entry =
      say .error ("Cannot read " ++ pathMarkup path ++ ": " ++ escape reason) :=
  entry_eq (by simp [pieces, pathPieces, render, Piece.text, pathMarkup])

theorem entry_invalidSettings (reason : String) :
    (invalidSettings reason).entry = say .error ("Invalid configuration: " ++ escape reason) :=
  entry_eq (by simp [pieces, render, Piece.text])

theorem entry_failed (reason : String) : (failed reason).entry = say .error (escape reason) :=
  entry_eq (by simp [pieces, render, Piece.text])

theorem entry_traceWritten (path : String) :
    (traceWritten path).entry = say .info ("Trace written to " ++ pathMarkup path) :=
  entry_eq (by simp [pieces, pathPieces, render, Piece.text, pathMarkup])

theorem entry_wrote (path : String) :
    (wrote path).entry = say .success ("Wrote " ++ pathMarkup path) :=
  entry_eq (by simp [pieces, pathPieces, render, Piece.text, pathMarkup])

theorem exists_of_mem_load {wording : String → String} {file : Option Settings.File}
    {overrides : Settings.Entries} {e : Entry} (h : e ∈ (Settings.load wording file overrides).logs) :
    ∃ n : Notice, n.level = .warning ∧ n.entry = e := by
  obtain ⟨path, reason, rfl⟩ | ⟨path, rfl⟩ | ⟨key, rfl⟩ := Settings.mem_load_logs wording h
  · exact ⟨.unreadableFile path reason, rfl, entry_eq (by simp [pieces, render, Piece.text])⟩
  · exact ⟨.notTable path, rfl, entry_eq (by simp [pieces, render, Piece.text])⟩
  · exact ⟨.unknownKey key, rfl, entry_eq (by simp [pieces, render, Piece.text])⟩

theorem ofList_render_words (text : String) : String.ofList (render [.words text]) = text :=
  String.toList_injective (by simp [render, Piece.text])

theorem ofList_render_pathPieces (lead path tail : String) :
    String.ofList (render (pathPieces lead path tail)) = lead ++ pathMarkup path ++ tail :=
  String.toList_injective (by simp [pathPieces, render, Piece.text, pathMarkup])

/-- Whatever is no warning can be shown: what it quotes is escaped, and a path has both of its tags. -/
theorem fault?_entry (styles : Styles) {n : Notice} (h : n.level ≠ .warning) :
    styles.fault? n.entry.message = none := by
  cases n with
  | cannotRead path reason =>
    rw [entry, pieces, ofList_render_pathPieces]
    exact styles.fault?_path (by decide) (by decide) path
      (quiet_append_escape (by decide) (by decide) reason)
  | traceWritten path | wrote path =>
    rw [entry, pieces, ofList_render_pathPieces]
    exact styles.fault?_path (by decide) (by decide) path (quiet_of_not_mem (by decide) 0)
  | invalidSettings reason | failed reason =>
    rw [entry, pieces, ofList_render_words]
    exact styles.fault?_of_quiet (quiet_append_escape (by decide) (by decide) reason)
  | unreadableFile | notTable | unknownKey => exact absurd rfl h

end Notice

end Console

end CallCompiler
