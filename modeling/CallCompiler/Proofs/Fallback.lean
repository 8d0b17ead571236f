import CallCompiler.Proofs.Precedence

/-!
Project files that are no documents. A text that breaks the rules of the format counts as if there were no
file, but for a warning, and so does a file that may not be read. A file that is not text, or that has an
oversized number, does not: loading ends with a fault that no override makes up for.
-/
namespace CallCompiler.Settings

open Text (Utf8.encode)

def IsDocument (bytes : Files.Bytes) : Prop :=
  ∃ text document, bytes = Utf8.encode text ∧ Toml.parse text = .ok document

/-- Bytes that are a text, in which no number is too long to be read. -/
def IsLegible (bytes : Files.Bytes) : Prop :=
  ∃ text, bytes = Utf8.encode text ∧ ∀ count, Toml.parse text ≠ .error (.tooManyDigits count)

/-- Loading comes to the same as without a file, and logs one warning more. -/
structure FallsBack (path reason : String) (loaded bare : Loaded) : Prop where
  result_eq : loaded.result = bare.result
  logs_eq : loaded.logs = couldNotRead path reason :: bare.logs

def ValidOverrides (overrides : Entries) : Prop :=
  ∀ (f : Field) (v : Value), override? overrides f.name = some v → f.accepts v = true

def LoadFault.isOfFile : LoadFault → Bool
  | .undecodable _ | .unreadableNumber _ => true
  | .invalid _ => false

theorem Field.accepts_standardValue (f : Field) : f.accepts f.standardValue = true := by
  cases f <;> decide +kernel

section Files

variable (wording : String → String) {bytes : Files.Bytes} (path : String)

theorem read_of_not_legible (h : ¬IsLegible bytes) :
    ∃ fault, Section.read wording (some ⟨path, .ok bytes⟩) = .error fault ∧ fault.isOfFile = true := by
  cases hd : Text.Utf8.decode bytes with
  | error fault =>
    refine ⟨.undecodable fault, ?_, rfl⟩
    simp only [Section.read, hd]
  | ok text =>
    have hb : bytes = Utf8.encode text := Text.Utf8.decode_eq_ok_iff.mp hd
    obtain ⟨count, hp⟩ : ∃ count, Toml.parse text = .error (.tooManyDigits count) := by
      by_contra hnone
      exact h ⟨text, hb, not_exists.mp hnone⟩
    refine ⟨.unreadableNumber count, ?_, rfl⟩
    simp only [Section.read, hd, hp]

theorem exists_malformed (hl : IsLegible bytes) (hd : ¬IsDocument bytes) :
    ∃ text, bytes = Utf8.encode text ∧ Toml.parse text = .error .malformed := by
  obtain ⟨text, hb, hp⟩ := hl
  refine ⟨text, hb, ?_⟩
  cases hparse : Toml.parse text with
  | ok document => exact absurd ⟨text, document, hb, hparse⟩ hd
  | error fault =>
    cases fault with
    | malformed => rfl
    | tooManyDigits count => exact absurd hparse (hp count)

theorem FallsBack.of_read {file : File} {reason : String}
    (h : Section.read wording (some file) = .ok ⟨[], false, [couldNotRead file.path reason]⟩)
    (overrides : Entries) :
    FallsBack file.path reason (load wording (some file) overrides) (load wording none overrides) := by
  have hload : load wording (some file) overrides =
      ⟨[couldNotRead file.path reason] ++ unknownKeys (merged [] overrides),
        (ofValues (merged [] overrides)).mapError .invalid⟩ := by
    rw [load, h]
  have hnone : load wording none overrides =
      ⟨[] ++ unknownKeys (merged [] overrides), (ofValues (merged [] overrides)).mapError .invalid⟩ := rfl
  rw [hload, hnone]
  exact ⟨rfl, rfl⟩

theorem load_fallsBack (hl : IsLegible bytes) (hd : ¬IsDocument bytes) (overrides : Entries) :
    ∃ text, bytes = Utf8.encode text ∧ FallsBack path (wording text)
      (load wording (some ⟨path, .ok bytes⟩) overrides) (load wording none overrides) := by
  obtain ⟨text, hb, hp⟩ := exists_malformed hl hd
  have hread : Section.read wording (some ⟨path, .ok bytes⟩) =
      .ok ⟨[], false, [couldNotRead path (wording text)]⟩ := by
    simp only [Section.read, Text.Utf8.decode_eq_ok_iff.mpr hb, hp]
  exact ⟨text, hb, .of_read wording hread overrides⟩

theorem load_of_not_legible (h : ¬IsLegible bytes) (overrides : Entries) :
    (load wording (some ⟨path, .ok bytes⟩) overrides).logs = [] ∧
      ∃ fault, (load wording (some ⟨path, .ok bytes⟩) overrides).result = .error fault ∧
        fault.isOfFile = true := by
  obtain ⟨fault, hread, hfile⟩ := read_of_not_legible wording path h
  have hload : load wording (some ⟨path, .ok bytes⟩) overrides = ⟨[], .error fault⟩ := by
    rw [load, hread]
  rw [hload]
  exact ⟨rfl, fault, rfl, hfile⟩

theorem exists_resolves_of_legible (h : IsLegible bytes) (overrides : Entries) :
    ∃ table, Resolves table overrides (load wording (some ⟨path, .ok bytes⟩) overrides) := by
  obtain ⟨text, hb, hp⟩ := h
  obtain ⟨found, hread, -, hlogs⟩ := read_spec wording path (Text.Utf8.decode_eq_ok_iff.mpr hb) hp
  exact ⟨found.entries, load_resolves hread hlogs overrides⟩

end Files

section Values

variable {overrides : Entries}

theorem accepts_raw_nil (h : ValidOverrides overrides) (f : Field) :
    f.accepts (raw [] overrides f) = true := by
  unfold raw
  cases ho : override? overrides f.name with
  | some v => exact h f v ho
  | none => exact f.accepts_standardValue

theorem accepts_raw (h : ValidOverrides overrides)
    (hgiven : ∀ f : Field, (override? overrides f.name).isSome = true) (table : Entries) (f : Field) :
    f.accepts (raw table overrides f) = true := by
  obtain ⟨v, hv⟩ := Option.isSome_iff_exists.mp (hgiven f)
  rw [raw, hv]
  exact h f v hv

theorem exists_load_none (wording : String → String) (h : ValidOverrides overrides) :
    ∃ settings, (load wording none overrides).result = .ok settings :=
  (load_none_resolves wording overrides).ok_of_accepts (accepts_raw_nil h)

end Values

theorem not_fallsBack_of_logs_nil {path reason : String} {loaded bare : Loaded}
    (hlogs : loaded.logs = []) : ¬FallsBack path reason loaded bare := by
  intro h
  have hcons := h.logs_eq
  rw [hlogs] at hcons
  cases hcons

/-- A project file that may not be read counts as no file. One that is no document does so exactly if it is
legible. Otherwise nothing is logged and loading fails for the sake of the file, whatever the overrides
are. -/
theorem loadFrom_falls_back_iff_legible (wording : String → String) {tree bare : Files.Tree}
    {place folder : Files.Place} {content : Except Files.Fault Files.Bytes}
    (hnearest : tree.HasNearest fileName place folder content)
    (hbare : ∀ above, above <+: place → bare.content? (above ++ [fileName]) = none)
    (overrides : Entries) :
    let path := Files.placeText (folder ++ [fileName])
    let loaded := loadFrom wording tree place overrides
    (∀ fault, content = .error fault →
      FallsBack path (fault.message path) loaded (loadFrom wording bare place overrides)) ∧
    ∀ bytes, content = .ok bytes →
      (¬IsDocument bytes →
        ((∃ text, bytes = Utf8.encode text ∧
          FallsBack path (wording text) loaded (loadFrom wording bare place overrides)) ↔
            IsLegible bytes) ∧
        (ValidOverrides overrides →
          ((∃ settings, loaded.result = .ok settings) ↔ IsLegible bytes))) ∧
      (ValidOverrides overrides → (∀ f : Field, (override? overrides f.name).isSome = true) →
        ((∃ settings, loaded.result = .ok settings) ↔ IsLegible bytes)) ∧
      (¬IsLegible bytes → loaded.logs = [] ∧
        ∃ fault, loaded.result = .error fault ∧ fault.isOfFile = true) := by
  rw [loadFrom_of_hasNearest wording hnearest, loadFrom_of_no_file wording hbare]
  intro path loaded
  refine ⟨?_, ?_⟩
  · rintro fault rfl
    exact .of_read wording (read_unopened wording path fault) overrides
  rintro bytes rfl
  have hfail := fun h : ¬IsLegible bytes => load_of_not_legible wording path h overrides
  have hlegible : (∃ settings, loaded.result = .ok settings) → IsLegible bytes := by
    intro hok
    by_contra hl
    obtain ⟨settings, hs⟩ := hok
    obtain ⟨-, fault, hf, -⟩ := hfail hl
    rw [hf] at hs
    cases hs
  refine ⟨fun hdocument =>
    ⟨⟨fun hback => ?_, fun hl => load_fallsBack wording path hl hdocument overrides⟩,
      fun hvalid => ⟨hlegible, fun hl => ?_⟩⟩, fun hvalid hgiven => ⟨hlegible, fun hl => ?_⟩, hfail⟩
  · by_contra hl
    obtain ⟨text, -, hback⟩ := hback
    exact not_fallsBack_of_logs_nil (hfail hl).1 hback
  · obtain ⟨text, -, hback⟩ := load_fallsBack wording path hl hdocument overrides
    rw [hback.result_eq]
    exact exists_load_none wording hvalid
  · obtain ⟨table, hresolves⟩ := exists_resolves_of_legible wording path hl overrides
    exact hresolves.ok_of_accepts (accepts_raw hvalid hgiven table)

def unclosedText : String := "[tool.lisp_to_c\n"

theorem parse_unclosedText : Toml.parse unclosedText = .error .malformed := rfl

theorem not_isDocument_unclosedText : ¬IsDocument (Utf8.encode unclosedText) := by
  intro h
  obtain ⟨text, document, hb, hp⟩ := h
  rw [← Text.Utf8.eq_of_encode_eq hb, parse_unclosedText] at hp
  cases hp

theorem isLegible_unclosedText : IsLegible (Utf8.encode unclosedText) := by
  refine ⟨unclosedText, rfl, fun count hcount => ?_⟩
  rw [parse_unclosedText] at hcount
  cases hcount

def emptyTree : Files.Tree where
  files := []
  folders := []
  here := []

/-- A header that is never closed is a warning, and the override still counts. -/
theorem loadFrom_falls_back_iff_legible_unclosed :
    let loaded := loadFrom id (projectOf (Utf8.encode unclosedText)) [] [("indent", .int 4)]
    FallsBack "/pyproject.toml" unclosedText loaded (loadFrom id emptyTree [] [("indent", .int 4)]) ∧
    loaded.result = .ok ⟨.code, false, 4⟩ := by
  have hbare : ∀ above, above <+: [] → emptyTree.content? (above ++ [fileName]) = none :=
    fun _ _ => rfl
  obtain ⟨-, hbytes⟩ := loadFrom_falls_back_iff_legible id
    (hasNearest_projectOf (Utf8.encode unclosedText)) hbare [("indent", .int 4)]
  obtain ⟨text, htext, hback⟩ :=
    ((hbytes _ rfl).1 not_isDocument_unclosedText).1.mpr isLegible_unclosedText
  obtain rfl : unclosedText = text := Text.Utf8.eq_of_encode_eq htext
  exact ⟨hback, hback.result_eq.trans rfl⟩

theorem not_isDocument_of_not_text {bytes : Files.Bytes} {fault : Text.Utf8.Fault}
    (h : Text.Utf8.decode bytes = .error fault) : ¬IsDocument bytes := by
  intro hdocument
  obtain ⟨text, document, hb, -⟩ := hdocument
  rw [Text.Utf8.decode_eq_ok_iff.mpr hb] at h
  cases h

/-- A file of one byte that no text has. Without it there would be the standard settings, and with it there
are none, nor a warning. -/
theorem loadFrom_file_not_text :
    (projectOf [0xff]).HasNearest fileName [] [] (.ok [0xff]) ∧ ¬IsDocument [0xff] ∧
    (loadFrom id emptyTree [] []).result = .ok standard ∧
    (loadFrom id (projectOf [0xff]) [] []).result = .error (.undecodable ⟨0, [0xff], .badStart⟩) ∧
    (loadFrom id (projectOf [0xff]) [] []).logs = [] := by
  have hdecode : Text.Utf8.decode [0xff] = .error ⟨0, [0xff], .badStart⟩ := rfl
  have hload : loadFrom id (projectOf [0xff]) [] [] =
      ⟨[], .error (.undecodable ⟨0, [0xff], .badStart⟩)⟩ := by
    rw [loadFrom_of_hasNearest id (hasNearest_projectOf _)]
    simp only [load, Section.read, hdecode]
  refine ⟨hasNearest_projectOf _, not_isDocument_of_not_text hdecode, rfl, ?_, ?_⟩
  · rw [hload]
  · rw [hload]

end CallCompiler.Settings
