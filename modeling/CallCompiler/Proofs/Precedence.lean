import CallCompiler.Proofs.Documents
import CallCompiler.Proofs.Writing
import CallCompiler.Settings.Lookup
import Mathlib.Data.List.Induction

/-!
Where the value of a setting comes from: an override that is not null, else the table of the nearest project
file, else the standard value. Each field is resolved and checked by itself.
-/
namespace CallCompiler

theorem eq_ok_of_toOption {ε α : Type} {e : Except ε α} {a : α} (h : e.toOption = some a) :
    e = .ok a := by
  cases e with
  | error => cases h
  | ok b => rw [Option.some.inj h]

namespace Files.Tree

theorem opened?_eq_none_iff {t : Tree} {place : Place} :
    t.opened? place = none ↔ t.content? place = none :=
  Option.map_eq_none_iff

/-- The nearest folder, from a place upward, that has a file of some name, and what comes of reading it. -/
def HasNearest (t : Tree) (name : String) (place folder : Place) (content : Except Fault Bytes) : Prop :=
  folder <+: place ∧ t.opened? (folder ++ [name]) = some content ∧
    ∀ nearer, folder <+: nearer → nearer <+: place → nearer ≠ folder →
      t.content? (nearer ++ [name]) = none

theorem nearest_nil (t : Tree) (name : String) :
    t.nearest name [] = (t.opened? [name]).map ([], ·) := rfl

theorem nearest_concat (t : Tree) (name : String) (place : Place) (part : String) :
    t.nearest name (place ++ [part]) =
      match t.opened? (place ++ [part] ++ [name]) with
      | some content => some (place ++ [part], content)
      | none => t.nearest name place := by
  have hreverse : (place ++ [part]).reverse = part :: place.reverse := by simp
  rw [nearest, hreverse, nearestAbove, List.reverse_cons, List.reverse_reverse]
  cases t.opened? (place ++ [part] ++ [name]) <;> simp [nearest]

theorem nearest_eq_none_iff {t : Tree} {name : String} {place : Place} :
    t.nearest name place = none ↔ ∀ folder, folder <+: place → t.content? (folder ++ [name]) = none := by
  simp only [← opened?_eq_none_iff]
  induction place using List.reverseRecOn with
  | nil => simp [nearest_nil]
  | append_singleton place part ih =>
    rw [nearest_concat]
    simp only [List.prefix_concat_iff, or_imp, forall_and, forall_eq, ← ih]
    cases t.opened? (place ++ [part] ++ [name]) <;> simp

theorem HasNearest.nearest_eq {t : Tree} {name : String} {place folder : Place}
    {content : Except Fault Bytes} (h : t.HasNearest name place folder content) :
    t.nearest name place = some (folder, content) := by
  induction place using List.reverseRecOn with
  | nil =>
    obtain ⟨hp, hc, -⟩ := h
    obtain rfl := List.prefix_nil.mp hp
    simpa [nearest_nil] using hc
  | append_singleton place part ih =>
    obtain ⟨hp, hc, hn⟩ := h
    rw [nearest_concat]
    obtain rfl | hp := List.prefix_concat_iff.mp hp
    · rw [hc]
    · -- there is no file in the place itself, so the search goes on one folder up
      have hlonger : place ++ [part] ≠ folder := by
        rintro rfl
        have hlen := hp.length_le
        rw [List.length_append, List.length_singleton] at hlen
        omega
      have hwhole : place <+: place ++ [part] := List.prefix_append _ _
      have hnone := hn _ (hp.trans hwhole) (List.prefix_refl _) hlonger
      rw [opened?_eq_none_iff.mpr hnone]
      exact ih ⟨hp, hc, fun nearer h1 h2 => hn nearer h1 (h2.trans hwhole)⟩

theorem HasNearest.congr {t u : Tree} {name : String} {place folder : Place}
    {content : Except Fault Bytes} (h : t.HasNearest name place folder content)
    (hu : ∀ nearer, folder <+: nearer → nearer <+: place →
      u.opened? (nearer ++ [name]) = t.opened? (nearer ++ [name])) :
    u.HasNearest name place folder content := by
  obtain ⟨hp, hc, hn⟩ := h
  refine ⟨hp, ?_, fun nearer h1 h2 hne => ?_⟩
  · rw [hu folder (List.prefix_refl _) hp, hc]
  · rw [← opened?_eq_none_iff, hu nearer h1 h2, opened?_eq_none_iff, hn nearer h1 h2 hne]

end Files.Tree

namespace Settings

namespace Entries

theorem get?_cons (k : String) (v : Value) (entries : Entries) (key : String) :
    get? ((k, v) :: entries) key = if key = k then some v else entries.get? key := by
  by_cases h : key = k
  · simp [get?, h]
  · have hbeq : (key == k) = false := by simpa using h
    simp [get?, List.lookup_cons, h, hbeq]

theorem get?_append (entries more : Entries) (key : String) :
    get? (entries ++ more) key = (entries.get? key).or (get? more key) :=
  List.lookup_append

theorem replace_cons (k : String) (v : Value) (entries : Entries) (name : String) (value : Value) :
    replace ((k, v) :: entries) name value =
      (if k = name then (k, value) else (k, v)) :: entries.replace name value := by
  simp [replace]

theorem get?_replace (entries : Entries) (name key : String) (value : Value) :
    (entries.replace name value).get? key =
      if key = name then (entries.get? key).map fun _ => value else entries.get? key :=
  lookup_map_replace entries name key value

theorem get?_insert (entries : Entries) (name key : String) (value : Value) :
    (entries.insert name value).get? key = if key = name then some value else entries.get? key := by
  unfold insert has
  cases hg : entries.get? name with
  | some old =>
    rw [Option.isSome_some, if_pos rfl, get?_replace]
    by_cases hkey : key = name <;> simp [hkey, hg]
  | none =>
    rw [Option.isSome_none, if_neg Bool.false_ne_true, get?_append, get?_cons]
    have hnil : get? [] key = none := rfl
    by_cases hkey : key = name <;> simp [hkey, hg, hnil]

end Entries

def Value.isNull : Value → Bool
  | .null => true
  | _ => false

/-- The value that overrides give to a key: the last one that is not null. -/
def override? (overrides : Entries) (key : String) : Option Value :=
  ((overrides.filter fun entry => entry.1 = key && !entry.2.isNull).map Prod.snd).getLast?

theorem merged_concat (entries overrides : Entries) (k : String) (v : Value) :
    merged entries (overrides ++ [(k, v)]) =
      if v.isNull then merged entries overrides else (merged entries overrides).insert k v := by
  rw [merged, List.foldl_append]
  cases v <;> rfl

theorem override?_concat (overrides : Entries) (k : String) (v : Value) (key : String) :
    override? (overrides ++ [(k, v)]) key =
      if k = key ∧ v.isNull = false then some v else override? overrides key := by
  rw [override?, List.filter_append, List.map_append, List.getLast?_append]
  split <;> rename_i h
  · simp [h]
  · have hnone : [(k, v)].filter (fun entry => entry.1 = key && !entry.2.isNull) = [] := by
      simpa using h
    rw [hnone]
    rfl

theorem get?_merged (entries overrides : Entries) (key : String) :
    (merged entries overrides).get? key = (override? overrides key).or (entries.get? key) := by
  -- the last override counts, so they are taken from the end
  induction overrides using List.reverseRecOn with
  | nil => rfl
  | append_singleton overrides entry ih =>
    obtain ⟨k, v⟩ := entry
    rw [merged_concat, override?_concat]
    cases hv : v.isNull with
    | true => simp [ih]
    | false =>
      rw [if_neg Bool.false_ne_true, Entries.get?_insert, ih]
      by_cases hk : key = k
      · simp [hk]
      · have hk' : k ≠ key := fun h => hk h.symm
        simp [hk, hk']

def Field.standardValue : Field → Value
  | .format => .text standard.format.label
  | .trace => .bool standard.trace
  | .indent => .int standard.indent

def raw (table overrides : Entries) (f : Field) : Value :=
  (override? overrides f.name).getD ((table.get? f.name).getD f.standardValue)

theorem field_merged {α : Type} (table overrides : Entries) (f : Field) {standard : α}
    {check : Value → Except Problem α} (h : check f.standardValue = .ok standard) :
    field (merged table overrides) f standard check = check (raw table overrides f) := by
  rw [field, get?_merged, raw]
  cases override? overrides f.name with
  | some v => rfl
  | none =>
    cases table.get? f.name with
    | some v => rfl
    | none => exact h.symm

def Field.problems (f : Field) (v : Value) : List Problem :=
  match f with
  | .format => problem? (checkFormat v)
  | .trace => problem? (checkTrace v)
  | .indent => problem? (checkIndent v)

def Field.accepts (f : Field) (v : Value) : Bool := (f.problems v).isEmpty

theorem Field.problems_cases (f : Field) (v : Value) :
    f.problems v = [] ∨ ∃ p, f.problems v = [p] ∧ p.field = f := by
  cases f <;> simp only [problems, checkFormat, checkTrace, checkIndent]
  all_goals
    repeat' split
    all_goals first | exact .inl rfl | exact .inr ⟨_, rfl, rfl⟩

theorem exists_ok_of_problem?_isEmpty {α : Type} {r : Except Problem α}
    (h : (problem? r).isEmpty = true) : ∃ a, r = .ok a := by
  cases r with
  | ok a => exact ⟨a, rfl⟩
  | error p => cases h

theorem Field.map_field_problems (f : Field) (v : Value) :
    (f.problems v).map Problem.field = if f.accepts v then [] else [f] := by
  obtain h | ⟨p, h, hf⟩ := f.problems_cases v
  · simp [accepts, h]
  · simp [accepts, h, hf]

theorem map_field_flatMap_problems (value : Field → Value) (fields : List Field) :
    (fields.flatMap fun f => f.problems (value f)).map Problem.field =
      fields.filter fun f => !f.accepts (value f) := by
  induction fields with
  | nil => rfl
  | cons f fields ih =>
    rw [List.flatMap_cons, List.map_append, ih, f.map_field_problems, List.filter_cons]
    cases f.accepts (value f) <;> rfl

theorem ofValues_merged (table overrides : Entries) :
    ofValues (merged table overrides) =
      match checkFormat (raw table overrides .format), checkTrace (raw table overrides .trace),
        checkIndent (raw table overrides .indent) with
      | .ok format, .ok trace, .ok indent => .ok ⟨format, trace, indent⟩
      | _, _, _ => .error (Field.all.flatMap fun f => f.problems (raw table overrides f)) := by
  have hformat : field (merged table overrides) .format standard.format checkFormat =
      checkFormat (raw table overrides .format) := field_merged table overrides .format rfl
  have htrace : field (merged table overrides) .trace standard.trace checkTrace =
      checkTrace (raw table overrides .trace) := field_merged table overrides .trace rfl
  have hindent : field (merged table overrides) .indent standard.indent checkIndent =
      checkIndent (raw table overrides .indent) := field_merged table overrides .indent rfl
  simp only [ofValues, hformat, htrace, hindent]
  cases hf : checkFormat (raw table overrides .format) <;>
    cases ht : checkTrace (raw table overrides .trace) <;>
      cases hi : checkIndent (raw table overrides .indent) <;>
        simp [Field.all, Field.problems, problem?, hf, ht, hi]

section Tables

def Entries.table? (entries : Entries) (key : String) : Option Entries :=
  match entries.get? key with
  | some (.table t) => some t
  | _ => none

/-- The table of the settings in a text; an empty one if the text is no document or has no such table. -/
def tableOf (text : String) : Entries :=
  match Toml.parse text with
  | .ok document => ((document.table? "tool").bind (·.table? sectionName)).getD []
  | .error _ => []

theorem ofDocument_spec (path : String) (document : Entries) :
    (Section.ofDocument path document).entries =
      ((document.table? "tool").bind (·.table? sectionName)).getD [] ∧
    (Section.ofDocument path document).logs.length ≤ 1 := by
  unfold Section.ofDocument Entries.table?
  cases document.get? "tool" with
  | none => exact ⟨rfl, Nat.zero_le 1⟩
  | some tool =>
    cases tool with
    | table tool =>
      simp only [Option.getD_some, Option.bind_some]
      cases Entries.get? tool sectionName with
      | none => exact ⟨rfl, Nat.zero_le 1⟩
      | some found => cases found <;> exact ⟨rfl, by simp⟩
    | _ => exact ⟨rfl, Nat.zero_le 1⟩

variable (wording : String → String)

theorem read_unopened (path : String) (fault : Files.Fault) :
    Section.read wording (some ⟨path, .error fault⟩) =
      .ok ⟨[], false, [couldNotRead path (fault.message path)]⟩ := rfl

theorem read_spec (path : String) {bytes : Files.Bytes} {text : String}
    (hd : Text.Utf8.decode bytes = .ok text)
    (hp : ∀ count, Toml.parse text ≠ .error (.tooManyDigits count)) :
    ∃ found, Section.read wording (some ⟨path, .ok bytes⟩) = .ok found ∧
      found.entries = tableOf text ∧ found.logs.length ≤ 1 := by
  simp only [Section.read, hd, tableOf]
  cases h : Toml.parse text with
  | ok document =>
    obtain ⟨he, hl⟩ := ofDocument_spec path document
    exact ⟨_, rfl, he, hl⟩
  | error fault =>
    cases fault with
    | malformed => exact ⟨_, rfl, rfl, Nat.le_refl 1⟩
    | tooManyDigits count => exact absurd h (hp count)

def unknownWarning (key : String) : Console.Entry :=
  warn ("Ignoring unknown config key '" ++ key ++ "'")

theorem unknownKeys_perm (entries : Entries) :
    (unknownKeys entries).Perm
      ((entries.filter fun entry => !isKnown entry.1).map fun entry => unknownWarning entry.1) := by
  have h := (List.mergeSort_perm ((entries.filter fun entry => !isKnown entry.1).map fun entry =>
    "Ignoring unknown config key '" ++ entry.1 ++ "'") fun a b => decide (a ≤ b)).map warn
  rw [List.map_map] at h
  exact h

theorem filter_unknown_insert (entries : Entries) {k : String} (hk : isKnown k = true) (v : Value) :
    (entries.insert k v).filter (fun entry => !isKnown entry.1) =
      entries.filter fun entry => !isKnown entry.1 := by
  have hreplace : (entries.replace k v).filter (fun entry => !isKnown entry.1) =
      entries.filter fun entry => !isKnown entry.1 := by
    induction entries with
    | nil => rfl
    | cons entry entries ih =>
      obtain ⟨key, old⟩ := entry
      rw [Entries.replace_cons, List.filter_cons, List.filter_cons, ih]
      by_cases hkey : key = k
      · simp [hkey, hk]
      · simp [hkey]
  unfold Entries.insert
  split
  · exact hreplace
  · simp [List.filter_append, hk]

theorem filter_unknown_merged (table : Entries) {overrides : Entries}
    (h : ∀ entry ∈ overrides, isKnown entry.1 = true) :
    (merged table overrides).filter (fun entry => !isKnown entry.1) =
      table.filter fun entry => !isKnown entry.1 := by
  induction overrides using List.reverseRecOn with
  | nil => rfl
  | append_singleton overrides entry ih =>
    obtain ⟨k, v⟩ := entry
    rw [List.forall_mem_append, List.forall_mem_singleton] at h
    rw [merged_concat]
    split
    · exact ih h.1
    · rw [filter_unknown_insert _ h.2, ih h.1]

theorem mem_ofDocument_logs {path : String} {document : Entries} {e : Console.Entry}
    (h : e ∈ (Section.ofDocument path document).logs) :
    e = warn ("Ignoring non-table [tool." ++ sectionName ++ "] in " ++ path) := by
  unfold Section.ofDocument at h
  split at h
  · split at h
    · cases h
    · exact List.mem_singleton.mp h
  · cases h

theorem mem_load_logs {file : Option File} {overrides : Entries} {e : Console.Entry}
    (h : e ∈ (load wording file overrides).logs) :
    (∃ path reason, e = couldNotRead path reason) ∨
      (∃ path, e = warn ("Ignoring non-table [tool." ++ sectionName ++ "] in " ++ path)) ∨
      ∃ key, e = unknownWarning key := by
  cases hread : Section.read wording file with
  | error fault => simp [load, hread] at h
  | ok found =>
    simp only [load, hread, List.mem_append] at h
    obtain h | h := h
    · unfold Section.read at hread
      split at hread
      · obtain rfl := Except.ok.inj hread
        cases h
      · obtain rfl := Except.ok.inj hread
        exact .inl ⟨_, _, List.mem_singleton.mp h⟩
      · split at hread
        · cases hread
        · split at hread
          · obtain rfl := Except.ok.inj hread
            exact .inr (.inl ⟨_, mem_ofDocument_logs h⟩)
          · obtain rfl := Except.ok.inj hread
            exact .inl ⟨_, _, List.mem_singleton.mp h⟩
          · cases hread
    · obtain ⟨entry, -, rfl⟩ := List.mem_map.mp ((unknownKeys_perm _).mem_iff.mp h)
      exact .inr (.inr ⟨entry.1, rfl⟩)

end Tables

/-- Settings that come from a table and overrides: every field from its own value, or else all fields
named, in order, whose values are refused. Of other keys in the table there is only a warning each. -/
structure Resolves (table overrides : Entries) (loaded : Loaded) : Prop where
  accepted : ∀ format trace indent, checkFormat (raw table overrides .format) = .ok format →
    checkTrace (raw table overrides .trace) = .ok trace →
    checkIndent (raw table overrides .indent) = .ok indent →
    loaded.result = .ok ⟨format, trace, indent⟩
  refused : ∀ f : Field, f.accepts (raw table overrides f) = false → ∃ problems,
    loaded.result = .error (.invalid problems) ∧
    problems.map Problem.field = Field.all.filter fun f => !f.accepts (raw table overrides f)
  warned : (∀ entry ∈ overrides, isKnown entry.1 = true) → ∃ notes warnings,
    loaded.logs = notes ++ warnings ∧ notes.length ≤ 1 ∧
    warnings.Perm
      ((table.filter fun entry => !isKnown entry.1).map fun entry => unknownWarning entry.1)

theorem load_resolves {wording : String → String} {file : Option File} {found : Section}
    (h : Section.read wording file = .ok found) (hl : found.logs.length ≤ 1) (overrides : Entries) :
    Resolves found.entries overrides (load wording file overrides) := by
  have hload : load wording file overrides = ⟨found.logs ++ unknownKeys (merged found.entries overrides),
      (ofValues (merged found.entries overrides)).mapError .invalid⟩ := by
    rw [load, h]
  rw [hload, ofValues_merged]
  constructor
  · intro format trace indent hf ht hi
    rw [hf, ht, hi]
    rfl
  · intro f hf
    refine ⟨_, ?_, map_field_flatMap_problems (raw found.entries overrides) Field.all⟩
    cases hformat : checkFormat (raw found.entries overrides .format) with
    | error p => rfl
    | ok format =>
      cases htrace : checkTrace (raw found.entries overrides .trace) with
      | error p => rfl
      | ok trace =>
        cases hindent : checkIndent (raw found.entries overrides .indent) with
        | error p => rfl
        | ok indent =>
          -- then no field is refused, whichever is meant
          cases f <;>
            simp [Field.accepts, Field.problems, problem?, hformat, htrace, hindent] at hf
  · intro hknown
    refine ⟨_, _, rfl, hl, ?_⟩
    rw [← filter_unknown_merged found.entries hknown]
    exact unknownKeys_perm _

theorem Resolves.ok_of_accepts {table overrides : Entries} {loaded : Loaded}
    (h : Resolves table overrides loaded)
    (hall : ∀ f : Field, f.accepts (raw table overrides f) = true) :
    ∃ settings, loaded.result = .ok settings := by
  obtain ⟨format, hf⟩ := exists_ok_of_problem?_isEmpty (hall .format)
  obtain ⟨trace, ht⟩ := exists_ok_of_problem?_isEmpty (hall .trace)
  obtain ⟨indent, hi⟩ := exists_ok_of_problem?_isEmpty (hall .indent)
  exact ⟨_, h.accepted format trace indent hf ht hi⟩

theorem Resolves.result_cases {table overrides : Entries} {loaded : Loaded}
    (h : Resolves table overrides loaded) :
    (∃ settings, loaded.result = .ok settings) ∨
      ∃ problems, loaded.result = .error (.invalid problems) := by
  by_cases hall : ∀ f : Field, f.accepts (raw table overrides f) = true
  · exact .inl (h.ok_of_accepts hall)
  · obtain ⟨f, hf⟩ := not_forall.mp hall
    obtain ⟨problems, hp, -⟩ := h.refused f (Bool.eq_false_iff.mpr hf)
    exact .inr ⟨problems, hp⟩

theorem Resolves.result_ne_unreadable {table overrides : Entries} {loaded : Loaded}
    (h : Resolves table overrides loaded) (count : Nat) :
    loaded.result ≠ .error (.unreadableNumber count) := by
  intro e
  obtain ⟨settings, hs⟩ | ⟨problems, hp⟩ := h.result_cases
  · rw [hs] at e
    cases e
  · rw [hp] at e
    cases e

section Lookup

variable (wording : String → String)

theorem load_unreadable (path : String) {bytes : Files.Bytes} {text : String} {count : Nat}
    (hd : Text.Utf8.decode bytes = .ok text)
    (hp : Toml.parse text = .error (.tooManyDigits count)) (overrides : Entries) :
    (load wording (some ⟨path, .ok bytes⟩) overrides).result = .error (.unreadableNumber count) := by
  simp only [load, Section.read, hd, hp]

theorem load_none_resolves (overrides : Entries) :
    Resolves [] overrides (load wording none overrides) := by
  have hread : Section.read wording none = .ok ⟨[], false, []⟩ := rfl
  exact load_resolves hread (Nat.zero_le 1) overrides

theorem load_unopened_resolves (path : String) (fault : Files.Fault) (overrides : Entries) :
    Resolves [] overrides (load wording (some ⟨path, .error fault⟩) overrides) :=
  load_resolves (read_unopened wording path fault) (Nat.le_refl 1) overrides

theorem loadFrom_of_hasNearest {tree : Files.Tree} {place folder : Files.Place}
    {content : Except Files.Fault Files.Bytes} (h : tree.HasNearest fileName place folder content)
    (overrides : Entries) :
    loadFrom wording tree place overrides =
      load wording (some ⟨Files.placeText (folder ++ [fileName]), content⟩) overrides := by
  rw [loadFrom, find?, h.nearest_eq]
  rfl

theorem loadFrom_of_no_file {tree : Files.Tree} {place : Files.Place}
    (h : ∀ folder, folder <+: place → tree.content? (folder ++ [fileName]) = none)
    (overrides : Entries) : loadFrom wording tree place overrides = load wording none overrides := by
  rw [loadFrom, find?, Files.Tree.nearest_eq_none_iff.mpr h]
  rfl

end Lookup

/-- The nearest project file alone decides, whatever stands further up, and a field has the first of these
that is given: an override, the value in the file's table, the standard value. A file that may not be read
has no values, and a text fails to follow this rule exactly if it has an oversized number. -/
theorem loadFrom_follows_precedence (wording : String → String) (tree : Files.Tree)
    (place : Files.Place) (overrides : Entries) :
    ((∀ folder, folder <+: place → tree.content? (folder ++ [fileName]) = none) →
      Resolves [] overrides (loadFrom wording tree place overrides)) ∧
    ∀ folder content, tree.HasNearest fileName place folder content →
      (∀ fault, content = .error fault →
        Resolves [] overrides (loadFrom wording tree place overrides)) ∧
      (∀ bytes text, content = .ok bytes → Text.Utf8.decode bytes = .ok text →
        (Resolves (tableOf text) overrides (loadFrom wording tree place overrides) ↔
          ∀ count, Toml.parse text ≠ .error (.tooManyDigits count)) ∧
        ∀ count, Toml.parse text = .error (.tooManyDigits count) →
          (loadFrom wording tree place overrides).result = .error (.unreadableNumber count)) ∧
      ∀ other : Files.Tree,
        (∀ nearer, folder <+: nearer → nearer <+: place →
          other.opened? (nearer ++ [fileName]) = tree.opened? (nearer ++ [fileName])) →
        loadFrom wording other place overrides = loadFrom wording tree place overrides := by
  constructor
  · intro hnone
    rw [loadFrom_of_no_file wording hnone]
    exact load_none_resolves wording overrides
  · intro folder content hn
    rw [loadFrom_of_hasNearest wording hn]
    refine ⟨?_, ?_, fun other hother => loadFrom_of_hasNearest wording (hn.congr hother) overrides⟩
    · rintro fault rfl
      exact load_unopened_resolves wording _ fault overrides
    · rintro bytes text rfl hd
      refine ⟨⟨fun hr count hp => ?_, fun hp => ?_⟩,
        fun count hp => load_unreadable wording _ hd hp overrides⟩
      · exact hr.result_ne_unreadable count (load_unreadable wording _ hd hp overrides)
      · obtain ⟨found, hread, he, hl⟩ :=
          read_spec wording (Files.placeText (folder ++ [fileName])) hd hp
        rw [← he]
        exact load_resolves hread hl overrides

def innerText : String := "[tool.lisp_to_c]\nindent = -1\ntrace = \"yes\"\nwidth = 80\n"

def nestedProjects : Files.Tree where
  files := [(["outer", fileName], Text.Utf8.encode "[tool.lisp_to_c]\noutput_format = \"ast\"\n"),
    (["outer", "inner", fileName], Text.Utf8.encode innerText)]
  folders := [["outer", "inner", "src"]]
  here := []

theorem hasNearest_nestedProjects :
    nestedProjects.HasNearest fileName (["outer", "inner"] ++ ["src"]) ["outer", "inner"]
      (.ok (Text.Utf8.encode innerText)) := by
  refine ⟨List.prefix_append _ _, rfl, fun nearer hfar hnear hne => ?_⟩
  obtain rfl | hnear := List.prefix_concat_iff.mp hnear
  · rfl
  · exact absurd (hnear.eq_of_length_le hfar.length_le) hne

/-- The override hides the value that would be refused, and the outer file does not count. -/
theorem loadFrom_follows_precedence_nested :
    nestedProjects.HasNearest fileName (["outer", "inner"] ++ ["src"]) ["outer", "inner"]
      (.ok (Text.Utf8.encode innerText)) ∧
    (loadFrom id nestedProjects (["outer", "inner"] ++ ["src"]) [("indent", .int 4)]).result =
      .ok ⟨.code, true, 4⟩ := by
  have hread : (Toml.parse innerText).isOk = true := by decide +kernel
  obtain ⟨-, htext, -⟩ := (loadFrom_follows_precedence id nestedProjects _ [("indent", .int 4)]).2 _ _
    hasNearest_nestedProjects
  have hresolves := (htext _ _ rfl (Text.Utf8.decode_encode innerText)).1.mpr fun count h => by
    rw [h] at hread
    cases hread
  exact ⟨hasNearest_nestedProjects, hresolves.accepted .code true 4
    (eq_ok_of_toOption (by decide +kernel)) (eq_ok_of_toOption (by decide +kernel)) rfl⟩

def projectOf (bytes : Files.Bytes) : Files.Tree where
  files := [([fileName], bytes)]
  folders := []
  here := []

theorem hasNearest_projectOf (bytes : Files.Bytes) :
    (projectOf bytes).HasNearest fileName [] [] (.ok bytes) := by
  refine ⟨List.prefix_refl [], ?_, fun nearer _ hp hne => absurd (List.prefix_nil.mp hp) hne⟩
  simp [projectOf, Files.Tree.opened?, Files.Tree.content?]

def longNumber : List Char := List.replicate (Toml.digitLimit + 1) '1'

def longNumberText : String := String.ofList (['x'] ++ ' ' :: '=' :: ' ' :: longNumber)

theorem oversized_longNumber : Toml.Oversized longNumber where
  digits d hd := by
    obtain rfl := List.eq_of_mem_replicate hd
    rfl
  first := by simp [longNumber, List.head?_replicate]
  long := by simp [longNumber]

/-- No table, not even an empty one, makes up for a project file with an oversized number: there is
neither a result nor a field that is refused. -/
theorem loadFrom_longNumber :
    let tree := projectOf (Text.Utf8.encode longNumberText)
    tree.HasNearest fileName [] [] (.ok (Text.Utf8.encode longNumberText)) ∧
    Text.Utf8.decode (Text.Utf8.encode longNumberText) = .ok longNumberText ∧
    (loadFrom id tree [] []).result = .error (.unreadableNumber 4301) ∧
    ∀ table, ¬Resolves table [] (loadFrom id tree [] []) := by
  have hnearest := hasNearest_projectOf (Text.Utf8.encode longNumberText)
  have hdecode := Text.Utf8.decode_encode longNumberText
  have hlength : longNumber.length = 4301 := List.length_replicate
  have hparse : Toml.parse longNumberText = .error (.tooManyDigits 4301) := by
    rw [← hlength]
    exact Toml.parse_oversized (List.cons_ne_nil 'x' []) (by simp; decide) oversized_longNumber
  have hresult : (loadFrom id (projectOf (Text.Utf8.encode longNumberText)) [] []).result =
      .error (.unreadableNumber 4301) := by
    rw [loadFrom_of_hasNearest id hnearest]
    exact load_unreadable id _ hdecode hparse []
  exact ⟨hnearest, hdecode, hresult, fun table h => h.result_ne_unreadable _ hresult⟩

end Settings

end CallCompiler
