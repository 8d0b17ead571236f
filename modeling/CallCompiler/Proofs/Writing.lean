import CallCompiler.Files.Tree

/-!
Writing into a tree of files. A file that is written changes what stands at its own place and nothing else,
not even where other paths lead to.
-/
namespace CallCompiler

theorem lookup_map_replace {α β : Type} [DecidableEq α] [BEq α] [LawfulBEq α] (entries : List (α × β))
    (key q : α) (value : β) :
    (entries.map fun (k, v) => if k == key then (k, value) else (k, v)).lookup q =
      if q = key then (entries.lookup q).map fun _ => value else entries.lookup q := by
  induction entries with
  | nil => simp
  | cons entry entries ih =>
    obtain ⟨k, v⟩ := entry
    rw [List.map_cons]
    by_cases hk : k = key
    · subst hk
      by_cases hq : q = k
      · simp [hq]
      · have hbeq : (q == k) = false := by simpa using hq
        simpa [List.lookup_cons, hq, hbeq] using ih
    · by_cases hq : q = k
      · simp [hq, hk]
      · have hbeq : (q == k) = false := by simpa using hq
        simpa [List.lookup_cons, hk, hq, hbeq] using ih

namespace Files.Tree

theorem content?_put (t : Tree) (place q : Place) (bytes : Bytes) :
    (t.put place bytes).content? q = if q = place then some bytes else t.content? q := by
  unfold put content? isFile content?
  cases hfile : t.files.lookup place with
  | some old =>
    rw [Option.isSome_some, if_pos rfl, lookup_map_replace]
    by_cases hq : q = place <;> simp [hq, hfile]
  | none =>
    rw [Option.isSome_none, if_neg Bool.false_ne_true, List.lookup_append]
    by_cases hq : q = place
    · simp [hq, hfile]
    · have hbeq : (q == place) = false := by simpa using hq
      simp [hq, List.lookup_cons, hbeq]

theorem isFile_put (t : Tree) (place q : Place) (bytes : Bytes) :
    (t.put place bytes).isFile q = (decide (q = place) || t.isFile q) := by
  rw [isFile, content?_put, isFile]
  by_cases hq : q = place <;> simp [hq]

def Above (t : Tree) (q : Place) : Prop :=
  q <+: t.here ∨ (∃ folder ∈ t.folders, q <+: folder) ∨ ∃ p ∈ t.files.map Prod.fst, q <+: p

theorem above_iff {t : Tree} {q : Place} :
    t.Above q ↔ (q.isPrefixOf t.here || t.folders.any q.isPrefixOf ||
      t.files.any fun (p, _) => q.isPrefixOf p) = true := by
  simp [Above, or_assoc]

theorem kind?_of_isFile {t : Tree} {q : Place} (h : t.isFile q = true) : t.kind? q = some .file := by
  rw [kind?, if_pos h]

theorem kind?_of_above {t : Tree} {q : Place} (hf : t.isFile q = false) (h : t.Above q) :
    t.kind? q = some .folder := by
  rw [kind?, hf, if_neg Bool.false_ne_true, if_pos (above_iff.mp h)]

theorem kind?_of_not_above {t : Tree} {q : Place} (hf : t.isFile q = false) (h : ¬t.Above q) :
    t.kind? q = none := by
  rw [kind?, hf, if_neg Bool.false_ne_true, if_neg (mt above_iff.mpr h)]

theorem map_fst_files_put (t : Tree) (place : Place) (bytes : Bytes) :
    (t.put place bytes).files.map Prod.fst =
      if t.isFile place then t.files.map Prod.fst else t.files.map Prod.fst ++ [place] := by
  unfold put
  split
  · rw [List.map_map]
    refine List.map_congr_left fun file _ => ?_
    obtain ⟨p, b⟩ := file
    by_cases hp : p = place <;> simp [hp]
  · simp

theorem above_put {t : Tree} {place q : Place} {bytes : Bytes} (h : (t.put place bytes).Above q) :
    t.Above q ∨ q <+: place := by
  obtain h | h | ⟨p, hp, hq⟩ := h
  · exact .inl (.inl h)
  · exact .inl (.inr (.inl h))
  · rw [map_fst_files_put] at hp
    split at hp
    · exact .inl (.inr (.inr ⟨p, hp, hq⟩))
    · obtain hp | hp := List.mem_append.mp hp
      · exact .inl (.inr (.inr ⟨p, hp, hq⟩))
      · rw [List.mem_singleton.mp hp] at hq
        exact .inr hq

theorem Above.put {t : Tree} {q : Place} (h : t.Above q) (place : Place) (bytes : Bytes) :
    (t.put place bytes).Above q := by
  obtain h | h | ⟨p, hp, hq⟩ := h
  · exact .inl h
  · exact .inr (.inl h)
  · refine .inr (.inr ⟨p, ?_, hq⟩)
    rw [map_fst_files_put]
    split
    · exact hp
    · exact List.mem_append_left _ hp

def Reachable (t : Tree) (place : Place) : Prop := ∀ p, p <+: place → p ≠ place → t.kind? p ≠ none

/-- Putting a file where it can be reached makes its place a file and changes the kind of nothing else. -/
theorem kind?_put {t : Tree} {place : Place} (hplace : t.Reachable place) (bytes : Bytes) (q : Place) :
    (t.put place bytes).kind? q = if q = place then some .file else t.kind? q := by
  by_cases hq : q = place
  · rw [if_pos hq, kind?_of_isFile]
    rw [isFile_put, decide_eq_true hq, Bool.true_or]
  · have hfile : (t.put place bytes).isFile q = t.isFile q := by
      rw [isFile_put, decide_eq_false hq, Bool.false_or]
    rw [if_neg hq]
    cases hf : t.isFile q with
    | true => rw [kind?_of_isFile hf, kind?_of_isFile (hfile.trans hf)]
    | false =>
      by_cases ha : t.Above q
      · rw [kind?_of_above hf ha, kind?_of_above (hfile.trans hf) (ha.put place bytes)]
      · -- nothing stands here yet, so it is not above the new file either
        have hk := kind?_of_not_above hf ha
        have ha' : ¬(t.put place bytes).Above q := fun h =>
          (above_put h).elim ha fun hp => hplace q hp hq hk
        rw [hk, kind?_of_not_above (hfile.trans hf) ha']

theorem reachable_nil (t : Tree) : t.Reachable [] := by
  intro p hp hne
  exact absurd (List.prefix_nil.mp hp) hne

theorem reachable_here (t : Tree) : t.Reachable t.here := by
  intro p hp _
  cases hf : t.isFile p with
  | true =>
    rw [kind?_of_isFile hf]
    exact Option.some_ne_none _
  | false =>
    rw [kind?_of_above hf (.inl hp)]
    exact Option.some_ne_none _

theorem Reachable.dropLast {t : Tree} {place : Place} (h : t.Reachable place) :
    t.Reachable place.dropLast := by
  intro p hp hne
  refine h p (hp.trans (List.dropLast_prefix place)) ?_
  rintro rfl
  have hlen := hp.length_le
  rw [List.length_dropLast] at hlen
  have hnil : p = [] := List.length_eq_zero_iff.mp (by omega)
  exact hne (by rw [hnil]; rfl)

theorem Reachable.concat {t : Tree} {place : Place} (h : t.Reachable place)
    (hk : t.kind? place = some .folder) (part : String) : t.Reachable (place ++ [part]) := by
  intro p hp hne
  obtain rfl | hp := List.prefix_concat_iff.mp hp
  · exact absurd rfl hne
  · by_cases hplace : p = place
    · rw [hplace, hk]
      exact Option.some_ne_none _
    · exact h p hp hplace

theorem descend_cons_eq_ok {t : Tree} {place q : Place} {part : String} {rest : List String} :
    t.descend place (part :: rest) = .ok q ↔ t.kind? place = some .folder ∧ part.utf8ByteSize ≤ 255 ∧
      t.descend (if part = ".." then place.dropLast else place ++ [part]) rest = .ok q := by
  rw [descend]
  cases t.kind? place with
  | none => simp
  | some kind =>
    cases kind with
    | file => simp
    | folder =>
      dsimp only
      by_cases hlong : part.utf8ByteSize > 255
      · rw [if_pos hlong]
        exact iff_of_false (fun h => by cases h) fun h => absurd h.2.1 (Nat.not_le_of_gt hlong)
      · rw [if_neg hlong]
        exact ⟨fun h => ⟨rfl, Nat.le_of_not_gt hlong, h⟩, fun h => h.2.2⟩

theorem Reachable.descend {t : Tree} {place q : Place} {parts : List String} (h : t.Reachable place)
    (hd : t.descend place parts = .ok q) : t.Reachable q := by
  induction parts generalizing place with
  | nil =>
    obtain rfl : place = q := Except.ok.inj hd
    exact h
  | cons part rest ih =>
    obtain ⟨hk, -, hd⟩ := descend_cons_eq_ok.mp hd
    refine ih ?_ hd
    split
    · exact h.dropLast
    · exact h.concat hk part

theorem reachable_of_locate {t : Tree} {path : Path} {q : Place} (h : t.locate path = .ok q) :
    t.Reachable q := by
  unfold locate at h
  split at h
  · cases h
  · split at h
    · cases h
    · refine Reachable.descend ?_ h
      split
      · exact reachable_nil t
      · exact reachable_here t

structure Alike (t u : Tree) : Prop where
  here_eq : u.here = t.here
  folder_iff : ∀ q, u.kind? q = some .folder ↔ t.kind? q = some .folder

section Alike

variable {t u : Tree} (h : t.Alike u)
include h

theorem Alike.descend_eq_ok_iff {start q : Place} {parts : List String} :
    u.descend start parts = .ok q ↔ t.descend start parts = .ok q := by
  induction parts generalizing start with
  | nil => rfl
  | cons part rest ih => rw [descend_cons_eq_ok, descend_cons_eq_ok, h.folder_iff, ih]

theorem Alike.locate_eq_ok_iff {path : Path} {q : Place} :
    u.locate path = .ok q ↔ t.locate path = .ok q := by
  unfold locate
  rw [h.here_eq]
  split
  · rfl
  · split
    · rfl
    · exact h.descend_eq_ok_iff

end Alike

section Frame

variable {t : Tree} {place : Place} (hplace : t.Reachable place) (hk : t.kind? place ≠ some .folder)
  (bytes : Bytes)
include hplace hk

theorem kind?_put_eq_folder_iff (q : Place) :
    (t.put place bytes).kind? q = some .folder ↔ t.kind? q = some .folder := by
  rw [kind?_put hplace]
  by_cases hq : q = place
  · simp [hq, hk]
  · simp [hq]

theorem alike_put : t.Alike (t.put place bytes) :=
  ⟨rfl, kind?_put_eq_folder_iff hplace hk bytes⟩

end Frame

structure Takes (t : Tree) (place : Place) : Prop where
  not_folder : t.kind? place ≠ some .folder
  not_refused : t.unwritten t.writes place = none

def Writable (t : Tree) (path : Path) : Prop := ∃ place, t.locate path = .ok place ∧ t.Takes place

theorem write_eq_ok_iff {t u : Tree} {path : Path} {bytes : Bytes} :
    t.write path bytes = .ok u ↔
      ∃ place, t.locate path = .ok place ∧ t.Takes place ∧ u = t.put place bytes := by
  unfold write
  cases t.locate path with
  | error fault => simp [bind, Except.bind]
  | ok place =>
    simp only [bind, Except.bind]
    constructor
    · intro h
      split at h
      · cases h
      · next hk =>
        split at h
        · cases h
        · next hu => exact ⟨place, rfl, ⟨hk, hu⟩, (Except.ok.inj h).symm⟩
    · rintro ⟨q, hq, htakes, rfl⟩
      obtain rfl := Except.ok.inj hq
      rw [if_neg htakes.not_folder, htakes.not_refused]

theorem writable_iff_write {t : Tree} {path : Path} (bytes : Bytes) :
    t.Writable path ↔ ∃ u, t.write path bytes = .ok u := by
  constructor
  · rintro ⟨place, hl, htakes⟩
    exact ⟨_, write_eq_ok_iff.mpr ⟨place, hl, htakes, rfl⟩⟩
  · rintro ⟨u, h⟩
    obtain ⟨place, hl, htakes, -⟩ := write_eq_ok_iff.mp h
    exact ⟨place, hl, htakes⟩

/-- Two trees that differ at most in the files that some paths lead to. -/
structure SameBut (paths : List Path) (t u : Tree) : Prop where
  here_eq : u.here = t.here
  folders_eq : u.folders = t.folders
  unread_eq : u.unread = t.unread
  unwritten_eq : u.unwritten = t.unwritten
  content?_eq : ∀ q, (∀ path ∈ paths, t.locate path ≠ .ok q) → u.content? q = t.content? q

theorem sameBut_self (paths : List Path) (t : Tree) : t.SameBut paths t :=
  ⟨rfl, rfl, rfl, rfl, fun _ _ => rfl⟩

section Write

variable {t u : Tree} {path : Path} {bytes : Bytes} (h : t.write path bytes = .ok u)
include h

theorem locate_write_eq_ok_iff {other : Path} {q : Place} :
    u.locate other = .ok q ↔ t.locate other = .ok q := by
  obtain ⟨place, hl, htakes, rfl⟩ := write_eq_ok_iff.mp h
  exact (alike_put (reachable_of_locate hl) htakes.not_folder bytes).locate_eq_ok_iff

/-- Where nothing is refused, a file that is written takes nothing from what can be written. -/
theorem Writable.after_write {other : Path} (ho : t.Writable other)
    (hfree : ∀ n q, t.unwritten n q = none) : u.Writable other := by
  obtain ⟨q, hq, htakes⟩ := ho
  have hlocate := (locate_write_eq_ok_iff h).mpr hq
  obtain ⟨place, hl, hplace, rfl⟩ := write_eq_ok_iff.mp h
  have halike := alike_put (reachable_of_locate hl) hplace.not_folder bytes
  exact ⟨q, hlocate, mt (halike.folder_iff q).mp htakes.not_folder, hfree _ q⟩

theorem content?_write : ∃ place, t.locate path = .ok place ∧ u.content? place = some bytes := by
  obtain ⟨place, hl, -, rfl⟩ := write_eq_ok_iff.mp h
  exact ⟨place, hl, by rw [content?_put, if_pos rfl]⟩

theorem SameBut.after_write {v : Tree} {paths : List Path} (hv : u.SameBut paths v) :
    t.SameBut (path :: paths) v := by
  have hlocate : ∀ {other q}, u.locate other = .ok q ↔ t.locate other = .ok q :=
    locate_write_eq_ok_iff h
  obtain ⟨place, hl, -, rfl⟩ := write_eq_ok_iff.mp h
  refine ⟨hv.here_eq, hv.folders_eq, hv.unread_eq, hv.unwritten_eq, fun q hq => ?_⟩
  have hother : ∀ other ∈ paths, (t.put place bytes).locate other ≠ .ok q := by
    intro other ho he
    exact hq other (List.mem_cons_of_mem path ho) (hlocate.mp he)
  have hne : q ≠ place := by
    rintro rfl
    exact hq path List.mem_cons_self hl
  rw [hv.content?_eq q hother, content?_put, if_neg hne]

end Write

end Files.Tree

end CallCompiler
