import Libdef.Command.Disk

set_option autoImplicit false

namespace Libdef

def Place.target? : Place → Option (List Text)
  | .file names _ | .vacant names => some names
  | .directory _ | .unreachable | .blocked | .nowhere => none

theorem Place.ne_directory {place : Place} {target names : List Text}
    (h : place.target? = some target) : place ≠ .directory names := by
  rintro rfl
  cases h

namespace Disk

/-- The path leads to the bytes on the second disk, which is the first one everywhere else. -/
def Rewritten (disk after : Disk) (path : Path) (bytes : List UInt8) : Prop :=
  after.here = disk.here ∧ ∃ target, (disk.place path).target? = some target ∧
    after.place path = .file target bytes ∧
    ∀ names, names ≠ target → after.placeAt names = disk.placeAt names

variable {disk after : Disk} {names other target : List Text} {bytes : List UInt8}

theorem isDirectory_iff : disk.isDirectory names = true ↔
    names <+: disk.here ∨ (∃ d ∈ disk.directories, names <+: d) ∨
      ∃ file ∈ disk.files, names <+: file.1 := by
  simp [isDirectory, or_assoc]

theorem isDirectory_mono (h : disk.isDirectory names = true) (hp : other <+: names) :
    disk.isDirectory other = true := by
  rw [isDirectory_iff] at h ⊢
  rcases h with h | ⟨d, hd, h⟩ | ⟨file, hf, h⟩
  · exact .inl (hp.trans h)
  · exact .inr (.inl ⟨d, hd, hp.trans h⟩)
  · exact .inr (.inr ⟨file, hf, hp.trans h⟩)

theorem placeAt_cases (disk : Disk) (names : List Text) :
    (disk.placeAt names = .directory names ∧ disk.isDirectory names = true) ∨
      (disk.placeAt names).target? = some names := by
  cases hf : disk.file? names with
  | some bytes =>
    right
    simp only [placeAt, hf, Place.target?]
  | none =>
    cases hd : disk.isDirectory names with
    | true =>
      left
      simp only [placeAt, hf, hd, if_true, and_self]
    | false =>
      right
      simp [placeAt, hf, hd, Place.target?]

structure Found (disk : Disk) (place : Place) : Prop where
  directory {names : List Text} : place = .directory names → disk.isDirectory names = true
  target {names : List Text} : place.target? = some names →
    disk.isDirectory names.dropLast = true ∧ disk.placeAt names = place

theorem found_directory (h : disk.isDirectory names = true) : disk.Found (.directory names) where
  directory := by rintro _ ⟨⟩; exact h
  target := nofun

theorem found_placeAt {part : Text} (h : disk.isDirectory names = true) :
    disk.Found (disk.placeAt (names ++ [part])) := by
  obtain ⟨hp, hd⟩ | ht := disk.placeAt_cases (names ++ [part])
  · rw [hp]
    exact found_directory hd
  · constructor
    · intro _ hp
      exact (Place.ne_directory ht hp).elim
    · intro other hother
      obtain rfl := Option.some.inj (ht.symm.trans hother)
      rw [List.dropLast_concat]
      exact ⟨h, rfl⟩

theorem found_enter {place : Place} (h : disk.Found place) (part : Text) :
    disk.Found (disk.enter place part) := by
  cases place with
  | directory names =>
    have hd := h.directory rfl
    simp only [enter]
    split
    · exact found_directory (isDirectory_mono hd names.dropLast_prefix)
    · exact found_placeAt hd
  | _ => exact ⟨nofun, nofun⟩

theorem found_walk {place : Place} (h : disk.Found place) (parts : List Text) :
    disk.Found (parts.foldl disk.enter place) := by
  induction parts generalizing place with
  | nil => exact h
  | cons part rest ih => exact ih (found_enter h part)

theorem found_place (disk : Disk) (path : Path) : disk.Found (disk.place path) := by
  rw [place]
  split
  case isFalse => exact ⟨nofun, nofun⟩
  have hstart : (if path.root = "" then disk.here else []) <+: disk.here := by
    split
    · exact List.prefix_refl _
    · exact List.nil_prefix
  exact found_walk (found_directory (isDirectory_iff.mpr (.inl hstart))) path.parts

theorem walk_stops {place : Place} {parts : List Text} (hplace : place.target? = some names)
    (h : (parts.foldl disk.enter place).target? = some target) : parts = [] ∧ names = target := by
  have hstuck (parts : List Text) (place : Place) (hp : place = .unreachable ∨ place = .blocked) :
      (parts.foldl disk.enter place).target? = none := by
    induction parts with
    | nil => rcases hp with rfl | rfl <;> rfl
    | cons part rest ih => rcases hp with rfl | rfl <;> exact ih
  cases parts with
  | nil => exact ⟨rfl, Option.some.inj (hplace.symm.trans h)⟩
  | cons part rest =>
    have hnext : disk.enter place part = .unreachable ∨ disk.enter place part = .blocked := by
      cases place with
      | file => exact .inr rfl
      | vacant => exact .inl rfl
      | _ => cases hplace
    rw [List.foldl_cons, hstuck rest _ hnext] at h
    cases h

/-- The directories on the way to a place are still on the way to it when only that place has
changed. -/
theorem walk_eq (hself : after.placeAt target = .file target bytes)
    (hother : ∀ names, names ≠ target → after.placeAt names = disk.placeAt names)
    (htarget : (disk.placeAt target).target? = some target) {parts : List Text}
    (h : (parts.foldl disk.enter (.directory names)).target? = some target) :
    parts.foldl after.enter (.directory names) = .file target bytes := by
  induction parts generalizing names with
  | nil => cases h
  | cons part rest ih =>
    simp only [List.foldl_cons, enter] at h ⊢
    split at h
    · rename_i hup
      rw [if_pos hup]
      exact ih h
    rename_i hup
    rw [if_neg hup]
    by_cases hlast : names ++ [part] = target
    · rw [hlast] at h ⊢
      obtain ⟨rfl, -⟩ := walk_stops htarget h
      exact hself
    · rw [hother _ hlast]
      obtain ⟨hp, -⟩ | hp := disk.placeAt_cases (names ++ [part])
      · rw [hp] at h ⊢
        exact ih h
      · exact absurd (walk_stops hp h).2 hlast

theorem target_eq_ok_iff {path : Path} :
    disk.target path = .ok target ↔ (disk.place path).target? = some target := by
  rw [Disk.target]
  cases disk.place path with
  | file | vacant => simp [Place.target?]
  | _ => exact ⟨nofun, nofun⟩

theorem exists_mem_put {P : List Text → Prop} {files : List (List Text × List UInt8)} :
    (∃ file ∈ put target bytes files, P file.1) ↔ P target ∨ ∃ file ∈ files, P file.1 := by
  induction files with
  | nil => simp [put]
  | cons file rest ih =>
    by_cases h : file.1 = target
    · simp [put, h]
    · simp only [put, h, if_false, List.mem_cons, exists_eq_or_imp, ih]
      exact or_left_comm

theorem placeAt_withFile_self (disk : Disk) (target : List Text) (bytes : List UInt8) :
    (disk.withFile target bytes).placeAt target = .file target bytes := by
  have hfile : (disk.withFile target bytes).file? target = some bytes :=
    lookup_put_self target bytes disk.files
  simp only [placeAt, hfile]

theorem placeAt_withFile_of_ne (bytes : List UInt8)
    (hparent : disk.isDirectory target.dropLast = true) (hne : names ≠ target) :
    (disk.withFile target bytes).placeAt names = disk.placeAt names := by
  have hfile : (disk.withFile target bytes).file? names = disk.file? names :=
    lookup_put_of_ne hne bytes disk.files
  -- The new file makes no directory, since what lies above it was one before.
  have habove (h : names <+: target) : disk.isDirectory names = true := by
    have hnil : target ≠ [] := by
      rintro rfl
      exact hne (List.prefix_nil.mp h)
    rw [← List.dropLast_concat_getLast hnil] at h hne
    exact isDirectory_mono hparent ((List.prefix_concat_iff.mp h).resolve_left hne)
  have hdirectory : (disk.withFile target bytes).isDirectory names = disk.isDirectory names := by
    rw [Bool.eq_iff_iff, isDirectory_iff, isDirectory_iff]
    simp only [withFile, exists_mem_put]
    constructor
    · rintro (h | h | h | h)
      · exact .inl h
      · exact .inr (.inl h)
      · exact isDirectory_iff.mp (habove h)
      · exact .inr (.inr h)
    · rintro (h | h | h)
      · exact .inl h
      · exact .inr (.inl h)
      · exact .inr (.inr (.inr h))
  simp only [placeAt, hfile, hdirectory]

theorem rewritten_withFile {path : Path} (bytes : List UInt8)
    (h : (disk.place path).target? = some target) :
    disk.Rewritten (disk.withFile target bytes) path bytes := by
  obtain ⟨hparent, hplace⟩ := (disk.found_place path).target h
  have htarget : (disk.placeAt target).target? = some target := by rw [hplace, h]
  have hself := disk.placeAt_withFile_self target bytes
  have hother (names : List Text) (hne : names ≠ target) :=
    placeAt_withFile_of_ne bytes hparent hne
  refine ⟨rfl, target, h, ?_, hother⟩
  simp only [place] at h ⊢
  split at h
  · rename_i hname
    rw [if_pos hname]
    exact walk_eq hself hother htarget h
  · cases h

theorem put_eq_self {files : List (List Text × List UInt8)} (h : files.lookup target = some bytes) :
    put target bytes files = files := by
  induction files with
  | nil => cases h
  | cons file rest ih =>
    obtain ⟨key, old⟩ := file
    by_cases hkey : key = target
    · subst hkey
      obtain rfl : old = bytes := by simpa [List.lookup_cons] using h
      simp [put]
    · have hb : (target == key) = false := by simpa using fun heq => hkey heq.symm
      rw [List.lookup_cons, hb] at h
      simp [put, hkey, ih h]

theorem file?_of_place {path : Path} (h : disk.place path = .file target bytes) :
    disk.file? target = some bytes := by
  have htarget : (disk.place path).target? = some target := by rw [h]; rfl
  obtain ⟨-, hplace⟩ := (disk.found_place path).target htarget
  rw [h, placeAt] at hplace
  split at hplace
  · rename_i found hfound
    cases hplace
    exact hfound
  · split at hplace <;> cases hplace

theorem withFile_eq_self {path : Path} (h : disk.place path = .file target bytes) :
    disk.withFile target bytes = disk := by
  rw [withFile, put_eq_self (file?_of_place h)]

theorem place_of_withFile_eq_self {path : Path} (htarget : (disk.place path).target? = some target)
    (h : disk.withFile target bytes = disk) : disk.place path = .file target bytes := by
  obtain ⟨-, names, hnames, hplace, -⟩ := rewritten_withFile bytes htarget
  cases htarget.symm.trans hnames
  rwa [h] at hplace

end Disk
end Libdef
