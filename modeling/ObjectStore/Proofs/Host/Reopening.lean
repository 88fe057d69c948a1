import ObjectStore.Host.Disk
import ObjectStore.Proofs.Attempt.Sequences

/-!
# Opening a store again

An open store is known by the number of its file. When it is closed, the file
gets its tables, and when the same path is opened again, the path leads to the
same file: opening and closing a store changes no directory, and the file is
where it was. The store is then made of the tables that are found there.

## Main results

* `Disk.locateFile_of_directories`: a path leads to the same file as long as
  the directories are there.
* `Disk.reopen`: a store that is closed can be opened again, and is made of the
  tables that it was closed with.
-/

namespace ObjectStore

namespace Disk

variable {d d' : Disk} {location other : List String} {path : String}

/-! ## What stands where -/

theorem lookup?_put_of_ne {entry : DiskEntry} (h : other ≠ location) :
    (d.put location entry).lookup? other = d.lookup? other := by
  have hSame : (fun p : List String × DiskEntry =>
      decide (decide (p.1 ≠ location) = true ∧ decide (p.1 = other) = true)) =
        fun p => decide (p.1 = other) := by
    funext p
    by_cases hOther : p.1 = other
    · simp [hOther, h]
    · simp [hOther]
  simp only [lookup?, put, erase, List.find?_cons, decide_eq_false h.symm, List.find?_filter, hSame]

theorem lookup?_putFile_of_ne {content : FileContent} (h : other ≠ location) :
    (d.putFile location content).2.lookup? other = d.lookup? other := by
  unfold putFile
  split
  · exact lookup?_put_of_ne h
  · exact lookup?_put_of_ne (d := d) h

/-- What closing a store does to what stands somewhere: its file gets the
tables. -/
def closedEntry (number : Nat) (tables : StoreTables) : DiskEntry → DiskEntry
  | .file other (.store former) =>
      .file other (.store (if other = number then tables else former))
  | entry => entry

theorem lookup?_closeStore (d : Disk) (number : Nat) (store : EntityStore) :
    (d.closeStore number store).lookup? location =
      (d.lookup? location).map (closedEntry number store.toStoreTables) := by
  have hEntries : (d.closeStore number store).entries =
      d.entries.map fun p => (p.1, closedEntry number store.toStoreTables p.2) := by
    apply List.map_congr_left
    rintro ⟨at_, entry⟩ -
    cases entry with
    | directory => rfl
    | file other content => cases content <;> rfl
  unfold lookup?
  by_cases hRoot : location = []
  · rw [if_pos hRoot, if_pos hRoot]
    rfl
  · rw [if_neg hRoot, if_neg hRoot, hEntries, List.find?_map, Option.map_map, Option.map_map]
    rfl

/-! ## Where paths lead -/

/-- Every directory of the first disk is one of the second, which starts from
the same home. -/
structure Directories (d d' : Disk) : Prop where
  home : d'.home = d.home
  kept : ∀ {location}, d.lookup? location = some .directory →
    d'.lookup? location = some .directory

theorem Directories.trans {d'' : Disk} (h : d.Directories d') (h' : d'.Directories d'') :
    d.Directories d'' :=
  ⟨h'.home.trans h.home, fun hDirectory => h'.kept (h.kept hDirectory)⟩

theorem directories_putFile {content : FileContent}
    (hNot : d.lookup? location ≠ some .directory) : d.Directories (d.putFile location content).2 := by
  constructor
  · unfold putFile
    split
    · rfl
    · rfl
  · intro other hDirectory
    have hOther : other ≠ location := by
      rintro rfl
      exact hNot hDirectory
    rw [lookup?_putFile_of_ne hOther]
    exact hDirectory

theorem directories_closeStore (d : Disk) (number : Nat) (store : EntityStore) :
    d.Directories (d.closeStore number store) := by
  refine ⟨rfl, fun hDirectory => ?_⟩
  rw [lookup?_closeStore, hDirectory]
  rfl

theorem expectDirectory_ok :
    d.expectDirectory location = .ok () ↔ d.lookup? location = some .directory := by
  unfold expectDirectory
  split
  · rename_i hNone
    simp [hNone]
  · rename_i hDirectory
    simp [hDirectory]
  · rename_i entry hNot hEntry
    constructor
    · intro h
      cases h
    · intro h
      exact absurd (Option.some.inj (hEntry.symm.trans h)) hNot

theorem Directories.step (h : d.Directories d') {place place' : Place} {part : String}
    (hStep : d.step place part = .ok place') : d'.step place part = .ok place' := by
  cases place with
  | outside => exact hStep
  | inside location =>
      obtain ⟨_, hExpect, hRest⟩ := bind_eq_ok.1 hStep
      have hDirectory := h.kept (expectDirectory_ok.1 hExpect)
      exact bind_eq_ok.2 ⟨(), expectDirectory_ok.2 hDirectory, hRest⟩

theorem Directories.foldlM_step (h : d.Directories d') {parts : List String}
    {place place' : Place} (hSteps : parts.foldlM d.step place = .ok place') :
    parts.foldlM d'.step place = .ok place' := by
  induction parts generalizing place with
  | nil => exact hSteps
  | cons part rest ih =>
      rw [List.foldlM_cons] at hSteps ⊢
      obtain ⟨next, hStep, hRest⟩ := bind_eq_ok.1 hSteps
      exact bind_eq_ok.2 ⟨next, h.step hStep, ih hRest⟩

theorem Directories.walk (h : d.Directories d') {parts : List String} {place : Place}
    (hWalk : d.walk parts = .ok place) : d'.walk parts = .ok place := by
  unfold Disk.walk at hWalk ⊢
  split at hWalk
  · exact h.foldlM_step hWalk
  · exact h.foldlM_step hWalk

theorem Directories.relative (h : d.Directories d') (path : String) :
    d'.relative path = d.relative path := by
  simp only [Disk.relative, h.home]

theorem Directories.resolve (h : d.Directories d') {place : Place}
    (hResolve : d.resolve path = .ok place) : d'.resolve path = .ok place := by
  unfold Disk.resolve at hResolve ⊢
  rw [h.relative]
  split at hResolve
  · cases hResolve
  · rename_i hSome
    rw [if_neg hSome]
    exact h.walk hResolve

/-- A file can be located if its path can be asked for, does not say that a
directory stands at its end, and leads to where none stands. -/
theorem locateFile_ok : d.locateFile path = .ok location ↔
    expectPath path = .ok () ∧ Path.aboveOpenEnd? (d.relative path) = none ∧
      d.resolve path = .ok (.inside location) ∧ d.lookup? location ≠ some .directory := by
  constructor
  · intro h
    obtain ⟨_, hExpect, h⟩ := bind_eq_ok.1 h
    cases hAbove : Path.aboveOpenEnd? (d.relative path) with
    | some above =>
        -- Such a path is refused whatever it leads to.
        simp only [hAbove] at h
        obtain ⟨place, -, h⟩ := bind_eq_ok.1 h
        cases place with
        | outside => cases h
        | inside location' =>
            obtain ⟨_, -, h⟩ := bind_eq_ok.1 h
            cases h
    | none =>
        simp only [hAbove] at h
        obtain ⟨place, hResolve, h⟩ := bind_eq_ok.1 h
        cases place with
        | outside => cases h
        | inside location' =>
            simp only at h
            split at h
            · cases h
            · rename_i hNot
              cases h
              exact ⟨hExpect, rfl, hResolve, fun hDirectory => hNot hDirectory⟩
  · rintro ⟨hExpect, hAbove, hResolve, hNot⟩
    refine bind_eq_ok.2 ⟨(), hExpect, ?_⟩
    simp only [hAbove]
    refine bind_eq_ok.2 ⟨Place.inside location, hResolve, ?_⟩
    simp only
    rfl

/-- As long as the directories are there, a path leads to the same file. -/
theorem locateFile_of_directories (h : d.Directories d')
    (hLocate : d.locateFile path = .ok location)
    (hNot : d'.lookup? location ≠ some .directory) : d'.locateFile path = .ok location := by
  obtain ⟨hExpect, hAbove, hResolve, -⟩ := locateFile_ok.1 hLocate
  refine locateFile_ok.2 ⟨hExpect, ?_, h.resolve hResolve, hNot⟩
  rw [h.relative]
  exact hAbove

/-! ## Opening and closing -/

theorem number_putFile {number : Nat} {former content : FileContent}
    (h : d.lookup? location = some (.file number former)) :
    (d.putFile location content).1 = number := by
  simp only [putFile, h]

variable {number : Nat} {s : EntityStore}

/-- How a store is opened: its file is located, is no other open store, and
gets a number if it has none. The store is made of its tables. -/
theorem openStore_ok : d.openStore path = .ok ((number, s), d') ↔
    ∃ location tables, d.locateFile path = .ok location ∧ d.tablesAt location = .ok tables ∧
      s = EntityStore.opened tables ∧ number = (d.putFile location (.store tables)).1 ∧
      d' = { (d.putFile location (.store tables)).2 with
        opened := number :: (d.putFile location (.store tables)).2.opened } := by
  constructor
  · intro h
    obtain ⟨location, hLocate, h⟩ := bind_eq_ok.1 h
    obtain ⟨tables, hTables, h⟩ := bind_eq_ok.1 h
    cases h
    cases hFound : d.locateFile path with
    | error fault =>
        rw [hFound] at hLocate
        cases hLocate
    | ok found =>
        rw [hFound] at hLocate
        cases hLocate
        exact ⟨_, _, rfl, hTables, rfl, rfl, rfl⟩
  · rintro ⟨location, tables, hLocate, hTables, rfl, rfl, rfl⟩
    refine bind_eq_ok.2 ⟨location, by rw [hLocate]; rfl, ?_⟩
    exact bind_eq_ok.2 ⟨tables, hTables, rfl⟩

/-- An open store stands where its path leads. -/
theorem lookup?_openStore (h : d.openStore path = .ok ((number, s), d')) :
    ∃ location tables, d.locateFile path = .ok location ∧
      d'.lookup? location = some (.file number (.store tables)) := by
  obtain ⟨location, tables, hLocate, -, -, rfl, rfl⟩ := openStore_ok.1 h
  obtain ⟨-, -, -, hNot⟩ := locateFile_ok.1 hLocate
  have hInside : location ≠ [] := by
    rintro rfl
    exact hNot (if_pos rfl)
  exact ⟨location, tables, hLocate, @lookup?_putFile d location (.store tables) hInside⟩

theorem directories_openStore (h : d.openStore path = .ok ((number, s), d')) :
    d.Directories d' := by
  obtain ⟨location, tables, hLocate, -, -, -, rfl⟩ := openStore_ok.1 h
  obtain ⟨-, -, -, hNot⟩ := locateFile_ok.1 hLocate
  obtain ⟨hHome, hKept⟩ := @directories_putFile d location (.store tables) hNot
  exact ⟨hHome, hKept⟩

/-- A store that is closed can be opened again at the same path, and is known by
the same number. Only its tables are left of what it was: the counter in memory
is read from them. -/
theorem reopen (h : d.openStore path = .ok ((number, s), d')) (t : EntityStore) :
    ∃ d'', (d'.closeStore number t).openStore path =
      .ok ((number, EntityStore.opened t.toStoreTables), d'') := by
  obtain ⟨location, tables, hLocate, hOpen⟩ := lookup?_openStore h
  have hFile : (d'.closeStore number t).lookup? location =
      some (.file number (.store t.toStoreTables)) := by
    rw [lookup?_closeStore, hOpen]
    simp [closedEntry]
  have hDirectories : d.Directories (d'.closeStore number t) :=
    (directories_openStore h).trans (directories_closeStore d' number t)
  have hAgain : (d'.closeStore number t).locateFile path = .ok location := by
    refine locateFile_of_directories hDirectories hLocate ?_
    rw [hFile]
    intro hSame
    cases hSame
  have hFree : (d'.closeStore number t).opened.contains number = false := by
    simp [closeStore]
  have hHolds : (d'.closeStore number t).tablesAt location = .ok t.toStoreTables := by
    simp only [tablesAt, hFile, hFree, Bool.false_eq_true, if_false]
  exact ⟨_, openStore_ok.2
    ⟨location, _, hAgain, hHolds, rfl, (number_putFile hFile).symm, rfl⟩⟩

/-! ## A store on a disk with nothing on it -/

theorem locateFile_shelf : (empty "/home").locateFile "shelf" = .ok ["shelf"] := by
  have hRelative : (empty "/home").relative "shelf" = "shelf" := by decide +kernel
  have hParts : Path.parts "shelf" = ["shelf"] := by decide +kernel
  refine locateFile_ok.2 ⟨?_, ?_, ?_, ?_⟩
  · have hLength : ¬Path.maxLength < "shelf".utf8ByteSize := by decide +kernel
    simp [expectPath, expectNames, hLength]
  · rw [hRelative]
    decide +kernel
  · have hNot : ¬"shelf".isEmpty = true := by decide +kernel
    rw [resolve, if_neg hNot, hRelative, hParts]
    rfl
  · intro h
    cases h

/-- The store that is opened there is empty. -/
theorem openStore_shelf :
    ∃ d, (empty "/home").openStore "shelf" = .ok ((0, EntityStore.empty), d) :=
  ⟨_, openStore_ok.2 ⟨_, _, locateFile_shelf, rfl, rfl, rfl, rfl⟩⟩

end Disk

end ObjectStore
