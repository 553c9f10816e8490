import CodecChain.Files.System
import CodecChain.Proofs.Result

/-
  Systems of files that grow. Directories are created where
  nothing is, and files are written under given paths; what is
  there stays there, directories stay directories, and paths
  go on leading where they led.

  Key definitions include:
    * `FileSystem.Grows`
    * `FileSystem.GrewAt`

  Main statements:
    * `FileSystem.Grows.resolve_eq_ok`
    * `FileSystem.Grows.contains`
    * `FileSystem.Grows.grewAt`
    * `FileSystem.read_of_write`
    * `FileSystem.write_again`
-/

namespace CodecChain

namespace FileSystem

variable {fs fs' : FileSystem} {place other : Place}
variable {p : Path} {bytes : List UInt8}

------------------------------------------------------------
-- Paths and Directories
------------------------------------------------------------

theorem isBase_eq_false
    (h : fs.get? place ≠ some .directory) :
    fs.isBase place = false := by
  cases hBase : fs.isBase place with
  | false => rfl
  | true =>
      rw [get?, hBase, if_pos rfl] at h
      exact absurd rfl h

/- Names are followed through directories that are still there. -/
theorem walk_eq_ok_of_directories
    {start : Place}
    {names : List Text}
    (hKept :
      ∀ other, fs.get? other = some .directory →
        fs'.get? other = some .directory)
    (h : fs.walk start names = .ok place) :
    fs'.walk start names = .ok place := by
  induction names generalizing start with
  | nil => exact h
  | cons name names ih =>
      rw [walk] at h ⊢
      split at h
      · rename_i hDirectory
        rw [hKept start hDirectory]
        exact ih h
      · cases h
      · cases h

theorem resolve_eq_ok_of_directories
    (hDirectory : fs'.directory = fs.directory)
    (hKept :
      ∀ other, fs.get? other = some .directory →
        fs'.get? other = some .directory)
    (h : fs.resolve p = .ok place) :
    fs'.resolve p = .ok place := by
  unfold resolve at h ⊢
  split at h
  · cases h
  rename_i hNonempty
  rw [if_neg hNonempty]
  split at h
  · rename_i hAbsolute
    rw [if_pos hAbsolute]
    exact walk_eq_ok_of_directories hKept h
  · rename_i hRelative
    rw [if_neg hRelative, hDirectory]
    exact walk_eq_ok_of_directories hKept h

/- Where no directory is, nothing is put over one. -/
theorem get?_put_of_directory
    {entry : Entry}
    (hPlace : fs.get? place ≠ some .directory)
    (hOther : fs.get? other = some .directory) :
    (fs.put place entry).get? other = some .directory := by
  have hNe : other ≠ place := by
    rintro rfl
    exact hPlace hOther
  rw [get?_put _ _ _ _ (isBase_eq_false hPlace), if_neg hNe]
  exact hOther

/- What is put where no directory is leads no path astray. -/
theorem resolve_put
    {new : Place}
    {entry : Entry}
    (hNew : fs.get? new ≠ some .directory)
    (h : fs.resolve p = .ok place) :
    (fs.put new entry).resolve p = .ok place :=
  resolve_eq_ok_of_directories (directory_put fs new entry)
    (fun _ => get?_put_of_directory hNew) h

theorem contains_eq_true_iff :
    fs.contains p = true ↔
      ∃ place entry,
        fs.resolve p = .ok place ∧
          fs.get? place = some entry := by
  unfold contains lookup?
  cases hResolve : fs.resolve p with
  | error fault => simp
  | ok place => simp [Option.isSome_iff_exists]

theorem isDirectory_eq_true_iff :
    fs.isDirectory p = true ↔
      ∃ place,
        fs.resolve p = .ok place ∧
          fs.get? place = some .directory := by
  unfold isDirectory lookup?
  cases hResolve : fs.resolve p with
  | error fault => simp
  | ok place => simp

theorem read_eq_ok_iff :
    fs.read p = .ok bytes ↔
      ∃ place,
        fs.resolve p = .ok place ∧
          fs.get? place = some (.file bytes) := by
  rw [read, Except.bind_eq_ok_iff]
  apply exists_congr
  intro place
  rw [and_congr_right_iff]
  intro _
  rcases fs.get? place with _ | ⟨content | _⟩ <;> simp

------------------------------------------------------------
-- Growth
------------------------------------------------------------

/-
  A system grows into another one by new directories, and by
  files that may be written with their paths and bytes. A file
  is never written over a directory.
-/
inductive Grows
    (writes : Path → List UInt8 → Prop) :
    FileSystem → FileSystem → Prop where
  | refl
      {fs : FileSystem} :
      Grows writes fs fs
  | directory
      {fs fs' : FileSystem}
      {place : Place}
      (hBefore : Grows writes fs fs')
      (hFree : fs'.get? place = none) :
      Grows writes fs (fs'.put place .directory)
  | file
      {fs fs' : FileSystem}
      {place : Place}
      {p : Path}
      {bytes : List UInt8}
      (hBefore : Grows writes fs fs')
      (hWrites : writes p bytes)
      (hPlace : fs'.resolve p = .ok place)
      (hFile : fs'.get? place ≠ some .directory) :
      Grows writes fs (fs'.put place (.file bytes))

namespace Grows

variable {writes writes' : Path → List UInt8 → Prop}

theorem trans
    {fs'' : FileSystem}
    (h : Grows writes fs fs')
    (h' : Grows writes fs' fs'') :
    Grows writes fs fs'' := by
  induction h' with
  | refl => exact h
  | directory _ hFree ih => exact ih.directory hFree
  | file _ hWrites hPlace hFile ih =>
      exact ih.file hWrites hPlace hFile

theorem mono
    (hMore : ∀ p bytes, writes p bytes → writes' p bytes)
    (h : Grows writes fs fs') :
    Grows writes' fs fs' := by
  induction h with
  | refl => exact .refl
  | directory _ hFree ih => exact ih.directory hFree
  | file _ hWrites hPlace hFile ih =>
      exact ih.file (hMore _ _ hWrites) hPlace hFile

end Grows

/-
  How a place has fared: it is as it was, a directory is new
  there, or a file has been written there.
-/
inductive GrewAt
    (writes : Path → List UInt8 → Prop)
    (fs fs' : FileSystem)
    (place : Place) : Prop where
  | kept
      (hSame : fs'.get? place = fs.get? place)
  | directory
      (hBefore : fs.get? place = none)
      (hAfter : fs'.get? place = some .directory)
  | file
      {p : Path}
      {bytes : List UInt8}
      (hBefore : fs.get? place ≠ some .directory)
      (hWrites : writes p bytes)
      (hPlace : fs'.resolve p = .ok place)
      (hAfter : fs'.get? place = some (.file bytes))

namespace GrewAt

variable {writes : Path → List UInt8 → Prop}

theorem get?_eq_directory
    (h : GrewAt writes fs fs' place)
    (hDirectory : fs.get? place = some .directory) :
    fs'.get? place = some .directory := by
  cases h with
  | kept hSame => rw [hSame, hDirectory]
  | directory _ hAfter => exact hAfter
  | file hBefore => exact absurd hDirectory hBefore

theorem get?_eq_none
    (h : GrewAt writes fs fs' place)
    (hNone : fs'.get? place = none) :
    fs.get? place = none := by
  cases h with
  | kept hSame => rw [← hSame, hNone]
  | directory hBefore => exact hBefore
  | file _ _ _ hAfter =>
      rw [hNone] at hAfter
      cases hAfter

/- What is put elsewhere changes nothing here. -/
theorem put
    {new : Place}
    {entry : Entry}
    (h : GrewAt writes fs fs' place)
    (hNew : fs'.get? new ≠ some .directory)
    (hOther : place ≠ new) :
    GrewAt writes fs (fs'.put new entry) place := by
  have hGet :
      (fs'.put new entry).get? place = fs'.get? place := by
    rw [get?_put _ _ _ _ (isBase_eq_false hNew),
      if_neg hOther]
  cases h with
  | kept hSame => exact .kept (hGet.trans hSame)
  | directory hBefore hAfter =>
      exact .directory hBefore (hGet.trans hAfter)
  | file hBefore hWrites hPlace hAfter =>
      exact .file hBefore hWrites
        (resolve_put hNew hPlace)
        (hGet.trans hAfter)

end GrewAt

namespace Grows

variable {writes : Path → List UInt8 → Prop}

/- The working directory stays where it is. -/
theorem directory_eq
    (h : Grows writes fs fs') :
    fs'.directory = fs.directory := by
  induction h with
  | refl => rfl
  | directory _ _ ih => exact ih
  | file _ _ _ _ ih => exact ih

/- Growth is seen at each place alone. -/
theorem grewAt
    (h : Grows writes fs fs')
    (place : Place) :
    GrewAt writes fs fs' place := by
  induction h with
  | refl => exact .kept rfl
  | @directory fs' new hBefore hFree ih =>
      have hNew : fs'.get? new ≠ some .directory := by
        rw [hFree]
        exact nofun
      by_cases hSame : place = new
      · subst hSame
        refine .directory (ih.get?_eq_none hFree) ?_
        rw [get?_put _ _ _ _ (isBase_eq_false hNew), if_pos rfl]
      · exact ih.put hNew hSame
  | @file fs' new p bytes hBefore hWrites hPlace hFile ih =>
      by_cases hSame : place = new
      · subst hSame
        refine .file (fun h => hFile (ih.get?_eq_directory h))
          hWrites (resolve_put hFile hPlace) ?_
        rw [get?_put _ _ _ _ (isBase_eq_false hFile),
          if_pos rfl]
      · exact ih.put hFile hSame

/- Paths go on leading where they led. -/
theorem resolve_eq_ok
    (h : Grows writes fs fs')
    (hPlace : fs.resolve p = .ok place) :
    fs'.resolve p = .ok place :=
  resolve_eq_ok_of_directories h.directory_eq
    (fun other => (h.grewAt other).get?_eq_directory) hPlace

/- Paths go on naming something. -/
theorem contains
    (h : Grows writes fs fs')
    (hContains : fs.contains p = true) :
    fs'.contains p = true := by
  rw [contains_eq_true_iff] at hContains ⊢
  rcases hContains with ⟨place, entry, hPlace, hEntry⟩
  cases hAfter : fs'.get? place with
  | none =>
      rw [(h.grewAt place).get?_eq_none hAfter] at hEntry
      cases hEntry
  | some entry' =>
      exact ⟨place, entry', h.resolve_eq_ok hPlace, hAfter⟩

/- Directories stay what they are. -/
theorem isDirectory
    (h : Grows writes fs fs')
    (hDirectory : fs.isDirectory p = true) :
    fs'.isDirectory p = true := by
  rw [isDirectory_eq_true_iff] at hDirectory ⊢
  rcases hDirectory with ⟨place, hPlace, hEntry⟩
  exact ⟨place, h.resolve_eq_ok hPlace,
    (h.grewAt place).get?_eq_directory hEntry⟩

/- A file stays as it is if only its own bytes are written. -/
theorem read_eq_ok
    (h : Grows writes fs fs')
    (hSame : ∀ p' bytes', writes p' bytes' → bytes' = bytes)
    (hRead : fs.read p = .ok bytes) :
    fs'.read p = .ok bytes := by
  rw [read_eq_ok_iff] at hRead ⊢
  rcases hRead with ⟨place, hPlace, hFile⟩
  refine ⟨place, h.resolve_eq_ok hPlace, ?_⟩
  cases h.grewAt place with
  | kept hKept => rw [hKept, hFile]
  | directory hBefore =>
      rw [hFile] at hBefore
      cases hBefore
  | file _ hWrites _ hAfter =>
      rw [hAfter, hSame _ _ hWrites]

end Grows

------------------------------------------------------------
-- Changes by Programs
------------------------------------------------------------

variable {writes : Path → List UInt8 → Prop}

theorem write_eq_ok_iff :
    fs.write p bytes = .ok fs' ↔
      ∃ place,
        withoutSlashes p = p ∧ fs.resolve p = .ok place ∧
          fs.get? place ≠ some .directory ∧
          fs' = fs.put place (.file bytes) := by
  rw [write, Except.bind_eq_ok_iff]
  constructor
  · rintro ⟨place, hPlace, h⟩
    split at h
    · cases h
    · rename_i hNot
      rw [not_or, Classical.not_not] at hNot
      rcases hNot with ⟨hSlashes, hFile⟩
      rw [hSlashes] at hPlace
      cases h
      exact ⟨place, hSlashes, hPlace, hFile, rfl⟩
  · rintro ⟨place, hSlashes, hPlace, hFile, rfl⟩
    refine ⟨place, hSlashes.symm ▸ hPlace, ?_⟩
    rw [if_neg]
    rintro (hNot | hDirectory)
    · exact hNot hSlashes
    · exact hFile hDirectory

theorem grows_of_write
    (hWrites : writes p bytes)
    (h : fs.write p bytes = .ok fs') :
    Grows writes fs fs' := by
  rcases write_eq_ok_iff.mp h with
    ⟨place, -, hPlace, hFile, rfl⟩
  exact Grows.refl.file hWrites hPlace hFile

/- What has been written under a path is read there. -/
theorem read_of_write
    (h : fs.write p bytes = .ok fs') :
    fs'.read p = .ok bytes := by
  rcases write_eq_ok_iff.mp h with
    ⟨place, -, hPlace, hFile, rfl⟩
  rw [read_eq_ok_iff]
  refine ⟨place, ?_, ?_⟩
  · exact resolve_put hFile hPlace
  · rw [get?_put _ _ _ _ (isBase_eq_false hFile), if_pos rfl]

theorem put_put
    (fs : FileSystem)
    (place : Place)
    (entry : Entry) :
    (fs.put place entry).put place entry = fs.put place entry := by
  simp [put, List.filter_filter]

/- Writing the same bytes once more changes nothing. -/
theorem write_again
    (h : fs.write p bytes = .ok fs') :
    fs'.write p bytes = .ok fs' := by
  rcases write_eq_ok_iff.mp h with
    ⟨place, hSlashes, hPlace, hFile, rfl⟩
  rw [write_eq_ok_iff]
  refine ⟨place, hSlashes, ?_, ?_, (put_put fs place _).symm⟩
  · exact resolve_put hFile hPlace
  · rw [get?_put _ _ _ _ (isBase_eq_false hFile), if_pos rfl]
    exact nofun

theorem grows_of_createDirectory
    (h : fs.createDirectory p = .ok fs') :
    Grows writes fs fs' := by
  rw [createDirectory, Except.bind_eq_ok_iff] at h
  rcases h with ⟨place, -, h⟩
  split at h
  · cases h
  · rename_i hFree
    cases h
    exact Grows.refl.directory hFree

/- A directory that has been created is one. -/
theorem isDirectory_of_createDirectory
    (hSlashes : withoutSlashes p = p)
    (h : fs.createDirectory p = .ok fs') :
    fs'.isDirectory p = true := by
  rw [createDirectory, hSlashes, Except.bind_eq_ok_iff] at h
  rcases h with ⟨place, hPlace, h⟩
  split at h
  · cases h
  · rename_i hFree
    have hNew : fs.get? place ≠ some .directory := by
      rw [hFree]
      exact nofun
    cases h
    rw [isDirectory_eq_true_iff]
    refine ⟨place, ?_, ?_⟩
    · exact resolve_put hNew hPlace
    · rw [get?_put _ _ _ _ (isBase_eq_false hNew), if_pos rfl]

/- Where a directory is, none is created. -/
theorem createDirectory_of_isDirectory
    (hSlashes : withoutSlashes p = p)
    (h : fs.isDirectory p = true) :
    fs.createDirectory p = .error .alreadyExists := by
  rcases isDirectory_eq_true_iff.mp h with
    ⟨place, hPlace, hDirectory⟩
  simp only [createDirectory, hSlashes, hPlace, bind,
    Except.bind, hDirectory]

theorem contains_of_read
    (h : fs.read p = .ok bytes) :
    fs.contains p = true := by
  rcases read_eq_ok_iff.mp h with ⟨place, hPlace, hFile⟩
  exact contains_eq_true_iff.mpr ⟨place, _, hPlace, hFile⟩

end FileSystem

end CodecChain
