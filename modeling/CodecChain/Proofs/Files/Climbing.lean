import CodecChain.Proofs.Files.Growth
import CodecChain.Proofs.Text.Pieces

/-
  Files in systems that grow. A path that is missing can name
  a file that is there already once directories for it have
  been created, but only if it leads down and up again. So a
  file is lost only to a path that names it, or to one that
  climbs to it through a directory that is new.

  Key definitions include:
    * `Path.climbs`
    * `FileSystem.IsRooted`
    * `FileSystem.FillsIn`
    * `FileSystem.Exposes`

  Main statements:
    * `FileSystem.resolve_isRooted`
    * `FileSystem.resolve_through_directory`
    * `FileSystem.resolve_of_grown`
    * `FileSystem.Grows.kept_or_written`
    * `FileSystem.FillsIn.kept_or_exposed`
-/

------------------------------------------------------------
-- Climbing Paths
------------------------------------------------------------

namespace CodecChain

namespace Path

/- A part that leads down. -/
def isName (part : Text) : Bool :=
  part ≠ [] && part ≠ here && part ≠ above

/- Parts that lead up after they have led down. -/
def leadsBack : List Text → Bool
  | [] => false
  | part :: parts =>
      if isName part then
        parts.contains above
      else
        leadsBack parts

/- A path that leads up after it has led down. -/
def climbs (p : Path) : Bool :=
  leadsBack (Text.split slash p)

end Path

------------------------------------------------------------
-- Rooted Places
------------------------------------------------------------

namespace FileSystem

variable {fs fs' : FileSystem} {start place : Place}
variable {names : List Text} {p q : Path}
variable {bytes : List UInt8}

theorem isBase_iff :
    fs.isBase place = true ↔ place <+: fs.directory :=
  List.isPrefixOf_iff_prefix

theorem get?_of_isBase
    (h : fs.isBase place = true) :
    fs.get? place = some .directory := by
  rw [get?, h, if_pos rfl]

/- A place to which nothing but directories lead. -/
def IsRooted (fs : FileSystem) (place : Place) : Prop :=
  ∀ outer, outer <+: place → outer ≠ place →
    fs.get? outer = some .directory

theorem isRooted_of_isBase
    (h : fs.isBase place = true) :
    IsRooted fs place := by
  intro outer hOuter _
  exact get?_of_isBase
    (isBase_iff.mpr (hOuter.trans (isBase_iff.mp h)))

/- Paths are followed from the root or the working directory. -/
theorem isBase_root (fs : FileSystem) : fs.isBase [] = true :=
  isBase_iff.mpr List.nil_prefix

theorem isBase_directory (fs : FileSystem) :
    fs.isBase fs.directory = true :=
  isBase_iff.mpr (List.prefix_refl _)

/- From a directory, each name leads to a rooted place. -/
theorem IsRooted.step
    (h : IsRooted fs place)
    (hPlace : fs.get? place = some .directory)
    (name : Text) :
    IsRooted fs (step place name) := by
  unfold FileSystem.step
  split
  · exact h
  split
  · intro outer hOuter hNe
    apply h outer (hOuter.trans (List.dropLast_prefix place))
    intro hSame
    apply hNe
    apply hOuter.eq_of_length_le
    rw [hSame, List.length_dropLast]
    exact Nat.sub_le _ 1
  · intro outer hOuter hNe
    rcases List.prefix_concat_iff.mp hOuter with rfl | hInner
    · exact absurd rfl hNe
    · by_cases hSame : outer = place
      · rw [hSame]
        exact hPlace
      · exact h outer hInner hSame

theorem walk_isRooted
    (hStart : IsRooted fs start)
    (h : fs.walk start names = .ok place) :
    IsRooted fs place := by
  induction names generalizing start with
  | nil =>
      cases h
      exact hStart
  | cons name names ih =>
      rw [walk] at h
      split at h
      · rename_i hDirectory
        exact ih (hStart.step hDirectory name) h
      · cases h
      · cases h

/- Where a path leads, directories lead too. -/
theorem resolve_isRooted
    (h : fs.resolve p = .ok place) :
    IsRooted fs place := by
  unfold resolve at h
  split at h
  · cases h
  split at h
  · exact walk_isRooted (isRooted_of_isBase fs.isBase_root) h
  · exact walk_isRooted
      (isRooted_of_isBase fs.isBase_directory) h

------------------------------------------------------------
-- Paths Through the Working Directory
------------------------------------------------------------

theorem step_of_isName
    {name : Text}
    (h : Path.isName name = true)
    (place : Place) :
    step place name = place ++ [name] := by
  simp only [Path.isName, Bool.and_eq_true,
    decide_eq_true_eq] at h
  unfold step
  rw [if_neg (not_or.mpr h.1), if_neg h.2]

/- The way to the working directory is always open. -/
theorem walk_bases
    {rest : List Text}
    (hNames : ∀ name ∈ names, Path.isName name = true)
    (hBase : start ++ names <+: fs.directory) :
    fs.walk start (names ++ rest) =
      fs.walk (start ++ names) rest := by
  induction names generalizing start with
  | nil => rw [List.nil_append, List.append_nil]
  | cons name names ih =>
      rw [List.forall_mem_cons] at hNames
      have hStart : fs.isBase start = true :=
        isBase_iff.mpr
          ((List.prefix_append start (name :: names)).trans hBase)
      rw [List.append_cons] at hBase
      rw [List.cons_append, walk, get?_of_isBase hStart,
        step_of_isName hNames.1, List.append_cons start name names]
      exact ih hNames.2 hBase

/-
  The absolute path through the working directory leads where
  the relative path leads.
-/
theorem resolve_through_directory
    (hNames : ∀ name ∈ fs.directory,
      Path.isName name = true ∧ Path.slash ∉ name)
    (hSome : p ≠ [])
    (hRelative : Path.isAbsolute p = false) :
    fs.resolve
        (Text.join Path.slash ([] :: fs.directory) ++
          Path.slash :: p) =
      fs.resolve p := by
  have hSplit :
      Text.split Path.slash
          (Text.join Path.slash ([] :: fs.directory) ++
            Path.slash :: p) =
        [] :: (fs.directory ++ Text.split Path.slash p) := by
    rw [Text.split_append, Text.split_join (List.cons_ne_nil _ _)]
    · rfl
    · rw [List.forall_mem_cons]
      exact ⟨List.not_mem_nil, fun name hName =>
        (hNames name hName).2⟩
  have hAbsolute :
      Path.isAbsolute
          (Text.join Path.slash ([] :: fs.directory) ++
            Path.slash :: p) = true := by
    cases fs.directory <;> rfl
  have hRoot := get?_of_isBase fs.isBase_root
  rw [resolve, if_neg (by simp), hAbsolute, if_pos rfl, hSplit,
    walk, hRoot, resolve, if_neg hSome, hRelative,
    if_neg Bool.false_ne_true]
  exact walk_bases (fun name hName => (hNames name hName).1)
    (List.prefix_refl fs.directory)

------------------------------------------------------------
-- Paths That Do Not Climb
------------------------------------------------------------

theorem isPrefix_step
    {name : Text}
    (hName : name ≠ Path.above)
    (place : Place) :
    place <+: step place name := by
  unfold step
  rw [if_neg hName]
  split
  · exact List.prefix_refl place
  · exact List.prefix_append place [name]

/- Names that do not lead up lead further down. -/
theorem isPrefix_of_walk
    (hDown : Path.above ∉ names)
    (h : fs.walk start names = .ok place) :
    start <+: place := by
  induction names generalizing start with
  | nil =>
      cases h
      exact List.prefix_refl _
  | cons name names ih =>
      rw [List.mem_cons, not_or] at hDown
      rw [walk] at h
      split at h
      · exact (isPrefix_step (Ne.symm hDown.1) _).trans
          (ih hDown.2 h)
      · cases h
      · cases h

/-
  Names that lead down to a place among others lead there
  without them, if directories do and it is none itself.
-/
theorem walk_of_down
    (hDown : Path.above ∉ names)
    (hRooted : IsRooted fs place)
    (hPlace : fs'.get? place ≠ some .directory)
    (h : fs'.walk start names = .ok place) :
    fs.walk start names = .ok place := by
  induction names generalizing start with
  | nil => exact h
  | cons name names ih =>
      have hPrefix := isPrefix_of_walk hDown h
      rw [List.mem_cons, not_or] at hDown
      rw [walk] at h ⊢
      split at h
      · rename_i hDirectory
        have hNe : start ≠ place := by
          rintro rfl
          exact hPlace hDirectory
        rw [hRooted start hPrefix hNe]
        exact ih hDown.2 h
      · cases h
      · cases h

/-
  Before the first name that leads down, only directories are
  come by that are always there.
-/
theorem walk_of_not_leadsBack
    (hDirectory : fs'.directory = fs.directory)
    (hStart : fs.isBase start = true)
    (hNames : Path.leadsBack names = false)
    (hRooted : IsRooted fs place)
    (hPlace : fs'.get? place ≠ some .directory)
    (h : fs'.walk start names = .ok place) :
    fs.walk start names = .ok place := by
  induction names generalizing start with
  | nil => exact h
  | cons name names ih =>
      rw [Path.leadsBack] at hNames
      by_cases hName : Path.isName name = true
      · rw [if_pos hName] at hNames
        have hDown : Path.above ∉ name :: names := by
          rw [List.mem_cons, not_or]
          refine ⟨?_, by simpa using hNames⟩
          rintro rfl
          exact absurd hName (by decide)
        exact walk_of_down hDown hRooted hPlace h
      · rw [if_neg hName] at hNames
        have hNext : fs.isBase (step start name) = true := by
          unfold step
          split
          · exact hStart
          · rename_i hHere
            rw [not_or] at hHere
            have hAbove : name = Path.above := by
              simpa [Path.isName, hHere.1, hHere.2] using hName
            rw [if_pos hAbove]
            exact isBase_iff.mpr
              ((List.dropLast_prefix start).trans
                (isBase_iff.mp hStart))
        have hThere : fs'.get? start = some .directory := by
          apply get?_of_isBase
          rw [isBase_iff, hDirectory]
          exact isBase_iff.mp hStart
        rw [walk, hThere] at h
        rw [walk, get?_of_isBase hStart]
        exact ih hNext hNames h

/-
  A path that does not climb leads to a rooted place at which
  there is no directory already without what is new.
-/
theorem resolve_of_grown
    (hDirectory : fs'.directory = fs.directory)
    (hClimbs : p.climbs = false)
    (hRooted : IsRooted fs place)
    (hPlace : fs'.get? place ≠ some .directory)
    (h : fs'.resolve p = .ok place) :
    fs.resolve p = .ok place := by
  unfold resolve at h ⊢
  split at h
  · cases h
  rename_i hNonempty
  rw [if_neg hNonempty]
  split at h
  · rename_i hAbsolute
    rw [if_pos hAbsolute]
    exact walk_of_not_leadsBack hDirectory fs.isBase_root
      hClimbs hRooted hPlace h
  · rename_i hRelative
    rw [hDirectory] at h
    rw [if_neg hRelative]
    exact walk_of_not_leadsBack hDirectory fs.isBase_directory
      hClimbs hRooted hPlace h

------------------------------------------------------------
-- Files That Are Kept
------------------------------------------------------------

variable {writes : Path → List UInt8 → Prop}

/-
  A file is kept, or it has been written under a path that
  named it before or climbs to it.
-/
theorem Grows.kept_or_written
    (h : fs.Grows writes fs')
    (hRead : fs.read q = .ok bytes) :
    fs'.read q = .ok bytes ∨
      ∃ p new,
        writes p new ∧
          fs'.resolve p = fs'.resolve q ∧
          fs'.read q = .ok new ∧
          (fs.contains p = true ∨ p.climbs = true) := by
  rcases read_eq_ok_iff.mp hRead with ⟨place, hPlace, hFile⟩
  have hLater := h.resolve_eq_ok hPlace
  cases h.grewAt place with
  | kept hSame =>
      exact Or.inl (read_eq_ok_iff.mpr
        ⟨place, hLater, hSame.trans hFile⟩)
  | directory hBefore _ =>
      rw [hBefore] at hFile
      cases hFile
  | @file p new _ hWrites hWritten hAfter =>
      refine Or.inr ⟨p, new, hWrites, hWritten.trans hLater.symm,
        read_eq_ok_iff.mpr ⟨place, hLater, hAfter⟩, ?_⟩
      cases hClimbs : p.climbs with
      | true => exact Or.inr rfl
      | false =>
          have hNone : fs'.get? place ≠ some .directory := by
            rw [hAfter]
            exact nofun
          have hBefore := resolve_of_grown h.directory_eq hClimbs
            (resolve_isRooted hPlace) hNone hWritten
          exact Or.inl (contains_eq_true_iff.mpr
            ⟨place, .file bytes, hBefore, hFile⟩)

/-
  A system in which files are new that were missing, of those
  that may be written with their paths and bytes.
-/
def FillsIn
    (writes : Path → List UInt8 → Prop)
    (fs fs' : FileSystem) : Prop :=
  fs.Grows
    (fun p bytes => writes p bytes ∧ fs.contains p = false) fs'

/-
  A path under which other bytes have been written because it
  was missing, and which has come to name this file by then:
  it climbs to it through a directory that is new.
-/
def Exposes
    (writes : Path → List UInt8 → Prop)
    (fs fs' : FileSystem)
    (q : Path)
    (bytes : List UInt8) : Prop :=
  ∃ p,
    writes p bytes ∧
      p.climbs = true ∧
      fs.contains p = false ∧
      fs'.resolve p = fs'.resolve q

namespace Exposes

theorem mono
    {writes' : Path → List UInt8 → Prop}
    (hMore :
      ∀ p bytes, writes p bytes → p.climbs = true →
        writes' p bytes)
    (h : fs.Exposes writes fs' q bytes) :
    fs.Exposes writes' fs' q bytes := by
  rcases h with ⟨p, hWrites, hClimbs, hRest⟩
  exact ⟨p, hMore p bytes hWrites hClimbs, hClimbs, hRest⟩

/- What is exposed stays so while the system grows. -/
theorem of_grows
    {fs'' : FileSystem}
    {writes' : Path → List UInt8 → Prop}
    (h : fs.Exposes writes fs' q bytes)
    (hRead : fs'.read q = .ok bytes)
    (hGrows : fs'.Grows writes' fs'') :
    fs.Exposes writes fs'' q bytes := by
  rcases h with ⟨p, hWrites, hClimbs, hMissing, hSame⟩
  rcases read_eq_ok_iff.mp hRead with ⟨place, hPlace, -⟩
  have hOther := hGrows.resolve_eq_ok (hSame.trans hPlace)
  have hLater := hGrows.resolve_eq_ok hPlace
  exact ⟨p, hWrites, hClimbs, hMissing,
    hOther.trans hLater.symm⟩

end Exposes

namespace FillsIn

theorem refl (fs : FileSystem) : fs.FillsIn writes fs :=
  Grows.refl

theorem trans
    {fs'' : FileSystem}
    (h : fs.FillsIn writes fs')
    (h' : fs'.FillsIn writes fs'') :
    fs.FillsIn writes fs'' := by
  apply Grows.trans h
  apply Grows.mono _ h'
  rintro p bytes ⟨hWrites, hMissing⟩
  refine ⟨hWrites, ?_⟩
  cases hBefore : fs.contains p with
  | false => rfl
  | true =>
      rw [Grows.contains h hBefore] at hMissing
      cases hMissing

theorem mono
    {writes' : Path → List UInt8 → Prop}
    (hMore : ∀ p bytes, writes p bytes → writes' p bytes)
    (h : fs.FillsIn writes fs') :
    fs.FillsIn writes' fs' :=
  Grows.mono (fun p bytes hp => ⟨hMore p bytes hp.1, hp.2⟩) h

/- A file is kept, or a missing path has come to name it. -/
theorem kept_or_exposed
    (h : fs.FillsIn writes fs')
    (hRead : fs.read q = .ok bytes) :
    ∃ kept,
      fs'.read q = .ok kept ∧
        (kept = bytes ∨ fs.Exposes writes fs' q kept) := by
  rcases Grows.kept_or_written h hRead with
    hKept | ⟨p, new, ⟨hWrites, hMissing⟩, hSame, hNew, hWhy⟩
  · exact ⟨bytes, hKept, Or.inl rfl⟩
  · refine ⟨new, hNew, Or.inr
      ⟨p, hWrites, ?_, hMissing, hSame⟩⟩
    rcases hWhy with hThere | hClimbs
    · rw [hMissing] at hThere
      cases hThere
    · exact hClimbs

end FillsIn

end FileSystem

end CodecChain
