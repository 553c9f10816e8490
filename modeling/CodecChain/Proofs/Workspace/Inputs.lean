import CodecChain.Workspace.Basic
import CodecChain.Proofs.Host.Attempt

/-
  The files of a workspace and how they come to be there. Set
  up writes the guide and the marker and nothing else, and the
  inputs that are missing when their turn comes are created
  empty.

  Key definitions include:
    * `Workspace.SetUpWrites`
    * `Workspace.Ensures`

  Main statements:
    * `Workspace.grows_of_provision`
    * `Workspace.ensureFiles_eq_ok_iff`
    * `Workspace.Ensures.nodup`
    * `Workspace.Ensures.read_of_mem`
-/

namespace CodecChain

namespace Workspace

variable {writes : Path → List UInt8 → Prop}
variable {machine machine' : Machine} {p : Path} {t : Text}

------------------------------------------------------------
-- Single Files
------------------------------------------------------------

theorem onlyWrites_makeParent (p : Path) :
    Attempt.OnlyWrites writes (makeParent p) := by
  unfold makeParent
  split
  · exact .pure ()
  · exact .attempt (Simulated.onlyWrites_createDirectories _)

theorem onlyWrites_writeFile
    (hWrites : writes p (Utf8.encode t)) :
    Attempt.OnlyWrites writes (writeFile p t) :=
  (onlyWrites_makeParent p).bind fun _ =>
    .attempt (Simulated.onlyWrites_write hWrites)

/- A written file, and directories for it, are all that is new. -/
theorem grows_of_writeFile
    (h : Attempt.on (writeFile p t) machine = (.ok (), machine')) :
    machine.Grows
      (fun other bytes => other = p ∧ bytes = Utf8.encode t)
      machine' := by
  have hGrows :
      machine.Grows
        (fun other bytes => other = p ∧ bytes = Utf8.encode t)
        (Attempt.on (writeFile p t) machine).2 :=
    onlyWrites_writeFile ⟨rfl, rfl⟩ machine
  rwa [h] at hGrows

/- What has been written under a path is read there. -/
theorem read_of_writeFile
    (h : Attempt.on (writeFile p t) machine =
      (.ok (), machine')) :
    machine'.files.read p = .ok (Utf8.encode t) := by
  rcases Attempt.on_bind_eq_ok_iff.mp h with
    ⟨_, between, -, hWrite⟩
  rw [Attempt.on_attempt, Prod.mk.injEq,
    Except.mapError_eq_ok_iff] at hWrite
  exact FileSystem.read_of_write
    (Simulated.files_eq_of_changeFiles
      (Prod.ext hWrite.1 hWrite.2))

------------------------------------------------------------
-- Set Up
------------------------------------------------------------

/-
  What set up may write: the guide if there is none, and the
  marker.
-/
def SetUpWrites
    (config : Config)
    (machine : Machine)
    (p : Path)
    (bytes : List UInt8) : Prop :=
  (machine.files.contains config.guidePath = false ∧
    p = config.guidePath ∧
      bytes = Utf8.encode (guide config.separator)) ∨
  (p = config.markerPath ∧
    bytes = Utf8.encode (stamp machine.time))

/- A marked workspace is left alone. -/
theorem provision_of_marked
    {config : Config}
    (hMarked :
      machine.files.contains config.markerPath = true) :
    Attempt.on (provision config false) machine =
      (.ok .alreadyDone, machine) := by
  rw [provision,
    Attempt.on_bind_of_ok _ (Attempt.on_contains _ machine),
    hMarked]
  rfl

theorem grows_of_provideGuide
    {config : Config}
    (hWrites :
      machine.files.contains config.guidePath = false →
        writes config.guidePath
          (Utf8.encode (guide config.separator))) :
    machine.Grows writes
      (Attempt.on (provideGuide config false) machine).2 := by
  rw [provideGuide,
    Attempt.on_bind_of_ok _ (Attempt.on_contains _ machine)]
  cases hGuide : machine.files.contains config.guidePath with
  | true => exact .refl machine
  | false =>
      exact (onlyWrites_writeFile (hWrites hGuide)).bind
        (fun _ => .pure _) machine

theorem grows_of_provideMarker
    {config : Config}
    (hWrites :
      writes config.markerPath
        (Utf8.encode (stamp machine.time))) :
    machine.Grows writes
      (Attempt.on (provideMarker config) machine).2 := by
  rw [provideMarker,
    Attempt.on_bind_of_ok _ (Attempt.on_time machine)]
  exact (onlyWrites_writeFile hWrites).bind
    (fun _ => .pure _) machine

/- Set up writes what it may write. -/
theorem grows_of_provision
    (config : Config)
    (machine : Machine) :
    machine.Grows (SetUpWrites config machine)
      (Attempt.on (provision config false) machine).2 := by
  rw [provision,
    Attempt.on_bind_of_ok _ (Attempt.on_contains _ machine)]
  cases machine.files.contains config.markerPath with
  | true => exact .refl machine
  | false =>
      have hGuide : machine.Grows (SetUpWrites config machine)
          (Attempt.on (provideGuide config false) machine).2 :=
        grows_of_provideGuide
          fun hMissing => Or.inl ⟨hMissing, rfl, rfl⟩
      apply Attempt.grows_on_bind hGuide
      intro guides between h
      rw [h] at hGuide
      have hTime : between.time = machine.time :=
        hGuide.time_eq
      have hMarker :
          between.Grows (SetUpWrites config machine)
            (Attempt.on (provideMarker config) between).2 :=
        grows_of_provideMarker (Or.inr ⟨rfl, by rw [hTime]⟩)
      exact Attempt.grows_on_bind hMarker
        fun markers after _ => .refl after

------------------------------------------------------------
-- Inputs
------------------------------------------------------------

/-
  How wanted files come to be there, in order: what is there
  when its turn comes is left alone, and what is missing then
  is created empty.
-/
inductive Ensures :
    Machine → List Path → List Path → Machine → Prop where
  | nil
      {machine : Machine} :
      Ensures machine [] [] machine
  | present
      {machine after : Machine}
      {p : Path}
      {wanted created : List Path}
      (hPresent : machine.files.contains p = true)
      (hRest : Ensures machine wanted created after) :
      Ensures machine (p :: wanted) created after
  | made
      {machine between after : Machine}
      {p : Path}
      {wanted created : List Path}
      (hMissing : machine.files.contains p = false)
      (hWrite :
        Attempt.on (writeFile p []) machine = (.ok (), between))
      (hRest : Ensures between wanted created after) :
      Ensures machine (p :: wanted) (p :: created) after

theorem ensureFile_eq_ok_iff
    {created : List Path} :
    Attempt.on (ensureFile p) machine =
        (.ok created, machine') ↔
      (machine.files.contains p = true ∧ created = [] ∧
        machine' = machine) ∨
      (machine.files.contains p = false ∧ created = [p] ∧
        Attempt.on (writeFile p []) machine =
          (.ok (), machine')) := by
  rw [ensureFile,
    Attempt.on_bind_of_ok _ (Attempt.on_contains _ machine)]
  cases machine.files.contains p with
  | true =>
      rw [if_pos rfl, Attempt.on_pure]
      constructor
      · intro h
        cases h
        exact Or.inl ⟨rfl, rfl, rfl⟩
      · rintro (⟨-, rfl, rfl⟩ | ⟨⟨⟩, -⟩)
        rfl
  | false =>
      rw [if_neg Bool.false_ne_true, Attempt.on_bind_eq_ok_iff]
      constructor
      · rintro ⟨⟨⟩, between, hWrite, hPure⟩
        cases hPure
        exact Or.inr ⟨rfl, rfl, hWrite⟩
      · rintro (⟨⟨⟩, -⟩ | ⟨-, rfl, hWrite⟩)
        exact ⟨(), machine', hWrite, rfl⟩

/- Files are ensured one after the other. -/
theorem ensureFiles_eq_ok_iff
    {wanted created : List Path} :
    Attempt.on (ensureFiles wanted) machine =
        (.ok created, machine') ↔
      Ensures machine wanted created machine' := by
  constructor
  · intro h
    induction wanted generalizing machine created with
    | nil =>
        cases h
        exact .nil
    | cons p wanted ih =>
        rcases Attempt.on_bind_eq_ok_iff.mp h with
          ⟨first, between, hFirst, h⟩
        rcases Attempt.on_bind_eq_ok_iff.mp h with
          ⟨others, after, hOthers, hPure⟩
        cases hPure
        rcases ensureFile_eq_ok_iff.mp hFirst with
          ⟨hPresent, rfl, rfl⟩ | ⟨hMissing, rfl, hWrite⟩
        · exact .present hPresent (ih hOthers)
        · exact .made hMissing hWrite (ih hOthers)
  · intro h
    induction h with
    | nil => rfl
    | @present machine after p wanted created hPresent _ ih =>
        have hFirst := ensureFile_eq_ok_iff.mpr
          (Or.inl ⟨hPresent, rfl, rfl⟩)
        rw [ensureFiles, Attempt.on_bind_of_ok _ hFirst,
          Attempt.on_bind_of_ok _ ih]
        rfl
    | @made machine between after p wanted created hMissing
        hWrite _ ih =>
        have hFirst := ensureFile_eq_ok_iff.mpr
          (Or.inr ⟨hMissing, rfl, hWrite⟩)
        rw [ensureFiles, Attempt.on_bind_of_ok _ hFirst,
          Attempt.on_bind_of_ok _ ih]
        rfl

namespace Ensures

variable {wanted created : List Path} {after : Machine}

/- Nothing is written but empty files. -/
theorem grows
    (h : Ensures machine wanted created after) :
    machine.Grows (fun p bytes => p ∈ created ∧ bytes = [])
      after := by
  induction h with
  | nil => exact .refl _
  | present _ _ ih => exact ih
  | @made machine between after p wanted created _ hWrite _ ih =>
      have hFirst := grows_of_writeFile hWrite
      refine (hFirst.mono ?_).trans (ih.mono ?_)
      · rintro q bytes ⟨rfl, hBytes⟩
        exact ⟨List.mem_cons_self, hBytes⟩
      · rintro q bytes ⟨hMem, hBytes⟩
        exact ⟨List.mem_cons_of_mem p hMem, hBytes⟩

theorem sublist
    (h : Ensures machine wanted created after) :
    created.Sublist wanted := by
  induction h with
  | nil => exact .slnil
  | present _ _ ih => exact ih.cons _
  | made _ _ _ ih => exact ih.cons_cons _

/- What is there is never created. -/
theorem not_mem_of_contains
    (h : Ensures machine wanted created after)
    (hPresent : machine.files.contains p = true) :
    p ∉ created := by
  induction h with
  | nil => exact List.not_mem_nil
  | present _ _ ih => exact ih hPresent
  | made hMissing hWrite _ ih =>
      intro hMem
      rcases List.mem_cons.mp hMem with rfl | hLater
      · rw [hPresent] at hMissing
        cases hMissing
      · have hKept :=
          (grows_of_writeFile hWrite).1.contains hPresent
        exact ih hKept hLater

/- Every file is created once at most. -/
theorem nodup
    (h : Ensures machine wanted created after) :
    created.Nodup := by
  induction h with
  | nil => exact List.nodup_nil
  | present _ _ ih => exact ih
  | made _ hWrite hRest ih =>
      have hThere := FileSystem.contains_of_read
        (read_of_writeFile hWrite)
      exact List.nodup_cons.mpr
        ⟨hRest.not_mem_of_contains hThere, ih⟩

/- What has been created is empty in the end. -/
theorem read_of_mem
    (h : Ensures machine wanted created after)
    (hMem : p ∈ created) :
    after.files.read p = .ok [] := by
  induction h with
  | nil => cases hMem
  | present _ _ ih => exact ih hMem
  | made _ hWrite hRest ih =>
      rcases List.mem_cons.mp hMem with rfl | hLater
      · exact hRest.grows.1.read_eq_ok (fun _ _ h => h.2)
          (read_of_writeFile hWrite)
      · exact ih hLater

/- All that is wanted is there in the end. -/
theorem contains_of_mem
    (h : Ensures machine wanted created after)
    (hMem : p ∈ wanted) :
    after.files.contains p = true := by
  induction h with
  | nil => cases hMem
  | present hPresent hRest ih =>
      rcases List.mem_cons.mp hMem with rfl | hLater
      · exact hRest.grows.1.contains hPresent
      · exact ih hLater
  | made _ hWrite hRest ih =>
      rcases List.mem_cons.mp hMem with rfl | hLater
      · exact hRest.grows.1.contains
          (FileSystem.contains_of_read
            (read_of_writeFile hWrite))
      · exact ih hLater

/- Nothing is created exactly if all is there, and stays so. -/
theorem created_eq_nil_iff
    (h : Ensures machine wanted created after) :
    created = [] ↔
      ∀ p ∈ wanted, machine.files.contains p = true := by
  induction h with
  | nil => simp
  | present hPresent _ ih =>
      rw [ih, List.forall_mem_cons]
      exact ⟨fun hAll => ⟨hPresent, hAll⟩, And.right⟩
  | made hMissing _ _ _ =>
      constructor
      · intro hNil
        cases hNil
      · intro hAll
        rw [hAll _ List.mem_cons_self] at hMissing
        cases hMissing

theorem after_eq_of_nil
    (h : Ensures machine wanted [] after) :
    after = machine := by
  generalize hNil : ([] : List Path) = created at h
  induction h with
  | nil => rfl
  | present _ _ ih => exact ih hNil
  | made => cases hNil

/-
  What is wanted and not created is there when its turn comes:
  it was there before, or those that are created before it
  have brought it into being.
-/
theorem mem_or_contains
    {front back : List Path}
    (h : Ensures machine (front ++ p :: back) created after) :
    p ∈ created ∨
      ∃ made between,
        Ensures machine front made between ∧
          between.files.contains p = true := by
  induction front generalizing machine created with
  | nil =>
      cases h with
      | present hPresent _ =>
          exact Or.inr ⟨[], machine, .nil, hPresent⟩
      | made _ _ _ => exact Or.inl List.mem_cons_self
  | cons q front ih =>
      cases h with
      | present hPresent hRest =>
          rcases ih hRest with hMem | ⟨made, between, hMade, hp⟩
          · exact Or.inl hMem
          · exact Or.inr ⟨made, between,
              .present hPresent hMade, hp⟩
      | made hMissing hWrite hRest =>
          rcases ih hRest with hMem | ⟨made, between, hMade, hp⟩
          · exact Or.inl (List.mem_cons_of_mem q hMem)
          · exact Or.inr ⟨q :: made, between,
              .made hMissing hWrite hMade, hp⟩

end Ensures

end Workspace

end CodecChain
