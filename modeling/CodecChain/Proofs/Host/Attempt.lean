import CodecChain.Failure
import CodecChain.Host.Machine
import CodecChain.Proofs.Files.Growth
import CodecChain.Proofs.Text.Utf8

/-
  Attempts on a machine. An action gives a result and leaves a
  machine behind; what it may have done to the files is put
  together from what its parts may have done to them.

  Key definitions include:
    * `Simulated.on`
    * `Attempt`
    * `Attempt.on`
    * `Machine.Grows`
    * `Attempt.OnlyWrites`

  Main statements:
    * `Attempt.on_bind_eq_ok_iff`
    * `Attempt.OnlyWrites.bind`
    * `Simulated.onlyWrites_createDirectories`
-/

------------------------------------------------------------
-- Results
------------------------------------------------------------

namespace CodecChain

variable {α β : Type} {machine machine' : Machine}

/- What an action gives on a machine, and the machine after. -/
def Simulated.on
    (action : Simulated α)
    (machine : Machine) : α × Machine :=
  action machine

theorem Simulated.on_bind
    (action : Simulated α)
    (next : α → Simulated β) :
    (action >>= next).on machine =
      (next (action.on machine).1).on (action.on machine).2 :=
  rfl

/- A file that holds the bytes of a text is read as the text. -/
theorem Simulated.on_readText
    {p : Path}
    {t : Text}
    (h : machine.files.read p = .ok (Utf8.encode t)) :
    (Host.readText p : Simulated _).on machine =
      (.ok t, machine) := by
  have hRead :
      (Host.read p : Simulated _).on machine =
        (.ok (Utf8.encode t), machine) := by
    rw [← h]
    rfl
  rw [Host.readText, Simulated.on_bind, hRead]
  dsimp only
  rw [Utf8.decode_encode]
  rfl

/- An attempt is an action on a machine that may fail. -/
abbrev Attempt (α : Type) :=
  ExceptT Failure Simulated α

namespace Attempt

/- What an attempt gives on a machine, and the machine after. -/
def on
    (attempt : Attempt α)
    (machine : Machine) : Except Failure α × Machine :=
  Simulated.on attempt.run machine

theorem on_pure (a : α) :
    on (pure a) machine = (.ok a, machine) :=
  rfl

theorem on_contains
    (p : Path)
    (machine : Machine) :
    on (liftM (Host.contains p : Simulated Bool)) machine =
      (.ok (machine.files.contains p), machine) :=
  rfl

theorem on_time (machine : Machine) :
    on (liftM (Host.time : Simulated Text)) machine =
      (.ok machine.time, machine) :=
  rfl

theorem on_attempt
    {ε : Type}
    (failure : ε → Failure)
    (action : Simulated (Except ε α)) :
    on (Failure.attempt failure action) machine =
      ((action.on machine).1.mapError failure,
        (action.on machine).2) :=
  rfl

theorem on_bind_of_ok
    {attempt : Attempt α}
    {a : α}
    (next : α → Attempt β)
    (h : attempt.on machine = (.ok a, machine')) :
    on (attempt >>= next) machine =
      (next a).on machine' := by
  have hRun : attempt machine = (.ok a, machine') := h
  simp only [on, Simulated.on, bind, ExceptT.bind, ExceptT.mk,
    ExceptT.run, StateT.bind, hRun]
  rfl

theorem on_bind_of_error
    {attempt : Attempt α}
    {failure : Failure}
    (next : α → Attempt β)
    (h : attempt.on machine = (.error failure, machine')) :
    on (attempt >>= next) machine =
      (.error failure, machine') := by
  have hRun : attempt machine = (.error failure, machine') := h
  simp only [on, Simulated.on, bind, ExceptT.bind, ExceptT.mk,
    ExceptT.run, StateT.bind, hRun]
  rfl

/- Attempts in sequence succeed if both of them do. -/
theorem on_bind_eq_ok_iff
    {attempt : Attempt α}
    {next : α → Attempt β}
    {b : β} :
    on (attempt >>= next) machine = (.ok b, machine') ↔
      ∃ a between,
        attempt.on machine = (.ok a, between) ∧
          (next a).on between = (.ok b, machine') := by
  rcases h : attempt.on machine with ⟨failure | a, between⟩
  · rw [on_bind_of_error next h]
    constructor
    · intro hBoth
      cases hBoth
    · rintro ⟨a, _, hFirst, -⟩
      cases hFirst
  · rw [on_bind_of_ok next h]
    constructor
    · intro hBoth
      exact ⟨a, between, rfl, hBoth⟩
    · rintro ⟨_, _, hFirst, hSecond⟩
      cases hFirst
      exact hSecond

end Attempt

end CodecChain

------------------------------------------------------------
-- Changes of Files
------------------------------------------------------------

namespace CodecChain

variable {α β : Type}
variable {writes writes' : Path → List UInt8 → Prop}

/-
  A machine after one whose files have grown, and which is
  otherwise the same.
-/
def Machine.Grows
    (writes : Path → List UInt8 → Prop)
    (machine machine' : Machine) : Prop :=
  machine.files.Grows writes machine'.files ∧
    machine' = { machine with files := machine'.files }

namespace Machine.Grows

variable {machine machine' : Machine}

theorem refl (machine : Machine) :
    machine.Grows writes machine :=
  ⟨.refl, rfl⟩

theorem trans
    {machine'' : Machine}
    (h : machine.Grows writes machine')
    (h' : machine'.Grows writes machine'') :
    machine.Grows writes machine'' := by
  refine ⟨h.1.trans h'.1, ?_⟩
  rw [h'.2, h.2]

theorem mono
    (hMore : ∀ p bytes, writes p bytes → writes' p bytes)
    (h : machine.Grows writes machine') :
    machine.Grows writes' machine' :=
  ⟨h.1.mono hMore, h.2⟩

/- The clock is none of the files. -/
theorem time_eq
    (h : machine.Grows writes machine') :
    machine'.time = machine.time := by
  rw [h.2]

end Machine.Grows

namespace Simulated

/- An action that may only write given files, and directories. -/
def OnlyWrites
    (writes : Path → List UInt8 → Prop)
    (action : Simulated α) : Prop :=
  ∀ machine : Machine, machine.Grows writes (action.on machine).2

theorem OnlyWrites.pure (a : α) :
    OnlyWrites writes (Pure.pure a : Simulated α) :=
  fun machine => .refl machine

theorem OnlyWrites.bind
    {action : Simulated α}
    {next : α → Simulated β}
    (hFirst : OnlyWrites writes action)
    (hNext : ∀ a, OnlyWrites writes (next a)) :
    OnlyWrites writes (action >>= next) :=
  fun machine =>
    (hFirst machine).trans (hNext _ (action.on machine).2)

/- Files are changed as far as the change itself changes them. -/
theorem onlyWrites_changeFiles
    {change : FileSystem → Except IoFault FileSystem}
    (hChange :
      ∀ fs fs', change fs = .ok fs' → fs.Grows writes fs') :
    OnlyWrites writes (Machine.changeFiles change) := by
  intro machine
  unfold on Machine.changeFiles
  cases h : change machine.files with
  | error fault => exact .refl machine
  | ok files => exact ⟨hChange _ _ h, rfl⟩

/- A change that succeeds changes the files alone. -/
theorem on_changeFiles_eq_ok_iff
    (change : FileSystem → Except IoFault FileSystem)
    {machine machine' : Machine} :
    (Machine.changeFiles change).on machine = (.ok (), machine') ↔
      change machine.files = .ok machine'.files ∧
        machine' = { machine with files := machine'.files } := by
  unfold on Machine.changeFiles
  cases change machine.files with
  | error fault => simp
  | ok files =>
      simp only [Prod.mk.injEq, Except.ok.injEq, true_and]
      constructor
      · rintro rfl
        exact ⟨rfl, rfl⟩
      · rintro ⟨rfl, hSame⟩
        exact hSame.symm

theorem files_eq_of_changeFiles
    {change : FileSystem → Except IoFault FileSystem}
    {machine machine' : Machine}
    (h : (Machine.changeFiles change).on machine =
      (.ok (), machine')) :
    change machine.files = .ok machine'.files :=
  ((on_changeFiles_eq_ok_iff change).mp h).1

theorem on_changeFiles_of_error
    {change : FileSystem → Except IoFault FileSystem}
    {machine : Machine}
    {fault : IoFault}
    (h : change machine.files = .error fault) :
    (Machine.changeFiles change).on machine =
      (.error fault, machine) := by
  unfold on Machine.changeFiles
  rw [h]

/- A change that fails changes nothing. -/
theorem eq_of_changeFiles_error
    {change : FileSystem → Except IoFault FileSystem}
    {fault : IoFault}
    {machine machine' : Machine}
    (h : (Machine.changeFiles change).on machine =
      (.error fault, machine')) :
    machine' = machine := by
  unfold on Machine.changeFiles at h
  cases hFiles : change machine.files with
  | error fault' =>
      rw [hFiles] at h
      cases h
      rfl
  | ok files =>
      rw [hFiles] at h
      cases h

theorem onlyWrites_createDirectory (p : Path) :
    OnlyWrites writes
      (Host.createDirectory p : Simulated _) :=
  onlyWrites_changeFiles fun _ _ h =>
    FileSystem.grows_of_createDirectory h

theorem onlyWrites_write
    {p : Path}
    {bytes : List UInt8}
    (hWrites : writes p bytes) :
    OnlyWrites writes (Host.write p bytes : Simulated _) :=
  onlyWrites_changeFiles fun _ _ h =>
    FileSystem.grows_of_write hWrites h

theorem onlyWrites_forgive
    (p : Path)
    (fault : IoFault) :
    OnlyWrites writes (Host.forgive p fault : Simulated _) := by
  apply OnlyWrites.bind
  · exact fun machine => .refl machine
  · intro isDirectory
    cases isDirectory
    · exact .pure _
    · exact .pure _

theorem onlyWrites_ensureDirectory (p : Path) :
    OnlyWrites writes
      (Host.ensureDirectory p : Simulated _) := by
  apply (onlyWrites_createDirectory p).bind
  rintro (fault | ⟨⟩)
  · exact onlyWrites_forgive p fault
  · exact .pure _

/- Directories are created, and nothing else is done. -/
theorem onlyWrites_createDirectories (p : Path) :
    OnlyWrites writes
      (Host.createDirectories p : Simulated _) := by
  rw [Host.createDirectories]
  split
  · exact .pure _
  apply (onlyWrites_createDirectory p).bind
  intro result
  split
  · exact .pure _
  · split
    · exact .pure _
    · rename_i parent hParent
      apply (onlyWrites_createDirectories parent).bind
      rintro (fault | ⟨⟩)
      · exact .pure _
      · exact onlyWrites_ensureDirectory p
  · exact onlyWrites_forgive p _
termination_by p.length
decreasing_by exact Path.parent?_length_lt ‹_›

end Simulated

namespace Attempt

/- An attempt that may only write given files, and directories. -/
def OnlyWrites
    (writes : Path → List UInt8 → Prop)
    (attempt : Attempt α) : Prop :=
  ∀ machine : Machine, machine.Grows writes (attempt.on machine).2

theorem OnlyWrites.pure (a : α) :
    OnlyWrites writes (Pure.pure a : Attempt α) :=
  fun machine => .refl machine

theorem OnlyWrites.attempt
    {ε : Type}
    {failure : ε → Failure}
    {action : Simulated (Except ε α)}
    (h : action.OnlyWrites writes) :
    OnlyWrites writes (Failure.attempt failure action) :=
  h

/- The second of two attempts goes on where the first ended. -/
theorem rel_on_bind
    {R : Machine → Machine → Prop}
    {attempt : Attempt α}
    {next : α → Attempt β}
    {machine : Machine}
    (hTrans : ∀ {a b c}, R a b → R b c → R a c)
    (hFirst : R machine (attempt.on machine).2)
    (hNext :
      ∀ a between,
        attempt.on machine = (.ok a, between) →
          R between ((next a).on between).2) :
    R machine (on (attempt >>= next) machine).2 := by
  rcases h : attempt.on machine with ⟨failure | a, between⟩
  · rw [on_bind_of_error next h]
    rwa [h] at hFirst
  · rw [on_bind_of_ok next h]
    rw [h] at hFirst
    exact hTrans hFirst (hNext a between h)

theorem grows_on_bind
    {attempt : Attempt α}
    {next : α → Attempt β}
    {machine : Machine}
    (hFirst : machine.Grows writes (attempt.on machine).2)
    (hNext :
      ∀ a between,
        attempt.on machine = (.ok a, between) →
          between.Grows writes ((next a).on between).2) :
    machine.Grows writes (on (attempt >>= next) machine).2 :=
  rel_on_bind Machine.Grows.trans hFirst hNext

theorem OnlyWrites.bind
    {attempt : Attempt α}
    {next : α → Attempt β}
    (hFirst : OnlyWrites writes attempt)
    (hNext : ∀ a, OnlyWrites writes (next a)) :
    OnlyWrites writes (attempt >>= next) :=
  fun machine => grows_on_bind (hFirst machine)
    fun a between _ => hNext a between

end Attempt

end CodecChain
