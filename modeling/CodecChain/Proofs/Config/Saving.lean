import CodecChain.Proofs.Config.RoundTrip
import CodecChain.Proofs.Host.Attempt
import CodecChain.Proofs.Text.Utf8

/-
  Saved configurations. What has been saved under a path is
  read there, and to save it again changes nothing: the
  directories that the file is in are there already, and the
  file holds what is written.

  Main statements:
    * `FileSystem.withoutSlashes_of_parent?`
    * `Simulated.isDirectory_of_createDirectories`
    * `Simulated.createDirectories_of_isDirectory`
    * `Config.makeParent_again`
    * `Config.ofFile_of_save`
-/

------------------------------------------------------------
-- Parents
------------------------------------------------------------

namespace CodecChain

variable {machine machine' : Machine} {p : Path}

/- The path of a parent has no slashes to be left out. -/
theorem FileSystem.withoutSlashes_of_parent?
    {parent : Path}
    (h : Path.parent? p = some parent) :
    withoutSlashes parent = parent := by
  unfold Path.parent? at h
  dsimp only at h
  split at h
  · cases h
  · cases h
    generalize (List.dropWhile _ _).reverse = t
    rw [withoutSlashes, Path.strip, List.reverse_reverse]
    cases hStrip : Path.stripBack t.reverse with
    | nil => rfl
    | cons c rest =>
        by_cases hSlash : c = Path.slash
        · subst hSlash
          rw [Path.stripBack_head hStrip]
          rfl
        · rw [List.dropWhile_cons_of_neg (by simp [hSlash])]

------------------------------------------------------------
-- Directories
------------------------------------------------------------

namespace Simulated

open FileSystem

theorem on_isDirectory
    (p : Path)
    (machine : Machine) :
    (Host.isDirectory p : Simulated Bool).on machine =
      (machine.files.isDirectory p, machine) :=
  rfl

/- A fault is forgiven where a directory is. -/
theorem on_forgive
    (p : Path)
    (fault : IoFault)
    (machine : Machine) :
    (Host.forgive p fault : Simulated _).on machine =
      (if machine.files.isDirectory p then .ok ()
        else .error fault, machine) := by
  rw [Host.forgive, on_bind, on_isDirectory]
  cases machine.files.isDirectory p <;> rfl

theorem isDirectory_of_forgive
    {fault : IoFault}
    (h : (Host.forgive p fault : Simulated _).on machine =
      (.ok (), machine')) :
    machine'.files.isDirectory p = true := by
  rw [on_forgive, Prod.mk.injEq] at h
  rcases h with ⟨hForgiven, rfl⟩
  by_contra hNone
  rw [if_neg hNone] at hForgiven
  cases hForgiven

theorem isDirectory_of_createDirectory
    (hSlashes : withoutSlashes p = p)
    (h : (Host.createDirectory p : Simulated _).on machine =
      (.ok (), machine')) :
    machine'.files.isDirectory p = true :=
  FileSystem.isDirectory_of_createDirectory hSlashes
    (files_eq_of_changeFiles h)

theorem isDirectory_of_ensureDirectory
    (hSlashes : withoutSlashes p = p)
    (h : (Host.ensureDirectory p : Simulated _).on machine =
      (.ok (), machine')) :
    machine'.files.isDirectory p = true := by
  rw [Host.ensureDirectory, on_bind] at h
  rcases hFirst :
      (Host.createDirectory p : Simulated _).on machine with
    ⟨fault | ⟨⟩, between⟩
  · rw [hFirst] at h
    exact isDirectory_of_forgive h
  · rw [hFirst] at h
    cases h
    exact isDirectory_of_createDirectory hSlashes hFirst

/- Where directories have been created, one is. -/
theorem isDirectory_of_createDirectories
    (hSome : p ≠ [])
    (hSlashes : withoutSlashes p = p)
    (h : (Host.createDirectories p : Simulated _).on machine =
      (.ok (), machine')) :
    machine'.files.isDirectory p = true := by
  rw [Host.createDirectories, if_neg hSome, on_bind] at h
  rcases hFirst :
      (Host.createDirectory p : Simulated _).on machine with
    ⟨fault | ⟨⟩, between⟩
  · rw [hFirst] at h
    dsimp only at h
    split at h
    · rename_i hOk
      cases hOk
    · split at h
      · cases h
      · rename_i parent hParent
        rw [on_bind] at h
        rcases hMade :
            (Host.createDirectories parent : Simulated _).on
              between with
          ⟨fault | ⟨⟩, later⟩
        · rw [hMade] at h
          cases h
        · rw [hMade] at h
          exact isDirectory_of_ensureDirectory hSlashes h
    · exact isDirectory_of_forgive h
  · rw [hFirst] at h
    cases h
    exact isDirectory_of_createDirectory hSlashes hFirst

/- Where a directory is, there is nothing to create. -/
theorem createDirectories_of_isDirectory
    (hSlashes : withoutSlashes p = p)
    (h : machine.files.isDirectory p = true) :
    (Host.createDirectories p : Simulated _).on machine =
      (.ok (), machine) := by
  by_cases hSome : p = []
  · rw [Host.createDirectories, if_pos hSome]
    rfl
  -- The first attempt fails as the directory is there already.
  · have hFirst :
        (Host.createDirectory p : Simulated _).on machine =
          (.error .alreadyExists, machine) :=
      on_changeFiles_of_error
        (createDirectory_of_isDirectory hSlashes h)
    rw [Host.createDirectories, if_neg hSome, on_bind, hFirst]
    dsimp only
    rw [on_forgive, if_pos h]

end Simulated

------------------------------------------------------------
-- Saving
------------------------------------------------------------

namespace Config

variable {config : Config}

/-
  The directory of a file is made once: when files have been
  written since, there is nothing left to make.
-/
theorem makeParent_again
    {between : Machine}
    {writes : Path → List UInt8 → Prop}
    (h : (makeParent p : Simulated _).on machine =
      (.ok (), between))
    (hGrows : between.files.Grows writes machine'.files) :
    (makeParent p : Simulated _).on machine' =
      (.ok (), machine') := by
  unfold makeParent at h ⊢
  cases hParent : Path.parent? p with
  | none => rfl
  | some parent =>
      rw [hParent] at h
      dsimp only at h ⊢
      rw [Simulated.on_bind] at h ⊢
      by_cases hSome : parent = []
      -- The empty path names no directory, but none is made.
      · subst hSome
        rw [Host.createDirectories]
        rfl
      · have hSlashes := FileSystem.withoutSlashes_of_parent? hParent
        rcases hMade :
            (Host.createDirectories parent : Simulated _).on
              machine with
          ⟨fault | ⟨⟩, made⟩
        · rw [hMade] at h
          cases h
        · rw [hMade] at h
          cases h
          have hThere := Simulated.isDirectory_of_createDirectories
            hSome hSlashes hMade
          rw [Simulated.createDirectories_of_isDirectory hSlashes
            (hGrows.isDirectory hThere)]
          rfl

theorem on_writeText_eq_ok_iff
    {t : Text} :
    (Host.writeText p t : Simulated _).on machine =
        (.ok (), machine') ↔
      machine.files.write p (Utf8.encode t) = .ok machine'.files ∧
        machine' = { machine with files := machine'.files } :=
  Simulated.on_changeFiles_eq_ok_iff (·.write p (Utf8.encode t))

/- A file is written in the directory that has been made. -/
theorem on_save_of_made
    {between : Machine}
    (h : (makeParent p : Simulated _).on machine =
      (.ok (), between)) :
    (config.save p : Simulated _).on machine =
      ((((Host.writeText p ((Form.ofPath p).print config) :
          Simulated _).on between).1).mapError (.io p),
        ((Host.writeText p ((Form.ofPath p).print config) :
          Simulated _).on between).2) := by
  rw [save, Simulated.on_bind, h]
  rfl

theorem on_save_eq_ok_iff :
    (config.save p : Simulated _).on machine =
        (.ok (), machine') ↔
      ∃ between,
        (makeParent p : Simulated _).on machine =
            (.ok (), between) ∧
          (Host.writeText p ((Form.ofPath p).print config) :
            Simulated _).on between = (.ok (), machine') := by
  constructor
  · intro h
    rcases hMade : (makeParent p : Simulated _).on machine with
      ⟨fault | ⟨⟩, between⟩
    · rw [save, Simulated.on_bind, hMade] at h
      cases h
    · rw [on_save_of_made hMade, Prod.mk.injEq,
        Except.mapError_eq_ok_iff] at h
      exact ⟨between, rfl, Prod.ext h.1 h.2⟩
  · rintro ⟨between, hMade, hWritten⟩
    rw [on_save_of_made hMade, hWritten]
    rfl

theorem on_ofFile
    {t : Text}
    (h : machine.files.read p = .ok (Utf8.encode t)) :
    (ofFile p : Simulated _).on machine =
      (read (.ofPath p) t, machine) := by
  rw [ofFile, Simulated.on_bind, Simulated.on_readText h]
  rfl

/-
  A valid configuration that has been saved is what is read
  from its file, which holds its printed form; and to save it
  there again changes nothing.
-/
theorem ofFile_of_save
    (hValid : config.check = .ok config)
    (hSaved : (config.save p : Simulated _).on machine =
      (.ok (), machine')) :
    (ofFile p : Simulated _).on machine' =
        (.ok config, machine') ∧
      machine'.files.read p =
        .ok (Utf8.encode ((Form.ofPath p).print config)) ∧
      (config.save p : Simulated _).on machine' =
        (.ok (), machine') := by
  rcases on_save_eq_ok_iff.mp hSaved with
    ⟨between, hMade, hWritten⟩
  have hFiles := (on_writeText_eq_ok_iff.mp hWritten).1
  have hRead := FileSystem.read_of_write hFiles
  have hGrows :
      between.files.Grows (fun _ _ => True) machine'.files :=
    FileSystem.grows_of_write trivial hFiles
  have hAgain :=
    on_writeText_eq_ok_iff.mpr
      ⟨FileSystem.write_again hFiles, Eq.refl machine'⟩
  refine ⟨?_, hRead, on_save_eq_ok_iff.mpr
    ⟨machine', makeParent_again hMade hGrows, hAgain⟩⟩
  rw [on_ofFile hRead, read_print _ hValid]

/-
  Paths that are words, blanks and lines, saved in a directory
  that was not there.
-/
theorem ofFile_of_save_of_awkward_paths :
    let config : Config :=
      { default with
        separator := '\''
        inputPath := .ofString "null"
        parametersPath := []
        outputPath := .ofString " a: #\n\"b\"\n\n"
        markerPath := .ofString "007"
        guidePath := .ofString "é\\\x07" }
    let p : Path := .ofString "etc/chain.yml"
    let machine : Machine :=
      { files := .empty []
        input := []
        output := []
        warnings := []
        time := []
        configDirectory := none }
    let machine' := ((config.save p : Simulated _).on machine).2
    config.check = .ok config ∧
      (config.save p : Simulated _).on machine =
        (.ok (), machine') ∧
      (ofFile p : Simulated _).on machine' =
        (.ok config, machine') ∧
      machine'.files.read p =
        .ok (Utf8.encode (Form.yaml.print config)) ∧
      (config.save p : Simulated _).on machine' =
        (.ok (), machine') := by
  intro config p machine machine'
  have hValid : config.check = .ok config :=
    check_eq_ok_iff.mpr (by decide +kernel)
  have hDone :
      ((config.save p : Simulated _).on machine).1 = .ok () := by
    apply Except.eq_ok_of_toOption
    decide +kernel
  have hSaved :
      (config.save p : Simulated _).on machine =
        (.ok (), machine') :=
    Prod.ext hDone rfl
  exact ⟨hValid, hSaved, ofFile_of_save hValid hSaved⟩

end Config

end CodecChain
