import Mathlib.Data.List.Nodup
import CodecChain.Proofs.Config.RoundTrip

/-
  The settings of a configuration file: what its members say
  of the fields. No field may be set again, so it does not
  matter which one is set first.

  Key definitions include:
    * `Config.Field.settings`
    * `Config.Field.step`
    * `Config.Field.given`

  Main statements:
    * `Config.applyMembers?_eq_some_iff`
    * `Config.Field.step_comm`
    * `Config.ofMembers?_perm`
-/

------------------------------------------------------------
-- Settings
------------------------------------------------------------

namespace CodecChain

namespace Config

variable {V : Type} {n : Notation V}

namespace Field

/- The fields that members set, in order. -/
def settings (members : List (Text × V)) : List (Field × V) :=
  members.filterMap fun (key, value) =>
    (ofKey? key).map fun field => (field, value)

/- The configuration with one more field set, if there is one. -/
def step
    (n : Notation V)
    (config : Option Config)
    (setting : Field × V) : Option Config :=
  config.bind fun c => setting.1.change? n setting.2 c

/- The fields that are set, in order. -/
def given (members : List (Text × V)) : List Field :=
  (settings members).map Prod.fst

theorem ofKey?_eq_some_iff
    {key : Text}
    {field : Field} :
    ofKey? key = some field ↔ key = field.key := by
  constructor
  · intro h
    have hKey := List.find?_some h
    exact (of_decide_eq_true hKey).symm
  · rintro rfl
    exact ofKey?_key field

theorem key_injective :
    Function.Injective Field.key := by
  intro field other h
  have hSame := ofKey?_eq_some_iff.mpr h
  rw [ofKey?_key] at hSame
  exact Option.some_inj.mp hSame

theorem settings_cons_of_none
    {key : Text}
    (value : V)
    (members : List (Text × V))
    (h : ofKey? key = none) :
    settings ((key, value) :: members) = settings members := by
  simp [settings, h]

theorem settings_cons_of_some
    {key : Text}
    {field : Field}
    (value : V)
    (members : List (Text × V))
    (h : ofKey? key = some field) :
    settings ((key, value) :: members) =
      (field, value) :: settings members := by
  simp [settings, h]

theorem foldl_step_none (settings : List (Field × V)) :
    settings.foldl (step n) none = none := by
  induction settings with
  | nil => rfl
  | cons setting settings ih => exact ih

end Field

open Config.Field

/-
  Members are applied one after the other, if none of them
  sets a field that has been set before.
-/
theorem applyMembers?_eq_some_iff
    {seen : List Field}
    {config result : Config}
    {members : List (Text × V)} :
    applyMembers? n seen config members = some result ↔
      ((given members).Nodup ∧
        ∀ field ∈ given members, field ∉ seen) ∧
      (settings members).foldl (step n) (some config) =
        some result := by
  induction members generalizing seen config with
  | nil => simp [applyMembers?, given, settings]
  | cons member members ih =>
      rcases member with ⟨key, value⟩
      cases hKey : ofKey? key with
      | none =>
          rw [applyMembers?, hKey, given,
            settings_cons_of_none value members hKey]
          exact ih
      | some field =>
          rw [applyMembers?, hKey, given,
            settings_cons_of_some value members hKey,
            List.map_cons, ← given, List.nodup_cons,
            List.forall_mem_cons, List.foldl_cons]
          dsimp only
          by_cases hSeen : field ∈ seen
          · rw [if_pos hSeen]
            simp [hSeen]
          rw [if_neg hSeen]
          cases hChange : field.change? n value config with
          | none =>
              have hNone :
                  step n (some config) (field, value) = none :=
                hChange
              rw [hNone, foldl_step_none]
              simp
          | some next =>
              have hSome :
                  step n (some config) (field, value) =
                    some next :=
                hChange
              rw [hSome]
              refine ih.trans ?_
              grind

------------------------------------------------------------
-- Order
------------------------------------------------------------

namespace Field

/- What comes from a value, if anything, is set in any case. -/
theorem map_eq_none_or
    {α : Type}
    {field : Field}
    {set : α → Config → Config}
    (x : Option α)
    (hSet :
      ∀ a, ∃ source, ∀ c, set a c = field.copy source c) :
    (∀ c, (x.map fun a => set a c) = none) ∨
      ∃ source, ∀ c,
        (x.map fun a => set a c) =
          some (field.copy source c) := by
  cases x with
  | none => exact Or.inl fun c => rfl
  | some a =>
      rcases hSet a with ⟨source, hSource⟩
      exact Or.inr ⟨source, fun c => congrArg some (hSource c)⟩

/- A value is no value of a field, or sets it in any case. -/
theorem change?_eq_none_or
    (n : Notation V)
    (field : Field)
    (value : V) :
    (∀ c, field.change? n value c = none) ∨
      ∃ source, ∀ c,
        field.change? n value c = some (field.copy source c) := by
  cases field with
  | separator =>
      exact map_eq_none_or _ fun s =>
        ⟨{ default with separator := s }, fun c => rfl⟩
  | inputPath =>
      exact map_eq_none_or _ fun p =>
        ⟨{ default with inputPath := p }, fun c => rfl⟩
  | parametersPath =>
      exact map_eq_none_or _ fun p =>
        ⟨{ default with parametersPath := p }, fun c => rfl⟩
  | outputPath =>
      exact map_eq_none_or _ fun p =>
        ⟨{ default with outputPath := p }, fun c => rfl⟩
  | markerPath =>
      exact map_eq_none_or _ fun p =>
        ⟨{ default with markerPath := p }, fun c => rfl⟩
  | guidePath =>
      exact map_eq_none_or _ fun p =>
        ⟨{ default with guidePath := p }, fun c => rfl⟩
  | trimContent =>
      exact map_eq_none_or _ fun b =>
        ⟨{ default with trimContent := b }, fun c => rfl⟩
  | reportFormat =>
      exact map_eq_none_or _ fun f =>
        ⟨{ default with reportFormat := f }, fun c => rfl⟩
  | echoTrace =>
      exact map_eq_none_or _ fun b =>
        ⟨{ default with echoTrace := b }, fun c => rfl⟩

/- Different fields can be copied in either order. -/
theorem copy_comm
    {field other : Field}
    (source source' config : Config)
    (h : field ≠ other) :
    field.copy source (other.copy source' config) =
      other.copy source' (field.copy source config) := by
  cases field <;> cases other <;>
    first
    | rfl
    | exact absurd rfl h

/- Different fields can be set in either order. -/
theorem step_comm
    {first second : Field × V}
    (config : Option Config)
    (h : first.1 ≠ second.1) :
    step n (step n config first) second =
      step n (step n config second) first := by
  cases config with
  | none => rfl
  | some c =>
      rcases change?_eq_none_or n first.1 first.2 with
        hFirst | ⟨source, hFirst⟩ <;>
      rcases change?_eq_none_or n second.1 second.2 with
        hSecond | ⟨source', hSecond⟩ <;>
      simp only [step, Option.bind_some, Option.bind_none,
        hFirst, hSecond]
      rw [copy_comm _ _ _ h]

/- The order of settings does not count, if none comes again. -/
theorem foldl_step_perm
    {settings settings' : List (Field × V)}
    (config : Option Config)
    (hPerm : settings.Perm settings')
    (hNodup : (settings.map Prod.fst).Nodup) :
    settings.foldl (step n) config =
      settings'.foldl (step n) config := by
  apply hPerm.foldl_eq'
  intro first hFirst second hSecond c
  by_cases hSame : first.1 = second.1
  · rw [List.inj_on_of_nodup_map hNodup hFirst hSecond hSame]
  · exact step_comm c hSame

end Field

/- The order of members does not count. -/
theorem ofMembers?_perm
    {members members' : List (Text × V)}
    (h : members.Perm members') :
    ofMembers? n members = ofMembers? n members' := by
  have hSettings : (settings members).Perm (settings members') :=
    h.filterMap _
  have hGiven : (given members).Perm (given members') :=
    hSettings.map _
  apply Option.ext
  intro result
  rw [ofMembers?, ofMembers?, applyMembers?_eq_some_iff,
    applyMembers?_eq_some_iff, ← hGiven.nodup_iff]
  simp only [List.not_mem_nil, not_false_eq_true, implies_true,
    and_true]
  apply and_congr_right
  intro hNodup
  rw [foldl_step_perm _ hSettings hNodup]

end Config

end CodecChain
