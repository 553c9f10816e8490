import Mathlib.Data.List.Chain
import CodecChain.Proofs.Result
import CodecChain.Proofs.Codec.RunLength

/-
  Run-length text as a list of runs. Reading accepts exactly
  the texts that spell runs of one to nine characters, each
  of which ends only where its character does or where it is
  as long as runs can be. These are the texts that writing
  produces.

  Key definitions include:
    * `RunLength.Run`
    * `RunLength.spell`
    * `RunLength.expand`
    * `RunLength.IsCanonical`

  Main statements:
    * `RunLength.decodeAfter_eq_ok_iff`
    * `RunLength.decodes_exactly_encoded`
-/

------------------------------------------------------------
-- Runs
------------------------------------------------------------

namespace CodecChain

namespace RunLength

/- A character, and how often it occurs in a row. -/
abbrev Run :=
  Char × Nat

/- The text that counts runs. -/
def spell (runs : List Run) : Text :=
  runs.flatMap fun run => [count run.2, run.1]

/- The text that consists of runs. -/
def expand (runs : List Run) : Text :=
  runs.flatMap fun run => List.replicate run.2 run.1

/-
  A run ends where another character comes, or where it is as
  long as runs can be.
-/
def Run.EndsBefore (run next : Run) : Prop :=
  run.1 = next.1 → run.2 = longest

/- Runs that are counted by one digit and end as they must. -/
structure IsCanonical (runs : List Run) : Prop where
  lengths : ∀ run ∈ runs, IsLength run.2
  ends : runs.IsChain Run.EndsBefore

theorem spell_cons
    (c : Char)
    (n : Nat)
    (runs : List Run) :
    spell ((c, n) :: runs) = count n :: c :: spell runs :=
  rfl

theorem expand_cons
    (c : Char)
    (n : Nat)
    (runs : List Run) :
    expand ((c, n) :: runs) =
      List.replicate n c ++ expand runs :=
  rfl

theorem isCanonical_nil : IsCanonical [] where
  lengths := nofun
  ends := .nil

theorem isCanonical_singleton_iff {run : Run} :
    IsCanonical [run] ↔ IsLength run.2 := by
  constructor
  · intro h
    exact h.lengths run List.mem_cons_self
  · intro hLength
    refine ⟨?_, .singleton run⟩
    intro other hOther
    rw [List.mem_singleton.mp hOther]
    exact hLength

/- What reading checks of two runs is that the first one ends. -/
theorem endsBefore_iff_continues
    {run next : Run}
    (hLength : IsLength run.2) :
    run.EndsBefore next ↔
      continues (some run) next.1 = false := by
  have hShort := hLength.2
  rcases run with ⟨c, n⟩
  rw [continues_some_eq_false_iff]
  constructor
  · intro hEnds hBoth
    have hLong : n = longest := hEnds hBoth.1.symm
    omega
  · intro hNot hSame
    apply Classical.byContradiction
    intro hLong
    exact hNot ⟨hSame.symm, Nat.lt_of_le_of_ne hShort hLong⟩

/- Further runs are read one by one, each after the one before. -/
theorem isCanonical_toList_append_cons_iff
    {previous : Option Run}
    {run : Run}
    {runs : List Run} :
    IsCanonical (previous.toList ++ run :: runs) ↔
      IsCanonical previous.toList ∧
        continues previous run.1 = false ∧
        IsCanonical (run :: runs) := by
  cases previous with
  | none => simp [isCanonical_nil, continues]
  | some before =>
      rw [Option.toList_some, List.singleton_append,
        isCanonical_singleton_iff]
      constructor
      · intro h
        have hBefore := h.lengths before List.mem_cons_self
        rcases List.isChain_cons_cons.mp h.ends with
          ⟨hEnds, hRest⟩
        refine ⟨hBefore,
          (endsBefore_iff_continues hBefore).mp hEnds, ?_, hRest⟩
        intro other hOther
        exact h.lengths other (List.mem_cons_of_mem before hOther)
      · rintro ⟨hBefore, hNew, hRest⟩
        refine ⟨?_, List.isChain_cons_cons.mpr
          ⟨(endsBefore_iff_continues hBefore).mpr hNew,
            hRest.ends⟩⟩
        intro other hOther
        rcases List.mem_cons.mp hOther with rfl | hOther
        · exact hBefore
        · exact hRest.lengths other hOther

------------------------------------------------------------
-- Reading Runs
------------------------------------------------------------

variable {offset : Nat} {previous : Option Run}
variable {runs : List Run} {s t : Text}

/- Runs that may follow what has been read are read. -/
theorem decodeAfter_spell
    (h : IsCanonical (previous.toList ++ runs)) :
    decodeAfter offset previous (spell runs) =
      .ok (expand runs) := by
  induction runs generalizing offset previous with
  | nil => rfl
  | cons run runs ih =>
      rcases isCanonical_toList_append_cons_iff.mp h with
        ⟨-, hNew, hRest⟩
      rcases run with ⟨c, n⟩
      have hLength : IsLength n :=
        hRest.lengths (c, n) List.mem_cons_self
      have hLater :
          IsCanonical ((some (c, n)).toList ++ runs) :=
        hRest
      rw [spell_cons, decodeAfter_count_cons hLength hNew,
        ih hLater, expand_cons]
      rfl

/- What is read after a run are runs that may follow it. -/
theorem exists_runs_of_decodeAfter
    (hPrevious : IsCanonical previous.toList)
    (h : decodeAfter offset previous t = .ok s) :
    ∃ runs,
      IsCanonical (previous.toList ++ runs) ∧
        t = spell runs ∧ s = expand runs := by
  fun_induction decodeAfter offset previous t generalizing s with
  | case1 =>
      cases h
      refine ⟨[], ?_, rfl, rfl⟩
      rw [List.append_nil]
      exact hPrevious
  | case2 => cases h
  | case3 => cases h
  | case4 => cases h
  | case5 => cases h
  | case6 offset previous digit c rest n hCount hNew ih =>
      rcases eq_count_of_readCount hCount with ⟨hLength, rfl⟩
      rcases Except.bind_eq_ok_iff.mp h with
        ⟨later, hRest, hText⟩
      cases hText
      rcases ih (isCanonical_singleton_iff.mpr hLength) hRest
        with ⟨runs, hRuns, rfl, rfl⟩
      refine ⟨(c, n) :: runs, ?_, rfl, rfl⟩
      exact isCanonical_toList_append_cons_iff.mpr
        ⟨hPrevious, Bool.eq_false_iff.mpr hNew, hRuns⟩

/- Exactly the runs that may follow what has been read are read. -/
theorem decodeAfter_eq_ok_iff
    (hPrevious : IsCanonical previous.toList) :
    decodeAfter offset previous t = .ok s ↔
      ∃ runs,
        IsCanonical (previous.toList ++ runs) ∧
          t = spell runs ∧ s = expand runs := by
  constructor
  · exact exists_runs_of_decodeAfter hPrevious
  · rintro ⟨runs, hRuns, rfl, rfl⟩
    exact decodeAfter_spell hRuns

/- A text is read as another one exactly if it is written for it. -/
theorem decode_eq_ok_iff :
    decode t = .ok s ↔ t = encode s := by
  constructor
  · exact eq_encode_of_decode
  · rintro rfl
    exact decode_encode s

------------------------------------------------------------
-- Accepted Texts
------------------------------------------------------------

/-
  Reading accepts exactly what writing produces. A text is
  read as the one text it is written for, and it is accepted
  because it spells canonical runs, which are the runs of
  that text. What is written for a text is always read as it,
  and no two texts are read as the same one.
-/
theorem decodes_exactly_encoded (s t : Text) :
    (decode t = .ok s ↔ t = encode s) ∧
      (decode t = .ok s ↔
        ∃ runs,
          IsCanonical runs ∧ t = spell runs ∧
            s = expand runs) ∧
      decode (encode s) = .ok s ∧
      ∀ u, decode t = .ok s → decode u = .ok s → t = u := by
  have hStart : IsCanonical (none : Option Run).toList :=
    isCanonical_nil
  refine ⟨decode_eq_ok_iff, decodeAfter_eq_ok_iff hStart,
    decode_encode s, ?_⟩
  intro u hText hOther
  rw [decode_eq_ok_iff.mp hText, decode_eq_ok_iff.mp hOther]

/- Ten digits in a row are two runs, of which one is full. -/
theorem decodes_exactly_encoded_of_digits :
    decode (.ofString "9111") = .ok (List.replicate 10 '1') ∧
      encode (List.replicate 10 '1') = .ofString "9111" := by
  have hRead :
      decode (.ofString "9111") =
        .ok (List.replicate 10 '1') :=
    rfl
  exact ⟨hRead, ((decodes_exactly_encoded _ _).1.mp hRead).symm⟩

end RunLength

end CodecChain
