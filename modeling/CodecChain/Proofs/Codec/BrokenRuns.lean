import Mathlib.Order.Bounds.Defs
import CodecChain.Codec.Coding
import CodecChain.Proofs.Codec.Runs

/-
  Where run-length text goes wrong. Reading fails behind runs
  that can be read, at a pair that cannot follow them: its
  count is none, it has no character, or it goes on with the
  run before it. Nothing longer than those runs is read, and
  no text that goes on as such a pair does, unless all that
  the pair lacks is its character.

  Key definitions include:
    * `RunLength.Blocks`
    * `RunLength.lastRun`

  Main statements:
    * `RunLength.decodeAfter_spell_append`
    * `RunLength.exists_blocks_of_decodeAfter`
    * `Codec.locates_broken_run`
-/

------------------------------------------------------------
-- Pairs That Cannot Be Read
------------------------------------------------------------

namespace CodecChain

namespace RunLength

variable {previous : Option Run} {runs : List Run}
variable {offset : Nat} {cause : Cause} {t back : Text}

/-
  A text that cannot be read after a run, or at the beginning,
  because of the pair that it begins with.
-/
inductive Blocks (previous : Option Run) :
    Text → Cause → Prop where
  | count
      {digit : Char}
      {rest : Text}
      {cause : Cause}
      (hCount : readCount digit = .error cause) :
      Blocks previous (digit :: rest) cause
  | alone
      {digit : Char}
      {n : Nat}
      (hCount : readCount digit = .ok n) :
      Blocks previous [digit] .noCharacter
  | split
      {digit c : Char}
      {n : Nat}
      {rest : Text}
      (hCount : readCount digit = .ok n)
      (hSame : continues previous c = true) :
      Blocks previous (digit :: c :: rest) (.splitRun c)

theorem Blocks.ne_nil
    (h : Blocks previous back cause) :
    back ≠ [] := by
  cases h <;> simp

theorem Blocks.decodeAfter_eq
    (offset : Nat)
    (h : Blocks previous back cause) :
    decodeAfter offset previous back =
      .error ⟨offset, cause⟩ := by
  cases h with
  | @count digit rest cause hCount =>
      cases rest <;> simp [decodeAfter, hCount]
  | alone hCount => simp [decodeAfter, hCount]
  | split hCount hSame => simp [decodeAfter, hCount, hSame]

/- Less of such a text cannot be read either. -/
theorem Blocks.take_succ
    (n : Nat)
    (h : Blocks previous back cause) :
    ∃ other, Blocks previous (back.take (n + 1)) other := by
  cases h with
  | count hCount => exact ⟨_, .count hCount⟩
  | alone hCount =>
      rw [List.take_of_length_le (by simp)]
      exact ⟨_, .alone hCount⟩
  | split hCount hSame =>
      cases n with
      | zero => exact ⟨_, .alone hCount⟩
      | succ n => exact ⟨_, .split hCount hSame⟩

/-
  Whatever comes after the pair, the text cannot be read, if
  the pair is there.
-/
theorem Blocks.take_two_append
    (more : Text)
    (h : Blocks previous back cause)
    (hCause : cause ≠ .noCharacter) :
    Blocks previous (back.take 2 ++ more) cause := by
  cases h with
  | count hCount => exact .count hCount
  | alone hCount => exact absurd rfl hCause
  | split hCount hSame => exact .split hCount hSame

------------------------------------------------------------
-- Reading Behind Runs
------------------------------------------------------------

theorem length_spell (runs : List Run) :
    (spell runs).length = 2 * runs.length := by
  simp [spell, List.length_flatMap, Nat.mul_comm]

/- The run that has been read last. -/
def lastRun (previous : Option Run) : List Run → Option Run
  | [] => previous
  | run :: runs => lastRun (some run) runs

/- Behind runs that may follow, reading goes on. -/
theorem decodeAfter_spell_append
    (h : IsCanonical (previous.toList ++ runs)) :
    decodeAfter offset previous (spell runs ++ back) =
      (decodeAfter (offset + 2 * runs.length)
        (lastRun previous runs) back).map
          (expand runs ++ ·) := by
  induction runs generalizing offset previous with
  | nil =>
      simp only [spell, expand, lastRun, List.flatMap_nil,
        List.nil_append, List.length_nil, Nat.mul_zero,
        Nat.add_zero]
      cases decodeAfter offset previous back <;> rfl
  | cons run runs ih =>
      rcases isCanonical_toList_append_cons_iff.mp h with
        ⟨-, hNew, hRest⟩
      rcases run with ⟨c, n⟩
      have hLength : IsLength n :=
        hRest.lengths (c, n) List.mem_cons_self
      have hLater :
          IsCanonical ((some (c, n)).toList ++ runs) :=
        hRest
      have hOffset :
          offset + 2 + 2 * runs.length =
            offset + 2 * ((c, n) :: runs).length := by
        simp only [List.length_cons]
        omega
      rw [spell_cons, List.cons_append, List.cons_append,
        decodeAfter_count_cons hLength hNew, ih hLater, hOffset,
        lastRun, expand_cons]
      cases decodeAfter (offset + 2 * ((c, n) :: runs).length)
        (lastRun (some (c, n)) runs) back with
      | error fault => rfl
      | ok s => simp [Except.map]

/- Where reading fails, a pair cannot follow the runs before. -/
theorem exists_blocks_of_decodeAfter
    {fault : Fault}
    (hPrevious : IsCanonical previous.toList)
    (h : decodeAfter offset previous t = .error fault) :
    ∃ runs back,
      IsCanonical (previous.toList ++ runs) ∧
        t = spell runs ++ back ∧
        fault.offset = offset + 2 * runs.length ∧
        Blocks (lastRun previous runs) back fault.cause := by
  fun_induction decodeAfter offset previous t with
  | case1 => cases h
  | case2 offset previous digit cause hCount =>
      cases h
      exact ⟨[], _, by simpa using hPrevious, rfl, rfl,
        .count hCount⟩
  | case3 offset previous digit n hCount =>
      cases h
      exact ⟨[], _, by simpa using hPrevious, rfl, rfl,
        .alone hCount⟩
  | case4 offset previous digit c rest cause hCount =>
      cases h
      exact ⟨[], _, by simpa using hPrevious, rfl, rfl,
        .count hCount⟩
  | case5 offset previous digit c rest n hCount hSame =>
      cases h
      exact ⟨[], _, by simpa using hPrevious, rfl, rfl,
        .split hCount hSame⟩
  | case6 offset previous digit c rest n hCount hNew ih =>
      rcases eq_count_of_readCount hCount with ⟨hLength, rfl⟩
      cases hRest :
          decodeAfter (offset + 2) (some (c, n)) rest with
      | ok s =>
          rw [hRest] at h
          cases h
      | error other =>
          rw [hRest] at h
          cases h
          rcases ih (isCanonical_singleton_iff.mpr hLength) hRest
            with ⟨runs, back, hRuns, rfl, hOffset, hBlocks⟩
          refine ⟨(c, n) :: runs, back, ?_, rfl, ?_, hBlocks⟩
          · exact isCanonical_toList_append_cons_iff.mpr
              ⟨hPrevious, Bool.eq_false_iff.mpr hNew, hRuns⟩
          · rw [hOffset, List.length_cons]
            omega

theorem exists_blocks_of_decode
    {fault : Fault}
    (h : decode t = .error fault) :
    ∃ runs back,
      IsCanonical runs ∧
        t = spell runs ++ back ∧
        fault.offset = 2 * runs.length ∧
        Blocks (lastRun none runs) back fault.cause := by
  have hStart : IsCanonical (none : Option Run).toList :=
    isCanonical_nil
  simpa using exists_blocks_of_decodeAfter hStart h

/- What cannot follow runs makes the whole text unreadable. -/
theorem decode_of_blocks
    (hRuns : IsCanonical runs)
    (hBlocks : Blocks (lastRun none runs) back cause) :
    decode (spell runs ++ back) =
      .error ⟨2 * runs.length, cause⟩ := by
  have hStart :
      IsCanonical ((none : Option Run).toList ++ runs) :=
    hRuns
  rw [decode, decodeAfter_spell_append hStart,
    hBlocks.decodeAfter_eq, Nat.zero_add]
  rfl

end RunLength

end CodecChain

------------------------------------------------------------
-- Errors of the Codec
------------------------------------------------------------

namespace CodecChain

namespace Codec

theorem decode_runLength_eq_ok_iff
    {s t : Text} :
    runLength.decode t = .ok s ↔ RunLength.decode t = .ok s := by
  rw [decode, Except.mapError_eq_ok_iff]

theorem decode_runLength_eq_error_iff
    {t : Text}
    {e : DecodeError} :
    runLength.decode t = .error e ↔
      ∃ fault,
        RunLength.decode t = .error fault ∧
          e = ⟨runLength, .runLength fault⟩ := by
  simp only [decode]
  cases RunLength.decode t <;> simp [eq_comm]

/- What is said where a pair has no character. -/
theorem reason_of_noCharacter
    {fault : RunLength.Fault}
    (h : fault.cause = .noCharacter) :
    (Fault.runLength fault).reason =
      "count without a character" :=
  congrArg RunLength.Cause.reason h

/-
  A fault in run-length text lies behind the longest part of
  the text that is read. The error names the codec and counts
  the characters of that part, which are whole pairs; and
  unless only a character is missing, no text is read that
  has the same pair there.
-/
theorem locates_broken_run
    {t : Text}
    {e : DecodeError}
    (h : runLength.decode t = .error e) :
    e.codec = runLength ∧
      ∃ k,
        e.fault.offset? = some k ∧
        k % 2 = 0 ∧
        k < t.length ∧
        IsGreatest
          {n | ∃ s, runLength.decode (t.take n) = .ok s} k ∧
        (e.fault.reason ≠ "count without a character" →
          ∀ u, t.take (k + 2) <+: u →
            ∀ s, runLength.decode u ≠ .ok s) := by
  rcases decode_runLength_eq_error_iff.mp h with
    ⟨fault, hFault, rfl⟩
  rcases RunLength.exists_blocks_of_decode hFault with
    ⟨runs, back, hRuns, rfl, hOffset, hBlocks⟩
  have hLength := RunLength.length_spell runs
  simp only [decode_runLength_eq_ok_iff]
  refine ⟨trivial, 2 * runs.length, ?_, by omega, ?_, ⟨?_, ?_⟩,
    ?_⟩
  · simp [Fault.offset?, hOffset]
  · have hSome := List.length_pos_iff.mpr hBlocks.ne_nil
    rw [List.length_append]
    omega
  · have hStart :
        RunLength.IsCanonical
          ((none : Option RunLength.Run).toList ++ runs) :=
      hRuns
    refine ⟨RunLength.expand runs, ?_⟩
    rw [← hLength, List.take_left]
    exact RunLength.decodeAfter_spell hStart
  · rintro n ⟨s, hRead⟩
    by_contra hLong
    obtain ⟨m, rfl⟩ : ∃ m, n = 2 * runs.length + (m + 1) :=
      ⟨n - 2 * runs.length - 1, by omega⟩
    rcases hBlocks.take_succ m with ⟨cause, hLess⟩
    rw [← hLength, List.take_length_add_append,
      RunLength.decode_of_blocks hRuns hLess] at hRead
    contradiction
  · intro hReason u hShared s hRead
    have hCause : fault.cause ≠ .noCharacter := by
      intro hLacks
      exact hReason (reason_of_noCharacter hLacks)
    rcases hShared with ⟨more, rfl⟩
    have hPair := hBlocks.take_two_append more hCause
    rw [decode_runLength_eq_ok_iff, ← hLength,
      List.take_length_add_append, List.append_assoc,
      RunLength.decode_of_blocks hRuns hPair] at hRead
    contradiction

/-
  A run that goes on behind a count below nine: the fault lies
  at the third pair, and no more of the text mends it.
-/
theorem locates_broken_run_of_split_run :
    runLength.decode (.ofString "9a1a2a") =
        .error
          ⟨runLength, .runLength ⟨4, .splitRun 'a'⟩⟩ ∧
      IsGreatest
        {n | ∃ s,
          runLength.decode ((Text.ofString "9a1a2a").take n) =
            .ok s} 4 ∧
      ∀ u, Text.ofString "9a1a2a" <+: u →
        ∀ s, runLength.decode u ≠ .ok s := by
  have hRead :
      runLength.decode (.ofString "9a1a2a") =
        .error
          ⟨runLength, .runLength ⟨4, .splitRun 'a'⟩⟩ :=
    rfl
  rcases locates_broken_run hRead with
    ⟨-, k, hOffset, -, -, hLongest, hMore⟩
  cases hOffset
  exact ⟨hRead, hLongest, hMore (by decide)⟩

end Codec

end CodecChain
