import Mathlib
import CodecChain.Gzip.Crc32

/-
  The check value of bytes as a remainder. The bits of bytes
  are the coefficients of a polynomial over two elements, the
  first bit that of the highest power, and so are the bits of
  what is kept while the bytes are read. Dividing a bit off
  multiplies it by the variable, modulo the generator.

  Key definitions include:
    * `Gzip.polynomialOf`
    * `Gzip.generator`
    * `Gzip.remainderOf`
    * `Gzip.messageOf`

  Main statements:
    * `Gzip.exists_remainderOf_divideBit`
    * `Gzip.exists_remainderOf_foldl`
    * `Gzip.remainderOf_crc32`
-/

------------------------------------------------------------
-- Polynomials of Bits
------------------------------------------------------------

namespace CodecChain.Gzip

open Polynomial

/- The bits of a word, from the lowest one on. -/
def wordBits {n : Nat} (word : BitVec n) : List Bool :=
  (List.range n).map word.getLsbD

/-
  The polynomial whose coefficients are bits, the first bit
  that of the highest power.
-/
noncomputable def polynomialOf : List Bool → (ZMod 2)[X]
  | [] => 0
  | bit :: bits =>
      (if bit then X ^ bits.length else 0) + polynomialOf bits

theorem polynomialOf_append (s t : List Bool) :
    polynomialOf (s ++ t) =
      X ^ t.length * polynomialOf s + polynomialOf t := by
  induction s with
  | nil => simp [polynomialOf]
  | cons bit s ih =>
      rw [List.cons_append, polynomialOf, polynomialOf, ih,
        List.length_append, pow_add]
      split <;> ring

@[simp]
theorem polynomialOf_replicate_false (n : Nat) :
    polynomialOf (List.replicate n false) = 0 := by
  induction n with
  | zero => rfl
  | succ n ih => simp [List.replicate_succ, polynomialOf, ih]

/- Bits are added without carrying. -/
theorem polynomialOf_zipWith_xor
    {s t : List Bool}
    (hLength : s.length = t.length) :
    polynomialOf (List.zipWith xor s t) =
      polynomialOf s + polynomialOf t := by
  induction s generalizing t with
  | nil =>
      rw [List.length_nil, eq_comm, List.length_eq_zero_iff]
        at hLength
      simp [hLength, polynomialOf]
  | cons a s ih =>
      cases t with
      | nil => simp at hLength
      | cons b t =>
          have hRest : s.length = t.length := by
            simpa using hLength
          have hBit :
              (if xor a b then X ^ t.length else 0) =
                (if a then X ^ t.length else 0) +
                  if b then (X : (ZMod 2)[X]) ^ t.length
                  else 0 := by
            cases a <;> cases b <;>
              simp [CharTwo.add_self_eq_zero]
          rw [List.zipWith_cons_cons, polynomialOf, ih hRest,
            polynomialOf, polynomialOf, List.length_zipWith,
            hRest, Nat.min_self, hBit]
          ring

theorem degree_polynomialOf_lt (bits : List Bool) :
    (polynomialOf bits).degree < bits.length := by
  induction bits with
  | nil => simp [polynomialOf]
  | cons bit bits ih =>
      rw [polynomialOf, List.length_cons]
      have hPower :
          (if bit then (X : (ZMod 2)[X]) ^ bits.length
            else 0).degree < (bits.length + 1 : Nat) := by
        cases bit with
        | false => simp
        | true =>
            simp only [if_true, degree_X_pow]
            exact_mod_cast Nat.lt_succ_self bits.length
      have hRest :
          (polynomialOf bits).degree < (bits.length + 1 : Nat) :=
        ih.trans (by exact_mod_cast Nat.lt_succ_self bits.length)
      exact lt_of_le_of_lt (degree_add_le _ _)
        (max_lt hPower hRest)

------------------------------------------------------------
-- Bits of Words
------------------------------------------------------------

@[simp]
theorem length_wordBits
    {n : Nat}
    (word : BitVec n) :
    (wordBits word).length = n := by
  simp [wordBits]

theorem wordBits_xor
    {n : Nat}
    (v w : BitVec n) :
    wordBits (v ^^^ w) =
      List.zipWith xor (wordBits v) (wordBits w) := by
  simp [wordBits, List.zipWith_map]

theorem polynomialOf_xor
    {n : Nat}
    (v w : BitVec n) :
    polynomialOf (wordBits (v ^^^ w)) =
      polynomialOf (wordBits v) + polynomialOf (wordBits w) := by
  rw [wordBits_xor]
  exact polynomialOf_zipWith_xor (by simp)

/- A word that is moved down loses its lowest bit. -/
theorem wordBits_ushiftRight
    {n : Nat}
    (v : BitVec (n + 1)) :
    ∃ rest,
      wordBits v = v.getLsbD 0 :: rest ∧
        wordBits (v >>> 1) = rest ++ [false] := by
  refine ⟨(List.range n).map fun i => v.getLsbD (i + 1), ?_, ?_⟩
  · simp [wordBits, List.range_succ_eq_map]
  · simp [wordBits, List.range_succ, Nat.add_comm 1]

/- A word that is widened has no further bits. -/
theorem wordBits_setWidth
    {m n : Nat}
    (v : BitVec m) :
    wordBits (v.setWidth (m + n)) =
      wordBits v ++ List.replicate n false := by
  rw [wordBits, List.range_add, List.map_append, wordBits]
  congr 1
  · apply List.map_congr_left
    intro i hi
    have hBound : i < m := List.mem_range.mp hi
    have hWide : i < m + n := by omega
    simp [hWide]
  · rw [List.map_map, List.eq_replicate_iff]
    simp

------------------------------------------------------------
-- Steps
------------------------------------------------------------

/- The generator polynomial of the check. -/
noncomputable def generator : (ZMod 2)[X] :=
  X ^ 32 + X ^ 26 + X ^ 23 + X ^ 22 + X ^ 16 + X ^ 12 + X ^ 11 +
    X ^ 10 + X ^ 8 + X ^ 7 + X ^ 5 + X ^ 4 + X ^ 2 + X + 1

/- The bits of the constant are those below the highest power. -/
theorem generator_eq :
    generator =
      X ^ 32 + polynomialOf (wordBits polynomial.toBitVec) := by
  have hBits :
      wordBits polynomial.toBitVec =
        [false, false, false, false, false, true, false, false,
          true, true, false, false, false, false, false, true,
          false, false, false, true, true, true, false, true,
          true, false, true, true, false, true, true, true] := by
    decide
  rw [hBits, generator]
  simp only [polynomialOf, List.length_cons, List.length_nil,
    if_true, Bool.false_eq_true, if_false]
  ring

/- The polynomial of a remainder, its lowest bit first. -/
noncomputable def remainderOf (r : UInt32) : (ZMod 2)[X] :=
  polynomialOf (wordBits r.toBitVec)

theorem degree_remainderOf_lt (r : UInt32) :
    (remainderOf r).degree < (32 : Nat) := by
  have hDegree := degree_polynomialOf_lt (wordBits r.toBitVec)
  rwa [length_wordBits] at hDegree

theorem monic_generator : generator.Monic := by
  rw [generator_eq]
  exact monic_X_pow_add (degree_remainderOf_lt polynomial)

theorem degree_generator : generator.degree = (32 : Nat) := by
  have hRest : (remainderOf polynomial).degree < (32 : Nat) :=
    degree_remainderOf_lt polynomial
  rw [← degree_X_pow (R := ZMod 2) 32] at hRest
  rw [generator_eq]
  exact (degree_add_eq_left_of_degree_lt hRest).trans
    (degree_X_pow 32)

theorem remainderOf_xor (r s : UInt32) :
    remainderOf (r ^^^ s) = remainderOf r + remainderOf s :=
  polynomialOf_xor r.toBitVec s.toBitVec

theorem and_one_eq_one_iff (r : UInt32) :
    r &&& 1 = 1 ↔ r.toBitVec.getLsbD 0 = true := by
  rw [← UInt32.toNat_inj, UInt32.toNat_and, BitVec.getLsbD,
    UInt32.toNat_toBitVec, Nat.testBit_zero, decide_eq_true_iff]
  simp [Nat.and_one_is_mod]

theorem toBitVec_shiftRight_one (r : UInt32) :
    (r >>> 1).toBitVec = r.toBitVec >>> 1 := by
  simp

/-
  Dividing a bit off multiplies a remainder by the variable,
  and takes the generator away where the highest power
  appears.
-/
theorem exists_remainderOf_divideBit (r : UInt32) :
    ∃ q,
      remainderOf (divideBit r) =
        X * remainderOf r + generator * q := by
  rcases wordBits_ushiftRight r.toBitVec with
    ⟨rest, hBits, hShifted⟩
  have hLength : rest.length = 31 := by
    have hLengths := congrArg List.length hBits
    simpa using hLengths.symm
  have hHalf :
      remainderOf (r >>> 1) = X * polynomialOf rest := by
    rw [remainderOf, toBitVec_shiftRight_one, hShifted,
      polynomialOf_append]
    simp [polynomialOf]
  have hSplit :
      remainderOf r =
        (if r.toBitVec.getLsbD 0 then X ^ 31 else 0) +
          polynomialOf rest := by
    rw [remainderOf, hBits, polynomialOf, hLength]
  rw [divideBit, hSplit]
  by_cases hLow : r.toBitVec.getLsbD 0 = true
  · refine ⟨1, ?_⟩
    have hCancel :
        (X : (ZMod 2)[X]) ^ 32 + X ^ 32 = 0 :=
      CharTwo.add_self_eq_zero _
    rw [if_pos ((and_one_eq_one_iff r).mpr hLow), if_pos hLow,
      remainderOf_xor, hHalf, generator_eq, ← remainderOf]
    calc
      X * polynomialOf rest + remainderOf polynomial =
          X * polynomialOf rest + remainderOf polynomial +
            (X ^ 32 + X ^ 32) := by
        rw [hCancel, add_zero]
      _ = X * (X ^ 31 + polynomialOf rest) +
            (X ^ 32 + remainderOf polynomial) * 1 := by
        ring
  · refine ⟨0, ?_⟩
    rw [if_neg (mt (and_one_eq_one_iff r).mp hLow),
      if_neg hLow, hHalf]
    ring

theorem exists_remainderOf_repeat (r : UInt32) (k : Nat) :
    ∃ q,
      remainderOf (Nat.repeat divideBit k r) =
        X ^ k * remainderOf r + generator * q := by
  induction k with
  | zero => exact ⟨0, by simp [Nat.repeat]⟩
  | succ k ih =>
      rcases ih with ⟨q, hSoFar⟩
      rcases exists_remainderOf_divideBit
        (Nat.repeat divideBit k r) with ⟨q', hNext⟩
      refine ⟨X * q + q', ?_⟩
      rw [Nat.repeat, hNext, hSoFar]
      ring

/- The bits of a byte are those of the highest powers. -/
theorem remainderOf_toUInt32 (b : UInt8) :
    remainderOf b.toUInt32 =
      X ^ 24 * polynomialOf (wordBits b.toBitVec) := by
  have hBits := wordBits_setWidth (n := 24) b.toBitVec
  rw [remainderOf, UInt8.toBitVec_toUInt32, hBits,
    polynomialOf_append, polynomialOf_replicate_false,
    List.length_replicate, add_zero]

/- Taking a byte in appends its bits to what was taken in. -/
theorem exists_remainderOf_takeByte (r : UInt32) (b : UInt8) :
    ∃ q,
      remainderOf (takeByte r b) =
        X ^ 8 * remainderOf r +
          X ^ 32 * polynomialOf (wordBits b.toBitVec) +
          generator * q := by
  rcases exists_remainderOf_repeat (r ^^^ b.toUInt32) 8 with
    ⟨q, hTaken⟩
  refine ⟨q, ?_⟩
  rw [takeByte, hTaken, remainderOf_xor, remainderOf_toUInt32]
  ring

------------------------------------------------------------
-- Check Values
------------------------------------------------------------

/- The bits of bytes in order, as the coefficients they are. -/
noncomputable def messageOf (bytes : List UInt8) : (ZMod 2)[X] :=
  polynomialOf (bytes.flatMap fun b => wordBits b.toBitVec)

theorem length_flatMap_wordBits (bytes : List UInt8) :
    (bytes.flatMap fun b => wordBits b.toBitVec).length =
      8 * bytes.length := by
  induction bytes with
  | nil => rfl
  | cons b bytes ih =>
      rw [List.flatMap_cons, List.length_append, ih,
        length_wordBits, List.length_cons]
      omega

theorem exists_remainderOf_foldl
    (bytes : List UInt8)
    (r : UInt32) :
    ∃ q,
      remainderOf (bytes.foldl takeByte r) =
        X ^ (8 * bytes.length) * remainderOf r +
          X ^ 32 * messageOf bytes + generator * q := by
  induction bytes generalizing r with
  | nil => exact ⟨0, by simp [messageOf, polynomialOf]⟩
  | cons b bytes ih =>
      rcases ih (takeByte r b) with ⟨q, hLater⟩
      rcases exists_remainderOf_takeByte r b with ⟨q', hTaken⟩
      refine ⟨q + X ^ (8 * bytes.length) * q', ?_⟩
      rw [List.foldl_cons, hLater, hTaken, messageOf, messageOf,
        List.flatMap_cons, polynomialOf_append,
        length_flatMap_wordBits, List.length_cons, Nat.mul_succ,
        pow_add]
      ring

/-
  The check value is the complement of a remainder: that of the
  bytes by the generator, with as many zeros after them as the
  check has bits, and with as many of their first bits
  complemented.
-/
theorem remainderOf_crc32 (bytes : List UInt8) :
    remainderOf (crc32 bytes) + remainderOf 0xffffffff =
      (X ^ (8 * bytes.length) * remainderOf 0xffffffff +
        X ^ 32 * messageOf bytes) %ₘ generator := by
  rcases exists_remainderOf_foldl bytes 0xffffffff with
    ⟨q, hRead⟩
  have hCheck :
      remainderOf (crc32 bytes) + remainderOf 0xffffffff =
        remainderOf (bytes.foldl takeByte 0xffffffff) := by
    rw [crc32, remainderOf_xor, add_assoc,
      CharTwo.add_self_eq_zero, add_zero]
  rw [hCheck]
  have hDegree :
      (remainderOf (bytes.foldl takeByte 0xffffffff)).degree <
        generator.degree := by
    rw [degree_generator]
    exact degree_remainderOf_lt _
  refine (div_modByMonic_unique (-q) _ monic_generator
    ⟨?_, hDegree⟩).2.symm
  rw [hRead]
  ring

example :
    crc32 [0x31, 0x32, 0x33, 0x34, 0x35, 0x36, 0x37, 0x38, 0x39] =
      0xcbf43926 := by
  decide +kernel

end CodecChain.Gzip
