import CodecChain.RunLength

/-
  Run-length text and the text it stands for. What is written
  for a text is read as that text, and what is read as a text
  was written for it. Both proofs go along with a run that is
  still open: the one that writing has not yet counted, or
  the one that reading has just left.

  Key definitions include:
    * `RunLength.IsLength`
    * `RunLength.pending`
    * `RunLength.written`

  Main statements:
    * `RunLength.decode_encode`
    * `RunLength.eq_encode_of_decode`
-/

------------------------------------------------------------
-- Counts
------------------------------------------------------------

namespace CodecChain

namespace RunLength

/- The lengths of runs. -/
def IsLength (n : Nat) : Prop :=
  1 ≤ n ∧ n ≤ longest

theorem length?_count
    {n : Nat}
    (h : n ≤ longest) :
    length? (count n) = some n := by
  unfold longest at h
  decide +revert

theorem readCount_count
    {n : Nat}
    (h : IsLength n) :
    readCount (count n) = .ok n := by
  rw [readCount, length?_count h.2]
  cases n with
  | zero => exact absurd h.1 (Nat.not_succ_le_zero 0)
  | succ n => rfl

/- A digit that is read as a length is the digit of it. -/
theorem eq_count_of_readCount
    {digit : Char}
    {n : Nat}
    (h : readCount digit = .ok n) :
    IsLength n ∧ digit = count n := by
  unfold readCount length? at h
  split at h
  · cases h
  · cases h
  · rename_i m hNonzero hLength
    cases h
    split at hLength
    · rename_i hRange
      have hZero : '0'.toNat = 48 := rfl
      have hNine : '9'.toNat = 57 := rfl
      cases hLength
      have hPositive : digit.toNat - '0'.toNat ≠ 0 :=
        hNonzero
      refine ⟨⟨by omega, ?_⟩, ?_⟩
      · unfold longest
        omega
      · have hCode :
            '0'.toNat + (digit.toNat - '0'.toNat) =
              digit.toNat := by
          omega
        rw [count, hCode, Char.ofNat_toNat]
    · cases hLength

------------------------------------------------------------
-- Reading What Is Written
------------------------------------------------------------

theorem continues_some_eq_false_iff
    {c d : Char}
    {n : Nat} :
    continues (some (c, n)) d = false ↔
      ¬(d = c ∧ n < longest) := by
  simp only [continues, Bool.and_eq_false_iff,
    decide_eq_false_iff_not]
  constructor
  · rintro (hNe | hLong) ⟨rfl, hLt⟩
    · exact hNe rfl
    · exact hLong hLt
  · intro h
    by_cases hEq : c = d
    · exact Or.inr fun hLt => h ⟨hEq.symm, hLt⟩
    · exact Or.inl hEq

/- A pair that does not continue the run before it is read. -/
theorem decodeAfter_count_cons
    {offset n : Nat}
    {previous : Option (Char × Nat)}
    {c : Char}
    {rest : Text}
    (hLength : IsLength n)
    (hNew : continues previous c = false) :
    decodeAfter offset previous (count n :: c :: rest) =
      (decodeAfter (offset + 2) (some (c, n)) rest).map
        (List.replicate n c ++ ·) := by
  rw [decodeAfter, readCount_count hLength]
  dsimp only
  rw [hNew, if_neg Bool.false_ne_true]
  cases decodeAfter (offset + 2) (some (c, n)) rest <;> rfl

/- What is written after an open run is read with that run. -/
theorem decodeAfter_encodeAfter
    {offset n : Nat}
    {previous : Option (Char × Nat)}
    {c : Char}
    {s : Text}
    (hLength : IsLength n)
    (hNew : continues previous c = false) :
    decodeAfter offset previous (encodeAfter c n s) =
      .ok (List.replicate n c ++ s) := by
  induction s generalizing offset n previous c with
  | nil =>
      rw [encodeAfter, decodeAfter_count_cons hLength hNew]
      rfl
  | cons d s ih =>
      unfold encodeAfter
      split
      · rename_i hSame
        rcases hSame with ⟨rfl, hShort⟩
        have hLonger : IsLength (n + 1) :=
          ⟨Nat.le_add_left 1 n, hShort⟩
        rw [ih hLonger hNew, List.replicate_succ',
          List.append_assoc, List.singleton_append]
      · rename_i hOther
        have hOne : IsLength 1 := ⟨Nat.le_refl 1, by decide⟩
        have hNext := continues_some_eq_false_iff.mpr hOther
        rw [decodeAfter_count_cons hLength hNew,
          ih hOne hNext]
        rfl

/- The runs of a text are read as that text. -/
theorem decode_encode (s : Text) :
    decode (encode s) = .ok s := by
  cases s with
  | nil => rfl
  | cons c s =>
      exact decodeAfter_encodeAfter ⟨Nat.le_refl 1, by decide⟩
        rfl

------------------------------------------------------------
-- Writing What Is Read
------------------------------------------------------------

/- What is written for a text after an open run, if any. -/
def pending : Option (Char × Nat) → Text → Text
  | none, s => encode s
  | some (c, n), s => encodeAfter c n s

/- What is written for a run, if any, on its own. -/
def written : Option (Char × Nat) → Text
  | none => []
  | some (c, n) => [count n, c]

theorem pending_nil (previous : Option (Char × Nat)) :
    pending previous [] = written previous := by
  cases previous <;> rfl

/- Equal characters lengthen an open run. -/
theorem encodeAfter_replicate_append
    {c : Char}
    {n k : Nat}
    {s : Text}
    (h : n + k ≤ longest) :
    encodeAfter c n (List.replicate k c ++ s) =
      encodeAfter c (n + k) s := by
  induction k generalizing n with
  | zero => rfl
  | succ k ih =>
      have hShort : c = c ∧ n < longest := ⟨rfl, by omega⟩
      have hLonger : n + 1 + k ≤ longest := by omega
      have hSum : n + 1 + k = n + (k + 1) := by omega
      rw [List.replicate_succ, List.cons_append, encodeAfter,
        if_pos hShort, ih hLonger, hSum]

/- A run that does not continue an open run closes that run. -/
theorem pending_replicate_append
    {previous : Option (Char × Nat)}
    {d : Char}
    {m : Nat}
    {s : Text}
    (hLength : IsLength m)
    (hNew : continues previous d = false) :
    pending previous (List.replicate m d ++ s) =
      written previous ++ encodeAfter d m s := by
  rcases hLength with ⟨hPositive, hShort⟩
  obtain ⟨k, rfl⟩ := Nat.exists_eq_add_of_le hPositive
  have hRun := encodeAfter_replicate_append (c := d) (s := s)
    hShort
  rw [Nat.add_comm 1 k, List.replicate_succ, List.cons_append,
    Nat.add_comm k 1, ← hRun]
  cases previous with
  | none => rfl
  | some run =>
      rcases run with ⟨c, n⟩
      have hOther := continues_some_eq_false_iff.mp hNew
      rw [pending, encodeAfter, if_neg hOther]
      rfl

/- What is read after a run is written after that run. -/
theorem written_append_of_decodeAfter
    {offset : Nat}
    {previous : Option (Char × Nat)}
    {t s : Text}
    (h : decodeAfter offset previous t = .ok s) :
    written previous ++ t = pending previous s := by
  fun_induction decodeAfter offset previous t generalizing s with
  | case1 =>
      cases h
      rw [List.append_nil, pending_nil]
  | case2 => cases h
  | case3 => cases h
  | case4 => cases h
  | case5 => cases h
  | case6 offset previous digit d rest m hCount hNew ih =>
      rcases eq_count_of_readCount hCount with ⟨hLength, rfl⟩
      cases hRest :
          decodeAfter (offset + 2) (some (d, m)) rest with
      | error fault =>
          rw [hRest] at h
          cases h
      | ok s' =>
          rw [hRest] at h
          cases h
          have hWritten := ih hRest
          rw [pending_replicate_append hLength
            (Bool.eq_false_iff.mpr hNew)]
          exact congrArg (written previous ++ ·) hWritten

/- A text that is read was written for what it is read as. -/
theorem eq_encode_of_decode
    {t s : Text}
    (h : decode t = .ok s) :
    t = encode s :=
  written_append_of_decodeAfter h

end RunLength

end CodecChain
