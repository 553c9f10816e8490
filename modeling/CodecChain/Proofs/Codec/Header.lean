import Mathlib.Algebra.Group.Nat.Defs
import CodecChain.Proofs.Codec.Gzip

/-
  Headers of compressed files. A header is ten bytes and, as
  far as their flags say so, an extra field, a name, a comment
  and a check value of all bytes before it. What is skipped at
  the beginning of a file is a header, and nothing else.

  Key definitions include:
    * `Gzip.Skips`
    * `Gzip.IsField`
    * `Gzip.IsHeader`

  Main statements:
    * `Gzip.numberOf_bytesOf`
    * `Gzip.bytesOf_numberOf`
    * `Gzip.skipHeader_skips`
-/

namespace CodecChain

namespace Gzip

------------------------------------------------------------
-- Numbers
------------------------------------------------------------

/- Bytes give the number they were made of, up to their width. -/
theorem numberOf_bytesOf (k n : Nat) :
    numberOf (bytesOf k n) = n % 256 ^ k := by
  induction k generalizing n with
  | zero => rw [bytesOf, numberOf, Nat.pow_zero, Nat.mod_one]
  | succ k ih =>
      have hByte : (UInt8.ofNat (n % 256)).toNat = n % 256 := by
        simp
      rw [bytesOf, numberOf, ih, hByte, Nat.pow_succ,
        Nat.mul_comm (256 ^ k), Nat.mod_mul]

/- A number gives the bytes it was read from. -/
theorem bytesOf_numberOf (bytes : List UInt8) :
    bytesOf bytes.length (numberOf bytes) = bytes := by
  induction bytes with
  | nil => rfl
  | cons b bytes ih =>
      have hLow : (b.toNat + 256 * numberOf bytes) % 256 =
          b.toNat := by
        have := b.toNat_lt
        omega
      have hHigh : (b.toNat + 256 * numberOf bytes) / 256 =
          numberOf bytes := by
        have := b.toNat_lt
        omega
      rw [numberOf, List.length_cons, bytesOf, hLow, hHigh, ih,
        UInt8.ofNat_toNat]

theorem bytesOf_mod (k n : Nat) :
    bytesOf k (n % 256 ^ k) = bytesOf k n := by
  have hSame := bytesOf_numberOf (bytesOf k n)
  rw [length_bytesOf, numberOf_bytesOf] at hSame
  exact hSame

------------------------------------------------------------
-- Parts of Headers
------------------------------------------------------------

variable {bytes : List UInt8}

/-
  A reader skips, at the beginning of bytes, exactly what is
  of a given form.
-/
def Skips
    (skip : List UInt8 → Except Fault (List UInt8))
    (form : List UInt8 → Prop)
    (bytes : List UInt8) : Prop :=
  ∀ rest,
    skip bytes = .ok rest ↔
      ∃ front, form front ∧ bytes = front ++ rest

theorem takeBytes_eq_ok_iff
    {n : Nat}
    {front rest : List UInt8} :
    takeBytes n bytes = .ok (front, rest) ↔
      front.length = n ∧ bytes = front ++ rest := by
  constructor
  · intro h
    unfold takeBytes at h
    dsimp only at h
    split at h
    · cases h
    · rename_i hLong
      cases h
      have hMost := List.length_take_le n bytes
      exact ⟨by omega, (List.take_append_drop n bytes).symm⟩
  · intro h
    rw [h.2]
    exact takeBytes_append rest h.1

/- An extra field: its size in two bytes, and its bytes. -/
def IsExtra (bytes : List UInt8) : Prop :=
  ∃ data,
    data.length < 65536 ∧
      bytes = bytesOf 2 data.length ++ data

theorem skipExtra_skips (bytes : List UInt8) :
    Skips skipExtra IsExtra bytes := by
  intro rest
  constructor
  · intro h
    rcases Except.bind_eq_ok_iff.mp h with
      ⟨⟨size, bytes'⟩, hSize, hMore⟩
    rcases Except.bind_eq_ok_iff.mp hMore with
      ⟨⟨data, rest'⟩, hData, hRest⟩
    cases hRest
    rcases takeBytes_eq_ok_iff.mp hSize with ⟨hTwo, rfl⟩
    rcases takeBytes_eq_ok_iff.mp hData with ⟨hLength, rfl⟩
    have hBytes := bytesOf_numberOf size
    have hNumber := numberOf_bytesOf 2 (numberOf size)
    rw [hTwo] at hBytes
    rw [hBytes] at hNumber
    refine ⟨size ++ data, ⟨data, ?_, ?_⟩, ?_⟩
    · rw [hLength, hNumber]
      exact Nat.mod_lt _ (by decide)
    · rw [hLength, hBytes]
    · rw [List.append_assoc]
  · intro h
    rcases h with ⟨_, ⟨data, hLength, rfl⟩, rfl⟩
    have hSize :
        numberOf (bytesOf 2 data.length) = data.length := by
      rw [numberOf_bytesOf]
      exact Nat.mod_eq_of_lt hLength
    apply Except.bind_eq_ok_iff.mpr
    refine ⟨(bytesOf 2 data.length, data ++ rest), ?_, ?_⟩
    · rw [takeBytes_eq_ok_iff, List.append_assoc]
      exact ⟨length_bytesOf _ _, rfl⟩
    · apply Except.bind_eq_ok_iff.mpr
      refine ⟨(data, rest), ?_, rfl⟩
      rw [takeBytes_eq_ok_iff]
      exact ⟨hSize.symm, rfl⟩

/- A name or a comment: bytes, and a zero byte that ends them. -/
def IsText
    (room : Nat)
    (bytes : List UInt8) : Prop :=
  ∃ text,
    text.length ≤ room ∧ 0 ∉ text ∧ bytes = text ++ [0]

theorem skipText_skips
    (room : Nat)
    (bytes : List UInt8) :
    Skips (skipText room) (IsText room) bytes := by
  intro rest
  constructor
  · intro h
    fun_induction skipText room bytes with
    | case1 => cases h
    | case2 room bytes =>
        cases h
        exact ⟨[0], ⟨[], Nat.zero_le room, by simp, rfl⟩, rfl⟩
    | case3 => cases h
    | case4 b bytes hMore room ih =>
        rcases ih h with ⟨_, ⟨text, hRoom, hZero, rfl⟩, rfl⟩
        refine ⟨b :: (text ++ [0]), ⟨b :: text, ?_, ?_, rfl⟩,
          rfl⟩
        · exact Nat.succ_le_succ hRoom
        · rw [List.mem_cons, not_or]
          exact ⟨fun hSame => hMore hSame.symm, hZero⟩
  · intro h
    rcases h with ⟨_, ⟨text, hRoom, hZero, rfl⟩, rfl⟩
    induction text generalizing room with
    | nil =>
        unfold skipText
        exact if_pos rfl
    | cons b text ih =>
        rw [List.mem_cons, not_or] at hZero
        cases room with
        | zero => simp at hRoom
        | succ room =>
            rw [List.cons_append, List.cons_append, skipText,
              if_neg (fun hSame => hZero.1 hSame.symm)]
            exact ih room (Nat.le_of_succ_le_succ hRoom) hZero.2

/- The check value of a header: half of that of its bytes. -/
def IsCheck
    (before bytes : List UInt8) : Prop :=
  bytes = bytesOf 2 (crc32 before).toNat

theorem skipCheck_skips
    (before bytes : List UInt8) :
    Skips (skipCheck (before ++ bytes)) (IsCheck before)
      bytes := by
  intro rest
  have hBefore :
      (before ++ bytes).take
          ((before ++ bytes).length - bytes.length) =
        before := by
    rw [List.length_append, Nat.add_sub_cancel, List.take_left]
  constructor
  · intro h
    rcases Except.bind_eq_ok_iff.mp h with
      ⟨⟨check, rest'⟩, hCheck, hMore⟩
    rcases takeBytes_eq_ok_iff.mp hCheck with ⟨hTwo, hBytes⟩
    dsimp only at hMore
    rw [hBefore] at hMore
    split at hMore
    · rename_i hValue
      cases hMore
      refine ⟨check, ?_, hBytes⟩
      have hSame := bytesOf_numberOf check
      rw [hTwo, hValue] at hSame
      rw [IsCheck, ← bytesOf_mod]
      exact hSame.symm
    · cases hMore
  · intro h
    rcases h with ⟨front, hFront, hBytes⟩
    apply Except.bind_eq_ok_iff.mpr
    refine ⟨(front, rest), ?_, ?_⟩
    · rw [takeBytes_eq_ok_iff]
      refine ⟨?_, hBytes⟩
      rw [hFront, length_bytesOf]
    · dsimp only
      rw [hBefore, hFront, numberOf_bytesOf]
      exact if_pos rfl

/- A field is there if its flag is set, and only then. -/
def IsField
    (flags flag : Nat)
    (form : List UInt8 → Prop)
    (bytes : List UInt8) : Prop :=
  if flags.testBit flag then form bytes else bytes = []

theorem field_skips
    {skip : List UInt8 → Except Fault (List UInt8)}
    {form : List UInt8 → Prop}
    (flags flag : Nat)
    (h : Skips skip form bytes) :
    Skips (field flags flag skip) (IsField flags flag form)
      bytes := by
  intro rest
  unfold field IsField
  by_cases hFlag : flags.testBit flag = true
  · simp only [if_pos hFlag]
    exact h rest
  · simp only [if_neg hFlag, Except.ok.injEq]
    constructor
    · intro hSame
      exact ⟨[], rfl, hSame⟩
    · intro hFront
      rcases hFront with ⟨front, rfl, hSame⟩
      exact hSame

------------------------------------------------------------
-- Headers
------------------------------------------------------------

/-
  The ten bytes that begin a header: two bytes that mark the
  format, the method, the flags, and six bytes of time, effort
  and system, which are not looked at.
-/
def startOf
    (flags : UInt8)
    (others : List UInt8) : List UInt8 :=
  0x1f :: 0x8b :: 8 :: flags :: others

/- The bytes of a header, field by field. -/
inductive IsHeader : List UInt8 → Prop where
  | fields
      {flags : UInt8}
      {others extra name comment check : List UInt8}
      (hFlags : flags.toNat < 32)
      (hOthers : others.length = 6)
      (hExtra : IsField flags.toNat 2 IsExtra extra)
      (hName : IsField flags.toNat 3 (IsText longestField) name)
      (hComment :
        IsField flags.toNat 4 (IsText longestField) comment)
      (hCheck :
        IsField flags.toNat 1
          (IsCheck
            (startOf flags others ++ extra ++ name ++ comment))
          check) :
      IsHeader
        (startOf flags others ++ extra ++ name ++ comment ++
          check)

/- Ten bytes without flags are a header. -/
theorem isHeader_startOf
    {others : List UInt8}
    (hOthers : others.length = 6) :
    IsHeader (startOf 0 others) := by
  have hHeader :
      IsHeader (startOf 0 others ++ [] ++ [] ++ [] ++ []) :=
    .fields (by decide) hOthers rfl rfl rfl rfl
  simpa using hHeader

/- Ten bytes with the marks of the format begin a header. -/
theorem exists_eq_startOf
    {start : List UInt8}
    (hLength : start.length = 10)
    (hMarks : start.take 3 = header.take 3) :
    ∃ flags others,
      others.length = 6 ∧ start = startOf flags others := by
  match start, hLength with
  | a :: b :: c :: flags :: others, hLength =>
      simp only [header, List.take_succ_cons, List.take_zero,
        List.cons.injEq, and_true] at hMarks
      rcases hMarks with ⟨rfl, rfl, rfl⟩
      exact ⟨flags, others, by simpa using hLength, rfl⟩

theorem exists_header_of_skipHeader
    {file rest : List UInt8}
    (h : skipHeader file = .ok rest) :
    ∃ head, IsHeader head ∧ file = head ++ rest := by
  rcases Except.bind_eq_ok_iff.mp h with
    ⟨⟨start, bytes₁⟩, hStart, hFields⟩
  rcases takeBytes_eq_ok_iff.mp hStart with ⟨hTen, rfl⟩
  dsimp only at hFields
  split at hFields
  · rename_i hFormat
    rcases exists_eq_startOf hTen hFormat.1 with
      ⟨flags, others, hOthers, rfl⟩
    rcases Except.bind_eq_ok_iff.mp hFields with
      ⟨bytes₂, hBytes₂, hFields⟩
    rcases Except.bind_eq_ok_iff.mp hFields with
      ⟨bytes₃, hBytes₃, hFields⟩
    rcases Except.bind_eq_ok_iff.mp hFields with
      ⟨bytes₄, hBytes₄, hBytes₅⟩
    rcases (field_skips _ 2 (skipExtra_skips _) _).mp hBytes₂
      with ⟨extra, hExtra, rfl⟩
    rcases (field_skips _ 3 (skipText_skips _ _) _).mp hBytes₃
      with ⟨name, hName, rfl⟩
    rcases (field_skips _ 4 (skipText_skips _ _) _).mp hBytes₄
      with ⟨comment, hComment, rfl⟩
    rw [← List.append_assoc, ← List.append_assoc,
      ← List.append_assoc] at hBytes₅
    rcases (field_skips _ 1 (skipCheck_skips _ _) _).mp hBytes₅
      with ⟨check, hCheck, rfl⟩
    refine ⟨startOf flags others ++ extra ++ name ++ comment ++
      check, ?_, ?_⟩
    · exact .fields hFormat.2 hOthers hExtra hName hComment
        hCheck
    · simp only [List.append_assoc]
  · cases hFields

theorem skipHeader_append
    {head : List UInt8}
    (rest : List UInt8)
    (h : IsHeader head) :
    skipHeader (head ++ rest) = .ok rest := by
  cases h with
  | @fields flags others extra name comment check hFlags hOthers
      hExtra hName hComment hCheck =>
      have hTen : (startOf flags others).length = 10 := by
        rw [startOf]
        simp only [List.length_cons, hOthers]
      simp only [List.append_assoc]
      apply Except.bind_eq_ok_iff.mpr
      refine ⟨_, takeBytes_append _ hTen, ?_⟩
      dsimp only
      rw [if_pos ⟨rfl, hFlags⟩]
      apply Except.bind_eq_ok_iff.mpr
      refine ⟨_, (field_skips _ 2 (skipExtra_skips _) _).mpr
        ⟨extra, hExtra, rfl⟩, ?_⟩
      apply Except.bind_eq_ok_iff.mpr
      refine ⟨_, (field_skips _ 3 (skipText_skips _ _) _).mpr
        ⟨name, hName, rfl⟩, ?_⟩
      apply Except.bind_eq_ok_iff.mpr
      refine ⟨_, (field_skips _ 4 (skipText_skips _ _) _).mpr
        ⟨comment, hComment, rfl⟩, ?_⟩
      rw [← List.append_assoc, ← List.append_assoc,
        ← List.append_assoc]
      exact (field_skips _ 1 (skipCheck_skips _ _) _).mpr
        ⟨check, hCheck, rfl⟩

/- What is skipped at the beginning of a file is its header. -/
theorem skipHeader_skips (file : List UInt8) :
    Skips skipHeader IsHeader file := by
  intro rest
  constructor
  · exact exists_header_of_skipHeader
  · intro h
    rcases h with ⟨head, hHead, rfl⟩
    exact skipHeader_append rest hHead

end Gzip

end CodecChain
