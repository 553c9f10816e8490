import CodecChain.Proofs.Text.Utf8
import Mathlib.Algebra.Group.Nat.Defs
import Mathlib.Order.Bounds.Basic

/-
  Bytes that are no text. Reading fails behind the longest
  part, from the beginning, that is the bytes of a text. What
  can follow there has the form of a character: too long for
  its code point, or for a code point that is no character,
  or without its last bytes.

  Key definitions include:
    * `Utf8.frontSizes`
    * `Utf8.sequence`
    * `Utf8.IsBroken`

  Main statements:
    * `Utf8.decode_eq_error_iff`
    * `Utf8.sequence_eq_encodeChar`
    * `Utf8.IsBroken.decode_encode_append`
-/

------------------------------------------------------------
-- Longest Parts
------------------------------------------------------------

namespace CodecChain

namespace Utf8

variable {bytes rest : List UInt8}

/-
  The sizes of the parts of bytes, from their beginning, that
  are the bytes of a text.
-/
def frontSizes (bytes : List UInt8) : Set Nat :=
  {n | ∃ t, encode t <+: bytes ∧ size t = n}

/- Reading stops where no character begins. -/
theorem decode_encode_append
    (t : Text)
    (hRest : rest ≠ [])
    (hNone : leading rest = none) :
    decode (encode t ++ rest) = .error (size t) := by
  have hScan : scan [] (encode t ++ rest) = (t, rest) := by
    rw [scan_encode_append, scan, hNone, List.append_nil,
      List.reverse_reverse]
  cases rest with
  | nil => exact absurd rfl hRest
  | cons b rest =>
      rw [decode, hScan]
      dsimp only
      rw [List.length_append, Nat.add_sub_cancel, size]

theorem exists_of_decode_eq_error
    {k : Nat}
    (h : decode bytes = .error k) :
    ∃ t rest,
      bytes = encode t ++ rest ∧ rest ≠ [] ∧
        leading rest = none ∧ size t = k := by
  unfold decode at h
  rcases hScan : scan [] bytes with ⟨t, rest⟩
  rw [hScan] at h
  rcases exists_of_scan_eq hScan with ⟨_, rfl, rfl, hNone⟩
  cases rest with
  | nil => cases h
  | cons b rest =>
      refine ⟨_, _, rfl, List.cons_ne_nil b rest, hNone, ?_⟩
      dsimp only at h
      rw [List.length_append, Nat.add_sub_cancel] at h
      exact Except.error.inj h

/-
  No text goes further than to where no character begins: from
  its end, reading would come to the same place.
-/
theorem size_le_of_isPrefix
    {s t : Text}
    (h : encode s <+: encode t ++ rest)
    (hNone : leading rest = none) :
    size s ≤ size t := by
  rcases h with ⟨more, hMore⟩
  have hScan : scan [] (encode t ++ rest) = (t, rest) := by
    rw [scan_encode_append, scan, hNone, List.append_nil,
      List.reverse_reverse]
  rw [← hMore, scan_encode_append] at hScan
  rcases exists_of_scan_eq hScan with ⟨read, rfl, -, -⟩
  rw [List.append_nil, List.reverse_reverse, size, size,
    encode_append, List.length_append]
  exact Nat.le_add_right _ _

theorem isGreatest_of_decode
    {k : Nat}
    (h : decode bytes = .error k) :
    IsGreatest (frontSizes bytes) k := by
  rcases exists_of_decode_eq_error h with
    ⟨t, rest, rfl, -, hNone, rfl⟩
  constructor
  · exact ⟨t, List.prefix_append _ _, rfl⟩
  · rintro _ ⟨s, hFront, rfl⟩
    exact size_le_of_isPrefix hFront hNone

theorem lt_length_of_decode
    {k : Nat}
    (h : decode bytes = .error k) :
    k < bytes.length := by
  rcases exists_of_decode_eq_error h with
    ⟨t, rest, rfl, hRest, -, rfl⟩
  have hSome := List.length_pos_iff.mpr hRest
  rw [List.length_append, size]
  omega

/-
  Bytes are refused exactly if they are not those of a text,
  at the size of the longest part that is.
-/
theorem decode_eq_error_iff
    {k : Nat} :
    decode bytes = .error k ↔
      (∀ t, bytes ≠ encode t) ∧
        IsGreatest (frontSizes bytes) k := by
  constructor
  · intro h
    refine ⟨?_, isGreatest_of_decode h⟩
    rintro t rfl
    rw [decode_encode] at h
    cases h
  · rintro ⟨hNone, hGreatest⟩
    cases hDecode : decode bytes with
    | ok t =>
        exact absurd (decode_eq_ok_iff.mp hDecode) (hNone t)
    | error j =>
        rw [(isGreatest_of_decode hDecode).unique hGreatest]

------------------------------------------------------------
-- Sequences
------------------------------------------------------------

/- The bytes for the low bits of a number, six bits each. -/
def continuations : Nat → Nat → List UInt8
  | 0, _ => []
  | k + 1, n => continuation (n / 64 ^ k) :: continuations k n

/-
  The form of a character of more than one byte: a first byte
  of as many ones as there are bytes, a zero and the high bits
  of a number, and the bytes for the other bits.
-/
def sequence (k n : Nat) : List UInt8 :=
  UInt8.ofNat (0x100 - 2 ^ (7 - k) + n / 64 ^ k) ::
    continuations k n

/- A slash, a surrogate and a number behind the last character. -/
example :
    sequence 1 0x2f = [0xc0, 0xaf] ∧
      sequence 2 0xd800 = [0xed, 0xa0, 0x80] ∧
      sequence 3 0x110000 = [0xf4, 0x90, 0x80, 0x80] := by
  decide

/- The number of numbers for which a sequence has the bits. -/
def room (k : Nat) : Nat :=
  2 ^ (5 * k + 6)

/- The least number for which no shorter form has the bits. -/
def least : Nat → Nat
  | 0 => 0
  | 1 => 0x80
  | k + 2 => room (k + 1)

theorem room_le_room
    {j k : Nat}
    (h : j ≤ k) :
    room j ≤ room k :=
  Nat.pow_le_pow_right Nat.two_pos (by omega)

theorem least_le_room (k : Nat) :
    least k ≤ room k := by
  match k with
  | 0 => exact Nat.zero_le _
  | 1 => decide
  | k + 2 => exact room_le_room (by omega)

theorem length_continuations (k n : Nat) :
    (continuations k n).length = k := by
  induction k with
  | zero => rfl
  | succ k ih => rw [continuations, List.length_cons, ih]

theorem continued_continuations
    (k n : Nat)
    (rest : List UInt8) :
    continued k (n / 64 ^ k) (continuations k n ++ rest) =
      some (n, rest) := by
  induction k with
  | zero =>
      rw [pow_zero, Nat.div_one]
      rfl
  | succ k ih =>
      have hBits :
          n / 64 ^ (k + 1) * 64 + n / 64 ^ k % 64 =
            n / 64 ^ k := by
        rw [pow_succ, ← Nat.div_div_eq_div_mul]
        omega
      rw [continuations, List.cons_append,
        continued_continuation, hBits, ih]

/- Without its last bytes, a character is not continued. -/
theorem continued_eq_none_of_length_lt
    {k : Nat}
    (n : Nat)
    (h : bytes.length < k) :
    continued k n bytes = none := by
  rw [Option.eq_none_iff_forall_ne_some]
  rintro ⟨m, rest⟩ hSome
  induction k generalizing n bytes with
  | zero => exact absurd h (Nat.not_lt_zero _)
  | succ k ih =>
      rw [continued_succ_eq_some_iff] at hSome
      rcases hSome with ⟨d, later, -, rfl, hLater⟩
      rw [List.length_cons] at h
      exact ih _ (by omega) hLater

/- First bytes of more than four ones announce nothing. -/
theorem announce_eq_none
    {b : UInt8}
    (h : 0xf8 ≤ b.toNat) :
    announce b = none := by
  rw [announce, if_neg (by omega), if_neg (by omega),
    if_neg (by omega), if_neg (by omega), if_neg (by omega)]

/-
  Up to three bytes may continue a first one, which announces
  them. Other first bytes are no beginning.
-/
theorem announce_sequence
    {k n : Nat}
    (hSome : 0 < k)
    (hFew : k ≤ 5)
    (hRoom : n < room k) :
    announce (UInt8.ofNat (0x100 - 2 ^ (7 - k) + n / 64 ^ k)) =
      if k ≤ 3 then some (k, least k, n / 64 ^ k) else none := by
  -- The marks and the room of each length are other numbers.
  have hCount : k = 1 ∨ k = 2 ∨ k = 3 ∨ k = 4 ∨ k = 5 := by
    omega
  rcases hCount with rfl | rfl | rfl | rfl | rfl
  · have hBits : n < 0x800 := hRoom
    exact announce_eq_some_iff.mpr
      (Announces.two (n := n / 64) (by omega))
  · have hBits : n < 0x10000 := hRoom
    exact announce_eq_some_iff.mpr
      (Announces.three (n := n / 4096) (by omega))
  · have hBits : n < 0x200000 := hRoom
    exact announce_eq_some_iff.mpr
      (Announces.four (n := n / 262144) (by omega))
  · have hBits : n < 0x4000000 := hRoom
    show announce (UInt8.ofNat (0xf8 + n / 16777216)) = none
    apply announce_eq_none
    rw [UInt8.toNat_ofNat']
    omega
  · have hBits : n < 0x80000000 := hRoom
    show announce (UInt8.ofNat (0xfc + n / 1073741824)) = none
    apply announce_eq_none
    rw [UInt8.toNat_ofNat']
    omega

/- A sequence is read as the character of its number, if any. -/
theorem leading_sequence_append
    {k n : Nat}
    (rest : List UInt8)
    (hSome : 0 < k)
    (hFew : k ≤ 5)
    (hRoom : n < room k) :
    leading (sequence k n ++ rest) =
      if k ≤ 3 then (scalar? (least k) n).map (·, rest)
      else none := by
  rw [sequence, List.cons_append, leading,
    announce_sequence hSome hFew hRoom]
  by_cases hShort : k ≤ 3
  · rw [if_pos hShort, if_pos hShort]
    show (continued k _ _).bind _ = _
    rw [continued_continuations, Option.bind_some]
    cases hChar : scalar? (least k) n with
    | none => simp [hChar]
    | some c => simp [hChar]
  · rw [if_neg hShort, if_neg hShort]
    rfl

/-
  The sequence of a character whose code point needs it is what
  is written for the character.
-/
theorem sequence_eq_encodeChar
    {k : Nat}
    {c : Char}
    (hSome : 0 < k)
    (hLeast : least k ≤ c.toNat)
    (hRoom : c.toNat < room k) :
    sequence k c.toNat = encodeChar c := by
  have hShort : k ≤ 3 := by
    by_contra hLong
    have hFew : k = k - 2 + 2 := by omega
    have hLarge : room 3 ≤ least k := by
      rw [hFew, least]
      exact room_le_room (by omega)
    have hBound : room 3 = 0x200000 := rfl
    have hCode := toNat_lt c
    omega
  have hRead :
      leading (sequence k c.toNat ++ []) = some (c, []) := by
    rw [leading_sequence_append [] hSome (by omega) hRoom,
      if_pos hShort, scalar?_eq_some_iff.mpr ⟨hLeast, rfl⟩]
    rfl
  rw [leading_eq_some_iff, List.append_nil,
    List.append_nil] at hRead
  exact hRead

------------------------------------------------------------
-- Broken Sequences
------------------------------------------------------------

/-
  Beginnings at which there is no character: a sequence that
  is too long for its number, one for a number that is no code
  point of a character, and a sequence without its last bytes
  at the end of everything.
-/
inductive IsBroken : List UInt8 → Prop where
  | overlong
      {k n : Nat}
      (rest : List UInt8)
      (hSome : 0 < k)
      (hFew : k ≤ 5)
      (h : n < least k) :
      IsBroken (sequence k n ++ rest)
  | surrogate
      {n : Nat}
      (rest : List UInt8)
      (h : 0xd800 ≤ n ∧ n ≤ 0xdfff) :
      IsBroken (sequence 2 n ++ rest)
  | tooLarge
      {k n : Nat}
      (rest : List UInt8)
      (hFew : k ≤ 5)
      (h : 0x10ffff < n)
      (hRoom : n < room k) :
      IsBroken (sequence k n ++ rest)
  | cutOff
      {k n : Nat}
      {front : List UInt8}
      (hFew : k ≤ 5)
      (hRoom : n < room k)
      (hSome : front ≠ [])
      (hFront : front <+: sequence k n)
      (hShort : front ≠ sequence k n) :
      IsBroken front

theorem leading_sequence_eq_none
    {k n : Nat}
    (rest : List UInt8)
    (hSome : 0 < k)
    (hFew : k ≤ 5)
    (hRoom : n < room k)
    (h : n < least k ∨ ¬n.isValidChar) :
    leading (sequence k n ++ rest) = none := by
  have hChar : scalar? (least k) n = none := by
    rw [Option.eq_none_iff_forall_ne_some]
    intro c hSome
    rw [scalar?_eq_some_iff] at hSome
    rcases hSome with ⟨hLeast, rfl⟩
    rcases h with hLess | hInvalid
    · omega
    · exact hInvalid c.valid
  rw [leading_sequence_append rest hSome hFew hRoom, hChar,
    Option.map_none, ite_self]

/- A sequence without its last bytes is no character. -/
theorem leading_eq_none_of_cutOff
    {k n : Nat}
    {front : List UInt8}
    (hFew : k ≤ 5)
    (hRoom : n < room k)
    (hFront : front <+: sequence k n)
    (hShort : front ≠ sequence k n) :
    leading front = none := by
  cases front with
  | nil => rfl
  | cons b more =>
      have hLength : more.length < k := by
        have hLe := hFront.length_le
        have hNe := mt hFront.eq_of_length hShort
        rw [sequence, List.length_cons, List.length_cons,
          length_continuations] at hLe hNe
        omega
      rw [sequence, List.cons_prefix_cons] at hFront
      rw [hFront.1, leading,
        announce_sequence (by omega) hFew hRoom]
      by_cases hThree : k ≤ 3
      · rw [if_pos hThree]
        show (continued k _ _).bind _ = _
        rw [continued_eq_none_of_length_lt _ hLength,
          Option.bind_none]
      · rw [if_neg hThree]
        rfl

namespace IsBroken

theorem ne_nil
    (h : IsBroken bytes) :
    bytes ≠ [] := by
  cases h with
  | overlong => exact List.cons_ne_nil _ _
  | surrogate => exact List.cons_ne_nil _ _
  | tooLarge => exact List.cons_ne_nil _ _
  | cutOff _ _ hSome => exact hSome

theorem leading_eq_none
    (h : IsBroken bytes) :
    leading bytes = none := by
  cases h with
  | @overlong k n rest hSome hFew hLess =>
      have hRoom := least_le_room k
      exact leading_sequence_eq_none rest hSome hFew
        (by omega) (Or.inl hLess)
  | @surrogate n rest hSurrogate =>
      have hRoom : room 2 = 0x10000 := rfl
      apply leading_sequence_eq_none rest (by omega)
        (by omega) (by omega)
      right
      unfold Nat.isValidChar
      omega
  | @tooLarge k n rest hFew hLarge hRoom =>
      have hSome : 0 < k := by
        by_contra hNone
        have hZero : k = 0 := by omega
        have hLess : room 0 = 64 := rfl
        rw [hZero] at hRoom
        omega
      apply leading_sequence_eq_none rest hSome hFew hRoom
      right
      unfold Nat.isValidChar
      omega
  | cutOff hFew hRoom _ hFront hShort =>
      exact leading_eq_none_of_cutOff hFew hRoom hFront hShort

/- Reading stops at what is broken. -/
theorem decode_encode_append
    (t : Text)
    (h : IsBroken rest) :
    decode (encode t ++ rest) = .error (size t) :=
  Utf8.decode_encode_append t h.ne_nil h.leading_eq_none

end IsBroken

end Utf8

end CodecChain
