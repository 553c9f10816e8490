import CodecChain.Hex
import CodecChain.Proofs.Text.Utf8

/-
  Hexadecimal digits are read as the bytes they were written
  for. Each of them is one byte, which is what reading looks
  at.

  Key definitions include:
    * `Hex.code`

  Main statements:
    * `Hex.toBytes_ofBytes`
-/

namespace CodecChain

namespace Hex

------------------------------------------------------------
-- Digits
------------------------------------------------------------

/- The byte of a character that takes no more than one. -/
def code (c : Char) : UInt8 :=
  UInt8.ofNat c.toNat

theorem toNat_code
    {c : Char}
    (h : c.toNat < 0x80) :
    (code c).toNat = c.toNat := by
  rw [code, UInt8.toNat_ofNat', Nat.mod_eq_of_lt (by omega)]

theorem value?_code_digit
    {n : Nat}
    (h : n < 16) :
    value? (code (digit n)) = some n := by
  decide +revert

theorem toNat_digit_lt
    {n : Nat}
    (h : n < 16) :
    (digit n).toNat < 0x80 := by
  decide +revert

theorem ofBytes_cons
    (b : UInt8)
    (bytes : List UInt8) :
    ofBytes (b :: bytes) =
      digit (b.toNat / 16) :: digit (b.toNat % 16) ::
        ofBytes bytes :=
  rfl

/- Digits take one byte each. -/
theorem toNat_lt_of_mem_ofBytes
    {bytes : List UInt8}
    {c : Char}
    (h : c ∈ ofBytes bytes) :
    c.toNat < 0x80 := by
  rcases List.mem_flatMap.mp h with ⟨b, -, hDigit⟩
  have hByte := b.toNat_lt
  rw [ofByte, List.mem_cons, List.mem_singleton] at hDigit
  rcases hDigit with rfl | rfl
  · exact toNat_digit_lt (by omega)
  · exact toNat_digit_lt (by omega)

theorem encode_ofBytes (bytes : List UInt8) :
    Utf8.encode (ofBytes bytes) = (ofBytes bytes).map code :=
  Utf8.encode_eq_map fun _ hc => toNat_lt_of_mem_ofBytes hc

theorem length_ofBytes (bytes : List UInt8) :
    (ofBytes bytes).length = 2 * bytes.length := by
  induction bytes with
  | nil => rfl
  | cons b bytes ih =>
      rw [ofBytes_cons, List.length_cons, List.length_cons, ih,
        List.length_cons]
      omega

------------------------------------------------------------
-- Round Trip
------------------------------------------------------------

theorem valueAt_of_value?
    {b : UInt8}
    {n : Nat}
    (index : Nat)
    (h : value? b = some n) :
    valueAt index b = .ok n := by
  rw [valueAt, h]

/- Two digits of a byte are read as this byte. -/
theorem pairs_cons_cons
    {high low b : UInt8}
    (index : Nat)
    (rest : List UInt8)
    (hHigh : value? high = some (b.toNat / 16))
    (hLow : value? low = some (b.toNat % 16)) :
    pairs index (high :: low :: rest) =
      (pairs (index + 2) rest).map (b :: ·) := by
  have hWhole : b.toNat / 16 * 16 + b.toNat % 16 = b.toNat := by
    omega
  rw [pairs, valueAt_of_value? index hHigh,
    valueAt_of_value? (index + 1) hLow]
  simp only [bind, Except.bind, hWhole, UInt8.ofNat_toNat]
  cases pairs (index + 2) rest <;> rfl

theorem pairs_ofBytes
    (index : Nat)
    (bytes : List UInt8) :
    pairs index ((ofBytes bytes).map code) = .ok bytes := by
  induction bytes generalizing index with
  | nil => rfl
  | cons b bytes ih =>
      have hByte := b.toNat_lt
      have hHigh := value?_code_digit (n := b.toNat / 16) (by omega)
      have hLow := value?_code_digit (n := b.toNat % 16) (by omega)
      rw [ofBytes_cons, List.map_cons, List.map_cons,
        pairs_cons_cons index _ hHigh hLow, ih]
      rfl

/- The digits of bytes are read as these bytes. -/
theorem toBytes_ofBytes (bytes : List UInt8) :
    toBytes (ofBytes bytes) = .ok bytes := by
  have hEven :
      ¬((ofBytes bytes).map code).length % 2 = 1 := by
    rw [List.length_map, length_ofBytes]
    omega
  rw [toBytes, encode_ofBytes, ofDigits, if_neg hEven,
    pairs_ofBytes]
  rfl

end Hex

end CodecChain
