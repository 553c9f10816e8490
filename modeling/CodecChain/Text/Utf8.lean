import CodecChain.Text.Basic

/-
  This file defines the UTF-8 form of a text and the reading
  of bytes as UTF-8. Reading fails at the end of the longest
  part of the input that is made of whole characters.

  Key definitions include:
    * `Utf8.encode`
    * `Utf8.leading`
    * `Utf8.scan`
    * `Utf8.decode`

  Main statements:
    * `Utf8.leading_length_lt`: reading a character uses at
      least one byte.
-/

namespace CodecChain.Utf8

------------------------------------------------------------
-- Encoding
------------------------------------------------------------

/- The byte that carries six further bits of a character. -/
def continuation (n : Nat) : UInt8 :=
  UInt8.ofNat (0x80 + n % 64)

/- The one to four bytes of a character. -/
def encodeChar (c : Char) : List UInt8 :=
  let n := c.toNat
  if n < 0x80 then
    [UInt8.ofNat n]
  else if n < 0x800 then
    [UInt8.ofNat (0xc0 + n / 64), continuation n]
  else if n < 0x10000 then
    [UInt8.ofNat (0xe0 + n / 4096),
      continuation (n / 64), continuation n]
  else
    [UInt8.ofNat (0xf0 + n / 262144),
      continuation (n / 4096),
      continuation (n / 64), continuation n]

/- The bytes of a text. -/
def encode (t : Text) : List UInt8 :=
  t.flatMap encodeChar

/- The number of bytes of a text. -/
def size (t : Text) : Nat :=
  (encode t).length

theorem encode_append
    (s t : Text) :
    encode (s ++ t) = encode s ++ encode t := by
  simp [encode]

------------------------------------------------------------
-- Decoding
------------------------------------------------------------

/-
  What a first byte announces: the number of continuation
  bytes, the least code point that needs that many, and the
  leading bits of the code point.
-/
def announce (b : UInt8) : Option (Nat × Nat × Nat) :=
  let n := b.toNat
  if n < 0x80 then some (0, 0, n)
  else if n < 0xc0 then none
  else if n < 0xe0 then some (1, 0x80, n - 0xc0)
  else if n < 0xf0 then some (2, 0x800, n - 0xe0)
  else if n < 0xf8 then some (3, 0x10000, n - 0xf0)
  else none

/-
  Add the bits of the given number of continuation bytes to
  a code point.
-/
def continued : Nat → Nat → List UInt8 → Option (Nat × List UInt8)
  | 0, n, bytes => some (n, bytes)
  | _ + 1, _, [] => none
  | k + 1, n, b :: bytes =>
      if 0x80 ≤ b.toNat ∧ b.toNat < 0xc0 then
        continued k (n * 64 + (b.toNat - 0x80)) bytes
      else
        none

/-
  The character of a code point that is not below the given
  one. Surrogates and code points past the last one have no
  character.
-/
def scalar? (least n : Nat) : Option Char :=
  if h : least ≤ n ∧ n.isValidChar then
    some (Char.ofNatAux n h.2)
  else
    none

/- The character that bytes begin with, and the other bytes. -/
def leading : List UInt8 → Option (Char × List UInt8)
  | [] => none
  | b :: bytes => do
      let (count, least, bits) ← announce b
      let (n, rest) ← continued count bits bytes
      let c ← scalar? least n
      pure (c, rest)

theorem continued_length_le
    {k n m : Nat}
    {bytes rest : List UInt8}
    (h : continued k n bytes = some (m, rest)) :
    rest.length ≤ bytes.length := by
  induction k generalizing n bytes with
  | zero =>
      simp only [continued, Option.some.injEq,
        Prod.mk.injEq] at h
      simp [h.2]
  | succ k ih =>
      cases bytes with
      | nil => simp [continued] at h
      | cons b bs =>
          simp only [continued] at h
          split at h
          · have := ih h
            simp only [List.length_cons]
            omega
          · simp at h

/- Reading a character uses at least one byte. -/
theorem leading_length_lt
    {bytes rest : List UInt8}
    {c : Char}
    (h : leading bytes = some (c, rest)) :
    rest.length < bytes.length := by
  cases bytes with
  | nil => simp [leading] at h
  | cons b bs =>
      simp only [leading, Option.bind_eq_bind,
        Option.bind_eq_some_iff] at h
      obtain ⟨⟨count, least, bits⟩, _, ⟨n, rest'⟩, hCont,
        d, _, hEq⟩ := h
      have hLe := continued_length_le hCont
      simp only [Option.pure_def, Option.some.injEq,
        Prod.mk.injEq] at hEq
      obtain ⟨_, rfl⟩ := hEq
      simp only [List.length_cons]
      omega

/-
  Read characters as long as there are any, after those read
  before (last one first): all characters in order, and the
  bytes that begin with no character.
-/
def scan
    (before : Text)
    (bytes : List UInt8) : Text × List UInt8 :=
  match _h : leading bytes with
  | none => (before.reverse, bytes)
  | some (c, rest) => scan (c :: before) rest
termination_by bytes.length
decreasing_by exact leading_length_lt _h

/-
  The text of bytes, or the length of the longest part at
  their beginning that is made of whole characters.
-/
def decode (bytes : List UInt8) : Except Nat Text :=
  match scan [] bytes with
  | (t, []) => .ok t
  | (_, rest) => .error (bytes.length - rest.length)

end CodecChain.Utf8
