import CodecChain.Proofs.Codec.Canonical
import CodecChain.Proofs.Codec.Framing
import CodecChain.Proofs.Codec.HexDigits
import CodecChain.Proofs.Text.WellFormed

/-
  Texts that carry bytes. Every codec but the one for runs
  takes bytes out of a text before it reads them as a text
  again. What is wrong with the bytes is found in the same
  way by all of them: nothing but the bytes of a text goes
  on, and the others are refused behind the longest part that
  is a text.

  Key definitions include:
    * `Codec.Carries`

  Main statements:
    * `Codec.Carries.decode_eq`
    * `Codec.exists_carries`
    * `Codec.passes_on_utf8`
-/

------------------------------------------------------------
-- Carried Bytes
------------------------------------------------------------

namespace CodecChain

namespace Codec

variable {codec : Codec} {t : Text} {bytes : List UInt8}

/-
  The texts in which a codec finds bytes: digits in either
  case, base64 text, and base64 text of a payload that holds
  the bytes and nothing after them.
-/
inductive Carries : Codec → Text → List UInt8 → Prop where
  | hex
      {t : Text}
      {bytes : List UInt8}
      (h : t.map Hex.capital = Hex.ofBytes bytes) :
      Carries hex t bytes
  | base64
      (bytes : List UInt8) :
      Carries base64 (Base64.ofBytes bytes) bytes
  | payload
      {codec : Codec}
      {unpack :
        List UInt8 →
          Except Gzip.Fault (List UInt8 × List UInt8)}
      {payload bytes : List UInt8}
      (hUnpacks : codec.Unpacks unpack)
      (h : unpack payload = .ok (bytes, [])) :
      Carries codec (Base64.ofBytes payload) bytes

/- All bytes are carried by some text, whatever the codec. -/
theorem exists_carries
    (bytes : List UInt8)
    (h : codec ≠ runLength) :
    ∃ t, codec.Carries t bytes := by
  cases codec with
  | hex =>
      exact ⟨Hex.ofBytes bytes,
        .hex (Hex.toBytes_eq_ok_iff.mp
          (Hex.toBytes_ofBytes bytes))⟩
  | base64 => exact ⟨_, .base64 bytes⟩
  | gzip =>
      have hFile := Gzip.decompress_compress_append bytes []
      rw [List.append_nil] at hFile
      exact ⟨_, .payload .gzip hFile⟩
  | deflate =>
      have hStream := Compressor.inflate_compress bytes
      exact ⟨_, .payload .deflate
        (Except.mapError_eq_ok_iff.mpr hStream)⟩
  | runLength => exact absurd rfl h

/- What is decoded depends on the carried bytes alone. -/
theorem Carries.decode_eq
    (h : codec.Carries t bytes) :
    codec.decode t = codec.textOf bytes := by
  cases h with
  | hex h =>
      rw [decode, Hex.toBytes_eq_ok_iff.mpr h]
      rfl
  | base64 bytes =>
      rw [decode, base64Bytes_ofBytes]
      rfl
  | payload hUnpacks h =>
      rw [hUnpacks.decode_ofBytes, h]
      rfl

theorem Carries.decode_eq_ok_iff
    {s : Text}
    (h : codec.Carries t bytes) :
    codec.decode t = .ok s ↔ bytes = Utf8.encode s := by
  rw [h.decode_eq, textOf, Except.mapError_eq_ok_iff,
    Utf8.decode_eq_ok_iff]

theorem Carries.decode_of_error
    {k : Nat}
    (h : codec.Carries t bytes)
    (hBytes : Utf8.decode bytes = .error k) :
    codec.decode t = .error ⟨codec, .notUtf8 k⟩ := by
  rw [h.decode_eq, textOf, hBytes]
  rfl

------------------------------------------------------------
-- Bytes and Texts
------------------------------------------------------------

/-
  Only the bytes of a text go on as a text. A text that carries
  other bytes is refused at the size of the longest part, from
  the beginning, that is the bytes of a text, which is not all
  of them. So it is with a sequence that is too long for its
  number, with one for a surrogate or for a number that is too
  large, and with one that is cut off at the end.
-/
theorem passes_on_utf8
    (h : codec.Carries t bytes) :
    (∀ s, codec.decode t = .ok s ↔ bytes = Utf8.encode s) ∧
    ((∀ s, bytes ≠ Utf8.encode s) →
      ∃ e k,
        codec.decode t = .error e ∧
        e.codec = codec ∧
        e.fault.reason = "result is not valid UTF-8" ∧
        e.fault.offset? = some k ∧
        IsGreatest
          {n | ∃ s, Utf8.encode s <+: bytes ∧
            (Utf8.encode s).length = n} k ∧
        k < bytes.length) ∧
    (∀ s rest,
      bytes = Utf8.encode s ++ rest → Utf8.IsBroken rest →
      ∃ e,
        codec.decode t = .error e ∧
        e.codec = codec ∧
        e.fault.reason = "result is not valid UTF-8" ∧
        e.fault.offset? = some (Utf8.encode s).length) := by
  refine ⟨fun _ => h.decode_eq_ok_iff, ?_, ?_⟩
  · intro hNone
    cases hBytes : Utf8.decode bytes with
    | ok s =>
        exact absurd (Utf8.decode_eq_ok_iff.mp hBytes) (hNone s)
    | error k =>
        exact ⟨_, k, h.decode_of_error hBytes, rfl, rfl, rfl,
          Utf8.isGreatest_of_decode hBytes,
          Utf8.lt_length_of_decode hBytes⟩
  · rintro s rest rfl hBroken
    exact ⟨_,
      h.decode_of_error (hBroken.decode_encode_append s), rfl,
      rfl, rfl⟩

/-
  Digits in both cases that carry a letter and a byte that
  begins no character, and a file of a letter and of a slash
  that is too long.
-/
theorem passes_on_utf8_of_letter :
    (∃ e k,
      hex.decode (.ofString "41fF42") = .error e ∧
      e.fault.offset? = some k ∧
      IsGreatest
        {n | ∃ s, Utf8.encode s <+: [0x41, 0xff, 0x42] ∧
          (Utf8.encode s).length = n} k) ∧
    ∃ e,
      gzip.decode
          (Base64.ofBytes (Gzip.compress [0x41, 0xc0, 0xaf])) =
        .error e ∧
      e.fault.offset? = some 1 := by
  have hDigits :
      hex.Carries (.ofString "41fF42") [0x41, 0xff, 0x42] :=
    .hex rfl
  have hFile :
      gzip.Carries
        (Base64.ofBytes (Gzip.compress [0x41, 0xc0, 0xaf]))
        [0x41, 0xc0, 0xaf] := by
    have hRead :=
      Gzip.decompress_compress_append [0x41, 0xc0, 0xaf] []
    rw [List.append_nil] at hRead
    exact .payload .gzip hRead
  constructor
  · have hNone :
        ∀ s, [0x41, 0xff, 0x42] ≠ Utf8.encode s := by
      intro s hSame
      have hDecode := Utf8.decode_eq_ok_iff.mpr hSame
      have hFails :
          Utf8.decode [0x41, 0xff, 0x42] = .error 1 := by
        decide +kernel
      rw [hFails] at hDecode
      cases hDecode
    rcases (passes_on_utf8 hDigits).2.1 hNone with
      ⟨e, k, hError, -, -, hOffset, hGreatest, -⟩
    exact ⟨e, k, hError, hOffset, hGreatest⟩
  · have hBroken : Utf8.IsBroken [0xc0, 0xaf] :=
      .overlong (k := 1) (n := 0x2f) [] (by decide) (by decide)
        (by decide)
    rcases (passes_on_utf8 hFile).2.2 ['A'] _ rfl hBroken with
      ⟨e, hError, -, -, hOffset⟩
    exact ⟨e, hError, hOffset⟩

end Codec

end CodecChain
