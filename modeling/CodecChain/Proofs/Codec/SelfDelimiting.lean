import CodecChain.Proofs.Codec.Coding
import CodecChain.Proofs.Deflate.Searching
import CodecChain.Proofs.Deflate.Stable

/-
  Compressed payloads delimit themselves. Where a payload
  ends is settled by its own bytes, for files with a header
  as well as for bare streams: whatever follows a payload is
  found to follow it, and no part of a payload that stops
  before its end is accepted.

  Key definitions include:
    * `Gzip.Fault.IsCutShort`
    * `Codec.Unpacks`

  Main statements:
    * `Gzip.decompress_settles`
    * `Codec.Unpacks.decode_append`
    * `Codec.Unpacks.decode_front`
    * `Codec.delimits_payload`
-/

------------------------------------------------------------
-- Parts of Files
------------------------------------------------------------

namespace CodecChain

namespace Gzip

variable {more : List UInt8}

/- A fault of a file that stops before its end. -/
def Fault.IsCutShort : Fault → Prop
  | endOfFile | stream .incomplete => True
  | badHeader | longField | badChecksum | stream .corrupt => False

theorem takeBytes_settles
    (n : Nat)
    (bytes : List UInt8) :
    Except.Settles Fault.IsCutShort
      (fun p => (p.1, p.2 ++ more))
      (takeBytes n bytes) (takeBytes n (bytes ++ more)) := by
  unfold takeBytes
  dsimp only
  by_cases hShort : (bytes.take n).length < n
  · rw [if_pos hShort]
    exact .lack trivial
  have hLength : n ≤ bytes.length := by
    rw [List.length_take] at hShort
    omega
  rw [List.take_append_of_le_length hLength,
    List.drop_append_of_le_length hLength, if_neg hShort,
    if_neg hShort]
  exact .value (bytes.take n, bytes.drop n)

theorem skipText_settles
    (room : Nat)
    (bytes : List UInt8) :
    Except.Settles Fault.IsCutShort (· ++ more)
      (skipText room bytes) (skipText room (bytes ++ more)) := by
  fun_induction skipText room bytes with
  | case1 => exact .lack trivial
  | case2 room bytes =>
      unfold skipText
      exact .value bytes
  | case3 b bytes hMore =>
      rw [List.cons_append, skipText, if_neg hMore]
      exact .error Fault.longField
  | case4 b bytes hMore room ih =>
      rw [List.cons_append, skipText, if_neg hMore]
      exact ih

theorem field_settles
    {flags flag : Nat}
    {skip skip' : List UInt8 → Except Fault (List UInt8)}
    (hSkip :
      ∀ bytes, Except.Settles Fault.IsCutShort (· ++ more)
        (skip bytes) (skip' (bytes ++ more)))
    (bytes : List UInt8) :
    Except.Settles Fault.IsCutShort (· ++ more)
      (field flags flag skip bytes)
      (field flags flag skip' (bytes ++ more)) := by
  unfold field
  by_cases hFlag : flags.testBit flag = true
  · rw [if_pos hFlag, if_pos hFlag]
    exact hSkip bytes
  · rw [if_neg hFlag, if_neg hFlag]
    exact .value bytes

theorem skipExtra_settles (bytes : List UInt8) :
    Except.Settles Fault.IsCutShort (· ++ more)
      (skipExtra bytes) (skipExtra (bytes ++ more)) := by
  unfold skipExtra
  apply (takeBytes_settles 2 bytes).bind
  intro size
  apply (takeBytes_settles _ size.2).bind
  intro extra
  exact .value extra.2

/- The bytes that are checked all lie before the check value. -/
theorem skipCheck_settles (file bytes : List UInt8) :
    Except.Settles Fault.IsCutShort (· ++ more)
      (skipCheck file bytes)
      (skipCheck (file ++ more) (bytes ++ more)) := by
  have hBefore :
      (file ++ more).take
          ((file ++ more).length - (bytes ++ more).length) =
        file.take (file.length - bytes.length) := by
    rw [List.length_append, List.length_append,
      Nat.add_sub_add_right]
    exact List.take_append_of_le_length (Nat.sub_le _ _)
  unfold skipCheck
  apply (takeBytes_settles 2 bytes).bind
  intro check
  dsimp only
  rw [hBefore]
  split
  · exact .value check.2
  · exact .error Fault.badChecksum

------------------------------------------------------------
-- Files
------------------------------------------------------------

theorem skipHeader_settles (file : List UInt8) :
    Except.Settles Fault.IsCutShort (· ++ more)
      (skipHeader file) (skipHeader (file ++ more)) := by
  unfold skipHeader
  apply (takeBytes_settles 10 file).bind
  intro start
  dsimp only
  split
  · apply (field_settles skipExtra_settles start.2).bind
    intro bytes
    apply (field_settles (skipText_settles _) bytes).bind
    intro bytes
    apply (field_settles (skipText_settles _) bytes).bind
    intro bytes
    exact field_settles (skipCheck_settles file) bytes
  · exact .error Fault.badHeader

theorem ofStream_settles
    {α : Type}
    {grow : α → α}
    {x x' : Except Deflate.Fault α}
    (h : Except.Settles (· = .incomplete) grow x x') :
    Except.Settles Fault.IsCutShort grow (ofStream x)
      (ofStream x') := by
  apply h.mapError
  rintro fault rfl
  trivial

/-
  Bytes after a file are left alone, and do not mend what is
  wrong with it, unless the file stopped before its end.
-/
theorem decompress_settles (file : List UInt8) :
    Except.Settles Fault.IsCutShort
      (fun p => (p.1, p.2 ++ more))
      (decompress file) (decompress (file ++ more)) := by
  unfold decompress
  apply (skipHeader_settles file).bind
  intro bytes
  apply (ofStream_settles
    (Deflate.inflate_settles bytes more)).bind
  intro content
  apply (takeBytes_settles trailerSize content.2).bind
  intro check
  dsimp only
  split
  · exact .value (content.1, check.2)
  · exact .error Fault.badChecksum

end Gzip

end CodecChain

------------------------------------------------------------
-- Payloads
------------------------------------------------------------

namespace CodecChain

namespace Codec

/- How a codec takes the content out of compressed bytes. -/
inductive Unpacks :
    Codec →
      (List UInt8 →
        Except Gzip.Fault (List UInt8 × List UInt8)) →
      Prop where
  | gzip :
      Unpacks gzip Gzip.decompress
  | deflate :
      Unpacks deflate fun bytes =>
        Gzip.ofStream (Deflate.inflate bytes)

namespace Unpacks

variable {codec : Codec}
variable {unpack :
  List UInt8 → Except Gzip.Fault (List UInt8 × List UInt8)}
variable {payload content rest : List UInt8} {t : Text}

theorem settles
    (h : codec.Unpacks unpack)
    (bytes more : List UInt8) :
    Except.Settles Gzip.Fault.IsCutShort
      (fun p => (p.1, p.2 ++ more))
      (unpack bytes) (unpack (bytes ++ more)) := by
  cases h with
  | gzip => exact Gzip.decompress_settles bytes
  | deflate =>
      exact Gzip.ofStream_settles
        (Deflate.inflate_settles bytes more)

/- The bytes of base64 text are unpacked, and must be used up. -/
theorem decode_ofBytes
    (h : codec.Unpacks unpack)
    (payload : List UInt8) :
    codec.decode (Base64.ofBytes payload) =
      (do
        let (content, rest) ← codec.inflated (unpack payload)
        codec.allUsed payload.length rest
        codec.textOf content) := by
  cases h with
  | gzip =>
      rw [decode, base64Bytes_ofBytes]
      rfl
  | deflate =>
      rw [decode, base64Bytes_ofBytes]
      rfl

theorem decode_of_error
    {fault : Gzip.Fault}
    (h : codec.Unpacks unpack)
    (hUnpack : unpack payload = .error fault) :
    codec.decode (Base64.ofBytes payload) =
      .error ⟨codec, .compressed fault⟩ := by
  rw [h.decode_ofBytes, hUnpack]
  rfl

/- Bytes that are left over are an error, whatever was unpacked. -/
theorem decode_of_rest
    (h : codec.Unpacks unpack)
    (hUnpack : unpack payload = .ok (content, rest))
    (hRest : rest ≠ []) :
    codec.decode (Base64.ofBytes payload) =
      .error ⟨codec,
        .trailing rest.length
          (payload.length - rest.length)⟩ := by
  have hLeft : rest.isEmpty = false := by
    rw [List.isEmpty_eq_false_iff]
    exact hRest
  rw [h.decode_ofBytes, hUnpack]
  simp only [inflated, Except.mapError_ok, bind, Except.bind,
    allUsed, hLeft]
  rfl

/- An accepted payload is unpacked without anything left over. -/
theorem exists_unpack_of_decode
    (h : codec.Unpacks unpack)
    (hDecode :
      codec.decode (Base64.ofBytes payload) = .ok t) :
    ∃ content, unpack payload = .ok (content, []) := by
  rcases hUnpack : unpack payload with fault | ⟨content, rest⟩
  · rw [h.decode_of_error hUnpack] at hDecode
    cases hDecode
  by_cases hRest : rest = []
  · exact ⟨content, by rw [hRest]⟩
  · rw [h.decode_of_rest hUnpack hRest] at hDecode
    cases hDecode

------------------------------------------------------------
-- More and Fewer Bytes
------------------------------------------------------------

/- What follows an accepted payload is found to follow it. -/
theorem decode_append
    {junk : List UInt8}
    (h : codec.Unpacks unpack)
    (hDecode :
      codec.decode (Base64.ofBytes payload) = .ok t)
    (hJunk : junk ≠ []) :
    codec.decode (Base64.ofBytes (payload ++ junk)) =
      .error ⟨codec,
        .trailing junk.length payload.length⟩ := by
  rcases h.exists_unpack_of_decode hDecode with
    ⟨content, hUnpack⟩
  have hMore := h.settles payload junk
  rw [hUnpack] at hMore
  rw [h.decode_of_rest hMore.eq_ok hJunk, List.nil_append,
    List.length_append, Nat.add_sub_cancel]

/-
  The beginning of an accepted payload is cut short. If it
  were accepted or wrong in another way, so would be the
  payload, with the missing bytes left over.
-/
theorem decode_front
    {front back : List UInt8}
    (h : codec.Unpacks unpack)
    (hDecode :
      codec.decode (Base64.ofBytes (front ++ back)) = .ok t)
    (hBack : back ≠ []) :
    ∃ fault : Gzip.Fault,
      codec.decode (Base64.ofBytes front) =
          .error ⟨codec, .compressed fault⟩ ∧
        fault.IsCutShort := by
  rcases h.exists_unpack_of_decode hDecode with
    ⟨content, hUnpack⟩
  have hMore := h.settles front back
  rcases hFront : unpack front with fault | ⟨other, rest⟩
  · rw [hFront] at hMore
    refine ⟨fault, h.decode_of_error hFront, ?_⟩
    rcases hMore.lacks_or_eq_error with hLacks | hSame
    · exact hLacks
    · rw [hUnpack] at hSame
      cases hSame
  · rw [hFront] at hMore
    have hSame := hMore.eq_ok
    rw [hUnpack, Except.ok.injEq, Prod.mk.injEq] at hSame
    have hNothing := List.append_eq_nil_iff.mp hSame.2.symm
    exact absurd hNothing.2 hBack

end Unpacks

/-
  Compressed payloads delimit themselves. If a payload is
  accepted, then any bytes after it are counted and located
  at its end, and every beginning of it short of the whole is
  refused for stopping too early.
-/
theorem delimits_payload
    {codec : Codec}
    {payload : List UInt8}
    {t : Text}
    (hCodec : codec = .gzip ∨ codec = .deflate)
    (hDecode :
      codec.decode (Base64.ofBytes payload) = .ok t) :
    (∀ junk, junk ≠ [] →
      ∃ e,
        codec.decode (Base64.ofBytes (payload ++ junk)) =
          .error e ∧
        e.codec = codec ∧
        e.fault.offset? = some payload.length ∧
        e.fault.reason =
          s!"{junk.length} trailing bytes after compressed stream") ∧
    (∀ front, front <+: payload → front ≠ payload →
      ∃ e fault,
        codec.decode (Base64.ofBytes front) = .error e ∧
        e.codec = codec ∧
        e.fault = .compressed fault ∧
        fault.IsCutShort) := by
  have hUnpacks : ∃ unpack, codec.Unpacks unpack := by
    rcases hCodec with rfl | rfl
    · exact ⟨_, .gzip⟩
    · exact ⟨_, .deflate⟩
  rcases hUnpacks with ⟨unpack, h⟩
  constructor
  · intro junk hJunk
    exact ⟨_, h.decode_append hDecode hJunk, rfl, rfl, rfl⟩
  · rintro front ⟨back, rfl⟩ hShort
    have hBack : back ≠ [] := by
      rintro rfl
      exact hShort (List.append_nil front).symm
    rcases h.decode_front hDecode hBack with
      ⟨fault, hFront, hCut⟩
    exact ⟨_, fault, hFront, rfl, rfl, hCut⟩

/- Junk after a compressed file, and the file without its end. -/
theorem delimits_payload_of_file :
    (∃ e,
      Codec.gzip.decode
          (Base64.ofBytes
            (Gzip.compress (Utf8.encode (.ofString "payload")) ++
              Utf8.encode (.ofString "JUNKJUNKJ"))) =
        .error e ∧
      e.fault.reason =
        "9 trailing bytes after compressed stream") ∧
    ∃ e, Codec.gzip.decode (Base64.ofBytes Gzip.header) =
      .error e := by
  have hDecode := decode_encode .gzip (.ofString "payload")
  have hDelimits := delimits_payload (Or.inl rfl) hDecode
  have hShort :
      Gzip.header ≠
        Gzip.compress (Utf8.encode (.ofString "payload")) := by
    intro hSame
    have hLength := congrArg List.length hSame
    rw [Gzip.compress, List.length_append, List.length_append,
      Gzip.length_trailer, Gzip.trailerSize] at hLength
    omega
  constructor
  · rcases hDelimits.1 (Utf8.encode (.ofString "JUNKJUNKJ"))
      (by decide) with ⟨e, hError, -, -, hReason⟩
    exact ⟨e, hError, hReason⟩
  · rcases hDelimits.2 Gzip.header
      ⟨_, (List.append_assoc _ _ _).symm⟩ hShort with
      ⟨e, fault, hError, -⟩
    exact ⟨e, hError⟩

end Codec

end CodecChain
