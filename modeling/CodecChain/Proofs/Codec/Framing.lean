import CodecChain.Proofs.Codec.Header
import CodecChain.Proofs.Codec.SelfDelimiting
import CodecChain.Proofs.Deflate.Extent

/-
  Compressed files are framed streams. A file with a header
  is accepted exactly if it is a header, a stream that is
  accepted by itself, and the check value and the size of the
  text that the stream holds.

  Main statements:
    * `Gzip.decompress_frame`
    * `Gzip.decompress_eq_ok_iff`
    * `Codec.Unpacks.decode_eq_ok_iff`
    * `Codec.frames_deflate`
-/

------------------------------------------------------------
-- Files
------------------------------------------------------------

namespace CodecChain

namespace Gzip

variable {file head stream tail content rest : List UInt8}

/- The size in a trailer is that of the content, up to 2³². -/
theorem trailer_eq (content : List UInt8) :
    trailer content =
      bytesOf 4 (crc32 content).toNat ++
        bytesOf 4 (content.length % 2 ^ 32) := by
  have hSize :
      bytesOf 4 (content.length % 2 ^ 32) =
        bytesOf 4 content.length :=
    bytesOf_mod 4 content.length
  rw [trailer, hSize]

/- A header, a stream and a trailer, which has to be right. -/
theorem decompress_frame
    (rest : List UInt8)
    (hHead : IsHeader head)
    (hStream : Deflate.inflate stream = .ok (content, []))
    (hTail : tail.length = trailerSize) :
    decompress (head ++ stream ++ tail ++ rest) =
      if tail = trailer content then
        .ok (content, rest)
      else
        .error .badChecksum := by
  have hSettles :=
    Deflate.inflate_settles stream (tail ++ rest)
  rw [hStream] at hSettles
  have hInflate := hSettles.eq_ok
  rw [List.nil_append] at hInflate
  have hTaken := takeBytes_append rest hTail
  simp only [decompress, List.append_assoc,
    skipHeader_append _ hHead, bind, Except.bind, hInflate,
    ofStream, Except.mapError_ok, hTaken]
  rfl

/- Files are framed streams. -/
theorem decompress_eq_ok_iff :
    decompress file = .ok (content, rest) ↔
      ∃ head stream,
        IsHeader head ∧
        file = head ++ stream ++ trailer content ++ rest ∧
        Deflate.inflate stream = .ok (content, []) := by
  constructor
  · intro h
    rcases Except.bind_eq_ok_iff.mp h with
      ⟨bytes, hHeader, hFile⟩
    rcases Except.bind_eq_ok_iff.mp hFile with
      ⟨⟨content', bytes'⟩, hStream, hFile⟩
    rcases Except.bind_eq_ok_iff.mp hFile with
      ⟨⟨check, rest'⟩, hTrailer, hFile⟩
    dsimp only at hTrailer hFile
    split at hFile
    · rename_i hCheck
      cases hFile
      rcases (skipHeader_skips file _).mp hHeader with
        ⟨head, hHead, rfl⟩
      rcases Deflate.exists_stream_of_inflate
          (Except.mapError_eq_ok_iff.mp hStream) with
        ⟨stream, rfl, hSame⟩
      have hAlone := hSame []
      rw [List.append_nil] at hAlone
      refine ⟨head, stream, hHead, ?_, hAlone⟩
      rw [(takeBytes_eq_ok_iff.mp hTrailer).2, hCheck]
      simp only [List.append_assoc]
    · cases hFile
  · intro h
    rcases h with ⟨head, stream, hHead, rfl, hStream⟩
    rw [decompress_frame rest hHead hStream
      (length_trailer content), if_pos rfl]

end Gzip

end CodecChain

------------------------------------------------------------
-- Texts
------------------------------------------------------------

namespace CodecChain

namespace Codec

/- A payload is accepted for the text whose bytes it holds. -/
theorem Unpacks.decode_eq_ok_iff
    {codec : Codec}
    {unpack :
      List UInt8 →
        Except Gzip.Fault (List UInt8 × List UInt8)}
    {payload : List UInt8}
    {t : Text}
    (h : codec.Unpacks unpack) :
    codec.decode (Base64.ofBytes payload) = .ok t ↔
      unpack payload = .ok (Utf8.encode t, []) := by
  constructor
  · intro hDecode
    rcases h.exists_unpack_of_decode hDecode with
      ⟨content, hUnpack⟩
    rw [h.decode_ofBytes, hUnpack] at hDecode
    have hText : codec.textOf content = .ok t := hDecode
    rw [hUnpack, eq_encode_of_textOf hText]
  · intro hUnpack
    rw [h.decode_ofBytes, hUnpack]
    exact textOf_encode codec t

theorem decode_deflate_eq_ok_iff
    {stream : List UInt8}
    {t : Text} :
    deflate.decode (Base64.ofBytes stream) = .ok t ↔
      Deflate.inflate stream = .ok (Utf8.encode t, []) := by
  rw [Unpacks.deflate.decode_eq_ok_iff]
  exact Except.mapError_eq_ok_iff

/-
  Gzip is deflate within a checked frame. Whatever deflate
  accepts for a text is accepted by gzip for the same text,
  between any header and the check value and size of the bytes
  of the text; with another trailer it is refused. Conversely,
  what gzip accepts for a text is a header, something that
  deflate accepts for the text, and that trailer. Ten bytes
  with the marks of the format and no flags are a header.
-/
theorem frames_deflate (t : Text) :
    (Gzip.trailer (Utf8.encode t) =
      Gzip.bytesOf 4 (Gzip.crc32 (Utf8.encode t)).toNat ++
        Gzip.bytesOf 4 ((Utf8.encode t).length % 2 ^ 32)) ∧
    (∀ others : List UInt8, others.length = 6 →
      Gzip.IsHeader ([0x1f, 0x8b, 8, 0] ++ others)) ∧
    (∀ head stream,
      Gzip.IsHeader head →
      deflate.decode (Base64.ofBytes stream) = .ok t →
      gzip.decode
          (Base64.ofBytes
            (head ++ stream ++ Gzip.trailer (Utf8.encode t))) =
        .ok t ∧
      ∀ tail, tail.length = 8 →
        tail ≠ Gzip.trailer (Utf8.encode t) →
        gzip.decode (Base64.ofBytes (head ++ stream ++ tail)) =
          .error ⟨gzip, .compressed .badChecksum⟩) ∧
    (∀ file,
      gzip.decode (Base64.ofBytes file) = .ok t →
      ∃ head stream,
        Gzip.IsHeader head ∧
        file =
          head ++ stream ++ Gzip.trailer (Utf8.encode t) ∧
        deflate.decode (Base64.ofBytes stream) = .ok t) := by
  refine ⟨Gzip.trailer_eq _, ?_, ?_, ?_⟩
  · intro others hOthers
    exact Gzip.isHeader_startOf hOthers
  · intro head stream hHead hStream
    rw [decode_deflate_eq_ok_iff] at hStream
    constructor
    · rw [Unpacks.gzip.decode_eq_ok_iff,
        Gzip.decompress_eq_ok_iff]
      exact ⟨head, stream, hHead,
        (List.append_nil _).symm, hStream⟩
    · intro tail hTail hOther
      have hFrame :=
        Gzip.decompress_frame [] hHead hStream hTail
      rw [List.append_nil, if_neg hOther] at hFrame
      exact Unpacks.gzip.decode_of_error hFrame
  · intro file hFile
    rw [Unpacks.gzip.decode_eq_ok_iff,
      Gzip.decompress_eq_ok_iff] at hFile
    rcases hFile with ⟨head, stream, hHead, hBytes, hStream⟩
    rw [List.append_nil] at hBytes
    exact ⟨head, stream, hHead, hBytes,
      decode_deflate_eq_ok_iff.mpr hStream⟩

/-
  A stream in a frame with a time and a system, in one with a
  wrong trailer, and taken out of its frame again.
-/
theorem frames_deflate_of_payload :
    ∃ head stream,
      head = [0x1f, 0x8b, 8, 0, 1, 2, 3, 4, 0, 3] ∧
      deflate.decode (Base64.ofBytes stream) =
        .ok (.ofString "payload") ∧
      gzip.decode
          (Base64.ofBytes
            (head ++ stream ++
              Gzip.trailer (Utf8.encode (.ofString "payload")))) =
        .ok (.ofString "payload") ∧
      gzip.decode
          (Base64.ofBytes
            (head ++ stream ++ List.replicate 8 0)) =
        .error ⟨gzip, .compressed .badChecksum⟩ ∧
      ∃ head' stream',
        head ++ stream ++
            Gzip.trailer (Utf8.encode (.ofString "payload")) =
          head' ++ stream' ++
            Gzip.trailer (Utf8.encode (.ofString "payload")) ∧
        deflate.decode (Base64.ofBytes stream') =
          .ok (.ofString "payload") := by
  let t : Text := .ofString "payload"
  have hStream :
      deflate.decode
          (Base64.ofBytes (Deflate.deflate (Utf8.encode t))) =
        .ok t :=
    decode_encode deflate t
  rcases frames_deflate t with
    ⟨-, hPlain, hFramed, hUnframed⟩
  have hHead := hPlain [1, 2, 3, 4, 0, 3] rfl
  rcases hFramed _ _ hHead hStream with ⟨hRight, hWrong⟩
  have hOther :
      List.replicate 8 0 ≠ Gzip.trailer (Utf8.encode t) := by
    decide +kernel
  rcases hUnframed _ hRight with
    ⟨head', stream', -, hSame, hStream'⟩
  exact ⟨_, _, rfl, hStream, hRight, hWrong _ rfl hOther, head',
    stream', hSame, hStream'⟩

end Codec

end CodecChain
