import CodecChain.Proofs.Codec.Located
import CodecChain.Proofs.Run.Interruption

/-
  Mistaken formats. The first byte of a file with a header
  asks for a kind of block that there is not, so no bytes are
  a file and a bare stream at once: what one of gzip and
  deflate accepts the other one refuses, and a run stops where
  it takes the one for the other.

  Main statements:
    * `Deflate.inflate_reserved`
    * `Gzip.decompress_of_ne`
    * `Codec.decode_deflate_of_gzip`
    * `Codec.decode_gzip_of_deflate`
    * `Chain.stops_at_other_format`
-/

------------------------------------------------------------
-- Streams
------------------------------------------------------------

namespace CodecChain

namespace Deflate

/- There is no kind of block whose two bits are both set. -/
theorem readBlock_reserved
    {b : UInt8}
    (before : List Item)
    (bytes : List UInt8)
    (hLow : b.toNat.testBit 1 = true)
    (hHigh : b.toNat.testBit 2 = true) :
    readBlock before (.ofBytes (b :: bytes)) =
      .error .corrupt := by
  have hKind :
      number 2 ⟨laterBits b, bytes⟩ =
        .ok (3, ⟨(laterBits b).drop 2, bytes⟩) := by
    rw [laterBits, hLow, hHigh]
    rfl
  have hFirst :
      nextBit (.ofBytes (b :: bytes)) =
        .ok (b.toNat.testBit 0, ⟨laterBits b, bytes⟩) :=
    rfl
  rw [readBlock, bind_of_ok _ hFirst, bind_of_ok _ hKind]
  rfl

theorem inflate_reserved
    {b : UInt8}
    (bytes : List UInt8)
    (hLow : b.toNat.testBit 1 = true)
    (hHigh : b.toNat.testBit 2 = true) :
    inflate (b :: bytes) = .error .corrupt := by
  rw [inflate, readBlocks_of_error
    (readBlock_reserved [] bytes hLow hHigh)]
  rfl

end Deflate

end CodecChain

------------------------------------------------------------
-- Files
------------------------------------------------------------

namespace CodecChain

namespace Gzip

variable {file content rest : List UInt8}

/- The byte that files with a header begin with. -/
theorem IsHeader.exists_cons
    {head : List UInt8}
    (h : IsHeader head) :
    ∃ bytes, head = 0x1f :: bytes := by
  cases h
  exact ⟨_, rfl⟩

theorem exists_cons_of_decompress
    (h : decompress file = .ok (content, rest)) :
    ∃ bytes, file = 0x1f :: bytes := by
  rcases decompress_eq_ok_iff.mp h with
    ⟨head, stream, hHead, rfl, -⟩
  rcases hHead.exists_cons with ⟨bytes, rfl⟩
  exact ⟨_, rfl⟩

/- Bytes that begin otherwise have no header. -/
theorem decompress_of_ne
    {b : UInt8}
    (bytes : List UInt8)
    (h : b ≠ 0x1f) :
    ∃ fault ∈ [Fault.endOfFile, Fault.badHeader],
      decompress (b :: bytes) = .error fault := by
  rcases hStart : takeBytes 10 (b :: bytes) with
    fault | ⟨start, bytes'⟩
  · have hFault : fault = .endOfFile := by
      unfold takeBytes at hStart
      dsimp only at hStart
      split at hStart
      · cases hStart
        rfl
      · cases hStart
    refine ⟨fault, by simp [hFault], ?_⟩
    rw [decompress, skipHeader, hStart]
    rfl
  · have hMarks : ¬start.take 3 = header.take 3 := by
      intro hSame
      rcases takeBytes_eq_ok_iff.mp hStart with ⟨hTen, hBytes⟩
      rcases exists_eq_startOf hTen hSame with
        ⟨flags, others, -, rfl⟩
      exact h (List.cons.inj hBytes).1
    refine ⟨.badHeader, by simp, ?_⟩
    rw [decompress, skipHeader, hStart]
    simp only [bind, Except.bind, hMarks, false_and, if_false]

end Gzip

end CodecChain

------------------------------------------------------------
-- Codecs
------------------------------------------------------------

namespace CodecChain

namespace Codec

variable {t plain : Text}

/- What a codec accepts that unpacks bytes is base64 text. -/
theorem Unpacks.exists_ofBytes_of_decode
    {codec : Codec}
    {unpack :
      List UInt8 →
        Except Gzip.Fault (List UInt8 × List UInt8)}
    (h : codec.Unpacks unpack)
    (hDecode : codec.decode t = .ok plain) :
    ∃ payload,
      t = Base64.ofBytes payload ∧
        unpack payload = .ok (Utf8.encode plain, []) := by
  have hPayload : ∃ payload, t = Base64.ofBytes payload := by
    cases h with
    | gzip =>
        rcases Except.bind_eq_ok_iff.mp hDecode with
          ⟨payload, hBytes, -⟩
        exact ⟨payload, eq_ofBytes_of_base64Bytes hBytes⟩
    | deflate =>
        rcases Except.bind_eq_ok_iff.mp hDecode with
          ⟨payload, hBytes, -⟩
        exact ⟨payload, eq_ofBytes_of_base64Bytes hBytes⟩
  rcases hPayload with ⟨payload, rfl⟩
  exact ⟨payload, rfl, h.decode_eq_ok_iff.mp hDecode⟩

theorem decode_deflate_of_gzip
    (h : gzip.decode t = .ok plain) :
    deflate.decode t =
      .error ⟨deflate, .compressed (.stream .corrupt)⟩ := by
  rcases Unpacks.gzip.exists_ofBytes_of_decode h with
    ⟨payload, rfl, hFile⟩
  rcases Gzip.exists_cons_of_decompress hFile with ⟨bytes, rfl⟩
  apply Unpacks.deflate.decode_of_error
  rw [Deflate.inflate_reserved bytes (by decide) (by decide)]
  rfl

theorem decode_gzip_of_deflate
    (h : deflate.decode t = .ok plain) :
    ∃ fault ∈ [Gzip.Fault.endOfFile, Gzip.Fault.badHeader],
      gzip.decode t = .error ⟨gzip, .compressed fault⟩ := by
  rcases Unpacks.deflate.exists_ofBytes_of_decode h with
    ⟨payload, rfl, hUnpack⟩
  have hStream := Except.mapError_eq_ok_iff.mp hUnpack
  cases payload with
  | nil =>
      rw [Deflate.inflate_nil] at hStream
      cases hStream
  | cons b bytes =>
      have hOther : b ≠ 0x1f := by
        rintro rfl
        rw [Deflate.inflate_reserved bytes (by decide)
          (by decide)] at hStream
        cases hStream
      rcases Gzip.decompress_of_ne bytes hOther with
        ⟨fault, hFault, hFile⟩
      exact ⟨fault, hFault, Unpacks.gzip.decode_of_error hFile⟩

end Codec

end CodecChain

------------------------------------------------------------
-- Runs
------------------------------------------------------------

namespace CodecChain

namespace Chain

variable [Compressor]
variable {σ : Type} {provider : Provider (StateM σ)}
variable {chain : Chain} {content : Text} {s s' : σ}

/- A run stops where it decodes what the codec refuses. -/
theorem runIn_of_decode_error
    {front back : List Token}
    {position : Nat}
    {raw : Text}
    {codec : Codec}
    {before : Execution}
    {refusal : Codec.DecodeError}
    (hTokens :
      chain.tokens =
        front ++
          .accepted position raw (.decode codec.tag) :: back)
    (hFront :
      (chain.upTo front.length).runIn provider content s =
        (.completed before, s'))
    (hRefusal : codec.decode before.content = .error refusal) :
    chain.runIn provider content s =
      (.interrupted ⟨front.length + 1, .decode refusal⟩ before,
        s') := by
  rw [runIn_upTo, hTokens, List.take_left] at hFront
  have hPosition := position_of_append_cons hTokens
  have hFails :
      (Token.accepted position raw (.decode codec.tag)).performIn
          provider before.content s' =
        (.error (.decode refusal), s') :=
    performIn_token_eq_error_iff.mpr
      (Or.inl ⟨raw, codec.tag, codec, refusal, rfl,
        Codec.ofTag?_tag codec, hRefusal, rfl, rfl⟩)
  rw [runIn_eq]
  exact runTokensIn_eq_interrupted_iff.mpr
    ⟨front, _, back, s', hTokens, hFront, hPosition.symm,
      hFails⟩

/-
  Files and bare streams are never taken for each other. What
  gzip accepts is corrupt for deflate, and what deflate
  accepts has no header for gzip. So wherever a run comes to
  decode with the one codec what the other one has made, or
  what the other one accepts, the run stops there, with what
  the steps before have left behind.
-/
theorem stops_at_other_format
    (provider : Provider (StateM σ)) :
    (∀ t plain, Codec.gzip.decode t = .ok plain →
      ∃ e,
        Codec.deflate.decode t = .error e ∧
        e.codec = .deflate ∧
        e.fault.reason =
          "corrupt compressed stream: corrupt deflate stream") ∧
    (∀ t plain, Codec.deflate.decode t = .ok plain →
      ∃ e,
        Codec.gzip.decode t = .error e ∧
        e.codec = .gzip ∧
        e.fault ∈
          [.compressed .endOfFile, .compressed .badHeader]) ∧
    (∀ made used : Codec,
      (made = .gzip ∧ used = .deflate) ∨
        (made = .deflate ∧ used = .gzip) →
      ∀ (chain : Chain) (front back : List Token)
        (position : Nat) (raw content plain : Text)
        (before : Execution) (s s' : σ),
        chain.tokens =
          front ++
            .accepted position raw (.decode used.tag) :: back →
        (chain.upTo front.length).runIn provider content s =
          (.completed before, s') →
        before.content = made.encode plain ∨
          made.decode before.content = .ok plain →
        ∃ e,
          used.decode before.content = .error e ∧
          chain.runIn provider content s =
            (.interrupted ⟨front.length + 1, .decode e⟩ before,
              s')) := by
  refine ⟨?_, ?_, ?_⟩
  · intro t plain h
    exact ⟨_, Codec.decode_deflate_of_gzip h, rfl, rfl⟩
  · intro t plain h
    rcases Codec.decode_gzip_of_deflate h with
      ⟨fault, hFault, hRefusal⟩
    refine ⟨_, hRefusal, rfl, ?_⟩
    exact List.mem_map_of_mem (f := Codec.Fault.compressed) hFault
  · intro made used hPair chain front back position raw content
      plain before s s' hTokens hFront hMade
    have hAccepted : made.decode before.content = .ok plain := by
      rcases hMade with hEncoded | hDecoded
      · rw [hEncoded]
        exact Codec.decode_encode made plain
      · exact hDecoded
    have hRefused :
        ∃ e, used.decode before.content = .error e := by
      rcases hPair with ⟨rfl, rfl⟩ | ⟨rfl, rfl⟩
      · exact ⟨_, Codec.decode_deflate_of_gzip hAccepted⟩
      · rcases Codec.decode_gzip_of_deflate hAccepted with
          ⟨fault, -, hRefusal⟩
        exact ⟨_, hRefusal⟩
    rcases hRefused with ⟨e, hRefusal⟩
    exact ⟨e, hRefusal,
      runIn_of_decode_error hTokens hFront hRefusal⟩

end Chain

end CodecChain

------------------------------------------------------------
-- A File That Is Taken for a Stream
------------------------------------------------------------

namespace CodecChain

namespace Chain

/-
  A file that is taken for a stream, before a value would be
  asked for, and a stream that is taken for a file.
-/
theorem stops_at_other_format_of_payload :
    ∃ chain before e,
      parse '-' (.ofString "EZ-DDF-P") = .ok chain ∧
      (chain.upTo 1).runIn Provider.scripted
          (.ofString "payload") [.ofString "value"] =
        (.completed before, [.ofString "value"]) ∧
      before.content =
        Codec.gzip.encode (.ofString "payload") ∧
      Codec.deflate.decode before.content = .error e ∧
      e.fault.reason =
        "corrupt compressed stream: corrupt deflate stream" ∧
      chain.runIn Provider.scripted (.ofString "payload")
          [.ofString "value"] =
        (.interrupted ⟨2, .decode e⟩ before,
          [.ofString "value"]) ∧
      ∃ e',
        Codec.gzip.decode
            (Codec.deflate.encode (.ofString "payload")) =
          .error e' := by
  let plain : Text := .ofString "payload"
  let chain : Chain :=
    { separator := '-'
      source := .ofString "EZ-DDF-P"
      tokens :=
        [Token.read 1 (.ofString "EZ"),
          Token.read 2 (.ofString "DDF"),
          Token.read 3 (.ofString "P")] }
  let before : Execution :=
    { content := Codec.gzip.encode plain
      trace :=
        [⟨1, .ofString "EZ", .encoded .gzip,
          Codec.gzip.encode plain⟩]
      diagnostics := [] }
  have hParse :
      parse '-' (.ofString "EZ-DDF-P") = .ok chain := by
    rfl
  have hFirst :
      (chain.upTo 1).runIn Provider.scripted plain
          [.ofString "value"] =
        (.completed before, [.ofString "value"]) := by
    rfl
  rcases stops_at_other_format Provider.scripted with
    ⟨hFile, hStream, hRun⟩
  rcases hFile _ plain (Codec.decode_encode .gzip plain) with
    ⟨e, hRefusal, -, hReason⟩
  rcases hStream _ plain (Codec.decode_encode .deflate plain)
    with ⟨e', hRefusal', -⟩
  rcases hRun .gzip .deflate (Or.inl ⟨rfl, rfl⟩) chain
    [Token.read 1 (.ofString "EZ")]
    [Token.read 3 (.ofString "P")] 2 (.ofString "DDF") plain plain before _ _ rfl hFirst
    (Or.inl rfl) with ⟨same, hSame, hStops⟩
  rw [hRefusal, Except.error.injEq] at hSame
  rw [← hSame] at hStops
  exact ⟨chain, before, e, hParse, hFirst, rfl, hRefusal,
    hReason, hStops, e', hRefusal'⟩

end Chain

end CodecChain
