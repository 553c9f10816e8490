import CodecChain.Proofs.Codec.BrokenRuns
import CodecChain.Proofs.Codec.Carried

/-
  Where faults lie. The position that an error names is one
  of what it counts: of the bytes of the text for digits and
  symbols, of its characters for runs, of the payload for
  bytes after a stream, and of the carried bytes for those
  that are no text.

  Key definitions include:
    * `Hex.ByteFault.IsWithin`
    * `Base64.Fault.IsWithin`
    * `Codec.Fault.IsLocated`
    * `Codec.DecodeError.IsOf`

  Main statements:
    * `Hex.toBytes_failsOnly`
    * `Base64.ofSymbols_failsOnly`
    * `Codec.Unpacks.exists_eq_append`
    * `Codec.names_codec_and_position`
-/

------------------------------------------------------------
-- Digits
------------------------------------------------------------

namespace CodecChain

namespace Hex

/- A fault of bytes at one of the first of them, if at any. -/
def ByteFault.IsWithin
    (n : Nat) : ByteFault → Prop
  | oddLength => 0 < n
  | badByte index => index < n

theorem valueAt_failsOnly
    {index n : Nat}
    (b : UInt8)
    (h : index < n) :
    (valueAt index b).FailsOnly (·.IsWithin n) := by
  unfold valueAt
  split
  · exact .ok _
  · exact .error h

theorem pairs_failsOnly
    (index : Nat)
    (digits : List UInt8) :
    (pairs index digits).FailsOnly
      (·.IsWithin (index + digits.length)) := by
  fun_induction pairs index digits with
  | case1 => exact .ok _
  | case2 index b => exact .error (Nat.succ_pos index)
  | case3 index b c rest ih =>
      have hLength :
          index + (b :: c :: rest).length =
            index + 2 + rest.length := by
        simp only [List.length_cons]
        omega
      rw [hLength]
      apply (valueAt_failsOnly b (by omega)).bind
      intro high _
      apply (valueAt_failsOnly c (by omega)).bind
      intro low _
      exact ih.bind fun bytes _ => .ok _

/- What is wrong with digits lies at one of their bytes. -/
theorem toBytes_failsOnly (t : Text) :
    (toBytes t).FailsOnly (·.offset < Utf8.size t) := by
  have hBytes :
      (ofDigits (Utf8.encode t)).FailsOnly
        (·.IsWithin (Utf8.size t)) := by
    unfold ofDigits
    split
    · rename_i hOdd
      refine .error (Nat.pos_of_ne_zero ?_)
      intro hNone
      rw [← Utf8.size, hNone] at hOdd
      cases hOdd
    · have hPairs := pairs_failsOnly 0 (Utf8.encode t)
      rwa [Nat.zero_add] at hPairs
  refine hBytes.mapError ?_
  intro fault hWithin
  cases fault with
  | oddLength => exact Nat.sub_one_lt_of_lt hWithin
  | badByte index => exact hWithin

end Hex

------------------------------------------------------------
-- Symbols
------------------------------------------------------------

namespace Base64

/- A fault without a position, or with one of the first bytes. -/
def Fault.IsWithin
    (n : Nat)
    (f : Fault) : Prop :=
  ∀ k ∈ f.offset?, k < n

theorem Fault.isWithin_badByte
    {b : UInt8}
    {k n : Nat}
    (h : k < n) :
    (badByte b k).IsWithin n := by
  rintro _ ⟨⟩
  exact h

theorem Fault.IsWithin.mono
    {f : Fault}
    {m n : Nat}
    (h : f.IsWithin m)
    (hLe : m ≤ n) :
    f.IsWithin n :=
  fun k hk => Nat.lt_of_lt_of_le (h k hk) hLe

theorem checkLeftover_failsOnly (bytes : List UInt8) :
    (checkLeftover bytes).FailsOnly
      (·.IsWithin bytes.length) := by
  unfold checkLeftover
  split
  · exact .ok _
  split
  · exact .error (Fault.isWithin_badByte (by omega))
  · exact .ok _

theorem values_failsOnly
    (offset : Nat)
    (bytes : List UInt8) :
    (values offset bytes).FailsOnly
      (·.IsWithin (offset + bytes.length)) := by
  fun_induction values offset bytes with
  | case1 => exact .ok _
  | case2 =>
      apply Except.FailsOnly.error
      apply Fault.isWithin_badByte
      rw [List.length_cons]
      omega
  | case3 offset b bytes n hValue ih =>
      rw [List.length_cons, Nat.add_comm bytes.length,
        ← Nat.add_assoc]
      exact ih.bind fun ns _ => .ok _

/- The padding that is held against a symbol came before it. -/
theorem lastValues_failsOnly
    (start place : Nat)
    (padded : Option Nat)
    (bytes : List UInt8)
    (hPadded : ∀ first ∈ padded, first < place) :
    (lastValues start place padded bytes).FailsOnly
      (·.IsWithin (start + place + bytes.length)) := by
  induction bytes generalizing place padded with
  | nil => exact .ok _
  | cons b bytes ih =>
      have hNext :
          start + place + (b :: bytes).length =
            start + (place + 1) + bytes.length := by
        rw [List.length_cons]
        omega
      rw [lastValues.eq_def]
      dsimp only
      split
      · split
        · apply Except.FailsOnly.error
          apply Fault.isWithin_badByte
          rw [List.length_cons]
          omega
        · rw [hNext]
          apply ih
          cases padded with
          | none =>
              rintro _ ⟨⟩
              exact Nat.lt_succ_self place
          | some first =>
              rintro _ ⟨⟩
              exact Nat.lt_succ_of_lt (hPadded first rfl)
      · cases padded with
        | some first =>
            have hFirst := hPadded first rfl
            apply Except.FailsOnly.error
            apply Fault.isWithin_badByte
            omega
        | none =>
            cases value? b with
            | none =>
                apply Except.FailsOnly.error
                apply Fault.isWithin_badByte
                rw [List.length_cons]
                omega
            | some n =>
                rw [hNext]
                exact (ih (place + 1) none (by simp)).bind
                  fun ns _ => .ok _

/- There are no more numbers than bytes. -/
theorem length_le_of_lastValues
    {start place : Nat}
    {padded : Option Nat}
    {bytes : List UInt8}
    {ns : List Nat}
    (h : lastValues start place padded bytes = .ok ns) :
    ns.length ≤ bytes.length := by
  induction bytes generalizing place padded ns with
  | nil =>
      cases h
      exact Nat.le_refl _
  | cons b bytes ih =>
      rw [lastValues.eq_def] at h
      dsimp only at h
      rw [List.length_cons]
      split at h
      · split at h
        · cases h
        · exact Nat.le_succ_of_le (ih h)
      · split at h
        · cases h
        · cases h
        · rcases Except.bind_eq_ok_iff.mp h with
            ⟨later, hLater, hAll⟩
          cases hAll
          exact Nat.succ_le_succ (ih hLater)

theorem lastSize_le (n : Nat) :
    lastSize n ≤ n := by
  unfold lastSize
  split <;> omega

/- What is wrong with symbols lies at one of their bytes. -/
theorem ofSymbols_failsOnly (bytes : List UInt8) :
    (ofSymbols bytes).FailsOnly (·.IsWithin bytes.length) := by
  have hSize := lastSize_le bytes.length
  unfold ofSymbols
  apply (checkLeftover_failsOnly bytes).bind
  rintro ⟨⟩ -
  dsimp only
  generalize hStart :
    bytes.length - lastSize bytes.length = start
  have hFront : 0 + (bytes.take start).length ≤ bytes.length := by
    rw [List.length_take]
    omega
  have hLast :
      start + 0 + (bytes.drop start).length = bytes.length := by
    rw [List.length_drop]
    omega
  refine Except.FailsOnly.bind ?_ ?_
  · intro fault hFault
    exact (values_failsOnly 0 _ fault hFault).mono hFront
  intro front _
  refine Except.FailsOnly.bind ?_ ?_
  · rw [← hLast]
    exact lastValues_failsOnly start 0 none _ (by simp)
  intro final hFinal
  have hFew := length_le_of_lastValues hFinal
  split
  · exact .error fun k hk => by cases hk
  split
  · exact .error fun k hk => by cases hk
  split
  · rename_i hLoose
    have hSome : final.length ≠ 0 := by
      rw [Ne, List.length_eq_zero_iff]
      rintro rfl
      exact hLoose rfl
    apply Except.FailsOnly.error
    rintro _ ⟨⟩
    omega
  · exact .ok _

end Base64

end CodecChain

------------------------------------------------------------
-- Payloads
------------------------------------------------------------

namespace CodecChain

namespace Deflate

theorem inflate_nil : inflate [] = .error .incomplete := by
  decide +kernel

end Deflate

namespace Codec

variable {codec : Codec} {t : Text}
variable {unpack :
  List UInt8 → Except Gzip.Fault (List UInt8 × List UInt8)}

/- What is unpacked takes some bytes from the beginning. -/
theorem Unpacks.exists_eq_append
    {payload content rest : List UInt8}
    (h : codec.Unpacks unpack)
    (hUnpack : unpack payload = .ok (content, rest)) :
    ∃ front, front ≠ [] ∧ payload = front ++ rest := by
  cases h with
  | gzip =>
      rcases Gzip.decompress_eq_ok_iff.mp hUnpack with
        ⟨head, stream, -, rfl, -⟩
      refine ⟨_, ?_, rfl⟩
      intro hNone
      have hLength := congrArg List.length hNone
      rw [List.length_append, Gzip.length_trailer,
        Gzip.trailerSize] at hLength
      cases hLength
  | deflate =>
      rcases Deflate.exists_stream_of_inflate
          (Except.mapError_eq_ok_iff.mp hUnpack) with
        ⟨stream, rfl, hStream⟩
      refine ⟨stream, ?_, rfl⟩
      rintro rfl
      have hEmpty := hStream []
      rw [List.append_nil, Deflate.inflate_nil] at hEmpty
      cases hEmpty

------------------------------------------------------------
-- Errors of Codecs
------------------------------------------------------------

/-
  A fault whose reported position, if there is one, lies in
  what it counts. For bytes after a stream this is the payload
  of which they are the end, so that their number, which is
  given in words, and their position add up to its length, and
  something comes before them.
-/
inductive Fault.IsLocated
    (codec : Codec)
    (t : Text)
    (fault : Fault) : Prop where
  | digit
      {f : Hex.Fault}
      {k : Nat}
      (hCodec : codec = .hex)
      (hFault : fault = .hex f)
      (hOffset : fault.offset? = some k)
      (h : k < Utf8.size t)
  | symbol
      {f : Base64.Fault}
      (hCodec : codec.ReadsBase64)
      (hFault : fault = .base64 f)
      (h : ∀ k, fault.offset? = some k → k < Utf8.size t)
  | run
      {f : RunLength.Fault}
      {k : Nat}
      (hCodec : codec = .runLength)
      (hFault : fault = .runLength f)
      (hOffset : fault.offset? = some k)
      (h : k < t.length)
  | stream
      {f : Gzip.Fault}
      (hCodec : codec = .gzip ∨ codec = .deflate)
      (hFault : fault = .compressed f)
      (hOffset : fault.offset? = none)
  | trailing
      {count k : Nat}
      {payload : List UInt8}
      (hCodec : codec = .gzip ∨ codec = .deflate)
      (hFault : fault = .trailing count k)
      (hReason :
        fault.reason =
          s!"{count} trailing bytes after compressed stream")
      (hPayload : codec.base64Bytes t = .ok payload)
      (hOffset : fault.offset? = some k)
      (h : 0 < k ∧ k < payload.length)
      (hAll : count + k = payload.length)
  | notUtf8
      {k : Nat}
      {bytes : List UInt8}
      (hFault : fault = .notUtf8 k)
      (hReason : fault.reason = "result is not valid UTF-8")
      (hCarries : codec.Carries t bytes)
      (hOffset : fault.offset? = some k)
      (h : k < bytes.length)

/- An error that names the codec and lies where it may. -/
def DecodeError.IsOf
    (codec : Codec)
    (t : Text)
    (e : DecodeError) : Prop :=
  e.codec = codec ∧ e.fault.IsLocated codec t

theorem Unpacks.eq_or_eq
    (h : codec.Unpacks unpack) :
    codec = .gzip ∨ codec = .deflate := by
  cases h with
  | gzip => exact Or.inl rfl
  | deflate => exact Or.inr rfl

theorem textOf_failsOnly
    {bytes : List UInt8}
    (h : codec.Carries t bytes) :
    (codec.textOf bytes).FailsOnly (DecodeError.IsOf codec t) := by
  have hDecode :
      (Utf8.decode bytes).FailsOnly (· < bytes.length) :=
    fun _ hError => Utf8.lt_length_of_decode hError
  exact hDecode.mapError fun _ hPlace =>
    ⟨rfl, .notUtf8 rfl rfl h rfl hPlace⟩

theorem base64Bytes_failsOnly
    (t : Text)
    (h : codec.ReadsBase64) :
    (codec.base64Bytes t).FailsOnly (DecodeError.IsOf codec t) :=
  (Base64.ofSymbols_failsOnly (Utf8.encode t)).mapError
    fun _ hPlace => ⟨rfl, .symbol h rfl hPlace⟩

theorem Unpacks.inflated_failsOnly
    (h : codec.Unpacks unpack)
    (payload : List UInt8) :
    (codec.inflated (unpack payload)).FailsOnly
      (DecodeError.IsOf codec t) :=
  Except.FailsOnly.mapError (p := fun _ => True)
    (fun _ _ => trivial) fun _ _ =>
      ⟨rfl, .stream h.eq_or_eq rfl rfl⟩

/- Left over are fewer bytes than there were, or none. -/
theorem Unpacks.allUsed_failsOnly
    {payload content rest : List UInt8}
    (h : codec.Unpacks unpack)
    (hPayload : codec.base64Bytes t = .ok payload)
    (hUnpack : unpack payload = .ok (content, rest)) :
    (codec.allUsed payload.length rest).FailsOnly
      (DecodeError.IsOf codec t) := by
  rcases h.exists_eq_append hUnpack with ⟨front, hFront, hAll⟩
  have hLength := congrArg List.length hAll
  rw [List.length_append] at hLength
  have hSome := List.length_pos_iff.mpr hFront
  unfold allUsed
  split
  · exact .ok _
  · rename_i hRest
    rw [List.isEmpty_iff] at hRest
    have hLeft := List.length_pos_iff.mpr hRest
    exact .error ⟨rfl, .trailing h.eq_or_eq rfl rfl hPayload rfl
      ⟨by omega, by omega⟩ (by omega)⟩

/- What is wrong with a payload, from the first check on. -/
theorem Unpacks.failsOnly
    {payload : List UInt8}
    (h : codec.Unpacks unpack)
    (hPayload : codec.base64Bytes t = .ok payload) :
    (do
      let (content, rest) ← codec.inflated (unpack payload)
      codec.allUsed payload.length rest
      codec.textOf content).FailsOnly (DecodeError.IsOf codec t) := by
  apply (h.inflated_failsOnly payload).bind
  rintro ⟨content, rest⟩ hUnpack
  rw [inflated, Except.mapError_eq_ok_iff] at hUnpack
  apply (h.allUsed_failsOnly hPayload hUnpack).bind
  rintro ⟨⟩ hUsed
  apply textOf_failsOnly
  have hRest : rest = [] := by
    rw [← List.isEmpty_iff]
    by_contra hLeft
    rw [allUsed, if_neg hLeft] at hUsed
    cases hUsed
  rw [hRest] at hUnpack
  rw [eq_ofBytes_of_base64Bytes hPayload]
  exact .payload h hUnpack

/- Every check is made on behalf of the codec that decodes. -/
theorem decode_failsOnly
    (codec : Codec)
    (t : Text) :
    (codec.decode t).FailsOnly (DecodeError.IsOf codec t) := by
  cases codec with
  | hex =>
      refine Except.FailsOnly.bind ?_ ?_
      · exact (Hex.toBytes_failsOnly t).mapError
          fun _ hPlace => ⟨rfl, .digit rfl rfl rfl hPlace⟩
      · intro bytes hBytes
        rw [Except.mapError_eq_ok_iff,
          Hex.toBytes_eq_ok_iff] at hBytes
        exact textOf_failsOnly (.hex hBytes)
  | base64 =>
      have hCodec : base64.ReadsBase64 := trivial
      apply (base64Bytes_failsOnly t hCodec).bind
      intro bytes hBytes
      apply textOf_failsOnly
      rw [eq_ofBytes_of_base64Bytes hBytes]
      exact .base64 bytes
  | gzip =>
      have hCodec : gzip.ReadsBase64 := trivial
      apply (base64Bytes_failsOnly t hCodec).bind
      intro payload hPayload
      exact Unpacks.gzip.failsOnly hPayload
  | deflate =>
      have hCodec : deflate.ReadsBase64 := trivial
      apply (base64Bytes_failsOnly t hCodec).bind
      intro payload hPayload
      exact Unpacks.deflate.failsOnly hPayload
  | runLength =>
      refine Except.FailsOnly.mapError
        (p := fun f => f.offset < t.length) ?_
        fun _ hPlace => ⟨rfl, .run rfl rfl rfl hPlace⟩
      intro f hError
      rcases RunLength.exists_blocks_of_decode hError with
        ⟨runs, back, -, rfl, hOffset, hBlocks⟩
      have hSome := List.length_pos_iff.mpr hBlocks.ne_nil
      rw [hOffset, List.length_append, RunLength.length_spell]
      omega

/-
  A text that cannot be decoded is refused by an error that
  names the codec, also if the base64 text below its payload
  is what is wrong, and the position that is reported, if
  there is one, is one of what it counts.
-/
theorem names_codec_and_position
    {e : DecodeError}
    (h : codec.decode t = .error e) :
    e.codec = codec ∧ e.fault.IsLocated codec t :=
  decode_failsOnly codec t e h

/-
  Three digits, and a symbol that is none below a stream. The
  positions are those of the last digit and of the symbol.
-/
theorem names_codec_and_position_of_three_digits :
    (∃ e,
      hex.decode ['A', 'B', 'C'] = .error e ∧
      e.codec = hex ∧
      e.fault.offset? = some 2 ∧
      ∀ k, e.fault.offset? = some k → k < 3) ∧
    ∃ e,
      deflate.decode ['A', '!', '=', '='] = .error e ∧
      e.codec = deflate ∧
      e.fault.offset? = some 1 ∧
      ∀ k, e.fault.offset? = some k → k < 4 := by
  have hDigits :
      hex.decode ['A', 'B', 'C'] =
        .error ⟨hex, .hex (.oddLength 3)⟩ :=
    rfl
  have hSymbol :
      deflate.decode ['A', '!', '=', '='] =
        .error ⟨deflate, .base64 (.badByte 0x21 1)⟩ :=
    rfl
  constructor
  · rcases names_codec_and_position hDigits with
      ⟨hCodec, hLocated⟩
    refine ⟨_, hDigits, hCodec, rfl, ?_⟩
    cases hLocated with
    | digit _ _ hOffset hPlace =>
        intro k hReported
        rw [hOffset] at hReported
        cases hReported
        exact hPlace
    | symbol _ hFault => cases hFault
    | run _ hFault => cases hFault
    | stream _ hFault => cases hFault
    | trailing _ hFault => cases hFault
    | notUtf8 hFault => cases hFault
  · rcases names_codec_and_position hSymbol with
      ⟨hCodec, hLocated⟩
    refine ⟨_, hSymbol, hCodec, rfl, ?_⟩
    cases hLocated with
    | symbol _ _ hPlace => exact hPlace
    | digit _ hFault => cases hFault
    | run _ hFault => cases hFault
    | stream _ hFault => cases hFault
    | trailing _ hFault => cases hFault
    | notUtf8 hFault => cases hFault

end Codec

end CodecChain
