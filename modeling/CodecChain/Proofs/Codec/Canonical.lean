import Mathlib.Algebra.Group.Nat.Defs
import CodecChain.Proofs.Codec.Coding
import CodecChain.Proofs.Deflate.Searching

/-
  Canonical base64 text. The spelling of bytes is unique: text
  is accepted exactly if it is symbols of the alphabet, then as
  much padding as fills the last group of four, and if the last
  symbol leaves no bits over. This holds for base64 itself and
  for the layer that it is below compressed payloads.

  Key definitions include:
    * `Base64.spell`
    * `Base64.IsSpelling`
    * `Base64.IsCanonical`
    * `Codec.ReadsBase64`

  Main statements:
    * `Base64.exists_toBytes_iff`
    * `Codec.accepts_canonical_base64`
-/

------------------------------------------------------------
-- Spellings
------------------------------------------------------------

namespace CodecChain

namespace Base64

variable {ns final : List Nat} {last : List UInt8} {pad : Nat}

/- Symbols of numbers, and padding after them. -/
def spell
    (ns : List Nat)
    (pad : Nat) : Text :=
  ns.map symbol ++ List.replicate pad '='

/-
  Numbers and an amount of padding that spell bytes: there is
  no more padding than the last group needs, and the bits of
  the last number that belong to no byte are zero. These are
  two for each padding sign.
-/
structure IsSpelling
    (ns : List Nat)
    (pad : Nat) : Prop where
  bound : ∀ n ∈ ns, n < 64
  few : pad ≤ 2
  whole : (ns.length + pad) % 4 = 0
  noLoose : ns.getLastD 0 % 4 ^ pad = 0

/- The texts that spell bytes. -/
def IsCanonical (t : Text) : Prop :=
  ∃ ns pad, IsSpelling ns pad ∧ t = spell ns pad

/- Symbols are those of the alphabet in order. -/
example :
    spell (List.range 64) 0 =
      .ofString ("ABCDEFGHIJKLMNOPQRSTUVWXYZ" ++
        "abcdefghijklmnopqrstuvwxyz" ++ "0123456789+/") := by
  decide

------------------------------------------------------------
-- Last Groups
------------------------------------------------------------

theorem encode_spell
    (pad : Nat)
    (hBound : ∀ n ∈ ns, n < 64) :
    Utf8.encode (spell ns pad) =
      ns.map symbolByte ++ List.replicate pad padding := by
  unfold spell
  induction ns with
  | nil =>
      induction pad with
      | zero => rfl
      | succ pad ih =>
          rw [List.replicate_succ, List.map_nil, List.nil_append,
            Utf8.encode_cons]
          rw [List.map_nil, List.nil_append] at ih
          rw [ih]
          rfl
  | cons n ns ih =>
      rw [List.forall_mem_cons] at hBound
      rw [List.map_cons, List.cons_append, Utf8.encode_cons,
        encodeChar_symbol hBound.1, ih hBound.2]
      rfl

/- A last group is symbols and the padding that is missing. -/
theorem LastGroup.eq_append
    (h : LastGroup last final) :
    last =
      final.map symbolByte ++
        List.replicate (4 - final.length) padding := by
  cases h <;> rfl

theorem LastGroup.length_le
    (h : LastGroup last final) :
    final.length ≤ 4 := by
  cases h <;> simp

theorem LastGroup.bound
    (h : LastGroup last final) :
    ∀ n ∈ final, n < 64 := by
  cases h <;> simp [*]

theorem lastGroup_of_bound
    (hBound : ∀ n ∈ final, n < 64)
    (hFew : 2 ≤ final.length)
    (hMany : final.length ≤ 4) :
    LastGroup
      (final.map symbolByte ++
        List.replicate (4 - final.length) padding) final := by
  match final with
  | [] => exact absurd hFew (by simp)
  | [_] => exact absurd hFew (by simp)
  | [a, b] =>
      exact .two (hBound a (by simp)) (hBound b (by simp))
  | [a, b, c] =>
      exact .three (hBound a (by simp)) (hBound b (by simp))
        (hBound c (by simp))
  | [a, b, c, d] =>
      exact .four (hBound a (by simp)) (hBound b (by simp))
        (hBound c (by simp)) (hBound d (by simp))
  | _ :: _ :: _ :: _ :: _ :: _ =>
      simp only [List.length_cons] at hMany
      omega

/- The loose bits are two for each padding sign. -/
theorem looseValue_eq
    (hFew : 2 ≤ final.length)
    (hMany : final.length ≤ 4) :
    looseValue final =
      final.getLastD 0 % 4 ^ (4 - final.length) := by
  match final with
  | [] => exact absurd hFew (by simp)
  | [_] => exact absurd hFew (by simp)
  | [_, _] => rfl
  | [_, _, _] => rfl
  | [_, _, _, d] => exact (Nat.mod_one d).symm
  | _ :: _ :: _ :: _ :: _ :: _ =>
      simp only [List.length_cons] at hMany
      omega

theorem getLastD_append
    (ns : List Nat)
    (h : final ≠ []) :
    (ns ++ final).getLastD 0 = final.getLastD 0 := by
  rw [List.getLastD_eq_getLast?, List.getLastD_eq_getLast?,
    List.getLast?_append, List.getLast?_eq_some_getLast h]
  rfl

------------------------------------------------------------
-- Accepted Texts
------------------------------------------------------------

theorem isCanonical_of_toBytes
    {t : Text}
    {bytes : List UInt8}
    (h : toBytes t = .ok bytes) :
    IsCanonical t := by
  rw [toBytes, ofSymbols_eq_ok_iff] at h
  rcases h with ⟨hEmpty, -⟩ | ⟨ns, last, final, hBound, hLength,
    hLast, hLoose, hSymbols, -⟩
  · refine ⟨[], 0, ⟨by simp, by simp, rfl, rfl⟩, ?_⟩
    exact Utf8.encode_injective hEmpty
  · have hFew := hLast.two_le_length
    have hMany := hLast.length_le
    have hAll : ∀ n ∈ ns ++ final, n < 64 := by
      intro n hn
      rcases List.mem_append.mp hn with hFront | hBack
      · exact hBound n hFront
      · exact hLast.bound n hBack
    refine ⟨ns ++ final, 4 - final.length,
      ⟨hAll, by omega, ?_, ?_⟩, ?_⟩
    · rw [List.length_append]
      omega
    · have hSome : final ≠ [] :=
        List.ne_nil_of_length_pos (by omega)
      rw [getLastD_append ns hSome, ← looseValue_eq hFew hMany,
        hLoose]
    · apply Utf8.encode_injective
      rw [encode_spell _ hAll, hSymbols, List.map_append,
        List.append_assoc, ← hLast.eq_append]

theorem exists_toBytes_of_isCanonical
    {t : Text}
    (h : IsCanonical t) :
    ∃ bytes, toBytes t = .ok bytes := by
  rcases h with ⟨ns, pad, hSpelling, rfl⟩
  have hFew := hSpelling.few
  have hWhole := hSpelling.whole
  simp only [toBytes, ofSymbols_eq_ok_iff,
    encode_spell pad hSpelling.bound]
  by_cases hEmpty : ns = []
  · subst hEmpty
    have hPad : pad = 0 := by
      rw [List.length_nil] at hWhole
      omega
    exact ⟨[], Or.inl ⟨by rw [hPad]; rfl, rfl⟩⟩
  · -- The last group takes what padding leaves of four places.
    have hLength := List.length_pos_iff.mpr hEmpty
    obtain ⟨front, final, rfl, hFinal⟩ :
        ∃ front final,
          ns = front ++ final ∧ final.length = 4 - pad := by
      refine ⟨ns.take (ns.length - (4 - pad)), _,
        (List.take_append_drop _ ns).symm, ?_⟩
      rw [List.length_drop]
      omega
    rw [List.length_append] at hWhole
    have hPad : 4 - final.length = pad := by omega
    have hSome : final ≠ [] :=
      List.ne_nil_of_length_pos (by omega)
    have hGroup : LastGroup
        (final.map symbolByte ++ List.replicate pad padding)
        final := by
      rw [← hPad]
      exact lastGroup_of_bound
        (fun n hn => hSpelling.bound n
          (List.mem_append_right front hn))
        (by omega) (by omega)
    have hLoose : looseValue final = 0 := by
      rw [looseValue_eq (by omega) (by omega), hPad,
        ← getLastD_append front hSome]
      exact hSpelling.noLoose
    refine ⟨_, Or.inr ⟨front, _, final, ?_, by omega, hGroup,
      hLoose, ?_, rfl⟩⟩
    · exact fun n hn =>
        hSpelling.bound n (List.mem_append_left final hn)
    · rw [List.map_append, List.append_assoc]

/- Text is accepted exactly if it is canonical. -/
theorem exists_toBytes_iff (t : Text) :
    (∃ bytes, toBytes t = .ok bytes) ↔ IsCanonical t := by
  constructor
  · rintro ⟨bytes, h⟩
    exact isCanonical_of_toBytes h
  · exact exists_toBytes_of_isCanonical

theorem toBytes_eq_ok_iff
    {t : Text}
    {bytes : List UInt8} :
    toBytes t = .ok bytes ↔ t = ofBytes bytes := by
  constructor
  · exact eq_ofBytes_of_toBytes
  · rintro rfl
    exact toBytes_ofBytes bytes

end Base64

end CodecChain

------------------------------------------------------------
-- Codecs over Base64
------------------------------------------------------------

namespace CodecChain

namespace Codec

variable {codec : Codec} {s t : Text}

/- The codecs that take their bytes from base64 text. -/
def ReadsBase64 : Codec → Prop
  | base64 | gzip | deflate => True
  | hex | runLength => False

/- A fault of the base64 text comes before all others. -/
theorem ReadsBase64.decode_of_error
    {e : DecodeError}
    (hCodec : codec.ReadsBase64)
    (h : codec.base64Bytes t = .error e) :
    codec.decode t = .error e := by
  cases codec with
  | hex => exact hCodec.elim
  | runLength => exact hCodec.elim
  | base64 =>
      rw [decode, h]
      rfl
  | gzip =>
      rw [decode, h]
      rfl
  | deflate =>
      rw [decode, h]
      rfl

theorem exists_error_of_not_isCanonical
    (codec : Codec)
    (h : ¬Base64.IsCanonical t) :
    ∃ fault : Base64.Fault,
      codec.base64Bytes t = .error ⟨codec, .base64 fault⟩ := by
  unfold base64Bytes
  cases hBytes : Base64.toBytes t with
  | error fault => exact ⟨fault, rfl⟩
  | ok bytes =>
      exact absurd (Base64.isCanonical_of_toBytes hBytes) h

theorem decode_base64_eq_ok_iff
    [Compressor] :
    base64.decode t = .ok s ↔ t = base64.encode s := by
  constructor
  · intro h
    exact (encode_of_decode
      (show IsStrict base64 from trivial) h).symm
  · rintro rfl
    exact decode_encode base64 s

/-
  Base64 text is read as a text exactly if it is what is
  written for it. So it is with bytes, whichever codec asks
  for them: text is read as bytes exactly if it spells them,
  no two texts are read as the same bytes, and the texts that
  are read are the canonical ones. All others are refused by
  every codec over base64, with a fault of the base64 text.
-/
theorem accepts_canonical_base64
    [Compressor] :
    (∀ s t,
      base64.decode t = .ok s ↔ t = base64.encode s) ∧
    (∀ (codec : Codec) bytes t,
      codec.base64Bytes t = .ok bytes ↔
        t = Base64.ofBytes bytes) ∧
    (∀ (codec : Codec) bytes t u,
      codec.base64Bytes t = .ok bytes →
      codec.base64Bytes u = .ok bytes → t = u) ∧
    (∀ (codec : Codec) t,
      (∃ bytes, codec.base64Bytes t = .ok bytes) ↔
        Base64.IsCanonical t) ∧
    (∀ (codec : Codec) t,
      codec.ReadsBase64 → ¬Base64.IsCanonical t →
      ∃ fault : Base64.Fault,
        codec.decode t = .error ⟨codec, .base64 fault⟩) := by
  refine ⟨fun _ _ => decode_base64_eq_ok_iff, ?_, ?_, ?_, ?_⟩
  · intro codec bytes t
    rw [base64Bytes, Except.mapError_eq_ok_iff,
      Base64.toBytes_eq_ok_iff]
  · intro codec bytes t u hText hOther
    rw [eq_ofBytes_of_base64Bytes hText,
      eq_ofBytes_of_base64Bytes hOther]
  · intro codec t
    simp only [base64Bytes, Except.mapError_eq_ok_iff,
      Base64.exists_toBytes_iff]
  · intro codec t hCodec hText
    rcases exists_error_of_not_isCanonical codec hText with
      ⟨fault, hFault⟩
    exact ⟨fault, hCodec.decode_of_error hFault⟩

/-
  Two bytes are spelled with one padding sign. Without it the
  text is refused, by gzip as well, and so it is with other
  loose bits in the last symbol.
-/
theorem accepts_canonical_base64_of_two_bytes :
    base64.decode (.ofString "QUE=") = .ok (.ofString "AA") ∧
      (∃ fault : Base64.Fault,
        gzip.decode (.ofString "QUE") =
          .error ⟨gzip, .base64 fault⟩) ∧
      ∀ u,
        deflate.base64Bytes u =
          deflate.base64Bytes (.ofString "QUE=") →
        u = .ofString "QUE=" := by
  rcases accepts_canonical_base64 with
    ⟨hTexts, -, hSame, hCanonical, hRefused⟩
  have hBytes :
      deflate.base64Bytes (.ofString "QUE=") = .ok [65, 65] :=
    rfl
  have hShort : ¬Base64.IsCanonical (.ofString "QUE") := by
    have hFault :
        deflate.base64Bytes (.ofString "QUE") =
          .error ⟨deflate, .base64 .badPadding⟩ :=
      rfl
    rw [← hCanonical deflate]
    rintro ⟨bytes, hRead⟩
    rw [hFault] at hRead
    cases hRead
  refine ⟨(hTexts _ _).mpr rfl,
    hRefused gzip _ trivial hShort, ?_⟩
  intro u hOther
  exact hSame deflate _ _ _ (hOther.trans hBytes) hBytes

end Codec

end CodecChain
