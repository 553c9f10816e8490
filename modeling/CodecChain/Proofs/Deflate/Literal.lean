import Mathlib.Data.List.Basic
import CodecChain.Proofs.Codec.Framing
import CodecChain.Proofs.Deflate.Searching

/-
  Streams of literals. Bytes that stand for themselves in one
  final block under the fixed codes are given bit by bit: the
  words of the codes with their high bits first, in bytes that
  are filled from their low bits on. There is one such stream
  for any bytes; it is decoded as the text that the bytes hold,
  bare or within the frame of a file, and it is what texts
  without anything to be gained are encoded as.

  Key definitions include:
    * `Deflate.literalWord`
    * `Deflate.literalBits`
    * `Deflate.IsLiteralStream`

  Main statements:
    * `Deflate.word_fixed_literal`
    * `Deflate.isLiteralStream_iff`
    * `Codec.decodes_literal_form`
-/

------------------------------------------------------------
-- Bits of Bytes
------------------------------------------------------------

namespace CodecChain

namespace Deflate

variable {bytes stream : List UInt8}

theorem toList_ofBytes_cons
    (b : UInt8)
    (bytes : List UInt8) :
    (Bits.ofBytes (b :: bytes)).toList =
      Bits.ofByte b ++ (Bits.ofBytes bytes).toList :=
  rfl

/- Packed bits are in the bytes, and less than a byte of zeros. -/
theorem toList_pack (bits : List Bool) :
    ∃ fill < 8,
      (Bits.ofBytes (pack bits)).toList =
        bits ++ List.replicate fill false := by
  -- The bits are taken eight at a time, as they are packed.
  induction bits using pack.induct with
  | case1 a b c d e f g h bits ih =>
      rcases ih with ⟨fill, hFill, ih⟩
      refine ⟨fill, hFill, ?_⟩
      have hByte : Bits.ofByte
          (UInt8.ofNat (value [a, b, c, d, e, f, g, h])) =
            [a, b, c, d, e, f, g, h] ++ [] :=
        ofByte_value (Nat.le_refl 8)
      rw [pack, toList_ofBytes_cons, hByte, ih]
      rfl
  | case2 => exact ⟨0, by omega, rfl⟩
  | case3 bits hMany hNil =>
      have hLength := List.length_pos_iff.mpr hNil
      have hShort := length_lt_of_no_byte hMany
      refine ⟨8 - bits.length, by omega, ?_⟩
      rw [pack]
      · rw [toList_ofBytes_cons,
          ofByte_value (Nat.le_of_lt hShort)]
        exact List.append_nil _
      · exact hMany
      · exact hNil

theorem value_ofByte (b : UInt8) :
    UInt8.ofNat (value (Bits.ofByte b)) = b := by
  have hAll : ∀ n < 256,
      value (Bits.ofByte (UInt8.ofNat n)) = n := by
    decide +kernel
  have hByte := hAll b.toNat b.toNat_lt
  rw [UInt8.ofNat_toNat] at hByte
  rw [hByte, UInt8.ofNat_toNat]

/- Bytes are packed from their own bits. -/
theorem pack_toList (bytes : List UInt8) :
    pack (Bits.ofBytes bytes).toList = bytes := by
  induction bytes with
  | nil => rfl
  | cons b bytes ih =>
      have hByte :
          pack (Bits.ofByte b ++ (Bits.ofBytes bytes).toList) =
            UInt8.ofNat (value (Bits.ofByte b)) ::
              pack (Bits.ofBytes bytes).toList :=
        rfl
      rw [toList_ofBytes_cons, hByte, value_ofByte, ih]

------------------------------------------------------------
-- Tables of Words
------------------------------------------------------------

namespace Tree

/- The words of a tree under their symbols, in order. -/
def entries : Tree → List (Nat × List Bool)
  | vacant => []
  | leaf symbol => [(symbol, [])]
  | node zero one =>
      zero.entries.map (Prod.map id (false :: ·)) ++
        one.entries.map (Prod.map id (true :: ·))

theorem lookup_map_snd
    (symbol : Nat)
    (f : List Bool → List Bool)
    (entries : List (Nat × List Bool)) :
    (entries.map (Prod.map id f)).lookup symbol =
      (entries.lookup symbol).map f := by
  induction entries with
  | nil => rfl
  | cons entry entries ih =>
      rw [List.map_cons, List.lookup_cons, List.lookup_cons, ih,
        Prod.map_fst, id]
      split
      · rfl
      · rfl

/- A word is found in the table of all words. -/
theorem lookup_entries
    (symbol : Nat)
    (tree : Tree) :
    tree.entries.lookup symbol = tree.word? symbol := by
  induction tree with
  | vacant => rfl
  | leaf other =>
      rw [entries, word?, List.lookup_cons]
      by_cases hSame : symbol = other
      · simp [hSame]
      · have hOther : (symbol == other) = false := by
          simpa using hSame
        rw [hOther, if_neg (Ne.symm hSame)]
        rfl
  | node zero one ihZero ihOne =>
      rw [entries, word?, List.lookup_append, lookup_map_snd,
        lookup_map_snd, ihZero, ihOne]
      cases zero.word? symbol with
      | none => rfl
      | some bits => rfl

end Tree

/- The words of a code under their symbols, in order. -/
def Code.entries (code : Code) : List (Nat × List Bool) :=
  (Tree.node code.zero code.one).entries

theorem Code.word_of_lookup
    {code : Code}
    {symbol : Nat}
    {bits : List Bool}
    (h : code.entries.lookup symbol = some bits) :
    code.word symbol = bits := by
  rw [entries, Tree.lookup_entries, Tree.word?] at h
  unfold word
  cases hZero : code.zero.word? symbol with
  | some later =>
      rw [hZero] at h
      exact Option.some.inj h
  | none =>
      rw [hZero] at h
      rcases Option.map_eq_some_iff.mp h with
        ⟨later, hOne, rfl⟩
      rw [hOne]

------------------------------------------------------------
-- Words of Literals
------------------------------------------------------------

/- The bits of a number of the given width, high bits first. -/
def wordOf (width n : Nat) : List Bool :=
  (bitsOf width n).reverse

/-
  The word of a byte. The lower ones have eight bits and
  begin with 00110000, those from 144 on have nine bits and
  begin with 110010000.
-/
def literalWord (b : UInt8) : List Bool :=
  if b.toNat < 144 then
    wordOf 8 (0x30 + b.toNat)
  else
    wordOf 9 (0x190 + (b.toNat - 144))

/-
  The bits of a block: the mark of the final one, the kind of
  fixed codes, the words of the bytes, and seven zeros for the
  end of the block.
-/
def literalBits (bytes : List UInt8) : List Bool :=
  [true] ++ [true, false] ++ bytes.flatMap literalWord ++
    List.replicate 7 false

/- A stream that is such a block, filled up with zeros. -/
def IsLiteralStream (stream bytes : List UInt8) : Prop :=
  ∃ fill < 8,
    (Bits.ofBytes stream).toList =
      literalBits bytes ++ List.replicate fill false

/- A row of a table of words: they count up from the first. -/
def wordRow (symbol count width first : Nat) :
    List (Nat × List Bool) :=
  (List.range' symbol count).map fun s =>
    (s, wordOf width (first + (s - symbol)))

theorem entries_literals_fixed :
    Codes.fixed.literals.entries =
      wordRow 256 24 7 0 ++ wordRow 0 144 8 0x30 ++
        wordRow 280 8 8 0xc0 ++ wordRow 144 112 9 0x190 := by
  decide +kernel

theorem lookup_wordRow
    {s symbol count : Nat}
    (width first : Nat)
    (hLow : symbol ≤ s)
    (hHigh : s < symbol + count) :
    (wordRow symbol count width first).lookup s =
      some (wordOf width (first + (s - symbol))) :=
  List.lookup_graph
    (fun s => wordOf width (first + (s - symbol)))
    (List.mem_range'_1.mpr ⟨hLow, hHigh⟩)

theorem lookup_wordRow_eq_none
    {s symbol count : Nat}
    (width first : Nat)
    (hOut : s < symbol ∨ symbol + count ≤ s) :
    (wordRow symbol count width first).lookup s = none := by
  rw [List.lookup_eq_none_iff]
  intro entry hEntry
  rcases List.mem_map.mp hEntry with ⟨other, hOther, rfl⟩
  rw [List.mem_range'_1] at hOther
  rw [bne_iff_ne]
  rintro rfl
  omega

theorem word_fixed_literal (b : UInt8) :
    Codes.fixed.literals.word b.toNat = literalWord b := by
  have hByte := b.toNat_lt
  apply Code.word_of_lookup
  rw [entries_literals_fixed, List.lookup_append,
    List.lookup_append, List.lookup_append,
    lookup_wordRow_eq_none 7 0 (by omega),
    lookup_wordRow_eq_none 8 0xc0 (by omega)]
  unfold literalWord
  by_cases hLow : b.toNat < 144
  · rw [if_pos hLow, lookup_wordRow 8 0x30 (Nat.zero_le _)
      (by omega)]
    rfl
  · rw [if_neg hLow,
      lookup_wordRow_eq_none 8 0x30 (by omega),
      lookup_wordRow 9 0x190 (by omega) (by omega)]
    rfl

theorem word_fixed_endOfBlock :
    Codes.fixed.literals.word endOfBlock =
      List.replicate 7 false := by
  apply Code.word_of_lookup
  rw [entries_literals_fixed]
  rfl

------------------------------------------------------------
-- Streams of Literals
------------------------------------------------------------

theorem streamBits_literals (bytes : List UInt8) :
    streamBits (bytes.map .literal) = literalBits bytes := by
  rw [streamBits, literalBits, word_fixed_endOfBlock,
    List.flatMap_map]
  simp only [Item.bits, word_fixed_literal]
  rfl

/- Packing depends on the bits up to the zeros that fill up. -/
theorem eq_of_toList_ofBytes
    {bits : List Bool}
    {fill fill' : Nat}
    {stream stream' : List UInt8}
    (hFill : fill < 8)
    (hFill' : fill' < 8)
    (h : (Bits.ofBytes stream).toList =
      bits ++ List.replicate fill false)
    (h' : (Bits.ofBytes stream').toList =
      bits ++ List.replicate fill' false) :
    stream = stream' := by
  have hLength := congrArg List.length h
  have hLength' := congrArg List.length h'
  simp only [Bits.length_toList, Bits.size, Bits.ofBytes,
    List.length_nil, List.length_append,
    List.length_replicate] at hLength hLength'
  have hSame : fill = fill' := by omega
  rw [← pack_toList stream, ← pack_toList stream', h, h', hSame]

/- There is one stream of literals for any bytes. -/
theorem isLiteralStream_iff :
    IsLiteralStream stream bytes ↔
      stream = literalForm bytes := by
  have hForm : IsLiteralStream (literalForm bytes) bytes := by
    rcases toList_pack (literalBits bytes) with
      ⟨fill, hFill, hBits⟩
    refine ⟨fill, hFill, ?_⟩
    rw [literalForm, streamOf, streamBits_literals, hBits]
  constructor
  · rintro ⟨fill, hFill, hBits⟩
    rcases hForm with ⟨fill', hFill', hBits'⟩
    exact eq_of_toList_ofBytes hFill hFill' hBits hBits'
  · rintro rfl
    exact hForm

theorem inflate_literalForm (bytes : List UInt8) :
    inflate (literalForm bytes) = .ok (bytes, []) := by
  have hFits : ∀ item ∈ bytes.map Item.literal, item.Fits := by
    intro item hItem
    rcases List.mem_map.mp hItem with ⟨b, -, rfl⟩
    trivial
  have hStream := inflate_streamOf_append [] hFits
  rwa [List.append_nil, expand_literals] at hStream

end Deflate

end CodecChain

------------------------------------------------------------
-- Texts
------------------------------------------------------------

namespace CodecChain

namespace Codec

/-
  The bytes of a text as literals are one stream, which is
  decoded as the text: bare by deflate, and by gzip between
  the header of files that are written here and the check
  value and size of the bytes. Texts in whose bytes there is
  nothing to be gained are encoded as just that.
-/
theorem decodes_literal_form
    [Compressor]
    (t : Text) :
    (∀ stream,
      Deflate.IsLiteralStream stream (Utf8.encode t) ↔
        stream = Deflate.literalForm (Utf8.encode t)) ∧
    Gzip.trailer (Utf8.encode t) =
      Gzip.bytesOf 4 (Gzip.crc32 (Utf8.encode t)).toNat ++
        Gzip.bytesOf 4 ((Utf8.encode t).length % 2 ^ 32) ∧
    deflate.decode
        (Base64.ofBytes (Deflate.literalForm (Utf8.encode t))) =
      .ok t ∧
    gzip.decode
        (Base64.ofBytes
          (Gzip.header ++ Deflate.literalForm (Utf8.encode t) ++
            Gzip.trailer (Utf8.encode t))) =
      .ok t ∧
    (Deflate.IsPlain (Utf8.encode t) →
      deflate.encode t =
        Base64.ofBytes (Deflate.literalForm (Utf8.encode t)) ∧
      gzip.encode t =
        Base64.ofBytes
          (Gzip.header ++ Deflate.literalForm (Utf8.encode t) ++
            Gzip.trailer (Utf8.encode t)) ∧
      deflate.decode (deflate.encode t) = .ok t ∧
      gzip.decode (gzip.encode t) = .ok t) := by
  have hInflate :=
    Deflate.inflate_literalForm (Utf8.encode t)
  have hBare :
      deflate.decode
          (Base64.ofBytes
            (Deflate.literalForm (Utf8.encode t))) =
        .ok t :=
    decode_deflate_eq_ok_iff.mpr hInflate
  have hHeader : Gzip.IsHeader Gzip.header :=
    Gzip.isHeader_startOf
      (show [0, 0, 0, 0, 0, (0xff : UInt8)].length = 6 from rfl)
  have hFramed :
      gzip.decode
          (Base64.ofBytes
            (Gzip.header ++
              Deflate.literalForm (Utf8.encode t) ++
              Gzip.trailer (Utf8.encode t))) =
        .ok t := by
    rw [Unpacks.gzip.decode_eq_ok_iff,
      Gzip.decompress_eq_ok_iff]
    exact ⟨Gzip.header, _, hHeader, (List.append_nil _).symm,
      hInflate⟩
  refine ⟨fun stream => Deflate.isLiteralStream_iff,
    Gzip.trailer_eq _, hBare, hFramed, ?_⟩
  intro hPlain
  have hDeflate := Compressor.compress_of_isPlain _ hPlain
  rw [encode, encode, Gzip.compress, hDeflate]
  exact ⟨rfl, rfl, hBare, hFramed⟩

/-
  Two bytes with nine bits after one with eight: 3 bits, 8 + 9
  + 9 bits, the end and zeros fill five bytes.
-/
theorem decodes_literal_form_of_accent :
    Deflate.IsPlain (Utf8.encode (.ofString "né")) ∧
      Deflate.IsLiteralStream [0xcb, 0x3b, 0xbc, 0x12, 0x00]
        (Utf8.encode (.ofString "né")) ∧
      deflate.encode (.ofString "né") = .ofString "yzu8EgA=" ∧
      deflate.decode (.ofString "yzu8EgA=") =
        .ok (.ofString "né") ∧
      gzip.decode (gzip.encode (.ofString "né")) =
        .ok (.ofString "né") := by
  have hPlain :
      Deflate.IsPlain (Utf8.encode (.ofString "né")) := by
    decide +kernel
  rcases decodes_literal_form (.ofString "né") with
    ⟨hStream, -, hBare, -, hShort⟩
  rcases hShort hPlain with ⟨hDeflate, -, -, hGzip⟩
  have hBytes :
      [0xcb, 0x3b, 0xbc, 0x12, 0x00] =
        Deflate.literalForm (Utf8.encode (.ofString "né")) := by
    decide +kernel
  rw [← hBytes] at hBare hDeflate
  exact ⟨hPlain, (hStream _).mpr hBytes, hDeflate, hBare, hGzip⟩

end Codec

end CodecChain
