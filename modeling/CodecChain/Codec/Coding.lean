import CodecChain.Codec.Basic
import CodecChain.Base64
import CodecChain.RunLength
import CodecChain.Gzip.Member

/-
  This file defines what the codecs do to texts: encoding
  always succeeds, decoding may fail with an error that names
  the codec and, where there is one, the position.

  Key definitions include:
    * `Codec.encode`
    * `Codec.Fault`
    * `Codec.DecodeError`
    * `Codec.decode`
-/

namespace CodecChain.Codec

------------------------------------------------------------
-- Encoding
------------------------------------------------------------

/- The encoded form of a text. -/
def encode
    [Compressor]
    (codec : Codec)
    (t : Text) : Text :=
  match codec with
  | hex => Hex.ofBytes (Utf8.encode t)
  | base64 => Base64.ofBytes (Utf8.encode t)
  | gzip => Base64.ofBytes (Gzip.compress (Utf8.encode t))
  | deflate => Base64.ofBytes (Compressor.compress (Utf8.encode t))
  | runLength => RunLength.encode t

------------------------------------------------------------
-- Errors
------------------------------------------------------------

/- What can be wrong with a text that is to be decoded. -/
inductive Fault where
  | hex (f : Hex.Fault)
  | base64 (f : Base64.Fault)
  | runLength (f : RunLength.Fault)
  | compressed (f : Gzip.Fault)
  | trailing (count offset : Nat)
  | notUtf8 (offset : Nat)
deriving DecidableEq, Repr

namespace Fault

/-
  The position of the fault: in bytes of the text for digits
  and symbols, in characters for runs, in bytes of the
  decoded base64 text for trailing bytes, and in bytes of the
  result for those that are no text.
-/
def offset? : Fault → Option Nat
  | hex f => some f.offset
  | base64 f => f.offset?
  | runLength f => some f.offset
  | compressed _ => none
  | trailing _ offset => some offset
  | notUtf8 offset => some offset

/- The fault in words. -/
def reason : Fault → String
  | hex f => f.reason
  | base64 f => f.reason
  | runLength f => f.cause.reason
  | compressed f => s!"corrupt compressed stream: {f.reason}"
  | trailing count _ =>
      s!"{count} trailing bytes after compressed stream"
  | notUtf8 _ => "result is not valid UTF-8"

end Fault

/- A fault in a text that a codec was to decode. -/
structure DecodeError where
  codec : Codec
  fault : Fault
deriving DecidableEq, Repr

/- The error in words. -/
def DecodeError.message (e : DecodeError) : String :=
  let place :=
    match e.fault.offset? with
    | some offset => s!" at offset {offset}"
    | none => ""
  s!"{e.codec.tag.asString} decode failed{place}: {e.fault.reason}"

------------------------------------------------------------
-- Decoding
------------------------------------------------------------

/- The text of decoded bytes, which must be that of one. -/
def textOf
    (codec : Codec)
    (bytes : List UInt8) : Except DecodeError Text :=
  (Utf8.decode bytes).mapError fun offset =>
    ⟨codec, .notUtf8 offset⟩

/- The bytes of base64 text, of which several codecs make use. -/
def base64Bytes
    (codec : Codec)
    (t : Text) : Except DecodeError (List UInt8) :=
  (Base64.toBytes t).mapError fun f => ⟨codec, .base64 f⟩

/- What a compressed stream holds, and the bytes after it. -/
def inflated
    (codec : Codec)
    (unpacked : Except Gzip.Fault (List UInt8 × List UInt8)) :
    Except DecodeError (List UInt8 × List UInt8) :=
  unpacked.mapError fun f => ⟨codec, .compressed f⟩

/-
  A compressed stream must reach to the end of the bytes, the
  number of which is given. The bytes that follow it are
  counted and located.
-/
def allUsed
    (codec : Codec)
    (total : Nat)
    (rest : List UInt8) : Except DecodeError Unit :=
  if rest.isEmpty then
    .ok ()
  else
    .error ⟨codec, .trailing rest.length (total - rest.length)⟩

/-
  The text that a text encodes. Each codec tells the checks
  that it shares with others on whose behalf they are made.
-/
def decode
    (codec : Codec)
    (t : Text) : Except DecodeError Text :=
  match codec with
  | hex => do
      let bytes ←
        (Hex.toBytes t).mapError fun f => ⟨hex, .hex f⟩
      textOf hex bytes
  | base64 => do
      let bytes ← base64Bytes base64 t
      textOf base64 bytes
  | gzip => do
      let bytes ← base64Bytes gzip t
      let (content, rest) ←
        inflated gzip (Gzip.decompress bytes)
      allUsed gzip bytes.length rest
      textOf gzip content
  | deflate => do
      let bytes ← base64Bytes deflate t
      let (content, rest) ←
        inflated deflate (Gzip.ofStream (Deflate.inflate bytes))
      allUsed deflate bytes.length rest
      textOf deflate content
  | runLength =>
      (RunLength.decode t).mapError fun f =>
        ⟨runLength, .runLength f⟩

end CodecChain.Codec
