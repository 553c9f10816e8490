import CodecChain.Text.Basic

/-
  This file defines the registered codecs, their tags in
  instructions, and their names for people.

  Key definitions include:
    * `Codec`
    * `Codec.all`
    * `Codec.tag`
    * `Codec.ofTag?`

  Main statements:
    * `Codec.ofTag?_tag`: a tag finds its codec.
    * `Codec.tag_of_ofTag?`: a codec is found by its tag only.
-/

namespace CodecChain

------------------------------------------------------------
-- Codecs
------------------------------------------------------------

/- The ways in which a text can be encoded. -/
inductive Codec where
  | hex
  | base64
  | gzip
  | deflate
  | runLength
deriving DecidableEq, Repr

namespace Codec

/- All codecs in the order of their registration. -/
def all : List Codec :=
  [hex, base64, gzip, deflate, runLength]

/- The tag of a codec in instructions. -/
def tag : Codec → Text
  | hex => ['H']
  | base64 => ['6', '4']
  | gzip => ['Z']
  | deflate => ['D', 'F']
  | runLength => ['R', 'L']

/- The name of a codec for people. -/
def name : Codec → String
  | hex => "Hexadecimal"
  | base64 => "Base64"
  | gzip => "Gzip (base64 wrapped)"
  | deflate => "Deflate (base64 wrapped)"
  | runLength => "Run-length"

/- The codec with the given tag. -/
def ofTag? (t : Text) : Option Codec :=
  all.find? fun codec => codec.tag = t

theorem mem_all (codec : Codec) : codec ∈ all := by
  cases codec <;> decide

/- A tag finds its codec. -/
theorem ofTag?_tag (codec : Codec) :
    ofTag? codec.tag = some codec := by
  cases codec <;> decide

/- A codec is found by its tag only. -/
theorem tag_of_ofTag?
    {t : Text}
    {codec : Codec}
    (h : ofTag? t = some codec) :
    codec.tag = t := by
  simpa using List.find?_some h

------------------------------------------------------------
-- Unknown Tags
------------------------------------------------------------

/- What is said about a tag without a codec. -/
def unknownMessage (t : Text) : String :=
  let known := ", ".intercalate (all.map fun c => c.tag.asString)
  s!"invalid codec '{t.asString}' (known: {known})"

/- A line of a codec's tag and name, for a list of codecs. -/
def listing (codec : Codec) : String :=
  let pad := String.ofList (List.replicate (4 - codec.tag.length) ' ')
  s!"  {codec.tag.asString}{pad} {codec.name}"

end Codec

end CodecChain
