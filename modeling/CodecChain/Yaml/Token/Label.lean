import CodecChain.Yaml.Token.Basic

/-
  This file defines the reading of what labels nodes: the
  names of anchors, tags, and the directives that tell how
  tags are meant.

  Key definitions include:
    * `Yaml.anchorName?`
    * `Yaml.address?`
    * `Yaml.tag?`
    * `Yaml.directive?`
-/

namespace CodecChain.Yaml

------------------------------------------------------------
-- Anchors
------------------------------------------------------------

/- A text at the beginning of which a name can end. -/
def endsName : Text → Bool
  | [] => true
  | c :: _ =>
      isGap c || ['?', ':', ',', ']', '\x7d', '%', '@', '\x60'].contains c

/- The name of an anchor, and the text after it. -/
def anchorName? (t : Text) : Option (Text × Text) :=
  let name := t.takeWhile isNameChar
  let rest := t.dropWhile isNameChar
  if name ≠ [] ∧ endsName rest then some (name, rest) else none

------------------------------------------------------------
-- Addresses
------------------------------------------------------------

/- The characters of an address. -/
def isAddressChar (inBrackets : Bool) (c : Char) : Bool :=
  isNameChar c ||
    [';', '/', '?', ':', '@', '&', '=', '+', '$', '.', '!', '~',
     '*', '\'', '(', ')'].contains c ||
    (inBrackets && [',', '[', ']'].contains c)

/- How many octets come after the first one of a character. -/
def trailingOctets? (octet : Nat) : Option Nat :=
  if octet < 0x80 then some 0
  else if octet < 0xc0 then none
  else if octet < 0xe0 then some 1
  else if octet < 0xf0 then some 2
  else if octet < 0xf8 then some 3
  else none

/-
  How many octets of a character are still to come after an
  octet of which as many as given were to come.
-/
def nextOctets? (pending octet : Nat) : Option Nat :=
  if pending = 0 then trailingOctets? octet
  else if 0x80 ≤ octet ∧ octet < 0xc0 then some (pending - 1)
  else none

/-
  An address, and the text after it. Octets are spelled out
  after percent signs, those of one character in a row; each
  counts as a character of its own.
-/
def address?
    (inBrackets : Bool) :
    Nat → Text → Option (Text × Text)
  | pending, [] => if pending = 0 then some ([], []) else none
  | pending, '%' :: a :: b :: rest => do
      let octet ← hexNumber? [a, b]
      let pending ← nextOctets? pending octet
      let (address, rest) ← address? inBrackets pending rest
      pure (Char.ofNat octet :: address, rest)
  | pending, c :: rest =>
      if pending ≠ 0 || c = '%' then
        none
      else if isAddressChar inBrackets c then do
        let (address, rest) ← address? inBrackets 0 rest
        pure (c :: address, rest)
      else
        some ([], c :: rest)

------------------------------------------------------------
-- Tags
------------------------------------------------------------

/- A tag in full, after what opens it. -/
def fullTag? (t : Text) : Option (Token × Text) := do
  let (address, rest) ← address? true 0 t
  match rest with
  | '>' :: rest =>
      if address = [] then none else pure (.tag [] address, rest)
  | _ => none

/- A tag after its exclamation mark. -/
def shortTag? (t : Text) : Option (Token × Text) := do
  let word := t.takeWhile isNameChar
  match t.dropWhile isNameChar with
  | '!' :: rest =>
      let (address, rest) ← address? false 0 rest
      if address = [] then
        none
      else
        pure (.tag ('!' :: word ++ ['!']) address, rest)
  | rest =>
      let (address, rest) ← address? false 0 rest
      if word ++ address = [] then
        pure (.tag [] ['!'], rest)
      else
        pure (.tag ['!'] (word ++ address), rest)

/-
  A tag after its exclamation mark, and the text after it. It
  ends with white space or, within brackets, with a comma.
-/
def tag? (inFlow : Bool) (t : Text) : Option (Token × Text) := do
  let (tag, rest) ←
    match t with
    | '<' :: rest => fullTag? rest
    | _ => shortTag? t
  if atGap rest || (inFlow && rest.head? = some ',') then
    pure (tag, rest)
  else
    none

------------------------------------------------------------
-- Directives
------------------------------------------------------------

/- A number of at most nine digits, and the text after it. -/
def versionNumber? (t : Text) : Option (Nat × Text) :=
  let digits := t.takeWhile Char.isDigit
  let rest := t.dropWhile Char.isDigit
  if digits = [] ∨ 9 < digits.length then
    none
  else
    let number := digits.foldl
      (fun n c => n * 10 + (c.toNat - '0'.toNat)) 0
    some (number, rest)

/- The version that a directive asks for. -/
def version? (t : Text) : Option (Token × Text) := do
  let (major, rest) ← versionNumber? t
  match rest with
  | '.' :: rest =>
      let (minor, rest) ← versionNumber? rest
      pure (.version major minor, rest)
  | _ => none

/- The handle of a directive, with exclamation marks. -/
def handle? (t : Text) : Option (Text × Text) :=
  match t with
  | '!' :: rest =>
      let word := rest.takeWhile isNameChar
      match rest.dropWhile isNameChar with
      | '!' :: rest => some ('!' :: word ++ ['!'], rest)
      | rest => if word = [] then some (['!'], rest) else none
  | _ => none

/- What a directive says that a handle stands for. -/
def meaning? (t : Text) : Option (Token × Text) := do
  let (handle, rest) ← handle? t
  if !rest.head?.any isSpace then none
  let (address, rest) ← address? true 0 (skipSpaces rest)
  if address = [] || !atGap rest then none
  pure (.handle handle address, rest)

/- A directive after its mark, and the text of the next line. -/
def directive? (t : Text) : Option (Token × Text) := do
  let name := t.takeWhile isNameChar
  let rest := t.dropWhile isNameChar
  if !atGap rest then none
  let (token, rest) ←
    if name = ['Y', 'A', 'M', 'L'] then
      version? (skipSpaces rest)
    else if name = ['T', 'A', 'G'] then
      meaning? (skipSpaces rest)
    else
      none
  let rest ← endOfLine? rest
  pure (token, rest)

end CodecChain.Yaml
