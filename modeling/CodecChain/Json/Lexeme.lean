import CodecChain.Json.Value

/-
  This file defines the lexemes of JSON text: marks, words,
  numbers and strings, with the white space between them left
  out.

  Key definitions include:
    * `Json.Lexeme`
    * `Json.unescape`
    * `Json.isNumber`
    * `Json.mark?`
    * `Json.number?`
    * `Json.lexeme?`
    * `Json.lexemes?`

  Main statements:
    * `lexeme?_length_le`: a lexeme takes nothing back.
-/

namespace CodecChain.Json

------------------------------------------------------------
-- Lexemes
------------------------------------------------------------

/- A lexeme of JSON text. -/
inductive Lexeme where
  | openArray
  | closeArray
  | openObject
  | closeObject
  | comma
  | colon
  | null
  | bool (b : Bool)
  | number (literal : Text)
  | string (s : Option Text)
deriving DecidableEq, Repr

/- The white space of JSON text. -/
def isSpace (c : Char) : Bool :=
  c = ' ' || c = '\t' || c = '\n' || c = '\r'

------------------------------------------------------------
-- Strings
------------------------------------------------------------

/-
  A part of a string: a character, or a number of sixteen
  bits that an escape gives, which may be half a character.
-/
inductive Part where
  | char (c : Char)
  | unit (n : Nat)
deriving DecidableEq, Repr

/- The number of a hexadecimal digit. -/
def digit? (c : Char) : Option Nat :=
  let n := c.toNat
  if '0'.toNat ≤ n ∧ n ≤ '9'.toNat then
    some (n - '0'.toNat)
  else if 'a'.toNat ≤ n ∧ n ≤ 'f'.toNat then
    some (n - 'a'.toNat + 10)
  else if 'A'.toNat ≤ n ∧ n ≤ 'F'.toNat then
    some (n - 'A'.toNat + 10)
  else
    none

/- The number of four hexadecimal digits. -/
def unit? (a b c d : Char) : Option Nat := do
  let a ← digit? a
  let b ← digit? b
  let c ← digit? c
  let d ← digit? d
  pure (((a * 16 + b) * 16 + c) * 16 + d)

/- The character that a letter after a backslash stands for. -/
def unescape (c : Char) : Option Char :=
  if c = '"' ∨ c = '\\' ∨ c = '/' then some c
  else if c = 'b' then some '\x08'
  else if c = 'f' then some '\x0c'
  else if c = 'n' then some '\n'
  else if c = 'r' then some '\r'
  else if c = 't' then some '\t'
  else none

/-
  The parts of a string up to the quote that ends it, and the
  text after that quote.
-/
def parts? : Text → Option (List Part × Text)
  | [] => none
  | '"' :: rest => some ([], rest)
  | '\\' :: 'u' :: a :: b :: c :: d :: rest => do
      let n ← unit? a b c d
      let (parts, rest) ← parts? rest
      pure (.unit n :: parts, rest)
  | '\\' :: c :: rest => do
      let c ← unescape c
      let (parts, rest) ← parts? rest
      pure (.char c :: parts, rest)
  | c :: rest =>
      if c.toNat < 0x20 ∨ c = '\\' then
        none
      else do
        let (parts, rest) ← parts? rest
        pure (.char c :: parts, rest)

/- The first and the second half of a character. -/
def isFirstHalf (n : Nat) : Bool :=
  0xd800 ≤ n && n < 0xdc00

def isSecondHalf (n : Nat) : Bool :=
  0xdc00 ≤ n && n < 0xe000

/-
  The text of parts. Two halves that stand together are one
  character; a half that stands alone is no text.
-/
def joinParts : List Part → Option Text
  | [] => some []
  | .char c :: parts => (joinParts parts).map (c :: ·)
  | .unit n :: .unit m :: parts =>
      if isFirstHalf n then
        if isSecondHalf m then
          (joinParts parts).map
            (Char.ofNat
              (0x10000 + (n - 0xd800) * 0x400 + (m - 0xdc00)) :: ·)
        else
          none
      else if isSecondHalf n then
        none
      else
        (joinParts (.unit m :: parts)).map (Char.ofNat n :: ·)
  | .unit n :: parts =>
      if isFirstHalf n || isSecondHalf n then
        none
      else
        (joinParts parts).map (Char.ofNat n :: ·)

theorem parts?_length_lt
    {t rest : Text}
    {parts : List Part}
    (h : parts? t = some (parts, rest)) :
    rest.length < t.length := by
  fun_induction parts? t generalizing parts rest with
  | case1 => simp at h
  | case2 t =>
      simp only [Option.some.injEq, Prod.mk.injEq] at h
      simp [← h.2]
  | case3 a b c d t ih =>
      simp only [Option.bind_eq_bind, Option.bind_eq_some_iff,
        Option.pure_def, Option.some.injEq, Prod.mk.injEq] at h
      obtain ⟨n, _, ⟨ps, r⟩, hParts, _, rfl⟩ := h
      have := ih hParts
      simp only [List.length_cons]
      omega
  | case4 c t _ ih =>
      simp only [Option.bind_eq_bind, Option.bind_eq_some_iff,
        Option.pure_def, Option.some.injEq, Prod.mk.injEq] at h
      obtain ⟨d, _, ⟨ps, r⟩, hParts, _, rfl⟩ := h
      have := ih hParts
      simp only [List.length_cons]
      omega
  | case5 => simp at h
  | case6 c t _ _ _ _ ih =>
      simp only [Option.bind_eq_bind, Option.bind_eq_some_iff,
        Option.pure_def, Option.some.injEq, Prod.mk.injEq] at h
      obtain ⟨⟨ps, r⟩, hParts, _, rfl⟩ := h
      have := ih hParts
      simp only [List.length_cons]
      omega

------------------------------------------------------------
-- Numbers
------------------------------------------------------------

/- A decimal digit. -/
def isDigit (c : Char) : Bool :=
  '0'.toNat ≤ c.toNat && c.toNat ≤ '9'.toNat

/- The characters that numbers are made of. -/
def isNumberChar (c : Char) : Bool :=
  isDigit c || c = '-' || c = '+' || c = '.' || c = 'e' || c = 'E'

/- Nothing, or an exponent. -/
def isExponent : Text → Bool
  | [] => true
  | c :: rest =>
      let digits :=
        match rest with
        | '+' :: digits => digits
        | '-' :: digits => digits
        | digits => digits
      (c = 'e' || c = 'E') && !digits.isEmpty && digits.all isDigit

/- Nothing, or a fraction and an exponent. -/
def isFraction : Text → Bool
  | '.' :: rest =>
      !(rest.takeWhile isDigit).isEmpty &&
        isExponent (rest.dropWhile isDigit)
  | rest => isExponent rest

/- A number without a sign. A leading zero stands alone. -/
def isUnsigned : Text → Bool
  | '0' :: rest => isFraction rest
  | c :: rest => isDigit c && isFraction (rest.dropWhile isDigit)
  | [] => false

/- The text of a number. -/
def isNumber : Text → Bool
  | '-' :: rest => isUnsigned rest
  | rest => isUnsigned rest

------------------------------------------------------------
-- Reading
------------------------------------------------------------

/- The text after a word that it has to begin with. -/
def afterWord? (word : String) (t : Text) : Option Text :=
  let word := Text.ofString word
  if word.isPrefixOf t then some (t.drop word.length) else none

/- The lexeme that a character is by itself. -/
def mark? (c : Char) : Option Lexeme :=
  if c = '[' then some .openArray
  else if c = ']' then some .closeArray
  else if c = '{' then some .openObject
  else if c = '}' then some .closeObject
  else if c = ',' then some .comma
  else if c = ':' then some .colon
  else none

/- The number that begins with a character. -/
def number? (c : Char) (rest : Text) : Option (Lexeme × Text) :=
  let literal := c :: rest.takeWhile isNumberChar
  if isNumber literal then
    some (.number literal, rest.dropWhile isNumberChar)
  else
    none

/-
  The lexeme that begins with a character, and the text after
  it.
-/
def lexeme? (c : Char) (rest : Text) : Option (Lexeme × Text) :=
  match mark? c with
  | some mark => some (mark, rest)
  | none =>
      if c = '"' then
        (parts? rest).map fun (parts, rest) =>
          (.string (joinParts parts), rest)
      else if c = 'n' then
        (afterWord? "ull" rest).map (Lexeme.null, ·)
      else if c = 't' then
        (afterWord? "rue" rest).map (Lexeme.bool true, ·)
      else if c = 'f' then
        (afterWord? "alse" rest).map (Lexeme.bool false, ·)
      else
        number? c rest

theorem afterWord?_length_le
    {word : String}
    {t rest : Text}
    (h : afterWord? word t = some rest) :
    rest.length ≤ t.length := by
  unfold afterWord? at h
  dsimp only at h
  split at h
  · simp only [Option.some.injEq] at h
    simp [← h]
  · simp at h

theorem number?_length_le
    {c : Char}
    {t rest : Text}
    {lexeme : Lexeme}
    (h : number? c t = some (lexeme, rest)) :
    rest.length ≤ t.length := by
  unfold number? at h
  dsimp only at h
  split at h
  · simp only [Option.some.injEq, Prod.mk.injEq] at h
    rw [← h.2]
    exact (List.dropWhile_sublist isNumberChar).length_le
  · simp at h

/- A lexeme takes nothing back. -/
theorem lexeme?_length_le
    {c : Char}
    {t rest : Text}
    {lexeme : Lexeme}
    (h : lexeme? c t = some (lexeme, rest)) :
    rest.length ≤ t.length := by
  have hWord :
      ∀ {word : String} {value : Lexeme},
        (afterWord? word t).map (value, ·) =
          some (lexeme, rest) →
        rest.length ≤ t.length := by
    intro word value hMap
    simp only [Option.map_eq_some_iff, Prod.mk.injEq] at hMap
    obtain ⟨r, hAfter, _, rfl⟩ := hMap
    exact afterWord?_length_le hAfter
  unfold lexeme? at h
  split at h
  · simp only [Option.some.injEq, Prod.mk.injEq] at h
    simp [← h.2]
  · split at h
    · simp only [Option.map_eq_some_iff, Prod.mk.injEq] at h
      obtain ⟨⟨parts, r⟩, hParts, _, rfl⟩ := h
      exact Nat.le_of_lt (parts?_length_lt hParts)
    · split at h
      · exact hWord h
      · split at h
        · exact hWord h
        · split at h
          · exact hWord h
          · exact number?_length_le h

/- The lexemes of a text. -/
def lexemes? : Text → Option (List Lexeme)
  | [] => some []
  | c :: rest =>
      if isSpace c then
        lexemes? rest
      else
        match _h : lexeme? c rest with
        | none => none
        | some (lexeme, rest) => (lexemes? rest).map (lexeme :: ·)
termination_by t => t.length
decreasing_by
  · simp
  · have := lexeme?_length_le _h
    simp only [List.length_cons]
    omega

end CodecChain.Json
