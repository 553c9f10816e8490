import CodecChain.Json.Lexeme

/-
  Strings of JSON text. What is written for a text between
  quotes is read as that text, whatever characters it is made
  of, and what comes after the quote is left alone.

  Key definitions include:
    * `Json.partOf`
    * `Json.partsOf`

  Main statements:
    * `Json.parts?_escape_append`
    * `Json.joinParts_map_partOf`
    * `Json.lexeme?_quoted`
-/

------------------------------------------------------------
-- Characters
------------------------------------------------------------

namespace CodecChain

namespace Json

/- The characters below the blank that have no letter. -/
def IsNumbered (c : Char) : Prop :=
  c.toNat < 0x20 ∧
    c ∉ ['\x08', '\x0c', '\n', '\r', '\t']

instance (c : Char) : Decidable (IsNumbered c) := by
  unfold IsNumbered
  infer_instance

/- The part as which a character within quotes is read. -/
def partOf (c : Char) : Part :=
  if IsNumbered c then .unit c.toNat else .char c

theorem partOf_of_not_isNumbered
    {c : Char}
    (h : ¬IsNumbered c) :
    partOf c = .char c :=
  if_neg h

/- Four digits of a control character are its number. -/
theorem unit?_controlDigits
    {n : Nat}
    (h : n < 0x20) :
    unit? '0' '0' (Nat.digitChar (n / 16))
        (Nat.digitChar (n % 16)) =
      some n := by
  decide +revert

/- A letter after a backslash is read as its character. -/
theorem parts?_letter
    {c letter : Char}
    (t : Text)
    (hLetter : letter ≠ 'u')
    (h : unescape letter = some c) :
    parts? ('\\' :: letter :: t) =
      (parts? t).map fun p => (.char c :: p.1, p.2) := by
  rw [parts?]
  · rw [h]
    cases parts? t <;> rfl
  · exact fun _ _ _ _ _ hSame => absurd hSame hLetter

/- A character that stands for itself is read as itself. -/
theorem parts?_raw
    {c : Char}
    (t : Text)
    (hQuote : c ≠ '"')
    (hBackslash : c ≠ '\\')
    (hBlank : 0x20 ≤ c.toNat) :
    parts? (c :: t) =
      (parts? t).map fun p => (.char c :: p.1, p.2) := by
  have hNot : ¬(c.toNat < 0x20 ∨ c = '\\') := by
    rintro (hLow | hSame)
    · omega
    · exact hBackslash hSame
  rw [parts?]
  · rw [if_neg hNot]
    cases parts? t <;> rfl
  · exact hQuote
  · exact fun _ _ _ _ _ hSame => absurd hSame hBackslash
  · exact fun _ _ hSame => absurd hSame hBackslash

/- What is written for a character is read as its part. -/
theorem parts?_escape_append
    (c : Char)
    (t : Text) :
    parts? (escape c ++ t) =
      (parts? t).map fun p => (partOf c :: p.1, p.2) := by
  by_cases hQuote : c = '"'
  · subst hQuote
    exact parts?_letter t (by decide) rfl
  by_cases hBackslash : c = '\\'
  · subst hBackslash
    exact parts?_letter t (by decide) rfl
  by_cases hBackspace : c = '\x08'
  · subst hBackspace
    exact parts?_letter t (by decide) rfl
  by_cases hFeed : c = '\x0c'
  · subst hFeed
    exact parts?_letter t (by decide) rfl
  by_cases hLine : c = '\n'
  · subst hLine
    exact parts?_letter t (by decide) rfl
  by_cases hReturn : c = '\r'
  · subst hReturn
    exact parts?_letter t (by decide) rfl
  by_cases hTab : c = '\t'
  · subst hTab
    exact parts?_letter t (by decide) rfl
  rw [escape, if_neg hQuote, if_neg hBackslash,
    if_neg hBackspace, if_neg hFeed, if_neg hLine,
    if_neg hReturn, if_neg hTab]
  by_cases hLow : c.toNat < 0x20
  · have hNumbered : IsNumbered c := by
      refine ⟨hLow, ?_⟩
      simp [hBackspace, hFeed, hLine, hReturn, hTab]
    have hUnit := unit?_controlDigits hLow
    rw [if_pos hLow, partOf, if_pos hNumbered]
    show parts? ('\\' :: 'u' :: '0' :: '0' :: _ :: _ :: t) = _
    rw [parts?, hUnit]
    cases parts? t <;> rfl
  · rw [if_neg hLow,
      partOf_of_not_isNumbered fun h => hLow h.1]
    exact parts?_raw t hQuote hBackslash (by omega)

------------------------------------------------------------
-- Parts
------------------------------------------------------------

/- No character is half a character. -/
theorem not_isHalf (c : Char) :
    isFirstHalf c.toNat = false ∧
      isSecondHalf c.toNat = false := by
  have hValid : c.toNat.isValidChar := c.valid
  unfold Nat.isValidChar at hValid
  unfold isFirstHalf isSecondHalf
  simp only [Bool.and_eq_false_iff, decide_eq_false_iff_not]
  omega

/- The number of a character is that character. -/
theorem joinParts_unit_cons
    (c : Char)
    (parts : List Part) :
    joinParts (.unit c.toNat :: parts) =
      (joinParts parts).map (c :: ·) := by
  rcases not_isHalf c with ⟨hFirst, hSecond⟩
  match parts with
  | [] => simp [joinParts, hFirst, hSecond]
  | .char d :: parts => simp [joinParts, hFirst, hSecond]
  | .unit n :: parts => simp [joinParts, hFirst, hSecond]

/- The parts of a text make up the text. -/
theorem joinParts_map_partOf (t : Text) :
    joinParts (t.map partOf) = some t := by
  induction t with
  | nil => rfl
  | cons c t ih =>
      rw [List.map_cons, partOf]
      split
      · rw [joinParts_unit_cons, ih]
        rfl
      · rw [joinParts, ih]
        rfl

------------------------------------------------------------
-- Strings
------------------------------------------------------------

/- The parts as which a string is read. -/
def partsOf : Option Text → List Part
  | some t => t.map partOf
  | none => [.unit 0xd800]

theorem parts?_flatMap_escape
    (t rest : Text) :
    parts? (t.flatMap escape ++ '"' :: rest) =
      some (t.map partOf, rest) := by
  induction t with
  | nil => rfl
  | cons c t ih =>
      rw [List.flatMap_cons, List.append_assoc,
        parts?_escape_append, ih]
      rfl

theorem parts?_quoted
    (s : Option Text)
    (rest : Text) :
    parts? (quoted s ++ '"' :: rest) =
      some (partsOf s, rest) := by
  cases s with
  | none => rfl
  | some t => exact parts?_flatMap_escape t rest

theorem joinParts_partsOf (s : Option Text) :
    joinParts (partsOf s) = s := by
  cases s with
  | none => rfl
  | some t => exact joinParts_map_partOf t

/- A string is read up to its quote. -/
theorem lexeme?_quoted
    (s : Option Text)
    (rest : Text) :
    lexeme? '"' (quoted s ++ '"' :: rest) =
      some (.string s, rest) := by
  have hMark : mark? '"' = none := rfl
  simp only [lexeme?, hMark, if_true, parts?_quoted,
    Option.map_some, joinParts_partsOf]

end Json

end CodecChain
