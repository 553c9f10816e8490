import Mathlib.Algebra.Group.Nat.Defs
import CodecChain.Proofs.Yaml.Readable

/-
  Text in double quotes. Whatever the text is, its characters
  are written by printable ones, and are read as what they
  were.

  Key definitions include:
    * `Yaml.pieceOf`

  Main statements:
    * `Yaml.hexNumber?_hexDigits`
    * `Yaml.double?_escape_append`
    * `Yaml.fold_map_pieceOf`
    * `Yaml.isReadable_writeDouble`
-/

------------------------------------------------------------
-- Hexadecimal Numbers
------------------------------------------------------------

namespace CodecChain

namespace Yaml

/- One more digit is the next power of sixteen. -/
theorem hexNumber?_concat
    (digits : Text)
    (c : Char) :
    hexNumber? (digits ++ [c]) =
      (hexNumber? digits).bind fun n =>
        (hexNumber? [c]).map (n * 16 + ·) := by
  simp only [hexNumber?, List.foldlM_append, List.foldlM_cons,
    List.foldlM_nil, bind_pure]
  apply Option.bind_congr
  intro n _
  repeat' split
  all_goals simp

theorem hexNumber?_zeros_append
    (count : Nat)
    (digits : Text) :
    hexNumber? (List.replicate count '0' ++ digits) =
      hexNumber? digits := by
  induction count with
  | zero => rfl
  | succ count ih =>
      rw [List.replicate_succ, List.cons_append, ← ih]
      rfl

/- A capital digit is printable and has its number. -/
theorem hexNumber?_digit
    {d : Nat}
    (h : d < 16) :
    hexNumber? [(Nat.digitChar d).toUpper] = some d := by
  decide +revert

theorem isPrintable_digit
    {d : Nat}
    (h : d < 16) :
    isPrintable (Nat.digitChar d).toUpper = true := by
  decide +revert

/- The digits of a number, capital ones. -/
theorem hexNumber?_toDigits
    (n : Nat) :
    hexNumber? ((Nat.toDigits 16 n).map Char.toUpper) =
      some n := by
  induction n using Nat.strongRecOn with
  | ind n ih =>
      by_cases hSmall : n < 16
      · rw [Nat.toDigits_of_lt_base hSmall]
        exact hexNumber?_digit hSmall
      · have hLast : n % 16 < 16 := Nat.mod_lt n (by decide)
        rw [Nat.toDigits_of_base_le (by decide) (by omega),
          List.map_append, List.map_singleton,
          hexNumber?_concat, ih (n / 16) (by omega),
          hexNumber?_digit hLast]
        simp only [Option.bind_some, Option.map_some]
        congr 1
        omega

theorem isPrintable_toDigits
    (n : Nat) :
    ∀ c ∈ (Nat.toDigits 16 n).map Char.toUpper,
      isPrintable c = true := by
  induction n using Nat.strongRecOn with
  | ind n ih =>
      by_cases hSmall : n < 16
      · rw [Nat.toDigits_of_lt_base hSmall, List.map_singleton,
          List.forall_mem_singleton]
        exact isPrintable_digit hSmall
      · rw [Nat.toDigits_of_base_le (by decide) (by omega),
          List.map_append, List.forall_mem_append,
          List.map_singleton, List.forall_mem_singleton]
        exact ⟨ih (n / 16) (by omega),
          isPrintable_digit (Nat.mod_lt n (by decide))⟩

theorem hexNumber?_hexDigits
    (width n : Nat) :
    hexNumber? (hexDigits width n) = some n := by
  rw [hexDigits, hexNumber?_zeros_append, hexNumber?_toDigits]

theorem length_hexDigits
    {width n : Nat}
    (hWidth : 0 < width)
    (h : n < 16 ^ width) :
    (hexDigits width n).length = width := by
  have hLength :=
    (Nat.length_toDigits_le_iff (by decide) hWidth).mpr h
  rw [hexDigits, List.length_append, List.length_replicate,
    List.length_map]
  omega

theorem isPrintable_hexDigits
    (width n : Nat) :
    ∀ c ∈ hexDigits width n, isPrintable c = true := by
  rw [hexDigits, List.forall_mem_append]
  constructor
  · intro c hc
    rw [List.eq_of_mem_replicate hc]
    rfl
  · exact isPrintable_toDigits n

------------------------------------------------------------
-- Characters
------------------------------------------------------------

/- The piece as which a character within quotes is read. -/
def pieceOf (c : Char) : Piece :=
  if escape c = [c] then .raw c else .fixed c

theorem codePoint?_hexDigits
    (width : Nat)
    (c : Char) :
    codePoint? (hexDigits width c.toNat) = some (.fixed c) := by
  have hValid : c.toNat.isValidChar := c.valid
  simp only [codePoint?, hexNumber?_hexDigits,
    Option.bind_eq_bind, Option.bind_some]
  rw [if_pos hValid, Char.ofNat_toNat]

/- The letters that ask for digits, with the number of these. -/
def digitLetters : List (Char × Nat) :=
  [('x', 2), ('u', 4), ('U', 8)]

/- A letter that stands for a character after a backslash. -/
structure IsLetterOf (letter c : Char) : Prop where
  unescape : unescape letter = some c
  isPrintable : isPrintable letter = true
  notDigits : letter ∉ digitLetters.map Prod.fst

theorem isLetterOf_of_find?
    {c d letter : Char}
    (h : letters.find? (fun entry => entry.1 = c) =
      some (d, letter)) :
    IsLetterOf letter c := by
  have hAll :
      ∀ entry ∈ letters,
        unescape entry.2 = some entry.1 ∧
          isPrintable entry.2 = true ∧
          entry.2 ∉ digitLetters.map Prod.fst := by
    decide
  have hKey : d = c := by simpa using List.find?_some h
  have hEntry := hAll (d, letter) (List.mem_of_find?_eq_some h)
  exact ⟨hKey ▸ hEntry.1, hEntry.2.1, hEntry.2.2⟩

/-
  A character is written by a letter, by itself, or by the
  digits of its number.
-/
theorem escape_cases
    (c : Char) :
    (∃ letter, escape c = ['\\', letter] ∧ IsLetterOf letter c) ∨
      (escape c = [c] ∧ isPrintable c = true ∧ c ≠ '"' ∧
        c ≠ '\\') ∨
      ∃ letter width,
        escape c = ['\\', letter] ++ hexDigits width c.toNat ∧
          (letter, width) ∈ digitLetters ∧
          c.toNat < 16 ^ width := by
  have hRange : c.toNat < 16 ^ 8 := by
    have hValid : c.toNat.isValidChar := c.valid
    unfold Nat.isValidChar at hValid
    omega
  unfold escape
  split
  · rename_i d letter hFind
    exact Or.inl ⟨letter, rfl, isLetterOf_of_find? hFind⟩
  · rename_i hFind
    rw [List.find?_eq_none] at hFind
    have hNe :
        ∀ entry ∈ letters, c ≠ entry.1 := by
      rintro entry hMem rfl
      simpa using hFind entry hMem
    refine Or.inr ?_
    split
    · rename_i hPrint
      exact Or.inl ⟨rfl, hPrint,
        hNe ('"', '"') (by decide),
        hNe ('\\', '\\') (by decide)⟩
    · refine Or.inr ?_
      split
      · exact ⟨'x', 2, rfl, by decide, by omega⟩
      · split
        · exact ⟨'u', 4, rfl, by decide, by omega⟩
        · exact ⟨'U', 8, rfl, by decide, hRange⟩

theorem double?_letter
    {c letter : Char}
    (t : Text)
    (h : IsLetterOf letter c) :
    double? ('\\' :: letter :: t) =
      (double? t).map fun p => (.fixed c :: p.1, p.2) := by
  have hNe := h.notDigits
  simp only [digitLetters, List.map_cons, List.map_nil,
    List.mem_cons, List.not_mem_nil, or_false, not_or] at hNe
  rcases hNe with ⟨hByte, hUnit, hFull⟩
  have hBreak := isBreak_of_isPrintable h.isPrintable
  have hEscaped : escaped? letter t = some (.fixed c) := by
    simp [escaped?, breaksOff, hBreak, h.unescape]
  rw [double?, hEscaped]
  · cases double? t <;> rfl
  · exact fun _ _ _ hSame => absurd hSame hByte
  · exact fun _ _ _ _ _ hSame => absurd hSame hUnit
  · exact fun _ _ _ _ _ _ _ _ _ hSame => absurd hSame hFull

theorem double?_raw
    {c : Char}
    (t : Text)
    (hPrint : isPrintable c = true)
    (hQuote : c ≠ '"')
    (hBackslash : c ≠ '\\') :
    double? (c :: t) =
      (double? t).map fun p => (.raw c :: p.1, p.2) := by
  have hBreaks : breaksOff c t = false := by
    rw [breaksOff, isBreak_of_isPrintable hPrint, Bool.false_and]
  rw [double?]
  · simp only [hBackslash, hBreaks, decide_false, Bool.or_self]
    cases double? t <;> rfl
  · exact hQuote
  · exact fun _ _ _ hSame => absurd hSame hBackslash
  · exact fun _ _ _ _ _ hSame => absurd hSame hBackslash
  · exact fun _ _ _ _ _ _ _ _ _ hSame => absurd hSame hBackslash
  · exact fun _ _ hSame => absurd hSame hBackslash

theorem pieceOf_of_length
    {c : Char}
    (h : 1 < (escape c).length) :
    pieceOf c = .fixed c := by
  rw [pieceOf, if_neg]
  intro hSame
  rw [hSame] at h
  exact Nat.lt_irrefl 1 h

/- Digits of the width that a letter asks for are read. -/
theorem double?_digits
    {c : Char}
    (t : Text)
    (width : Nat)
    (letter : Char)
    (hWidth : (letter, width) ∈ digitLetters)
    (hRange : c.toNat < 16 ^ width) :
    double? (['\\', letter] ++ hexDigits width c.toNat ++ t) =
      (double? t).map fun p => (.fixed c :: p.1, p.2) := by
  have hPoint := codePoint?_hexDigits width c
  simp only [digitLetters, List.mem_cons, List.not_mem_nil,
    or_false, Prod.mk.injEq] at hWidth
  rcases hWidth with ⟨rfl, rfl⟩ | ⟨rfl, rfl⟩ | ⟨rfl, rfl⟩
  · have hLength := length_hexDigits (by decide) hRange
    match hDigits : hexDigits 2 c.toNat, hLength with
    | [a, b], _ =>
        rw [hDigits] at hPoint
        show double? ('\\' :: 'x' :: a :: b :: t) = _
        rw [double?, hPoint]
        cases double? t <;> rfl
  · have hLength := length_hexDigits (by decide) hRange
    match hDigits : hexDigits 4 c.toNat, hLength with
    | [a, b, d, e], _ =>
        rw [hDigits] at hPoint
        show double? ('\\' :: 'u' :: a :: b :: d :: e :: t) = _
        rw [double?, hPoint]
        cases double? t <;> rfl
  · have hLength := length_hexDigits (by decide) hRange
    match hDigits : hexDigits 8 c.toNat, hLength with
    | [a, b, d, e, f, g, h, i], _ =>
        rw [hDigits] at hPoint
        show double? ('\\' :: 'U' :: a :: b :: d :: e :: f :: g ::
          h :: i :: t) = _
        rw [double?, hPoint]
        cases double? t <;> rfl

/- What is written for a character is read as its piece. -/
theorem double?_escape_append
    (c : Char)
    (t : Text) :
    double? (escape c ++ t) =
      (double? t).map fun p => (pieceOf c :: p.1, p.2) := by
  rcases escape_cases c with
    ⟨letter, hEscape, hLetter⟩ | ⟨hEscape, hPrint, hQuote, hSlash⟩ |
      ⟨letter, width, hEscape, hWidth, hRange⟩
  · have hPiece : pieceOf c = .fixed c := by
      apply pieceOf_of_length
      rw [hEscape]
      exact Nat.lt_add_one 1
    rw [hEscape, hPiece]
    exact double?_letter t hLetter
  · rw [hEscape, pieceOf, if_pos hEscape]
    exact double?_raw t hPrint hQuote hSlash
  · have hPiece : pieceOf c = .fixed c := by
      apply pieceOf_of_length
      rw [hEscape, List.length_append]
      exact Nat.lt_add_right _ (Nat.lt_add_one 1)
    rw [hEscape, hPiece]
    exact double?_digits t width letter hWidth hRange

theorem isReadable_escape
    (c : Char) :
    isReadable (escape c) = true := by
  apply isReadable_of_printable
  rcases escape_cases c with
    ⟨letter, hEscape, hLetter⟩ | ⟨hEscape, hPrint, -, -⟩ |
      ⟨letter, width, hEscape, hWidth, -⟩
  · rw [hEscape, List.forall_mem_cons, List.forall_mem_singleton]
    exact ⟨rfl, hLetter.isPrintable⟩
  · rw [hEscape, List.forall_mem_singleton]
    exact hPrint
  · have hLetters :
        ∀ entry ∈ digitLetters, isPrintable entry.1 = true := by
      decide
    rw [hEscape, List.forall_mem_append, List.forall_mem_cons,
      List.forall_mem_singleton]
    refine ⟨⟨by decide, ?_⟩, isPrintable_hexDigits width c.toNat⟩
    exact hLetters (letter, width) hWidth

------------------------------------------------------------
-- Texts
------------------------------------------------------------

/- Text in double quotes is readable. -/
theorem isReadable_writeDouble
    (t : Text) :
    isReadable (writeDouble t) = true := by
  have hEscaped : isReadable (t.flatMap escape) = true := by
    rw [List.flatMap_def]
    apply isReadable_flatten
    rw [List.forall_mem_map]
    exact fun c _ => isReadable_escape c
  rw [writeDouble, isReadable_append, isReadable_append, hEscaped]
  rfl

/- Text in double quotes is read up to the last one. -/
theorem double?_flatMap_escape
    (t rest : Text) :
    double? (t.flatMap escape ++ '"' :: rest) =
      some (t.map pieceOf, rest) := by
  induction t with
  | nil => rfl
  | cons c t ih =>
      rw [List.flatMap_cons, List.append_assoc,
        double?_escape_append, ih]
      rfl

theorem isPrintable_of_escape
    {c : Char}
    (h : escape c = [c]) :
    isPrintable c = true := by
  rcases escape_cases c with
    ⟨letter, hEscape, -⟩ | ⟨-, hPrint, -⟩ |
      ⟨letter, width, hEscape, -⟩
  · rw [h] at hEscape
    cases hEscape
  · exact hPrint
  · rw [h] at hEscape
    cases hEscape

/- The text of the pieces after blanks that wait. -/
theorem foldAfter_map_pieceOf
    (t gap : Text)
    (hGap : ∀ c ∈ gap, isBlank c = true) :
    foldAfter false gap (t.map pieceOf) = gap.reverse ++ t := by
  induction t generalizing gap with
  | nil =>
      rw [List.map_nil, foldAfter, List.append_nil]
      exact foldGap_of_blank hGap
  | cons c t ih =>
      have hKept : pieceGap false gap.reverse = gap.reverse :=
        foldGap_of_blank hGap
      have hRest := ih [] (List.forall_mem_nil _)
      rw [List.reverse_nil, List.nil_append] at hRest
      rw [List.map_cons, pieceOf]
      split
      · rename_i hSelf
        have hPrint := isPrintable_of_escape hSelf
        rw [foldAfter, isGap_of_isPrintable hPrint]
        split
        · rename_i hBlank
          have hLater : ∀ d ∈ c :: gap, isBlank d = true :=
            List.forall_mem_cons.mpr ⟨hBlank, hGap⟩
          rw [ih (c :: gap) hLater, List.reverse_cons,
            List.append_assoc]
          rfl
        · rw [hKept, hRest]
      · rw [foldAfter, hKept, hRest]

/- The pieces of a text make up the text. -/
theorem fold_map_pieceOf
    (t : Text) :
    fold (t.map pieceOf) = t :=
  foldAfter_map_pieceOf t [] (List.forall_mem_nil _)

end Yaml

end CodecChain
