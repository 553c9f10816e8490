import Mathlib.Data.List.TakeWhile
import CodecChain.Json.Lexeme

/-
  The grammar of the numbers of JSON text: a sign, a whole
  part without leading zeros, a fraction and an exponent, of
  which only the whole part must be there. What it gives is
  taken as a number, and nothing else is.

  Key definitions include:
    * `Json.AreDigits`
    * `Json.IsWhole`
    * `Json.IsFractionPart`
    * `Json.IsExponentPart`
    * `Json.IsNumeral`

  Main statements:
    * `Json.IsNumeral.isNumber`
    * `Json.isNumber_iff`
-/

------------------------------------------------------------
-- The Grammar
------------------------------------------------------------

namespace CodecChain

namespace Json

/- The decimal digits. -/
def digits : Text :=
  ['0', '1', '2', '3', '4', '5', '6', '7', '8', '9']

/- One digit or more. -/
def AreDigits (t : Text) : Prop :=
  t ≠ [] ∧ ∀ c ∈ t, c ∈ digits

/- A whole part: zero, or digits that do not begin with it. -/
inductive IsWhole : Text → Prop where
  | zero :
      IsWhole ['0']
  | digits
      {c : Char}
      {t : Text}
      (hFirst : c ∈ digits ∧ c ≠ '0')
      (hLater : ∀ d ∈ t, d ∈ digits) :
      IsWhole (c :: t)

/- A fraction, if there is one. -/
inductive IsFractionPart : Text → Prop where
  | none :
      IsFractionPart []
  | digits
      {t : Text}
      (hDigits : AreDigits t) :
      IsFractionPart ('.' :: t)

/- An exponent, if there is one. -/
inductive IsExponentPart : Text → Prop where
  | none :
      IsExponentPart []
  | digits
      {mark : Char}
      {sign t : Text}
      (hMark : mark ∈ ['e', 'E'])
      (hSign : sign ∈ [[], ['+'], ['-']])
      (hDigits : AreDigits t) :
      IsExponentPart (mark :: (sign ++ t))

/- The text of a number. -/
inductive IsNumeral : Text → Prop where
  | parts
      {sign whole fraction exponent : Text}
      (hSign : sign ∈ [[], ['-']])
      (hWhole : IsWhole whole)
      (hFraction : IsFractionPart fraction)
      (hExponent : IsExponentPart exponent) :
      IsNumeral (sign ++ (whole ++ (fraction ++ exponent)))

------------------------------------------------------------
-- Digits
------------------------------------------------------------

variable {c : Char} {t rest : Text}

theorem isDigit_of_mem
    (h : c ∈ digits) :
    isDigit c = true := by
  have hAll : digits.all isDigit = true := by decide
  exact List.all_eq_true.mp hAll c h

/- What comes after digits begins with none. -/
def BeginsApart (rest : Text) : Prop :=
  ∀ c ∈ rest.head?, isDigit c = false

theorem BeginsApart.dropWhile_append
    (hRest : BeginsApart rest)
    (hDigits : ∀ c ∈ t, c ∈ digits) :
    (t ++ rest).dropWhile isDigit = rest := by
  rw [List.dropWhile_append_of_pos
    fun c hc => isDigit_of_mem (hDigits c hc)]
  cases rest with
  | nil => rfl
  | cons c rest =>
      exact List.dropWhile_cons_of_neg (by simp [hRest c rfl])

/- Digits begin with a digit, whatever comes after them. -/
theorem AreDigits.exists_cons
    (h : AreDigits t) :
    ∃ c later, t = c :: later ∧ isDigit c = true := by
  cases t with
  | nil => exact absurd rfl h.1
  | cons c later =>
      exact ⟨c, later, rfl,
        isDigit_of_mem (h.2 c List.mem_cons_self)⟩

theorem AreDigits.all_isDigit
    (h : AreDigits t) :
    t.all isDigit = true :=
  List.all_eq_true.mpr fun c hc => isDigit_of_mem (h.2 c hc)

------------------------------------------------------------
-- Numbers
------------------------------------------------------------

theorem IsExponentPart.beginsApart
    (h : IsExponentPart t) :
    BeginsApart t := by
  cases h with
  | none => rintro _ ⟨⟩
  | digits hMark =>
      rintro _ ⟨⟩
      simp only [List.mem_cons, List.not_mem_nil, or_false]
        at hMark
      rcases hMark with rfl | rfl
      · rfl
      · rfl

theorem IsExponentPart.isExponent
    (h : IsExponentPart t) :
    isExponent t = true := by
  cases h with
  | none => rfl
  | @digits mark sign t hMark hSign hDigits =>
      have hLetter : mark = 'e' ∨ mark = 'E' := by
        simpa using hMark
      have hAll := hDigits.all_isDigit
      rcases hDigits.exists_cons with ⟨c, later, rfl, hDigit⟩
      simp only [List.mem_cons, List.not_mem_nil, or_false]
        at hSign
      rcases hSign with rfl | rfl | rfl
      -- A digit is no sign, so nothing is taken away.
      · have hPlus : c ≠ '+' := by
          rintro rfl
          cases hDigit
        have hMinus : c ≠ '-' := by
          rintro rfl
          cases hDigit
        simp only [List.nil_append, Json.isExponent]
        split
        · rename_i hEq
          exact absurd (List.head_eq_of_cons_eq hEq) hPlus
        · rename_i hEq
          exact absurd (List.head_eq_of_cons_eq hEq) hMinus
        · simpa [hLetter] using hAll
      · simpa [Json.isExponent, hLetter] using hAll
      · simpa [Json.isExponent, hLetter] using hAll

theorem IsExponentPart.isFraction_append
    {fraction : Text}
    (h : IsExponentPart t)
    (hFraction : IsFractionPart fraction) :
    isFraction (fraction ++ t) = true := by
  cases hFraction with
  | none =>
      have hExponent := h.isExponent
      cases h with
      | none => rfl
      | @digits mark sign t hMark =>
          have hDot : mark ≠ '.' := by
            rintro rfl
            simp at hMark
          unfold isFraction
          split
          · rename_i hEq
            exact absurd (List.head_eq_of_cons_eq hEq) hDot
          · exact hExponent
  | @digits digits hDigits =>
      rw [List.cons_append, isFraction,
        h.beginsApart.dropWhile_append hDigits.2, h.isExponent]
      rcases hDigits.exists_cons with ⟨c, later, rfl, hDigit⟩
      simp [hDigit]

theorem IsFractionPart.beginsApart_append
    {exponent : Text}
    (h : IsFractionPart t)
    (hExponent : IsExponentPart exponent) :
    BeginsApart (t ++ exponent) := by
  cases h with
  | none => exact hExponent.beginsApart
  | digits =>
      rintro _ ⟨⟩
      rfl

theorem IsWhole.isUnsigned_append
    (h : IsWhole t)
    (hApart : BeginsApart rest)
    (hFraction : isFraction rest = true) :
    isUnsigned (t ++ rest) = true := by
  cases h with
  | zero => exact hFraction
  | @digits c t hFirst hLater =>
      rw [List.cons_append]
      unfold isUnsigned
      split
      · rename_i hEq
        exact absurd (List.head_eq_of_cons_eq hEq) hFirst.2
      · rename_i hEq
        cases hEq
        rw [hApart.dropWhile_append hLater, hFraction,
          isDigit_of_mem hFirst.1]
        rfl
      · rename_i hEq
        cases hEq

/- What the grammar gives is the text of a number. -/
theorem IsNumeral.isNumber
    (h : IsNumeral t) :
    isNumber t = true := by
  cases h with
  | @parts sign whole fraction exponent hSign hWhole hFraction
      hExponent =>
      have hUnsigned := hWhole.isUnsigned_append
        (hFraction.beginsApart_append hExponent)
        (hExponent.isFraction_append hFraction)
      simp only [List.mem_cons, List.not_mem_nil, or_false]
        at hSign
      rcases hSign with rfl | rfl
      -- A whole part begins with a digit and not with a sign.
      · rw [List.nil_append]
        unfold Json.isNumber
        split
        · rename_i hEq
          cases hWhole with
          | zero => cases hEq
          | digits hFirst =>
              cases hEq
              cases isDigit_of_mem hFirst.1
        · exact hUnsigned
      · exact hUnsigned

------------------------------------------------------------
-- Texts of Numbers
------------------------------------------------------------

theorem mem_digits_of_isDigit
    (h : isDigit c = true) :
    c ∈ digits := by
  have hDigits :
      ∀ n ≤ '9'.toNat, '0'.toNat ≤ n →
        Char.ofNat n ∈ digits := by
    decide
  simp only [isDigit, Bool.and_eq_true, decide_eq_true_eq] at h
  simpa using hDigits c.toNat h.2 h.1

theorem areDigits_of_all
    (hSome : t ≠ [])
    (h : t.all isDigit = true) :
    AreDigits t :=
  ⟨hSome, fun c hc =>
    mem_digits_of_isDigit (List.all_eq_true.mp h c hc)⟩

/- The digits at the beginning of a text are digits. -/
theorem mem_digits_of_takeWhile :
    ∀ d ∈ t.takeWhile isDigit, d ∈ digits :=
  fun _ hd => mem_digits_of_isDigit (List.mem_takeWhile_imp hd)

theorem isExponentPart_of_isExponent
    (h : isExponent t = true) :
    IsExponentPart t := by
  cases t with
  | nil => exact .none
  | cons mark rest =>
      simp only [isExponent, Bool.and_eq_true, Bool.or_eq_true,
        decide_eq_true_eq, Bool.not_eq_true',
        List.isEmpty_eq_false_iff] at h
      rcases h with ⟨⟨hMark, hSome⟩, hAll⟩
      have hLetter : mark ∈ ['e', 'E'] := by simpa using hMark
      revert hAll hSome
      split
      · intro hAll hSome
        exact @IsExponentPart.digits mark ['+'] _ hLetter
          (by simp) (areDigits_of_all hSome hAll)
      · intro hAll hSome
        exact @IsExponentPart.digits mark ['-'] _ hLetter
          (by simp) (areDigits_of_all hSome hAll)
      · intro hAll hSome
        exact @IsExponentPart.digits mark [] _ hLetter
          (by simp) (areDigits_of_all hSome hAll)

theorem exists_parts_of_isFraction
    (h : isFraction t = true) :
    ∃ fraction exponent,
      t = fraction ++ exponent ∧
        IsFractionPart fraction ∧ IsExponentPart exponent := by
  unfold isFraction at h
  split at h
  · rename_i rest
    simp only [Bool.and_eq_true, Bool.not_eq_true',
      List.isEmpty_eq_false_iff] at h
    refine ⟨'.' :: rest.takeWhile isDigit,
      rest.dropWhile isDigit, ?_,
      .digits ⟨h.1, mem_digits_of_takeWhile⟩,
      isExponentPart_of_isExponent h.2⟩
    rw [List.cons_append, List.takeWhile_append_dropWhile]
  · exact ⟨[], t, rfl, .none, isExponentPart_of_isExponent h⟩

theorem exists_parts_of_isUnsigned
    (h : isUnsigned t = true) :
    ∃ whole rest,
      t = whole ++ rest ∧
        IsWhole whole ∧ isFraction rest = true := by
  unfold isUnsigned at h
  split at h
  · rename_i rest
    exact ⟨['0'], rest, rfl, .zero, h⟩
  · rename_i c rest hZero
    rw [Bool.and_eq_true] at h
    have hFirst : c ∈ digits ∧ c ≠ '0' :=
      ⟨mem_digits_of_isDigit h.1, hZero⟩
    refine ⟨c :: rest.takeWhile isDigit, rest.dropWhile isDigit,
      ?_, .digits hFirst mem_digits_of_takeWhile, h.2⟩
    rw [List.cons_append, List.takeWhile_append_dropWhile]
  · cases h

theorem isNumeral_of_isUnsigned
    (sign : Text)
    (hSign : sign ∈ [[], ['-']])
    (h : isUnsigned t = true) :
    IsNumeral (sign ++ t) := by
  rcases exists_parts_of_isUnsigned h with
    ⟨whole, rest, rfl, hWhole, hRest⟩
  rcases exists_parts_of_isFraction hRest with
    ⟨fraction, exponent, rfl, hFraction, hExponent⟩
  exact .parts hSign hWhole hFraction hExponent

/- The texts of numbers are those that the grammar gives. -/
theorem isNumber_iff :
    isNumber t = true ↔ IsNumeral t := by
  constructor
  · intro h
    unfold isNumber at h
    split at h
    · exact isNumeral_of_isUnsigned ['-'] (by simp) h
    · exact isNumeral_of_isUnsigned [] (by simp) h
  · exact IsNumeral.isNumber

end Json

end CodecChain
