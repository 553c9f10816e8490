import CodecChain.Text.Quoted

/-
  What error messages show between single quotes. A character
  is written as itself if it can be seen there, behind a
  backslash if it would end the quotes or begin an escape, and
  otherwise by a letter or by the digits of its code point.
  What is written tells which character it is.

  Key definitions include:
    * `Quoted.Spells`

  Main statements:
    * `Quoted.spells_escape`
    * `Quoted.Spells.char_unique`
-/

------------------------------------------------------------
-- Digits
------------------------------------------------------------

namespace CodecChain

namespace Quoted

/- The digits of base sixteen, in lower case. -/
def digits : Text :=
  ['0', '1', '2', '3', '4', '5', '6', '7', '8', '9',
   'a', 'b', 'c', 'd', 'e', 'f']

/- The number that digits of base sixteen stand for. -/
def numberOf (ds : Text) : Nat :=
  ds.foldl (fun n d => n * 16 + digits.idxOf d) 0

theorem numberOf_concat
    (ds : Text)
    (d : Char) :
    numberOf (ds ++ [d]) = numberOf ds * 16 + digits.idxOf d := by
  rw [numberOf, List.foldl_append]
  rfl

theorem digitChar_mem_digits
    {n : Nat}
    (h : n < 16) :
    Nat.digitChar n ∈ digits := by
  decide +revert

theorem idxOf_digitChar
    {n : Nat}
    (h : n < 16) :
    digits.idxOf (Nat.digitChar n) = n := by
  decide +revert

/- The digits of a number stand for it. -/
theorem numberOf_toDigits
    (n : Nat) :
    numberOf (Nat.toDigits 16 n) = n := by
  induction n using Nat.strongRecOn with
  | ind n ih =>
      by_cases hSmall : n < 16
      · rw [Nat.toDigits_of_lt_base hSmall]
        exact (Nat.zero_add _).trans (idxOf_digitChar hSmall)
      · have hLast : n % 16 < 16 := Nat.mod_lt n (by decide)
        rw [Nat.toDigits_of_base_le (by decide) (by omega),
          numberOf_concat, ih (n / 16) (by omega),
          idxOf_digitChar hLast]
        omega

theorem mem_digits_of_mem_toDigits
    (n : Nat) :
    ∀ d ∈ Nat.toDigits 16 n, d ∈ digits := by
  induction n using Nat.strongRecOn with
  | ind n ih =>
      by_cases hSmall : n < 16
      · rw [Nat.toDigits_of_lt_base hSmall,
          List.forall_mem_singleton]
        exact digitChar_mem_digits hSmall
      · rw [Nat.toDigits_of_base_le (by decide) (by omega),
          List.forall_mem_append, List.forall_mem_singleton]
        exact ⟨ih (n / 16) (by omega),
          digitChar_mem_digits (Nat.mod_lt n (by decide))⟩

theorem digitChar_ne_zero
    {n : Nat}
    (h : n < 16)
    (hPos : 0 < n) :
    Nat.digitChar n ≠ '0' := by
  decide +revert

/- Digits do not begin with a zero, save for zero itself. -/
theorem head?_toDigits_ne_zero
    {n : Nat}
    (h : 0 < n) :
    (Nat.toDigits 16 n).head? ≠ some '0' := by
  induction n using Nat.strongRecOn with
  | ind n ih =>
      by_cases hSmall : n < 16
      · rw [Nat.toDigits_of_lt_base hSmall, List.head?_cons]
        exact mt Option.some.inj (digitChar_ne_zero hSmall h)
      · have hRest := ih (n / 16) (by omega) (by omega)
        have hFront := numberOf_toDigits (n / 16)
        rw [Nat.toDigits_of_base_le (by decide) (by omega)]
        cases hDigits : Nat.toDigits 16 (n / 16) with
        | nil =>
            rw [hDigits] at hFront
            have hNone : 0 = n / 16 := hFront
            omega
        | cons d ds =>
            rw [hDigits] at hRest
            exact hRest

------------------------------------------------------------
-- Quoted Characters
------------------------------------------------------------

/- The characters that are written by a letter. -/
def letters : List (Char × Char) :=
  [('\x00', '0'), ('\t', 't'), ('\n', 'n'), ('\r', 'r')]

/-
  What may be written for a character between single quotes.
  A code point needs digits only if the character cannot be
  seen, or would be drawn over what is before it, and has no
  letter.
-/
inductive Spells : Char → Text → Prop where
  | itself
      {c : Char}
      (hSeen :
        Text.isMark c = false ∧ Text.isNonprinting c = false)
      (hOther : c ≠ '\\' ∧ c ≠ '\'') :
      Spells c [c]
  | escaped
      {c : Char}
      (h : c = '\\' ∨ c = '\'') :
      Spells c ['\\', c]
  | letter
      {c l : Char}
      (h : (c, l) ∈ letters) :
      Spells c ['\\', l]
  | codePoint
      {c : Char}
      {ds : Text}
      (hHidden :
        Text.isMark c = true ∨ Text.isNonprinting c = true)
      (hNone : ∀ l, (c, l) ∉ letters)
      (hDigits : ∀ d ∈ ds, d ∈ digits)
      (hFirst : ds.head? ≠ some '0')
      (hNumber : numberOf ds = c.toNat) :
      Spells c (['\\', 'u', '{'] ++ ds ++ ['}'])

/- What is written for a character may be written for it. -/
theorem spells_escape (c : Char) :
    Spells c (escape '\'' c) := by
  unfold escape
  split
  · exact .letter (by simp [letters, *])
  split
  · exact .letter (by simp [letters, *])
  split
  · exact .letter (by simp [letters, *])
  split
  · exact .letter (by simp [letters, *])
  split
  · rename_i hBackslash
    rw [hBackslash]
    exact .escaped (Or.inl rfl)
  split
  · rename_i hQuote
    exact .escaped (Or.inr hQuote)
  split
  · rename_i hZero _ _ _ _ _ hHidden
    have hPos : 0 < c.toNat := by
      apply Nat.pos_of_ne_zero
      intro hNone
      exact hZero (Char.toNat_inj.mp hNone)
    exact .codePoint (by simpa using hHidden)
      (by simp [letters, *]) (mem_digits_of_mem_toDigits _)
      (head?_toDigits_ne_zero hPos) (numberOf_toDigits _)
  · rename_i hBackslash hQuote hSeen
    exact .itself (by simpa using hSeen) ⟨hBackslash, hQuote⟩

theorem asString_char (c : Char) :
    (char c).asString = "'" ++ (escape '\'' c).asString ++ "'" := by
  rw [char, Text.asString, String.ofList_append,
    String.ofList_append]
  rfl

/- No more than one character has a letter. -/
theorem eq_of_mem_letters
    {c d l : Char}
    (hFirst : (c, l) ∈ letters)
    (hSecond : (d, l) ∈ letters) :
    c = d := by
  simp only [letters, List.mem_cons, List.not_mem_nil, or_false,
    Prod.mk.injEq] at hFirst hSecond
  apply Eq.symm
  rcases hFirst with ⟨rfl, rfl⟩ | ⟨rfl, rfl⟩ | ⟨rfl, rfl⟩ |
    ⟨rfl, rfl⟩ <;>
    simpa using hSecond

theorem not_mem_letters
    {c d : Char}
    (h : c = '\\' ∨ c = '\'') :
    (d, c) ∉ letters := by
  rcases h with rfl | rfl <;> simp [letters]

/- What is written tells which character it is. -/
theorem Spells.char_unique
    {c d : Char}
    {t : Text}
    (hFirst : Spells c t)
    (hSecond : Spells d t) :
    c = d := by
  cases hFirst with
  | itself hSeen hOther =>
      generalize hText : [c] = t at hSecond
      cases hSecond <;> simp_all
  | escaped h =>
      generalize hText : ['\\', c] = t at hSecond
      cases hSecond with
      | itself => simp at hText
      | escaped => simpa using hText
      | letter hLetter =>
          cases hText
          exact absurd hLetter (not_mem_letters h)
      | codePoint => simp at hText
  | letter h =>
      rename_i l
      generalize hText : ['\\', l] = t at hSecond
      cases hSecond with
      | itself => simp at hText
      | escaped hOther =>
          cases hText
          exact absurd h (not_mem_letters hOther)
      | letter hLetter =>
          cases hText
          exact eq_of_mem_letters h hLetter
      | codePoint => simp at hText
  | codePoint hHidden hNone hDigits hFirst hNumber =>
      rename_i ds
      generalize hText : ['\\', 'u', '{'] ++ ds ++ ['}'] = t
        at hSecond
      cases hSecond with
      | itself => simp at hText
      | escaped => simp at hText
      | letter => simp at hText
      | codePoint hHidden' hNone' hDigits' hFirst' hNumber' =>
          have hSame := List.append_cancel_right hText
          have hDs := List.append_cancel_left hSame
          rw [hDs, hNumber'] at hNumber
          exact (Char.toNat_inj.mp hNumber).symm

end Quoted

end CodecChain
