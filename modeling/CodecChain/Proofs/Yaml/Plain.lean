import CodecChain.Proofs.Yaml.Readable

/-
  Plain words. A word that can be written as it is ends where
  it was meant to: before a colon with white space after it,
  or before a line that is not indented.

  Key definitions include:
    * `Yaml.isWordChar`
    * `Yaml.octets`
    * `Yaml.IsKey`

  Main statements:
    * `Yaml.startsPlain_append`
    * `Yaml.plainFrom?_append`
    * `Yaml.IsKey.plainFrom?_append`
-/

------------------------------------------------------------
-- Words
------------------------------------------------------------

namespace CodecChain

namespace Yaml

theorem atGap_append
    {t : Text}
    (rest : Text)
    (h : t ≠ []) :
    atGap (t ++ rest) = atGap t := by
  cases t with
  | nil => exact absurd rfl h
  | cons c t => rfl

/- What begins a plain scalar begins it whatever comes then. -/
theorem startsPlain_append
    {t : Text}
    (rest : Text)
    (h : startsPlain false t = true) :
    startsPlain false (t ++ rest) = true := by
  have hLater :
      ∀ {later}, (!atGap later) = true →
        (!atGap (later ++ rest)) = true := by
    intro later hGap
    have hSome : later ≠ [] := by
      rintro rfl
      cases hGap
    rwa [atGap_append rest hSome]
  cases t with
  | nil => cases h
  | cons c t =>
      rw [startsPlain] at h
      rw [List.cons_append, startsPlain]
      split at h
      · rename_i hDash
        rw [if_pos hDash]
        exact hLater h
      · rename_i hDash
        rw [if_neg hDash]
        split at h
        · rename_i hMark
          rw [if_pos hMark]
          exact hLater h
        · rename_i hMark
          rwa [if_neg hMark]

------------------------------------------------------------
-- Lines
------------------------------------------------------------

theorem plainFrom?_blank
    {indent : Nat}
    {c : Char}
    (gap t : Text)
    (hBlank : isBlank c = true) :
    plainFrom? false indent gap (c :: t) =
      plainFrom? false indent (c :: gap) t := by
  simp only [isBlank, decide_eq_true_eq] at hBlank
  have hGapChar : isGap c = true := by
    rw [hBlank]
    rfl
  have hTab : ¬(c = '\t' && (gapColumn? gap).any (· < indent)) =
      true := by
    rw [hBlank]
    exact Bool.false_ne_true
  rw [plainFrom?, if_neg hTab, if_pos hGapChar]

theorem plainFrom?_ink
    {indent : Nat}
    {c : Char}
    {gap : Text}
    (t : Text)
    (hGap : ∀ d ∈ gap, isBlank d = true)
    (hPrint : isPrintable c = true)
    (hBlank : isBlank c = false)
    (hHash : gap ≠ [] → c ≠ '#')
    (hColon : c = ':' → atGap t = false) :
    plainFrom? false indent gap (c :: t) =
      (plainFrom? false indent [] t).map fun p =>
        (gap.reverse ++ c :: p.1, p.2) := by
  have hTab : c ≠ '\t' := ne_of_isPrintable hPrint rfl
  have hGapChar := isGap_of_isPrintable hPrint
  have hColumn := gapColumn?_of_blank hGap
  have hGoesOn : endsPlain false indent gap (c :: t) = false := by
    simpa [endsPlain, hColumn] using hHash
  have hStray : isStrayColon false (c :: t) = false := by
    unfold isStrayColon
    split <;> rfl
  have hWord : endsWord false (c :: t) = false := by
    simpa [endsWord] using hColon
  have hTake :
      plainFrom? false indent gap (c :: t) =
        (plainFrom? false indent [] t).bind fun p =>
          some (foldGap gap.reverse ++ c :: p.1, p.2) := by
    rw [plainFrom?, hGapChar, hBlank, hGoesOn, hStray, hWord]
    simp only [hTab, decide_false, Bool.false_and,
      Bool.false_eq_true, if_false]
    rfl
  rw [hTake, foldGap_of_blank hGap, Option.map_eq_bind]
  rfl

/- A plain scalar is read up to where it ends. -/
theorem plainFrom?_append
    {indent : Nat}
    {gap t after rest : Text}
    {fresh : Bool}
    (hSome : t ≠ [])
    (hGap : ∀ c ∈ gap, isBlank c = true)
    (hPrint : ∀ c ∈ t, isPrintable c = true)
    (hUnbroken : isUnbroken t = true)
    (hHash : gap ≠ [] → t.head? ≠ some '#')
    (hLast : t.getLast? ≠ some ' ')
    (hAfter :
      plainFrom? false indent [] after = some ([], rest, fresh)) :
    plainFrom? false indent gap (t ++ after) =
      some (gap.reverse ++ t, rest, fresh) := by
  -- Blanks wait in the gap until a word follows them, so the
  -- induction is over any gap.
  induction t generalizing gap with
  | nil => exact absurd rfl hSome
  | cons c t ih =>
      rw [List.forall_mem_cons] at hPrint
      simp only [isUnbroken, Bool.and_eq_true,
        Bool.not_eq_true'] at hUnbroken
      rcases hUnbroken with ⟨⟨hColon, hNext⟩, hRest⟩
      by_cases hBlank : isBlank c = true
      · have hBlankIs : c = ' ' := by
          simpa [isBlank] using hBlank
        have hMore : t ≠ [] := by
          rintro rfl
          exact hLast (congrArg some hBlankIs)
        have hLater : ∀ d ∈ c :: gap, isBlank d = true :=
          List.forall_mem_cons.mpr ⟨hBlank, hGap⟩
        have hNextHash : t.head? ≠ some '#' := by
          simpa [hBlankIs, isSpace] using hNext
        have hLastLater : t.getLast? ≠ some ' ' := by
          rwa [← List.getLast?_cons_of_ne_nil hMore]
        rw [List.cons_append, plainFrom?_blank _ _ hBlank,
          ih hMore hLater hPrint.2 hRest (fun _ => hNextHash)
            hLastLater,
          List.reverse_cons, List.append_assoc]
        rfl
      · have hInk := Bool.eq_false_iff.mpr hBlank
        have hHashHere : gap ≠ [] → c ≠ '#' := by
          rintro hWaits rfl
          exact hHash hWaits rfl
        have hColonHere : c = ':' → atGap (t ++ after) = false := by
          intro hSame
          have hGoesOn : atGap t = false := by
            simpa [hSame] using hColon
          have hMore : t ≠ [] := by
            rintro rfl
            cases hGoesOn
          rwa [atGap_append after hMore]
        have hTail :
            plainFrom? false indent [] (t ++ after) =
              some (t, rest, fresh) := by
          by_cases hEnd : t = []
          · rw [hEnd]
            exact hAfter
          · have hLastLater : t.getLast? ≠ some ' ' := by
              rwa [← List.getLast?_cons_of_ne_nil hEnd]
            exact ih hEnd (List.forall_mem_nil _) hPrint.2 hRest
              (fun hWaits => absurd rfl hWaits) hLastLater
        rw [List.cons_append, plainFrom?_ink _ hGap hPrint.1 hInk
          hHashHere hColonHere, hTail]
        rfl

------------------------------------------------------------
-- Keys
------------------------------------------------------------

/- A small letter or the mark that joins words. -/
def isWordChar (c : Char) : Bool :=
  ('a'.toNat ≤ c.toNat && c.toNat ≤ 'z'.toNat) || c = '_'

theorem isPrintable_of_isWordChar
    {c : Char}
    (h : isWordChar c = true) :
    isPrintable c = true := by
  have hTable :
      ∀ n < 128, isWordChar (Char.ofNat n) = true →
        isPrintable (Char.ofNat n) = true := by
    decide
  have hLow : c.toNat < 128 := by
    simp only [isWordChar, Bool.or_eq_true, Bool.and_eq_true,
      decide_eq_true_eq] at h
    rcases h with ⟨-, hUpper⟩ | rfl
    · exact Nat.lt_of_le_of_lt hUpper (by decide)
    · decide
  have hPrint := hTable c.toNat hLow
  rw [Char.ofNat_toNat] at hPrint
  exact hPrint h

theorem ne_of_isWordChar
    {c d : Char}
    (h : isWordChar c = true)
    (hOther : isWordChar d = false) :
    c ≠ d := by
  rintro rfl
  rw [h] at hOther
  cases hOther

theorem isGap_of_isWordChar
    {c : Char}
    (h : isWordChar c = true) :
    isGap c = false := by
  rw [isGap_of_isPrintable (isPrintable_of_isWordChar h),
    isBlank, decide_eq_false_iff_not]
  exact ne_of_isWordChar h rfl

/- The octets that a text takes. -/
def octets (t : Text) : Nat :=
  t.foldr (fun c n => c.utf8Size + n) 0

/- A word of letters that is not too long for a key. -/
structure IsKey (key : Text) : Prop where
  content : key ≠ []
  word : ∀ c ∈ key, isWordChar c = true
  short : octets key ≤ Lexer.keyLimit

theorem IsKey.isPrintable
    {key : Text}
    (h : IsKey key) :
    ∀ c ∈ key, isPrintable c = true :=
  fun c hc => isPrintable_of_isWordChar (h.word c hc)

theorem isUnbroken_of_word
    {t : Text}
    (h : ∀ c ∈ t, isWordChar c = true) :
    isUnbroken t = true := by
  induction t with
  | nil => rfl
  | cons c t ih =>
      rw [List.forall_mem_cons] at h
      have hColon : c ≠ ':' := ne_of_isWordChar h.1 rfl
      have hBlank : c ≠ ' ' := ne_of_isWordChar h.1 rfl
      have hTab : c ≠ '\t' := ne_of_isWordChar h.1 rfl
      simp [isUnbroken, isSpace, hColon, hBlank, hTab, ih h.2]

/- A key is read up to its colon. -/
theorem IsKey.plainFrom?_append
    {key : Text}
    (h : IsKey key)
    (indent : Nat)
    (t : Text) :
    plainFrom? false indent [] (key ++ ':' :: ' ' :: t) =
      some (key, ':' :: ' ' :: t, false) := by
  have hLast : key.getLast? ≠ some ' ' := by
    intro hSame
    have hWord := h.word ' ' (List.mem_of_getLast? hSame)
    cases hWord
  exact Yaml.plainFrom?_append h.content (List.forall_mem_nil _)
    h.isPrintable (isUnbroken_of_word h.word)
    (fun hSome => absurd rfl hSome)
    hLast rfl

theorem startsPlain_of_isWordChar
    {c : Char}
    (t : Text)
    (h : isWordChar c = true) :
    startsPlain false (c :: t) = true := by
  have hDash : c ≠ '-' := ne_of_isWordChar h rfl
  have hQuestion : c ≠ '?' := ne_of_isWordChar h rfl
  have hColon : c ≠ ':' := ne_of_isWordChar h rfl
  have hMark : c ∉ indicators := by
    have hOthers :
        indicators.all (fun d => !isWordChar d) = true := by
      decide
    intro hMem
    have hNone := List.all_eq_true.mp hOthers c hMem
    rw [h] at hNone
    cases hNone
  simp [startsPlain, hDash, hQuestion, hColon, hMark,
    isGap_of_isWordChar h]

end Yaml

end CodecChain
