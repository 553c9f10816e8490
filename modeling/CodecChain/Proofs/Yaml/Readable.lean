import CodecChain.Yaml.Token.Lexer
import CodecChain.Yaml.Writer

/-
  Readable text: printable characters and line breaks. YAML
  text made of these is admitted, and the lexer goes through
  it as it stands.

  Main statements:
    * `Yaml.isAllowed_of_isReadable`
    * `Yaml.normalize_of_isReadable`
    * `Yaml.tokens?_of_isReadable`
-/

------------------------------------------------------------
-- Printable Characters
------------------------------------------------------------

namespace CodecChain

namespace Yaml

theorem isPrintable_iff
    {c : Char} :
    isPrintable c = true ↔
      isAllowed c = true ∧ isBreak c = false ∧
        c ∉ ['\t', '\r', '\x85', '\ufeff'] := by
  simp only [isPrintable, Bool.and_eq_true, decide_eq_true_eq,
    Bool.not_eq_true', List.mem_cons, List.not_mem_nil, or_false,
    not_or]
  constructor
  · rintro ⟨⟨⟨⟨⟨hAllowed, hTab⟩, hReturn⟩, hNext⟩, hOrder⟩, hBreak⟩
    exact ⟨hAllowed, hBreak, hTab, hReturn, hNext, hOrder⟩
  · rintro ⟨hAllowed, hBreak, hTab, hReturn, hNext, hOrder⟩
    exact ⟨⟨⟨⟨⟨hAllowed, hTab⟩, hReturn⟩, hNext⟩, hOrder⟩, hBreak⟩

theorem isBreak_of_isPrintable
    {c : Char}
    (h : isPrintable c = true) :
    isBreak c = false :=
  (isPrintable_iff.mp h).2.1

theorem ne_of_isPrintable
    {c d : Char}
    (h : isPrintable c = true)
    (hOther : isPrintable d = false) :
    c ≠ d := by
  rintro rfl
  rw [h] at hOther
  cases hOther

/- The only white space that is printable is the blank. -/
theorem isGap_of_isPrintable
    {c : Char}
    (h : isPrintable c = true) :
    isGap c = isBlank c := by
  have hTab : c ≠ '\t' := ne_of_isPrintable h rfl
  simp [isGap, isSpace, isBlank, hTab, isBreak_of_isPrintable h]

theorem isGap_of_isBreak
    {c : Char}
    (h : isBreak c = true) :
    isGap c = true := by
  rw [isGap, h, Bool.or_true]

------------------------------------------------------------
-- Blanks
------------------------------------------------------------

theorem isBreak_of_isBlank
    {c : Char}
    (h : isBlank c = true) :
    isBreak c = false := by
  simp only [isBlank, decide_eq_true_eq] at h
  rw [h]
  rfl

/- Blanks begin no line. -/
theorem gapColumn?_of_blank
    {gap : Text}
    (h : ∀ c ∈ gap, isBlank c = true) :
    gapColumn? gap = none := by
  have hBreaks : ¬gap.any isBreak = true := by
    rw [List.any_eq_true]
    rintro ⟨c, hc, hBreak⟩
    rw [isBreak_of_isBlank (h c hc)] at hBreak
    cases hBreak
  rw [gapColumn?, if_neg hBreaks]

/- Blanks between two words on a line stay. -/
theorem foldGap_of_blank
    {gap : Text}
    (h : ∀ c ∈ gap, isBlank c = true) :
    foldGap gap.reverse = gap.reverse := by
  apply foldGap_of_unbroken
  rw [List.filter_eq_nil_iff]
  intro c hc
  rw [isBreak_of_isBlank (h c (List.mem_reverse.mp hc))]
  exact Bool.false_ne_true

------------------------------------------------------------
-- Readable Text
------------------------------------------------------------

theorem isReadable_append
    (s t : Text) :
    isReadable (s ++ t) = (isReadable s && isReadable t) :=
  List.all_append

theorem isReadable_of_printable
    {t : Text}
    (h : ∀ c ∈ t, isPrintable c = true) :
    isReadable t = true := by
  rw [isReadable, List.all_eq_true]
  intro c hc
  rw [h c hc, Bool.true_or]

theorem isReadable_flatten
    {texts : List Text}
    (h : ∀ t ∈ texts, isReadable t = true) :
    isReadable texts.flatten = true := by
  induction texts with
  | nil => rfl
  | cons t texts ih =>
      rw [List.forall_mem_cons] at h
      rw [List.flatten_cons, isReadable_append, h.1, ih h.2]
      rfl

theorem isAllowed_of_isBreak
    {c : Char}
    (h : isBreak c = true) :
    isAllowed c = true := by
  simp only [isBreak, Bool.or_eq_true, decide_eq_true_eq] at h
  rcases h with (rfl | rfl) | rfl
  · rfl
  · rfl
  · rfl

/- The characters of readable text are admitted. -/
theorem isAllowed_of_isReadable
    {t : Text}
    (h : isReadable t = true) :
    t.all isAllowed = true := by
  rw [isReadable, List.all_eq_true] at h
  rw [List.all_eq_true]
  intro c hc
  rcases Bool.or_eq_true_iff.mp (h c hc) with hPrint | hBreak
  · exact (isPrintable_iff.mp hPrint).1
  · exact isAllowed_of_isBreak hBreak

theorem normalize_cons
    {c : Char}
    (t : Text)
    (hReturn : c ≠ '\r')
    (hNextLine : c ≠ '\x85') :
    normalize (c :: t) = c :: normalize t := by
  rw [normalize]
  · simp [hReturn, hNextLine]
  · exact fun _ hSame => absurd hSame hReturn

/- The line breaks of readable text stay what they are. -/
theorem normalize_of_isReadable
    {t : Text}
    (h : isReadable t = true) :
    normalize t = t := by
  induction t with
  | nil => rfl
  | cons c t ih =>
      rw [isReadable, List.all_cons, Bool.and_eq_true] at h
      rcases h with ⟨hFirst, hRest⟩
      have hNe :
          ∀ {d}, isPrintable d = false → isBreak d = false →
            c ≠ d := by
        rintro d hPrint hBreak rfl
        rw [hPrint, hBreak] at hFirst
        cases hFirst
      rw [normalize_cons t (hNe rfl rfl) (hNe rfl rfl), ih hRest]

theorem tokens?_of_isReadable
    {t : Text}
    (h : isReadable t = true) :
    tokens? t = (Lexer.start t).run?.map List.reverse := by
  rw [tokens?, if_pos (isAllowed_of_isReadable h),
    normalize_of_isReadable h]

end Yaml

end CodecChain
