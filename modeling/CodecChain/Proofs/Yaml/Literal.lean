import CodecChain.Proofs.Yaml.Readable

/-
  Text written as lines. A text is breaks and then lines that
  begin with something else than a break; the margin tells
  where each of these begins, and the hints of the header tell
  how many blanks are the margin and what becomes of the
  breaks at the end.

  Key definitions include:
    * `Yaml.lineEnd`
    * `Yaml.Block.Line.whole`
    * `Yaml.Block.Line.IsSound`
    * `Yaml.Block.writtenLines`

  Main statements:
    * `Yaml.Block.exists_lines`
    * `Yaml.Block.lines?_leadingOf`
    * `Yaml.block?_writeLiteral`
    * `Yaml.isReadable_writeLiteral`
-/

------------------------------------------------------------
-- Lines
------------------------------------------------------------

namespace CodecChain

namespace Yaml

/- The break that a line needs that has none at its end. -/
def lineEnd (t : Text) : Text :=
  if t.getLast?.any isBreak then [] else ['\n']

namespace Block

/- All of a line as it stands in a text. -/
def Line.whole (line : Line) : Text :=
  line.text ++ line.ending ++ line.after

/- A line with content, which is followed by breaks only. -/
structure Line.IsSound (line : Line) : Prop where
  content : line.text ≠ []
  unbroken : ∀ c ∈ line.text, isBreak c = false
  ending : ∃ b, line.ending = [b] ∧ isBreak b = true
  after : ∀ c ∈ line.after, isBreak c = true

/- A text that ends with a break is breaks and then lines. -/
theorem exists_lines
    {t : Text}
    (h : ∀ c ∈ t.getLast?, isBreak c = true) :
    ∃ (breaks : Text) (lines : List Line),
      t = breaks ++ lines.flatMap Line.whole ∧
        (∀ c ∈ breaks, isBreak c = true) ∧
        ∀ line ∈ lines, line.IsSound := by
  induction t with
  | nil =>
      exact ⟨[], [], rfl, List.forall_mem_nil _,
        List.forall_mem_nil _⟩
  | cons c t ih =>
      have hRest : ∀ d ∈ t.getLast?, isBreak d = true := by
        cases t with
        | nil => exact nofun
        | cons d t => rwa [List.getLast?_cons_cons] at h
      by_cases hBreak : isBreak c = true
      · rcases ih hRest with ⟨breaks, lines, rfl, hBreaks, hLines⟩
        exact ⟨c :: breaks, lines, rfl,
          List.forall_mem_cons.mpr ⟨hBreak, hBreaks⟩, hLines⟩
      · have hMore : t ≠ [] := by
          rintro rfl
          exact hBreak (h c rfl)
        have hInk := Bool.eq_false_iff.mpr hBreak
        rcases ih hRest with ⟨breaks, lines, rfl, hBreaks, hLines⟩
        cases breaks with
        | cons b breaks =>
            rw [List.forall_mem_cons] at hBreaks
            have hLine : Line.IsSound ⟨[c], [b], breaks⟩ :=
              ⟨List.cons_ne_nil c [],
                List.forall_mem_singleton.mpr hInk,
                ⟨b, rfl, hBreaks.1⟩, hBreaks.2⟩
            exact ⟨[], ⟨[c], [b], breaks⟩ :: lines, rfl,
              List.forall_mem_nil _,
              List.forall_mem_cons.mpr ⟨hLine, hLines⟩⟩
        | nil =>
            cases lines with
            | nil => exact absurd rfl hMore
            | cons line lines =>
                rw [List.forall_mem_cons] at hLines
                have hLine : Line.IsSound
                    { line with text := c :: line.text } :=
                  { hLines.1 with
                    content := List.cons_ne_nil c line.text
                    unbroken := List.forall_mem_cons.mpr
                      ⟨hInk, hLines.1.unbroken⟩ }
                exact ⟨[], { line with text := c :: line.text } ::
                  lines, rfl, List.forall_mem_nil _,
                  List.forall_mem_cons.mpr ⟨hLine, hLines.2⟩⟩

------------------------------------------------------------
-- Writing
------------------------------------------------------------

theorem literalLines_breaks_append
    {breaks : Text}
    (t : Text)
    (h : ∀ c ∈ breaks, isBreak c = true) :
    literalLines true (breaks ++ t) =
      breaks ++ literalLines true t := by
  induction breaks with
  | nil => rfl
  | cons c breaks ih =>
      rw [List.forall_mem_cons] at h
      rw [List.cons_append, literalLines, if_pos h.1, ih h.2]
      rfl

theorem literalLines_text_append
    {s : Text}
    (t : Text)
    (h : ∀ c ∈ s, isBreak c = false) :
    literalLines false (s ++ t) =
      s ++ literalLines false t := by
  induction s with
  | nil => rfl
  | cons c s ih =>
      rw [List.forall_mem_cons] at h
      rw [List.cons_append, literalLines, h.1, ih h.2]
      rfl

/- A line is written as it is after the margin. -/
theorem literalLines_whole_append
    {line : Line}
    (t : Text)
    (h : line.IsSound) :
    literalLines true (line.whole ++ t) =
      margin ++ line.whole ++ literalLines true t := by
  rcases h.ending with ⟨b, hEnding, hBreak⟩
  rw [Line.whole, hEnding]
  cases hText : line.text with
  | nil => exact absurd hText h.content
  | cons c text =>
      have hInk := h.unbroken
      rw [hText, List.forall_mem_cons] at hInk
      simp only [List.append_assoc, List.cons_append,
        List.nil_append]
      rw [literalLines, hInk.1, if_neg Bool.false_ne_true,
        if_pos rfl, literalLines_text_append _ hInk.2,
        literalLines, if_pos hBreak,
        literalLines_breaks_append _ h.after]

/- The lines of a text as they are written, each with margin. -/
def writtenLines (lines : List Line) : Text :=
  lines.flatMap fun line => margin ++ line.whole

theorem writtenLines_cons
    (line : Line)
    (lines : List Line) :
    writtenLines (line :: lines) =
      margin ++ line.whole ++ writtenLines lines :=
  rfl

theorem literalLines_lines
    {lines : List Line}
    (h : ∀ line ∈ lines, line.IsSound) :
    literalLines true (lines.flatMap Line.whole) =
      writtenLines lines := by
  induction lines with
  | nil => rfl
  | cons line lines ih =>
      rw [List.forall_mem_cons] at h
      rw [List.flatMap_cons, literalLines_whole_append _ h.1,
        ih h.2]
      rfl

/- A break that ends a text is written as it is. -/
theorem literalLines_concat
    {b : Char}
    (atStart : Bool)
    (t : Text)
    (h : isBreak b = true) :
    literalLines atStart (t ++ [b]) =
      literalLines atStart t ++ [b] := by
  induction t generalizing atStart with
  | nil => simp [literalLines, h]
  | cons c t ih =>
      rw [List.cons_append, literalLines, literalLines, ih, ih]
      split
      · rfl
      · rw [List.append_assoc, List.cons_append]

------------------------------------------------------------
-- Reading
------------------------------------------------------------

/- A text at which lines end that are indented. -/
def EndsLines (after : Text) : Prop :=
  ∀ c ∈ after.head?, isGap c = false

/-
  What comes before the content of lines, as far as it is
  known in advance.
-/
def leadingOf
    (breaks : Text)
    (lines : List Line)
    (after : Text) : Leading :=
  match lines with
  | [] =>
      { breaks := breaks, widest := 0, width := 0, rest := after }
  | line :: lines =>
      { breaks := breaks
        widest := margin.length
        width := margin.length
        rest := line.whole ++ writtenLines lines ++ after }

theorem leading?_breaks_append
    {limit : Option Nat}
    {breaks : Text}
    (t : Text)
    (h : ∀ c ∈ breaks, isBreak c = true) :
    leading? limit 0 (breaks ++ t) =
      (leading? limit 0 t).map fun next =>
        { next with breaks := breaks ++ next.breaks } := by
  induction breaks with
  | nil =>
      rw [List.nil_append]
      cases leading? limit 0 t <;> rfl
  | cons c breaks ih =>
      rw [List.forall_mem_cons] at h
      have hSpace : c ≠ ' ' ∧ c ≠ '\t' := by
        constructor
        · rintro rfl
          cases h.1
        · rintro rfl
          cases h.1
      rw [List.cons_append, leading?, ih h.2]
      simp only [hSpace, h.1, decide_false, Bool.false_and,
        Bool.false_eq_true, if_false, if_true]
      cases leading? limit 0 t with
      | none => rfl
      | some next => simp

theorem leading?_content
    {limit : Option Nat}
    {column : Nat}
    {c : Char}
    (t : Text)
    (hBreak : isBreak c = false)
    (hSpace : isSpace c = false ∨ limit.all (column < ·) = false) :
    leading? limit column (c :: t) =
      some
        { breaks := [], widest := column, width := column,
          rest := c :: t } := by
  rw [leading?, hBreak]
  rcases hSpace with hSpace | hLimit
  · simp only [isSpace, Bool.or_eq_false_iff,
      decide_eq_false_iff_not] at hSpace
    simp [hSpace]
  · simp [hLimit]

/- The blanks of the margin are passed over. -/
theorem leading?_margin_append
    {limit : Option Nat}
    (t : Text)
    (h : limit.all (margin.length ≤ ·) = true) :
    leading? limit 0 (margin ++ t) =
      leading? limit margin.length t := by
  have hFirst : limit.all (0 < ·) = true := by
    cases limit with
    | none => rfl
    | some n =>
        simp only [Option.all_some, decide_eq_true_eq] at h ⊢
        exact Nat.lt_of_lt_of_le (by decide) h
  have hSecond : limit.all (0 + 1 < ·) = true := by
    cases limit with
    | none => rfl
    | some n => exact h
  rw [margin, List.cons_append, List.cons_append, leading?,
    hFirst, leading?, hSecond]
  rfl

theorem leading?_whole_append
    {limit : Option Nat}
    {column : Nat}
    {line : Line}
    (t : Text)
    (h : line.IsSound)
    (hSpace :
      (∀ c ∈ line.text.head?, isSpace c = false) ∨
        limit.all (column < ·) = false) :
    leading? limit column (line.whole ++ t) =
      some
        { breaks := [], widest := column, width := column,
          rest := line.whole ++ t } := by
  unfold Line.whole
  cases hText : line.text with
  | nil => exact absurd hText h.content
  | cons c text =>
      have hInk := h.unbroken
      rw [hText, List.forall_mem_cons] at hInk
      rw [hText] at hSpace
      exact leading?_content _ hInk.1
        (hSpace.imp_left fun hFirst => hFirst c rfl)

/-
  The margin is known by the header, or by the first line, if
  that begins with no white space of its own.
-/
def ShowsMargin
    (limit : Option Nat)
    (lines : List Line) : Prop :=
  limit = some margin.length ∨
    limit = none ∧
      ∀ line ∈ lines.head?,
        ∀ c ∈ line.text.head?, isSpace c = false

/- Breaks and the margin are what comes before the content. -/
theorem leading?_lines
    {breaks after : Text}
    {lines : List Line}
    {limit : Option Nat}
    (hBreaks : ∀ c ∈ breaks, isBreak c = true)
    (hLines : ∀ line ∈ lines, line.IsSound)
    (hAfter : EndsLines after)
    (hMargin : ShowsMargin limit lines) :
    leading? limit 0 (breaks ++ (writtenLines lines ++ after)) =
      some (leadingOf breaks lines after) := by
  have hStart :
      leading? limit 0 (writtenLines lines ++ after) =
        some (leadingOf [] lines after) := by
    cases lines with
    | nil =>
        cases after with
        | nil => rfl
        | cons c after =>
            have hGap := hAfter c rfl
            rw [isGap, Bool.or_eq_false_iff] at hGap
            exact leading?_content after hGap.2 (Or.inl hGap.1)
    | cons line lines =>
        rw [List.forall_mem_cons] at hLines
        have hAll : limit.all (margin.length ≤ ·) = true := by
          rcases hMargin with rfl | ⟨rfl, -⟩ <;> rfl
        have hSpace :
            (∀ c ∈ line.text.head?, isSpace c = false) ∨
              limit.all (margin.length < ·) = false := by
          rcases hMargin with rfl | ⟨rfl, hFirst⟩
          · exact Or.inr rfl
          · exact Or.inl (hFirst line rfl)
        rw [writtenLines_cons, List.append_assoc,
          List.append_assoc, leading?_margin_append _ hAll,
          leading?_whole_append _ hLines.1 hSpace, leadingOf,
          List.append_assoc]
  rw [leading?_breaks_append _ hBreaks, hStart]
  cases lines with
  | nil => simp [leadingOf]
  | cons line lines => simp [leadingOf]

theorem takeWhile_whole_append
    {line : Line}
    (t : Text)
    (h : line.IsSound) :
    (line.whole ++ t).takeWhile (!isBreak ·) = line.text := by
  rcases h.ending with ⟨b, hEnding, hBreak⟩
  have hInk : ∀ c ∈ line.text, (!isBreak c) = true :=
    fun c hc => by rw [h.unbroken c hc]; rfl
  simp only [Line.whole, hEnding, List.append_assoc,
    List.cons_append, List.nil_append]
  rw [List.takeWhile_append_of_pos hInk]
  simp [hBreak]

theorem dropWhile_whole_append
    {line : Line}
    (t : Text)
    (h : line.IsSound) :
    (line.whole ++ t).dropWhile (!isBreak ·) =
      line.ending ++ (line.after ++ t) := by
  rcases h.ending with ⟨b, hEnding, hBreak⟩
  have hInk : ∀ c ∈ line.text, (!isBreak c) = true :=
    fun c hc => by rw [h.unbroken c hc]; rfl
  simp only [Line.whole, hEnding, List.append_assoc,
    List.cons_append, List.nil_append]
  rw [List.dropWhile_append_of_pos hInk]
  simp [hBreak]

/- What is left after a line with content is shorter. -/
theorem length_leadingOf_lt
    {line : Line}
    (breaks : Text)
    (lines : List Line)
    (after : Text)
    (h : line.IsSound) :
    (leadingOf breaks lines after).rest.length <
      (line.whole ++ (writtenLines lines ++ after)).length := by
  have hSome : 0 < line.text.length :=
    List.length_pos_iff.mpr h.content
  cases lines with
  | nil =>
      simp only [leadingOf, Line.whole, List.length_append]
      omega
  | cons next lines =>
      simp only [leadingOf, writtenLines_cons, Line.whole,
        List.length_append]
      omega

/- Lines are read up to where they end. -/
theorem lines?_leadingOf
    {after : Text}
    {lines : List Line}
    (breaks : Text)
    (hLines : ∀ line ∈ lines, line.IsSound)
    (hAfter : EndsLines after) :
    lines? margin.length (leadingOf breaks lines after).width
        (leadingOf breaks lines after).rest =
      some (lines, after) := by
  -- The breaks before a line are those after the one before
  -- it, so the induction is over any breaks.
  induction lines generalizing breaks with
  | nil =>
      have hColumn : 0 ≠ margin.length ∨ after = [] :=
        Or.inl (by decide)
      rw [leadingOf, lines?, if_pos hColumn]
  | cons line lines ih =>
      rw [List.forall_mem_cons] at hLines
      rcases hLines with ⟨hLine, hLater⟩
      have hLeading := leading?_lines hLine.after hLater hAfter
        (Or.inl rfl)
      have hTake := takeWhile_whole_append
        (writtenLines lines ++ after) hLine
      have hDrop := dropWhile_whole_append
        (writtenLines lines ++ after) hLine
      have hNext :
          nextLine (line.whole ++ (writtenLines lines ++ after)) =
            line.after ++ (writtenLines lines ++ after) := by
        rcases hLine.ending with ⟨b, hEnding, -⟩
        rw [nextLine, hDrop, hEnding]
        rfl
      have hTakeEnding :
          (line.ending ++ (line.after ++
            (writtenLines lines ++ after))).take 1 =
              line.ending := by
        rcases hLine.ending with ⟨b, hEnding, -⟩
        rw [hEnding]
        rfl
      have hSome :
          ¬(margin.length ≠ margin.length ∨
            line.whole ++ (writtenLines lines ++ after) = []) := by
        simp [Line.whole, hLine.content]
      have hShorter := length_leadingOf_lt line.after lines after
        hLine
      have hRest := ih line.after hLater
      rw [leadingOf, List.append_assoc, lines?, if_neg hSome,
        hNext, hLeading]
      simp only [Option.bind_eq_bind, Option.bind_some,
        if_pos hShorter, hRest, hTake, hDrop, hTakeEnding]
      cases lines <;> rfl

------------------------------------------------------------
-- Joining
------------------------------------------------------------

/- What stands after lines is that of the last one. -/
theorem join_concat
    (sign : Chomping)
    (lines : List Line)
    (line : Line) :
    join false sign (lines ++ [line]) =
      lines.flatMap Line.whole ++ line.text ++ line.last sign := by
  induction lines with
  | nil => rfl
  | cons first lines ih =>
      have hFirst :
          join false sign (first :: (lines ++ [line])) =
            first.whole ++ join false sign (lines ++ [line]) := by
        cases lines <;> simp [join, between, Line.whole]
      rw [List.cons_append, hFirst, ih, List.flatMap_cons]
      simp only [List.append_assoc]

/- A text that ends with breaks ends with one. -/
theorem not_ends_of_breaks
    {breaks : Text}
    (front : Text)
    (hBreaks : ∀ c ∈ breaks, isBreak c = true)
    (hSome : breaks ≠ []) :
    ¬∀ c ∈ (front ++ breaks).getLast?, isBreak c = false := by
  rcases List.eq_nil_or_concat breaks with rfl | ⟨later, b, rfl⟩
  · exact absurd rfl hSome
  · intro hLast
    rw [List.concat_eq_append, ← List.append_assoc,
      List.getLast?_concat] at hLast
    have hInk := hLast b rfl
    rw [hBreaks b (by simp)] at hInk
    cases hInk

/- A single break at the end of lines is that of the last. -/
theorem Line.IsSound.eq_of_concat
    {line : Line}
    {front t : Text}
    {b : Char}
    (h : line.IsSound)
    (hSame : t ++ [b] = front ++ line.whole)
    (hLast : ∀ c ∈ t.getLast?, isBreak c = false) :
    line.after = [] ∧ line.ending = [b] ∧
      t = front ++ line.text := by
  rcases h.ending with ⟨e, hEnding, hBreak⟩
  rw [Line.whole, hEnding] at hSame
  rcases List.eq_nil_or_concat line.after with
    hNone | ⟨later, c, hAfter⟩
  · rw [hNone, List.append_nil, ← List.append_assoc] at hSame
    rcases List.append_inj' hSame rfl with ⟨hText, hBreaks⟩
    rw [hBreaks]
    exact ⟨hNone, hEnding, hText⟩
  · have hBreaks := h.after
    rw [hAfter, List.concat_eq_append] at hSame hBreaks
    rw [← List.append_assoc, ← List.append_assoc] at hSame
    rcases List.append_inj' hSame rfl with ⟨hText, -⟩
    rw [← List.append_assoc, List.append_assoc] at hText
    rw [List.forall_mem_append] at hBreaks
    have hEnd : ∀ d ∈ e :: later, isBreak d = true :=
      List.forall_mem_cons.mpr ⟨hBreak, hBreaks.1⟩
    rw [hText] at hLast
    exact absurd hLast (not_ends_of_breaks _ hEnd
      (List.cons_ne_nil e later))

/-
  What the hint at the head of lines asks for: to take the
  last break away, to keep it, or to keep all breaks.
-/
inductive Hints : Text → Text → Chomping → Prop where
  | strip
      {t : Text}
      (hLast : ∀ c ∈ t.getLast?, isBreak c = false) :
      Hints t ['-'] .strip
  | clip
      {t : Text}
      {b : Char}
      (hFront : t ≠ [])
      (hBreak : isBreak b = true)
      (hLast : ∀ c ∈ t.getLast?, isBreak c = false) :
      Hints (t ++ [b]) [] .clip
  | keep
      {t : Text}
      {b : Char}
      (hBreak : isBreak b = true) :
      Hints (t ++ [b]) ['+'] .keep

theorem exists_hints
    {t : Text}
    (h : t ≠ []) :
    ∃ sign, Hints t (chompingHint t) sign := by
  rcases List.eq_nil_or_concat t with rfl | ⟨front, a, rfl⟩
  · exact absurd rfl h
  · rw [List.concat_eq_append]
    by_cases hBreak : isBreak a = true
    · rcases List.eq_nil_or_concat front with
        rfl | ⟨front, b, rfl⟩
      · have hHint : chompingHint ([] ++ [a]) = ['+'] := by
          simp [chompingHint, hBreak]
        rw [hHint]
        exact ⟨.keep, .keep hBreak⟩
      · rw [List.concat_eq_append]
        by_cases hOther : isBreak b = true
        · have hHint :
              chompingHint (front ++ [b] ++ [a]) = ['+'] := by
            simp [chompingHint, hBreak, hOther]
          rw [hHint]
          exact ⟨.keep, .keep hBreak⟩
        · have hHint :
              chompingHint (front ++ [b] ++ [a]) = [] := by
            simp [chompingHint, hBreak, hOther]
          have hLast :
              ∀ c ∈ (front ++ [b]).getLast?, isBreak c = false := by
            rw [List.getLast?_concat]
            rintro c ⟨⟩
            exact Bool.eq_false_iff.mpr hOther
          rw [hHint]
          exact ⟨.clip, .clip (by simp) hBreak hLast⟩
    · have hHint : chompingHint (front ++ [a]) = ['-'] := by
        cases hFront : front.reverse <;>
          simp [chompingHint, hFront, hBreak]
      have hLast : ∀ c ∈ (front ++ [a]).getLast?, isBreak c = false := by
        rw [List.getLast?_concat]
        rintro c ⟨⟩
        exact Bool.eq_false_iff.mpr hBreak
      rw [hHint]
      exact ⟨.strip, .strip hLast⟩

theorem lineEnd_of_ink
    {t : Text}
    (hSome : t ≠ [])
    (hLast : ∀ c ∈ t.getLast?, isBreak c = false) :
    lineEnd t = ['\n'] := by
  have hInk := hLast _ (List.getLast?_eq_some_getLast hSome)
  rw [lineEnd, List.getLast?_eq_some_getLast hSome,
    Option.any_some, hInk]
  rfl

theorem lineEnd_concat
    {b : Char}
    (t : Text)
    (hBreak : isBreak b = true) :
    lineEnd (t ++ [b]) = [] := by
  rw [lineEnd, List.getLast?_concat, Option.any_some, if_pos hBreak]

theorem text_concat
    (sign : Chomping)
    (breaks : Text)
    (lines : List Line)
    (line : Line) :
    text false sign breaks (lines ++ [line]) =
      breaks ++ (lines.flatMap Line.whole ++ line.text ++
        line.last sign) := by
  rw [text, if_neg (by simp), join_concat]

/- The text that was written as lines. -/
theorem text_of_hints
    {t hint breaks : Text}
    {sign : Chomping}
    {lines : List Line}
    (h : Hints t hint sign)
    (hSome : t ≠ [])
    (hSame : t ++ lineEnd t = breaks ++ lines.flatMap Line.whole)
    (hBreaks : ∀ c ∈ breaks, isBreak c = true)
    (hLines : ∀ line ∈ lines, line.IsSound) :
    text false sign breaks lines = t := by
  rcases List.eq_nil_or_concat lines with
    rfl | ⟨front, line, rfl⟩
  · rw [List.flatMap_nil, List.append_nil] at hSame
    rw [← hSame, List.forall_mem_append] at hBreaks
    cases h with
    | strip hLast =>
        exact absurd hLast
          (not_ends_of_breaks [] hBreaks.1 hSome)
    | @clip t b hFront _ hLast =>
        have hAll := (List.forall_mem_append.mp hBreaks.1).1
        exact absurd hLast (not_ends_of_breaks [] hAll hFront)
    | @keep t b hBreak =>
        rw [lineEnd_concat t hBreak, List.append_nil] at hSame
        exact hSame.symm
  · rw [List.concat_eq_append] at hSame hLines ⊢
    have hLine : line.IsSound := hLines line (by simp)
    rw [List.flatMap_append, List.flatMap_singleton,
      ← List.append_assoc] at hSame
    rw [text_concat]
    cases h with
    | strip hLast =>
        rw [lineEnd_of_ink hSome hLast] at hSame
        have hEnd := hLine.eq_of_concat hSame hLast
        simp [Line.last, hEnd.2.2]
    | @clip t b _ hBreak hLast =>
        rw [lineEnd_concat t hBreak, List.append_nil] at hSame
        have hEnd := hLine.eq_of_concat hSame hLast
        simp [Line.last, hEnd.2.1, hEnd.2.2]
    | @keep t b hBreak =>
        rw [lineEnd_concat t hBreak, List.append_nil] at hSame
        simp [hSame, Line.last, Line.whole]

/- The header says what the hints say. -/
theorem header?_hints
    {t hint : Text}
    {sign : Chomping}
    (rest : Text)
    (h : Hints t hint sign) :
    header? (marginHint t ++ (hint ++ '\n' :: rest)) =
      some
        ({ chomping := sign
           width :=
            if marginHint t = [] then none
            else some margin.length }, '\n' :: rest) := by
  have hMargin : marginHint t = [] ∨ marginHint t = ['2'] := by
    rw [marginHint]
    split
    · exact Or.inr rfl
    · exact Or.inl rfl
  rcases hMargin with hNone | hWidth
  · rw [hNone]
    cases h <;> rfl
  · rw [hWidth]
    cases h <;> rfl

------------------------------------------------------------
-- Texts
------------------------------------------------------------

/- A text that ends its line is written as its lines. -/
theorem exists_writtenLines
    {t : Text}
    (h : t ≠ []) :
    ∃ (breaks : Text) (lines : List Line),
      t ++ lineEnd t = breaks ++ lines.flatMap Line.whole ∧
        literalLines true t ++ lineEnd t =
          breaks ++ writtenLines lines ∧
        (∀ c ∈ breaks, isBreak c = true) ∧
        ∀ line ∈ lines, line.IsSound := by
  have hBreak : isBreak '\n' = true := rfl
  have hWritten :
      literalLines true t ++ lineEnd t =
        literalLines true (t ++ lineEnd t) := by
    rw [lineEnd]
    split
    · rw [List.append_nil, List.append_nil]
    · rw [literalLines_concat true t hBreak]
  have hLast : ∀ c ∈ (t ++ lineEnd t).getLast?, isBreak c = true := by
    rw [lineEnd]
    split
    · rename_i hEnds
      rw [List.getLast?_eq_some_getLast h] at hEnds
      rw [List.append_nil, List.getLast?_eq_some_getLast h]
      rintro c ⟨⟩
      exact hEnds
    · rw [List.getLast?_concat]
      rintro c ⟨⟩
      rfl
  rcases exists_lines hLast with
    ⟨breaks, lines, hSame, hBreaks, hLines⟩
  refine ⟨breaks, lines, hSame, ?_, hBreaks, hLines⟩
  rw [hWritten, hSame, literalLines_breaks_append _ hBreaks,
    literalLines_lines hLines]

/- Without a hint the first line begins with no white space. -/
theorem showsMargin_of_hints
    {t breaks : Text}
    {lines : List Line}
    (hSome : t ≠ [])
    (hReadable : isReadable t = true)
    (hHint : marginHint t = [])
    (hSame : t ++ lineEnd t = breaks ++ lines.flatMap Line.whole)
    (hBreaks : ∀ c ∈ breaks, isBreak c = true)
    (hLines : ∀ line ∈ lines, line.IsSound) :
    lines ≠ [] ∧ ShowsMargin none lines := by
  cases t with
  | nil => exact absurd rfl hSome
  | cons c t =>
      have hFirst : isBlank c = false ∧ isBreak c = false := by
        rw [marginHint] at hHint
        split at hHint
        · cases hHint
        · rename_i hNot
          simpa using hNot
      have hPrint : isPrintable c = true := by
        rw [isReadable, List.all_cons, hFirst.2, Bool.or_false,
          Bool.and_eq_true] at hReadable
        exact hReadable.1
      have hSpace : isSpace c = false := by
        have hGap := isGap_of_isPrintable hPrint
        rw [hFirst.1, isGap, Bool.or_eq_false_iff] at hGap
        exact hGap.1
      cases breaks with
      | cons b breaks =>
          have hBreak := hBreaks b List.mem_cons_self
          rw [← (List.cons.inj hSame).1, hFirst.2] at hBreak
          cases hBreak
      | nil =>
          cases lines with
          | nil => cases hSame
          | cons line lines =>
              have hLine := hLines line List.mem_cons_self
              refine ⟨List.cons_ne_nil line lines, Or.inr ⟨rfl, ?_⟩⟩
              rintro first ⟨⟩
              cases hContent : line.text with
              | nil => exact absurd hContent hLine.content
              | cons d text =>
                  rintro e ⟨⟩
                  simp only [List.nil_append, List.flatMap_cons,
                    Line.whole, hContent, List.cons_append]
                    at hSame
                  rw [← (List.cons.inj hSame).1]
                  exact hSpace

end Block

/- Text that is written as lines is read as that text. -/
theorem block?_writeLiteral
    {t after : Text}
    (hSome : t ≠ [])
    (hReadable : isReadable t = true)
    (hAfter : Block.EndsLines after) :
    block? false (some 0)
        (marginHint t ++ (chompingHint t ++ '\n' ::
          (literalLines true t ++ (lineEnd t ++ after)))) =
      some (t, after) := by
  rcases Block.exists_hints hSome with ⟨sign, hHints⟩
  rcases Block.exists_writtenLines hSome with
    ⟨breaks, lines, hSame, hWritten, hBreaks, hLines⟩
  have hText :=
    Block.text_of_hints hHints hSome hSame hBreaks hLines
  have hLine :
      ∀ rest, endOfLine? ('\n' :: rest) = some rest :=
    fun _ => rfl
  have hBody :
      literalLines true t ++ (lineEnd t ++ after) =
        breaks ++ (Block.writtenLines lines ++ after) := by
    rw [← List.append_assoc, hWritten, List.append_assoc]
  rw [block?, Block.header?_hints _ hHints]
  simp only [Option.bind_eq_bind, Option.bind_some, hLine, hBody]
  by_cases hHint : marginHint t = []
  · rcases Block.showsMargin_of_hints hSome hReadable hHint hSame
      hBreaks hLines with ⟨hMore, hMargin⟩
    have hStart := Block.leading?_lines hBreaks hLines hAfter
      hMargin
    have hRead := Block.lines?_leadingOf breaks hLines hAfter
    have hWidth :
        max (Block.leadingOf breaks lines after).widest 1 =
          margin.length := by
      cases lines with
      | nil => exact absurd rfl hMore
      | cons line lines => rfl
    rw [if_pos hHint]
    simp only [Option.map_none, Option.getD_none,
      Option.map_some, Option.getD_some, Nat.zero_add,
      hStart, Option.bind_some, hWidth, hRead]
    rw [← hText]
    cases lines <;> rfl
  · have hStart := Block.leading?_lines hBreaks hLines hAfter
      (Or.inl rfl)
    have hRead := Block.lines?_leadingOf breaks hLines hAfter
    rw [if_neg hHint]
    simp only [Option.map_some, Option.getD_some, Nat.zero_add,
      hStart, Option.bind_some, hRead]
    rw [← hText]
    cases lines <;> rfl

theorem exists_literalLines_concat
    (atStart : Bool)
    (t : Text)
    (c : Char) :
    ∃ front, literalLines atStart (t ++ [c]) = front ++ [c] := by
  induction t generalizing atStart with
  | nil =>
      rw [List.nil_append, literalLines]
      split
      · exact ⟨[], rfl⟩
      · exact ⟨_, rfl⟩
  | cons d t ih =>
      rw [List.cons_append, literalLines]
      split
      · rcases ih true with ⟨front, hFront⟩
        exact ⟨d :: front, by rw [hFront]; rfl⟩
      · rcases ih false with ⟨front, hFront⟩
        refine ⟨(if atStart then margin else []) ++ d :: front, ?_⟩
        rw [hFront, List.append_assoc]
        rfl

/- Text that is written as lines ends as it did. -/
theorem getLast?_writeLiteral
    {t : Text}
    (h : t ≠ []) :
    (writeLiteral t).getLast? = t.getLast? := by
  rcases List.eq_nil_or_concat t with rfl | ⟨front, c, rfl⟩
  · exact absurd rfl h
  · rw [List.concat_eq_append]
    rcases exists_literalLines_concat true front c with
      ⟨before, hLines⟩
    rw [writeLiteral, hLines, ← List.append_assoc,
      List.getLast?_concat, List.getLast?_concat]

/- Text that is written as lines is readable. -/
theorem isReadable_writeLiteral
    {t : Text}
    (h : isReadable t = true) :
    isReadable (writeLiteral t) = true := by
  have hLines :
      ∀ atStart, isReadable (literalLines atStart t) = true := by
    induction t with
    | nil => exact fun _ => rfl
    | cons c t ih =>
        intro atStart
        rw [isReadable, List.all_cons, Bool.and_eq_true] at h
        have hRest := ih h.2
        rw [literalLines]
        split
        · rw [isReadable, List.all_cons, h.1]
          exact hRest true
        · rw [isReadable_append, isReadable, isReadable,
            List.all_cons, h.1]
          cases atStart <;> exact hRest false
  have hMargin : isReadable (marginHint t) = true := by
    rw [marginHint]
    split <;> rfl
  have hChomping : isReadable (chompingHint t) = true := by
    rw [chompingHint]
    repeat' split
    all_goals rfl
  rw [writeLiteral, isReadable_append, isReadable_append,
    isReadable_append, isReadable_append, hMargin, hChomping,
    hLines true]
  rfl

end Yaml

end CodecChain
