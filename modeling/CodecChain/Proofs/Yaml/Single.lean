import CodecChain.Proofs.Yaml.Double

/-
  Text in single quotes. Its characters stand for themselves,
  and where it goes over several lines the white space between
  two words is either blanks or breaks, so that neither is
  taken for the other.

  Key definitions include:
    * `Yaml.quotePiece`
    * `Yaml.singlePieces`

  Main statements:
    * `Yaml.single?_singleLines_append`
    * `Yaml.fold_singlePieces`
    * `Yaml.isReadable_writeSingle`
-/

------------------------------------------------------------
-- Pieces
------------------------------------------------------------

namespace CodecChain

namespace Yaml

/- The piece as which a character that is no break is read. -/
def quotePiece (c : Char) : Piece :=
  if c = '\'' then .fixed c else .raw c

/- The pieces as which text is read, at a line's start or not. -/
def singlePieces : Bool → Text → List Piece
  | atStart, [] => if atStart then margin.map .raw else []
  | atStart, c :: rest =>
      if isBreak c then
        .raw c :: singlePieces true rest
      else
        (if atStart then margin.map .raw else []) ++
          quotePiece c :: singlePieces false rest

/- What is written at the start of a line begins with a gap. -/
theorem exists_cons_of_singleLines
    (t : Text) :
    ∃ c rest, singleLines true t = c :: rest ∧ isGap c = true := by
  cases t with
  | nil => exact ⟨' ', [' '], rfl, rfl⟩
  | cons c t =>
      rw [singleLines]
      split
      · rename_i hBreak
        exact ⟨c, _, rfl, isGap_of_isBreak hBreak⟩
      · exact ⟨' ', _, rfl, rfl⟩

/- Such a line does not set documents apart. -/
theorem atMarker_of_isGap
    {c : Char}
    (t : Text)
    (h : isGap c = true) :
    atMarker (c :: t) = false := by
  have hNe : ∀ d, isGap d = false → (d == c) = false := by
    rintro d hOther
    rw [beq_eq_false_iff_ne]
    rintro rfl
    rw [h] at hOther
    cases hOther
  simp [atMarker, isMarker, List.isPrefixOf, hNe '-' rfl,
    hNe '.' rfl]

theorem breaksOff_singleLines
    (c : Char)
    (t rest : Text) :
    breaksOff c (singleLines true t ++ rest) = false := by
  rcases exists_cons_of_singleLines t with
    ⟨d, later, hLine, hGap⟩
  rw [breaksOff, hLine, List.cons_append,
    atMarker_of_isGap _ hGap, Bool.and_false]

theorem single?_raw
    {c : Char}
    {t : Text}
    (hQuote : c ≠ '\'')
    (hBreaks : breaksOff c t = false) :
    single? (c :: t) =
      (single? t).map fun p => (.raw c :: p.1, p.2) := by
  rw [single?]
  · rw [hBreaks]
    cases single? t <;> rfl
  · exact fun _ hSame => absurd hSame hQuote
  · exact hQuote

theorem single?_margin_append
    (t : Text) :
    single? (margin ++ t) =
      (single? t).map fun p => (margin.map .raw ++ p.1, p.2) := by
  have hBlank : ∀ rest, breaksOff ' ' rest = false :=
    fun _ => rfl
  rw [margin, List.cons_append, List.cons_append,
    List.nil_append, single?_raw (by decide) (hBlank _),
    single?_raw (by decide) (hBlank _), Option.map_map]
  rfl

/- A character that is no break is read as its piece. -/
theorem single?_quote_append
    {c : Char}
    (t : Text)
    (hBreak : isBreak c = false) :
    single? ((if c = '\'' then ['\'', '\''] else [c]) ++ t) =
      (single? t).map fun p => (quotePiece c :: p.1, p.2) := by
  rw [quotePiece]
  split
  · rename_i hQuote
    rw [hQuote, List.cons_append, List.cons_append,
      List.nil_append, single?]
    cases single? t <;> rfl
  · rename_i hQuote
    have hBreaks : breaksOff c t = false := by
      rw [breaksOff, hBreak, Bool.false_and]
    exact single?_raw hQuote hBreaks

/- Text is read up to a quote that is not written twice. -/
theorem single?_singleLines_append
    {rest : Text}
    (atStart : Bool)
    (t : Text)
    (hRest : rest.head? ≠ some '\'') :
    single? (singleLines atStart t ++ '\'' :: rest) =
      some (singlePieces atStart t, rest) := by
  have hEnd : single? ('\'' :: rest) = some ([], rest) := by
    rw [single?]
    rintro later rfl
    exact hRest rfl
  induction t generalizing atStart with
  | nil =>
      cases atStart with
      | false => exact hEnd
      | true =>
          rw [singleLines, if_pos rfl, single?_margin_append,
            hEnd, singlePieces, if_pos rfl]
          rfl
  | cons c t ih =>
      rw [singleLines, singlePieces]
      by_cases hBreak : isBreak c = true
      · have hQuote : c ≠ '\'' := by
          rintro rfl
          cases hBreak
        rw [if_pos hBreak, if_pos hBreak, List.cons_append,
          single?_raw hQuote (breaksOff_singleLines c t _), ih]
        rfl
      · have hInk := Bool.eq_false_iff.mpr hBreak
        rw [if_neg hBreak, if_neg hBreak]
        cases atStart with
        | false =>
            simp only [Bool.false_eq_true, if_false,
              List.nil_append, List.append_assoc]
            rw [single?_quote_append _ hInk, ih]
            rfl
        | true =>
            simp only [if_true, List.append_assoc]
            rw [single?_margin_append,
              single?_quote_append _ hInk, ih]
            rfl

------------------------------------------------------------
-- Texts
------------------------------------------------------------

/- No pair in a text is none at its beginning nor after it. -/
theorem hasPair_cons
    {first second : Char → Bool}
    {c : Char}
    {t : Text}
    (h : hasPair first second (c :: t) = false) :
    hasPair first second t = false ∧
      (first c = true → ∀ d ∈ t.head?, second d = false) := by
  cases t with
  | nil => exact ⟨rfl, fun _ _ hd => nomatch hd⟩
  | cons d t =>
      rw [hasPair, Bool.or_eq_false_iff] at h
      refine ⟨h.2, fun hFirst e he => ?_⟩
      rw [← Option.some.inj he]
      simpa [hFirst] using h.1

/- Text that single quotes leave as it is. -/
structure IsSteady (t : Text) : Prop where
  readable : isReadable t = true
  noBreakAfter : hasPair isBlank isBreak t = false
  noBlankAfter : hasPair isBreak isBlank t = false
  noLineFeed : '\n' ∉ t

theorem IsSteady.isPrintable_head
    {c : Char}
    {t : Text}
    (h : IsSteady (c :: t))
    (hBreak : ¬isBreak c = true) :
    isPrintable c = true := by
  have hAll := h.readable
  rw [isReadable, List.all_cons, Bool.and_eq_true,
    Bool.or_eq_true] at hAll
  exact hAll.1.resolve_right hBreak

theorem IsSteady.tail
    {c : Char}
    {t : Text}
    (h : IsSteady (c :: t)) :
    IsSteady t where
  readable := by
    have hAll := h.readable
    rw [isReadable, List.all_cons, Bool.and_eq_true] at hAll
    exact hAll.2
  noBreakAfter := (hasPair_cons h.noBreakAfter).1
  noBlankAfter := (hasPair_cons h.noBlankAfter).1
  noLineFeed := fun hMem => h.noLineFeed (List.mem_cons_of_mem c hMem)

/- Breaks that are no line feeds stay, the margin does not. -/
theorem pieceGap_of_breaks
    {breaks : Text}
    (h : ∀ c ∈ breaks, isBreak c = true)
    (hFeed : '\n' ∉ breaks)
    (hSome : breaks ≠ []) :
    pieceGap false (breaks ++ margin) = breaks := by
  have hKept : (breaks ++ margin).filter isBreak = breaks := by
    rw [List.filter_append, List.filter_eq_self.mpr h]
    exact List.append_nil breaks
  show foldGap (breaks ++ margin) = breaks
  simp only [foldGap, hKept, if_neg hSome]
  cases breaks with
  | nil => exact absurd rfl hSome
  | cons c breaks =>
      have hFirst : c ≠ '\n' := by
        rintro rfl
        exact hFeed List.mem_cons_self
      rw [foldBreaks, if_pos hFirst]

/-
  White space that waits before a text: blanks that no break
  follows, or, at the start of a line, breaks that no blank
  follows. Its last character comes first.
-/
def Waits : Bool → Text → Text → Prop
  | false, gap, t =>
      (∀ c ∈ gap, isBlank c = true) ∧
        (gap ≠ [] → ∀ c ∈ t.head?, isBreak c = false)
  | true, gap, t =>
      gap ≠ [] ∧ (∀ c ∈ gap, isBreak c = true) ∧
        '\n' ∉ gap ∧ ∀ c ∈ t.head?, isBlank c = false

theorem pieceGap_of_waits
    {gap t : Text}
    (h : Waits true gap t) :
    pieceGap false (margin ++ gap).reverse = gap.reverse := by
  rcases h with ⟨hSome, hBreaks, hFeed, -⟩
  rw [List.reverse_append]
  apply pieceGap_of_breaks
  · exact fun c hc => hBreaks c (List.mem_reverse.mp hc)
  · rwa [List.mem_reverse]
  · rwa [Ne, List.reverse_eq_nil_iff]

/- A break begins a line, before which only breaks wait. -/
theorem Waits.afterBreak
    {atStart : Bool}
    {c : Char}
    {gap t : Text}
    (h : Waits atStart gap (c :: t))
    (hSteady : IsSteady (c :: t))
    (hBreak : isBreak c = true) :
    Waits true (c :: gap) t := by
  have hFirst : '\n' ≠ c := by
    rintro rfl
    exact hSteady.noLineFeed List.mem_cons_self
  have hBlank := (hasPair_cons hSteady.noBlankAfter).2 hBreak
  have hGap : (∀ d ∈ gap, isBreak d = true) ∧ '\n' ∉ gap := by
    cases atStart with
    | true => exact ⟨h.2.1, h.2.2.1⟩
    | false =>
        have hNone : gap = [] := by
          by_cases hSome : gap = []
          · exact hSome
          · have hOther := h.2 hSome c rfl
            rw [hBreak] at hOther
            cases hOther
        rw [hNone]
        exact ⟨List.forall_mem_nil _, List.not_mem_nil⟩
  refine ⟨List.cons_ne_nil c gap, ?_, ?_, hBlank⟩
  · exact List.forall_mem_cons.mpr ⟨hBreak, hGap.1⟩
  · rw [List.mem_cons, not_or]
    exact ⟨hFirst, hGap.2⟩

/- A blank waits together with the blanks before it. -/
theorem Waits.afterBlank
    {c : Char}
    {gap t : Text}
    (h : Waits false gap (c :: t))
    (hSteady : IsSteady (c :: t))
    (hBlank : isBlank c = true) :
    Waits false (c :: gap) t :=
  ⟨List.forall_mem_cons.mpr ⟨hBlank, h.1⟩,
    fun _ => (hasPair_cons hSteady.noBreakAfter).2 hBlank⟩

theorem foldAfter_margin_append
    (gap : Text)
    (pieces : List Piece) :
    foldAfter false gap (margin.map .raw ++ pieces) =
      foldAfter false (margin ++ gap) pieces :=
  rfl

theorem foldAfter_quotePiece
    {c : Char}
    (gap : Text)
    (pieces : List Piece)
    (hPrint : isPrintable c = true)
    (hBlank : isBlank c = false) :
    foldAfter false gap (quotePiece c :: pieces) =
      pieceGap false gap.reverse ++
        c :: foldAfter false [] pieces := by
  rw [quotePiece]
  split
  · rw [foldAfter]
  · rw [foldAfter, isGap_of_isPrintable hPrint, hBlank]
    rfl

/- The text of the pieces after white space that waits. -/
theorem foldAfter_singlePieces
    {t : Text}
    (atStart : Bool)
    (gap : Text)
    (h : IsSteady t)
    (hWaits : Waits atStart gap t) :
    foldAfter false gap (singlePieces atStart t) =
      gap.reverse ++ t := by
  -- What waits in the gap is either blanks or breaks, and a
  -- margin comes after breaks alone.
  induction t generalizing atStart gap with
  | nil =>
      rw [List.append_nil]
      cases atStart with
      | false => exact foldGap_of_blank hWaits.1
      | true =>
          have hMargin := foldAfter_margin_append gap []
          rw [List.append_nil] at hMargin
          rw [singlePieces, if_pos rfl, hMargin, foldAfter]
          exact pieceGap_of_waits hWaits
  | cons c t ih =>
      have hRest : Waits false [] t :=
        ⟨List.forall_mem_nil _, fun hSame => absurd rfl hSame⟩
      have hFlush := ih false [] h.tail hRest
      rw [List.reverse_nil, List.nil_append] at hFlush
      by_cases hBreak : isBreak c = true
      · rw [singlePieces, if_pos hBreak, foldAfter,
          if_pos (isGap_of_isBreak hBreak),
          ih true (c :: gap) h.tail (hWaits.afterBreak h hBreak),
          List.reverse_cons, List.append_assoc]
        rfl
      · have hPrint := h.isPrintable_head hBreak
        rw [singlePieces, if_neg hBreak]
        cases atStart with
        | false =>
            rw [if_neg Bool.false_ne_true, List.nil_append]
            by_cases hBlank : isBlank c = true
            · have hNext := hWaits.afterBlank h hBlank
              have hSelf : quotePiece c = .raw c := by
                simp only [isBlank, decide_eq_true_eq] at hBlank
                rw [hBlank]
                rfl
              rw [hSelf, foldAfter, isGap_of_isPrintable hPrint,
                if_pos hBlank, ih false (c :: gap) h.tail hNext,
                List.reverse_cons, List.append_assoc]
              rfl
            · rw [foldAfter_quotePiece _ _ hPrint
                  (Bool.eq_false_iff.mpr hBlank), hFlush]
              exact congrArg (· ++ c :: t)
                (foldGap_of_blank hWaits.1)
        | true =>
            have hBlank := hWaits.2.2.2 c rfl
            rw [if_pos rfl, foldAfter_margin_append,
              foldAfter_quotePiece _ _ hPrint hBlank,
              pieceGap_of_waits hWaits, hFlush]

/- The pieces of a text make up the text. -/
theorem fold_singlePieces
    {t : Text}
    (h : IsSteady t) :
    fold (singlePieces false t) = t :=
  foldAfter_singlePieces false [] h
    ⟨List.forall_mem_nil _, fun hSame => absurd rfl hSame⟩

/- Text in single quotes is readable. -/
theorem isReadable_writeSingle
    {t : Text}
    (h : isReadable t = true) :
    isReadable (writeSingle t) = true := by
  have hLines :
      ∀ atStart, isReadable (singleLines atStart t) = true := by
    induction t with
    | nil =>
        intro atStart
        cases atStart <;> rfl
    | cons c t ih =>
        intro atStart
        rw [isReadable, List.all_cons, Bool.and_eq_true] at h
        have hRest := ih h.2
        rw [singleLines]
        split
        · rw [isReadable, List.all_cons, h.1]
          exact hRest true
        · have hQuote :
              isReadable (if c = '\'' then ['\'', '\''] else [c]) =
                true := by
            split
            · rfl
            · rw [isReadable, List.all_cons, h.1]
              rfl
          rw [isReadable_append, isReadable_append, hQuote,
            hRest false]
          cases atStart <;> rfl
  rw [writeSingle, isReadable_append, isReadable_append,
    hLines false]
  rfl

end Yaml

end CodecChain
