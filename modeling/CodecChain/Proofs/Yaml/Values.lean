import CodecChain.Proofs.Yaml.Lexing
import CodecChain.Proofs.Yaml.Literal
import CodecChain.Proofs.Yaml.Single

/-
  Steps of the lexer over values. Each style in which a text
  is written is read as one scalar of that style and text,
  after which the lexer is at the next line.

  Key definitions include:
    * `Yaml.Reads`
    * `Yaml.Writes`

  Main statements:
    * `Yaml.reads_writeDouble`
    * `Yaml.reads_writeSingle`
    * `Yaml.reads_plain`
    * `Yaml.reads_writeLiteral`
    * `Yaml.writes_writeQuoted`
    * `Yaml.writes_writeScalar`
-/

------------------------------------------------------------
-- Line Ends
------------------------------------------------------------

namespace CodecChain

namespace Yaml

/- A value on a line of its own ends with a break. -/
theorem exists_lineEnd
    (t : Text) :
    ∃ front b,
      t ++ lineEnd t = front ++ [b] ∧ isBreak b = true := by
  rw [lineEnd]
  split
  · rename_i hEnds
    rcases List.eq_nil_or_concat t with rfl | ⟨front, b, rfl⟩
    · cases hEnds
    · rw [List.concat_eq_append, List.getLast?_concat,
        Option.any_some] at hEnds
      refine ⟨front, b, ?_, hEnds⟩
      rw [List.concat_eq_append, List.append_nil]
  · exact ⟨t, '\n', rfl, rfl⟩

theorem Lexer.AtValue.consider?
    {s : Lexer}
    {t : Text}
    (h : s.AtValue t) :
    s.consider? = some s := by
  rw [Lexer.consider?, h.admitsKey]
  rfl

/-
  What is written for a value is read as a scalar of a style
  and a text, and leads to the next line.
-/
def Reads (written : Text) (style : Style) (t : Text) : Prop :=
  ∀ (s : Lexer) (after : Text),
    s.AtValue (written ++ (lineEnd written ++ after)) →
      StartsLine after →
        ∃ next there : Lexer,
          s.step? = some next ∧
            next.place.rest.length < s.place.rest.length ∧
            next.settle? = some there ∧
            there.AtLine after ∧
            there.columns = [0] ∧
            there.tokens = .scalar style t :: s.tokens

/-
  After the token of a value, white space leads to the next
  line, where the lexer is as it was at the line before.
-/
theorem Lexer.AtValue.exists_next
    {s : Lexer}
    {t rest after : Text}
    {token : Token}
    {admitsKey : Bool}
    (hValue : s.AtValue t)
    (hStep :
      s.step? =
        some ({ s with admitsKey := admitsKey }.emit token rest))
    (hShorter : rest.length < t.length)
    (hSkip :
      ∀ atStart,
        Lexer.skipGap false admitsKey atStart false rest =
          (after, true))
    (hPlace :
      ((s.place.moveTo rest).moveTo after).column = 0) :
    ∃ next there : Lexer,
      s.step? = some next ∧
        next.place.rest.length < s.place.rest.length ∧
        next.settle? = some there ∧
        there.AtLine after ∧
        there.columns = [0] ∧
        there.tokens = token :: s.tokens := by
  refine ⟨_, _, hStep, ?_, Lexer.settle?_of_skipGap hValue.outer ?_
    ?_ (hSkip _), ⟨rfl, hPlace, Or.inr hValue.columns,
      hValue.candidate, hValue.outer, rfl⟩, hValue.columns, rfl⟩
  · rw [hValue.rest]
    exact hShorter
  · show ∀ column ∈ s.columns, column = 0
    rw [hValue.columns, List.forall_mem_singleton]
  · show Lexer.review? _ s.candidate = some s.candidate
    rw [hValue.candidate]
    rfl

------------------------------------------------------------
-- Quotes
------------------------------------------------------------

/- A scalar in quotes is followed by a line break. -/
theorem reads_of_quoted?
    {quote : Char}
    {body t : Text}
    {style : Style}
    {pieces : List Piece}
    {read : Text → Option (List Piece × Text)}
    (hMark :
      ∀ (s : Lexer) rest,
        s.mark? quote rest = s.quoted? style (read rest))
    (hRead :
      ∀ after, read (body ++ '\n' :: after) =
        some (pieces, '\n' :: after))
    (hFold : fold pieces = t)
    (hEnd : lineEnd (quote :: body) = ['\n']) :
    Reads (quote :: body) style t := by
  intro s after hValue hAfter
  subst hFold
  rw [hEnd, List.cons_append, List.singleton_append] at hValue
  have hStep :
      s.step? =
        some ({ s with admitsKey := false }.emit
          (.scalar style (fold pieces)) ('\n' :: after)) := by
    rw [Lexer.step?_of_column hValue.rest hValue.column, hMark,
      hRead, Lexer.quoted?, Option.map_some, Lexer.word?,
      hValue.consider?]
    rfl
  refine hValue.exists_next hStep ?_ (fun _ => ?_) ?_
  · simp only [List.length_cons, List.length_append]
    omega
  · exact Lexer.skipGap_of_startsLine false true true hAfter
  · have hRest :
        (s.place.moveTo ('\n' :: after)).rest =
          [] ++ '\n' :: after :=
      rfl
    exact Place.column_moveTo_of_break hRest rfl

/- Text in double quotes is read as that text. -/
theorem reads_writeDouble
    (t : Text) :
    Reads (writeDouble t) .double t := by
  have hRead :
      ∀ after,
        double? (t.flatMap escape ++ ['"'] ++ '\n' :: after) =
          some (t.map pieceOf, '\n' :: after) := by
    intro after
    rw [List.append_assoc]
    exact double?_flatMap_escape t ('\n' :: after)
  have hEnd : lineEnd (writeDouble t) = ['\n'] := by
    rw [writeDouble, lineEnd, List.getLast?_concat]
    rfl
  exact reads_of_quoted? (fun _ _ => rfl) hRead
    (fold_map_pieceOf t) hEnd

/- Text in single quotes is read as that text. -/
theorem reads_writeSingle
    {t : Text}
    (h : IsSteady t) :
    Reads (writeSingle t) .single t := by
  have hRead :
      ∀ after,
        single? (singleLines false t ++ ['\''] ++ '\n' :: after) =
          some (singlePieces false t, '\n' :: after) := by
    intro after
    have hNext : ('\n' :: after).head? ≠ some '\'' := by
      simp
    rw [List.append_assoc]
    exact single?_singleLines_append false t hNext
  have hEnd : lineEnd (writeSingle t) = ['\n'] := by
    rw [writeSingle, lineEnd, List.getLast?_concat]
    rfl
  exact reads_of_quoted? (fun _ _ => rfl) hRead
    (fold_singlePieces h) hEnd

------------------------------------------------------------
-- Words
------------------------------------------------------------

/- A plain word ends at a line that is not indented. -/
theorem plainFrom?_lineFeed
    {indent : Nat}
    {after : Text}
    (hIndent : 0 < indent)
    (h : StartsLine after) :
    plainFrom? false indent [] ('\n' :: after) =
      some ([], after, true) := by
  have hBreak :
      plainFrom? false indent [] ('\n' :: after) =
        plainFrom? false indent ['\n'] after :=
    rfl
  have hColumn : gapColumn? ['\n'] = some 0 := rfl
  rw [hBreak]
  cases after with
  | nil => rfl
  | cons c after =>
      rcases h c rfl with ⟨hGap, -, -⟩
      have hTab : c ≠ '\t' := by
        rintro rfl
        cases hGap
      have hEnds :
          endsPlain false indent ['\n'] (c :: after) = true := by
        simp [endsPlain, hColumn, hIndent]
      rw [plainFrom?, hGap, hEnds]
      simp only [hTab, decide_false, Bool.false_and,
        Bool.false_eq_true, if_false, if_true]
      rfl

/- The parts of what it takes to be a plain word. -/
theorem canBePlain_iff
    {t : Text} :
    canBePlain t = true ↔
      (∀ c ∈ t, isPrintable c = true) ∧
        startsPlain false t = true ∧ isUnbroken t = true ∧
          t.getLast? ≠ some ' ' ∧ looksLikeMarker t = false := by
  simp only [canBePlain, Bool.and_eq_true, List.all_eq_true,
    decide_eq_true_eq, Bool.not_eq_true', and_assoc]

/- A plain word is read as that word. -/
theorem reads_plain
    {t : Text}
    (h : canBePlain t = true) :
    Reads t .plain t := by
  rcases canBePlain_iff.mp h with
    ⟨hPrint, hStart, hUnbroken, hLast, -⟩
  have hSome : t ≠ [] := by
    rintro rfl
    cases hStart
  have hEnd : lineEnd t = ['\n'] :=
    Block.lineEnd_of_ink hSome fun c hc =>
      isBreak_of_isPrintable (hPrint c (List.mem_of_getLast? hc))
  intro s after hValue hAfter
  rw [hEnd, List.singleton_append] at hValue
  have hRead :
      plainFrom? false 1 [] (t ++ '\n' :: after) =
        some (t, after, true) :=
    plainFrom?_append hSome (List.forall_mem_nil _) hPrint
      hUnbroken
      (fun hGap => absurd rfl hGap) hLast
      (plainFrom?_lineFeed Nat.one_pos hAfter)
  have hPlain : s.step? = s.plain? := by
    have hBegins := startsPlain_append ('\n' :: after) hStart
    cases t with
    | nil => exact absurd rfl hSome
    | cons c t =>
        rw [Lexer.step?_of_column hValue.rest hValue.column]
        exact Lexer.mark?_of_startsPlain hValue.outer hBegins
  have hStep :
      s.step? =
        some ({ s with admitsKey := true }.emit
          (.scalar .plain t) after) := by
    rw [hPlain, Lexer.plain?, hValue.consider?]
    simp only [Option.bind_eq_bind, Option.bind_some, Yaml.plain?,
      Lexer.inFlow, hValue.outer, hValue.rest, hValue.columns,
      List.isEmpty_nil, Bool.not_true, List.head?_cons,
      Option.map_some, Option.getD_some, Nat.zero_add, hRead]
    rfl
  refine hValue.exists_next hStep ?_ (fun _ => ?_) ?_
  · rw [List.length_append, List.length_cons]
    omega
  · exact Lexer.skipGap_of_startsLine false true _ hAfter
  · rw [Place.moveTo_moveTo]
    exact Place.column_moveTo_of_break hValue.rest rfl

------------------------------------------------------------
-- Lines
------------------------------------------------------------

theorem StartsLine.endsLines
    {t : Text}
    (h : StartsLine t) :
    Block.EndsLines t :=
  fun c hc => (h c hc).1

/- Text that is written as lines is read as that text. -/
theorem reads_writeLiteral
    {t : Text}
    (hSome : t ≠ [])
    (hReadable : isReadable t = true) :
    Reads (writeLiteral t) .literal t := by
  intro s after hValue hAfter
  have hEnd : lineEnd (writeLiteral t) = lineEnd t := by
    rw [lineEnd, getLast?_writeLiteral hSome, lineEnd]
  have hRead := block?_writeLiteral hSome hReadable
    hAfter.endsLines
  have hRest :
      s.place.rest =
        '|' :: (marginHint t ++ (chompingHint t ++ '\n' ::
          (literalLines true t ++ (lineEnd t ++ after)))) := by
    rw [hValue.rest, hEnd]
    simp [writeLiteral]
  have hStep :
      s.step? =
        some ({ s with admitsKey := true }.emit
          (.scalar .literal t) after) := by
    have hFlow : s.inFlow = false := by
      rw [Lexer.inFlow, hValue.outer]
      rfl
    have hBlock :
        s.mark? '|' =
          fun rest =>
            if s.inFlow then none else s.block? .literal rest :=
      rfl
    rw [Lexer.step?_of_column hRest hValue.column, hBlock]
    simp only [hFlow, Bool.false_eq_true, if_false]
    rw [Lexer.block?, Lexer.forget?_of_none hValue.candidate]
    simp only [Option.bind_eq_bind, Option.bind_some,
      hValue.columns, List.head?_cons]
    have hFolded : decide (Style.literal = .folded) = false :=
      rfl
    rw [hFolded, hRead]
    rfl
  rcases exists_lineEnd (writeLiteral t) with
    ⟨front, b, hBreak, hIsBreak⟩
  have hFront : s.place.rest = front ++ b :: after := by
    rw [hValue.rest, ← List.append_assoc, hBreak,
      List.append_assoc]
    rfl
  refine hValue.exists_next hStep ?_ (fun _ => ?_) ?_
  · rw [← hValue.rest, hFront, List.length_append,
      List.length_cons]
    omega
  · exact Lexer.skipGap_of_startsLine false true _ hAfter
  · rw [Place.moveTo_moveTo]
    exact Place.column_moveTo_of_break hFront hIsBreak

------------------------------------------------------------
-- Scalars
------------------------------------------------------------

/- What may stand for a scalar after a key. -/
structure Writes
    (written : Text)
    (style : Style)
    (t : Text) : Prop where
  content : written ≠ []
  starts : StartsLine written
  readable : isReadable written = true
  reads : Reads written style t

theorem writes_writeDouble
    (t : Text) :
    Writes (writeDouble t) .double t where
  content := List.cons_ne_nil '"' _
  starts := by
    rintro c ⟨⟩
    exact ⟨rfl, by decide, by decide⟩
  readable := isReadable_writeDouble t
  reads := reads_writeDouble t

theorem writes_writeSingle
    {t : Text}
    (h : IsSteady t) :
    Writes (writeSingle t) .single t where
  content := List.cons_ne_nil '\'' _
  starts := by
    rintro c ⟨⟩
    exact ⟨rfl, by decide, by decide⟩
  readable := isReadable_writeSingle h.readable
  reads := reads_writeSingle h

theorem writes_writeLiteral
    {t : Text}
    (hSome : t ≠ [])
    (hReadable : isReadable t = true) :
    Writes (writeLiteral t) .literal t where
  content := List.cons_ne_nil '|' _
  starts := by
    rintro c ⟨⟩
    exact ⟨rfl, by decide, by decide⟩
  readable := isReadable_writeLiteral hReadable
  reads := reads_writeLiteral hSome hReadable

/- A plain word begins with a character of its own. -/
theorem startsLine_of_startsPlain
    {t : Text}
    (hPrint : ∀ c ∈ t, isPrintable c = true)
    (hStart : startsPlain false t = true) :
    StartsLine t := by
  cases t with
  | nil => exact nofun
  | cons c t =>
      rintro d ⟨⟩
      have hOrder : c ≠ '\ufeff' :=
        ne_of_isPrintable (hPrint c List.mem_cons_self) rfl
      rw [startsPlain] at hStart
      split at hStart
      · rename_i hDash
        subst hDash
        exact ⟨rfl, by decide, hOrder⟩
      · split at hStart
        · rename_i hMark
          simp only [Bool.or_eq_true, decide_eq_true_eq] at hMark
          rcases hMark with rfl | rfl
          · exact ⟨rfl, by decide, hOrder⟩
          · exact ⟨rfl, by decide, hOrder⟩
        · rw [Bool.and_eq_true, Bool.not_eq_true'] at hStart
          have hHash : c ≠ '#' := by
            rintro rfl
            cases hStart.2
          exact ⟨hStart.1, hHash, hOrder⟩

theorem writes_plain
    {t : Text}
    (h : canBePlain t = true) :
    Writes t .plain t := by
  rcases canBePlain_iff.mp h with ⟨hPrint, hStart, -⟩
  have hSome : t ≠ [] := by
    rintro rfl
    cases hStart
  exact ⟨hSome, startsLine_of_startsPlain hPrint hStart,
    isReadable_of_printable hPrint, reads_plain h⟩

theorem isSteady_of_canBeSingle
    {t : Text}
    (h : canBeSingle t = true)
    (hFeed : '\n' ∉ t) :
    IsSteady t := by
  simp only [canBeSingle, Bool.and_eq_true,
    Bool.not_eq_true'] at h
  exact ⟨h.1.1, h.1.2, h.2, hFeed⟩

/- Text that is to stand in single quotes is read as it was. -/
theorem writes_writeQuoted
    {t : Text}
    (hFeed : '\n' ∉ t) :
    Writes (writeQuoted t) (possibleStyle t .single) t := by
  rw [writeQuoted, possibleStyle]
  split
  · rename_i hSingle
    exact writes_writeSingle (isSteady_of_canBeSingle hSingle hFeed)
  · exact writes_writeDouble t

/- A text that is written as a scalar is read as it was. -/
theorem writes_writeScalar
    (t : Text) :
    Writes (writeScalar t) (possibleStyle t (preferredStyle t)) t := by
  by_cases hFeed : '\n' ∈ t
  · have hPreferred : preferredStyle t = .literal := by
      simp [preferredStyle, hFeed]
    rw [writeScalar, hPreferred, possibleStyle]
    split
    · rename_i hLiteral
      simp only [canBeLiteral, Bool.and_eq_true,
        decide_eq_true_eq] at hLiteral
      exact writes_writeLiteral hLiteral.1.1.2 hLiteral.1.1.1
    · exact writes_writeDouble t
  · by_cases hMeaningful : isMeaningful t = true
    · have hPreferred : preferredStyle t = .single := by
        simp [preferredStyle, hFeed, hMeaningful]
      rw [writeScalar, hPreferred]
      exact writes_writeQuoted hFeed
    · have hPreferred : preferredStyle t = .plain := by
        simp [preferredStyle, hFeed, hMeaningful]
      rw [writeScalar, hPreferred, possibleStyle]
      split
      · rename_i hPlain
        exact writes_plain hPlain
      · exact writes_writeQuoted hFeed

end Yaml

end CodecChain
