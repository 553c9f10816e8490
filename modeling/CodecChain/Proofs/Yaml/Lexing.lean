import Mathlib.Data.List.TakeWhile
import CodecChain.Proofs.Yaml.Plain

/-
  Steps of the lexer over the entries of a mapping on lines:
  places move forward over what has been read, white space is
  passed over, and a key with its mark leaves the lexer before
  the value.

  Key definitions include:
    * `Yaml.StartsLine`
    * `Yaml.Lexer.AtLine`
    * `Yaml.Lexer.AtValue`

  Main statements:
    * `Yaml.Lexer.settle?_of_skipGap`
    * `Yaml.Lexer.run?_of_step`
    * `Yaml.Lexer.run?_key`
-/

------------------------------------------------------------
-- Places
------------------------------------------------------------

namespace CodecChain

namespace Yaml

namespace Place

theorem moveTo_of_append
    {p : Place}
    {front rest : Text}
    (h : p.rest = front ++ rest) :
    p.moveTo rest = { front.foldl after p with rest := rest } := by
  have hPassed :
      p.rest.take (p.rest.length - rest.length) = front := by
    rw [h, List.length_append, Nat.add_sub_cancel]
    exact List.take_left
  rw [moveTo, hPassed]

theorem moveTo_self (p : Place) : p.moveTo p.rest = p := by
  have hRest : p.rest = [] ++ p.rest := rfl
  exact moveTo_of_append hRest

theorem rest_moveTo
    (p : Place)
    (rest : Text) :
    (p.moveTo rest).rest = rest :=
  rfl

theorem moveTo_moveTo
    (p : Place)
    (rest : Text) :
    (p.moveTo rest).moveTo rest = p.moveTo rest :=
  moveTo_self (p.moveTo rest)

/- Without breaks the place stays on its line. -/
theorem foldl_after_of_unbroken
    {front : Text}
    (p : Place)
    (h : ∀ c ∈ front, isBreak c = false) :
    front.foldl after p =
      { p with
        column := p.column + front.length
        offset := p.offset + octets front } := by
  induction front generalizing p with
  | nil => rfl
  | cons c front ih =>
      rw [List.forall_mem_cons] at h
      rw [List.foldl_cons, ih _ h.2, after, h.1]
      simp only [octets, List.length_cons, List.foldr_cons,
        Bool.false_eq_true, if_false]
      congr 1 <;> omega

theorem moveTo_of_unbroken
    {p : Place}
    {front rest : Text}
    (hRest : p.rest = front ++ rest)
    (h : ∀ c ∈ front, isBreak c = false) :
    p.moveTo rest =
      { rest := rest
        line := p.line
        column := p.column + front.length
        offset := p.offset + octets front } := by
  rw [moveTo_of_append hRest, foldl_after_of_unbroken p h]

/- After a break the place is at the beginning of a line. -/
theorem column_moveTo_of_break
    {p : Place}
    {front rest : Text}
    {b : Char}
    (hRest : p.rest = front ++ b :: rest)
    (h : isBreak b = true) :
    (p.moveTo rest).column = 0 := by
  have hFront : p.rest = (front ++ [b]) ++ rest := by
    rw [hRest, List.append_assoc]
    rfl
  rw [moveTo_of_append hFront, List.foldl_append]
  simp [after, h]

end Place

------------------------------------------------------------
-- White Space
------------------------------------------------------------

/- A text at which a line begins that has content. -/
def StartsLine (t : Text) : Prop :=
  ∀ c ∈ t.head?, isGap c = false ∧ c ≠ '#' ∧ c ≠ '\ufeff'

namespace Lexer

theorem skipGap_of_startsLine
    {t : Text}
    (inFlow admitsKey atStart : Bool)
    (h : StartsLine t) :
    skipGap inFlow admitsKey atStart false t = (t, admitsKey) := by
  cases t with
  | nil => rfl
  | cons c t =>
      rcases h c rfl with ⟨hGap, hHash, hOrder⟩
      simp only [isGap, isSpace, Bool.or_eq_false_iff,
        decide_eq_false_iff_not] at hGap
      simp [skipGap, hGap, hHash, hOrder]

theorem skipGap_length_le
    (inFlow admitsKey atStart inComment : Bool)
    (t : Text) :
    (skipGap inFlow admitsKey atStart inComment t).1.length ≤
      t.length := by
  fun_induction skipGap inFlow admitsKey atStart inComment t with
  | case1 => exact Nat.le_refl _
  | case5 => exact Nat.le_refl _
  | _ => rename_i ih; exact Nat.le_succ_of_le ih

/-
  White space is passed over while no collection ends, as all
  that are open begin in the first column.
-/
theorem settle?_of_skipGap
    {s : Lexer}
    {rest : Text}
    {admitsKey : Bool}
    (hOuter : s.outer = [])
    (hColumns : ∀ column ∈ s.columns, column = 0)
    (hReview :
      review? (s.place.moveTo rest) s.candidate =
        some s.candidate)
    (hSkip :
      skipGap false s.admitsKey (s.place.column = 0) false
        s.place.rest = (rest, admitsKey)) :
    s.settle? = some { s.moveTo rest with admitsKey := admitsKey } := by
  have hFlow : s.inFlow = false := by
    rw [inFlow, hOuter]
    rfl
  have hKept :
      ∀ column : Nat,
        s.columns.takeWhile (fun c => !decide (c ≤ column)) =
          [] := by
    intro column
    cases hHead : s.columns with
    | nil => rfl
    | cons first columns =>
        have hZero := hColumns first (by simp [hHead])
        simp [hZero]
  rw [settle?, hFlow, hSkip]
  simp only [moveTo, hReview, hOuter, List.mapM_nil,
    Option.bind_eq_bind, Option.bind_some, Option.pure_def]
  simp only [close, inFlow, hKept]
  simp

theorem length_settle?_le
    {s here : Lexer}
    (h : s.settle? = some here) :
    here.place.rest.length ≤ s.place.rest.length := by
  have hClose :
      ∀ (s : Lexer) isKept, (s.close isKept).place = s.place := by
    intro s isKept
    rw [close]
    split <;> rfl
  simp only [settle?, Option.bind_eq_bind,
    Option.bind_eq_some_iff, Option.pure_def,
    Option.some.injEq] at h
  rcases h with ⟨candidate, -, outer, -, rfl⟩
  rw [hClose]
  exact skipGap_length_le _ _ _ _ _

------------------------------------------------------------
-- Steps
------------------------------------------------------------

/- A run goes on after a step that takes something. -/
theorem run?_of_step
    {s here next : Lexer}
    (hSettle : s.settle? = some here)
    (hMore : here.place.rest ≠ [])
    (hStep : here.step? = some next)
    (hShorter :
      next.place.rest.length < here.place.rest.length) :
    s.run? = next.run? := by
  have hLess : next.place.rest.length < s.place.rest.length :=
    Nat.lt_of_lt_of_le hShorter (length_settle?_le hSettle)
  rw [run?, hSettle]
  simp only [Option.bind_eq_bind, Option.bind_some,
    if_neg hMore, hStep, if_pos hLess]

/- A run ends where nothing is left. -/
theorem run?_of_end
    {s here : Lexer}
    (hSettle : s.settle? = some here)
    (hEnd : here.place.rest = [])
    (hCandidate : here.candidate = none)
    (hOuter : here.outer = []) :
    s.run? =
      some (here.columns.map (fun _ => .blockEnd) ++ here.tokens) := by
  have hAll :
      here.columns.takeWhile (fun _ => true) = here.columns :=
    List.takeWhile_eq_self_iff.mpr fun _ _ => rfl
  rw [run?, hSettle]
  simp only [Option.bind_eq_bind, Option.bind_some, if_pos hEnd]
  simp [closeAll, close, inFlow, hOuter, forget?, hCandidate,
    hAll]

/- Where there is no candidate, none is forgotten. -/
theorem forget?_of_none
    {s : Lexer}
    (h : s.candidate = none) :
    s.forget? = some s := by
  cases s
  subst h
  rfl

------------------------------------------------------------
-- Plain Scalars
------------------------------------------------------------

/- What begins a plain scalar is read as one. -/
theorem mark?_of_startsPlain
    {s : Lexer}
    {c : Char}
    {rest : Text}
    (hOuter : s.outer = [])
    (h : startsPlain false (c :: rest) = true) :
    s.mark? c rest = s.plain? := by
  have hFlow : s.inFlow = false := by
    rw [inFlow, hOuter]
    rfl
  unfold mark?
  dsimp only
  rw [hFlow]
  split
  all_goals simp_all [startsPlain, indicators]

------------------------------------------------------------
-- Lines
------------------------------------------------------------

/-
  The state at a line of a mapping whose keys are in the first
  column, or before it.
-/
structure AtLine (s : Lexer) (t : Text) : Prop where
  rest : s.place.rest = t
  column : s.place.column = 0
  columns : s.columns = [] ∨ s.columns = [0]
  candidate : s.candidate = none
  outer : s.outer = []
  admitsKey : s.admitsKey = true

/- The state before a value within such a mapping. -/
structure AtValue (s : Lexer) (t : Text) : Prop where
  rest : s.place.rest = t
  column : s.place.column ≠ 0
  columns : s.columns = [0]
  candidate : s.candidate = none
  outer : s.outer = []
  admitsKey : s.admitsKey = false

/- Away from the first column a token begins with its mark. -/
theorem step?_of_column
    {s : Lexer}
    {c : Char}
    {rest : Text}
    (hRest : s.place.rest = c :: rest)
    (hColumn : s.place.column ≠ 0) :
    s.step? = s.mark? c rest := by
  simp [step?, hRest, hColumn]

/- The token that a mapping begins with, if it begins. -/
def opening (columns : List Nat) : List Token :=
  if columns = [] then [.mappingBlock] else []

------------------------------------------------------------
-- Keys
------------------------------------------------------------

/- A key begins a plain scalar, and nothing else. -/
theorem step?_of_isKey
    {s : Lexer}
    {key t : Text}
    (h : IsKey key)
    (hRest : s.place.rest = key ++ t)
    (hOuter : s.outer = []) :
    s.step? = s.plain? := by
  cases key with
  | nil => exact absurd rfl h.content
  | cons c key =>
      have hWord := h.word c List.mem_cons_self
      have hPercent : c ≠ '%' := ne_of_isWordChar hWord rfl
      have hNe :
          ∀ {d}, isWordChar d = false → (d == c) = false := by
        intro d hOther
        rw [beq_eq_false_iff_ne]
        exact (ne_of_isWordChar hWord hOther).symm
      have hStart := startsPlain_of_isWordChar (key ++ t) hWord
      rw [step?, hRest, List.cons_append]
      simp only [hPercent, isMarker, List.isPrefixOf,
        hNe (d := '-') rfl, hNe (d := '.') rfl, Bool.false_and,
        Bool.false_eq_true, and_false, if_false]
      exact mark?_of_startsPlain hOuter hStart

/- The state after a key, before the mark that says so. -/
def afterKey
    (s : Lexer)
    (c : Candidate)
    (key rest : Text) : Lexer where
  place := s.place.moveTo rest
  tokens := .scalar .plain key :: s.tokens
  columns := s.columns
  candidate := some c
  outer := []
  admitsKey := false

/- A key is read as a word that may turn out to be one. -/
theorem step?_key
    {s : Lexer}
    {key t : Text}
    (hLine : s.AtLine (key ++ ':' :: ' ' :: t))
    (hKey : IsKey key) :
    ∃ c : Candidate,
      s.step? = some (s.afterKey c key (':' :: ' ' :: t)) ∧
        c.line = s.place.line ∧ c.column = 0 ∧
          c.offset = s.place.offset ∧ c.count = s.tokens.length := by
  have hForget := forget?_of_none hLine.candidate
  have hConsider :
      s.consider? =
        some
          { s with
            candidate :=
              some
                { line := s.place.line
                  column := s.place.column
                  offset := s.place.offset
                  count := s.tokens.length
                  isRequired :=
                    !s.inFlow &&
                      s.columns.head? = some s.place.column } } := by
    rw [consider?, if_pos hLine.admitsKey, hForget]
    rfl
  rw [step?_of_isKey hKey hLine.rest hLine.outer, plain?, hConsider]
  simp only [Option.bind_eq_bind, Option.bind_some, Yaml.plain?,
    inFlow, hLine.outer, hLine.rest, List.isEmpty_nil,
    Bool.not_true, hKey.plainFrom?_append]
  exact ⟨_, rfl, rfl, hLine.column, rfl, rfl⟩

/- The state after a key and its mark. -/
def afterMark (s : Lexer) (key rest : Text) : Lexer where
  place := (s.place.moveTo (':' :: rest)).moveTo rest
  tokens :=
    .value :: .scalar .plain key :: .key ::
      opening s.columns ++ s.tokens
  columns := [0]
  candidate := none
  outer := []
  admitsKey := false

/- The mark after a key makes it one. -/
theorem value?_afterKey
    {s : Lexer}
    {c : Candidate}
    {key : Text}
    (rest t : Text)
    (hLine : s.AtLine t)
    (hColumn : c.column = 0)
    (hCount : c.count = s.tokens.length) :
    (s.afterKey c key (':' :: rest)).value? rest =
      some (s.afterMark key rest) := by
  have hBoth :
      s.tokens.length + 1 + 1 - s.tokens.length = 2 := by
    omega
  rcases hLine.columns with hNone | hFirst
  · simp [value?, afterKey, insert, openAt, inFlow, emit, moveTo,
      hCount, hColumn, hNone, opening, hBoth, afterMark]
  · simp [value?, afterKey, insert, openAt, inFlow, emit, moveTo,
      hCount, hColumn, hFirst, opening, afterMark]

theorem AtLine.forall_columns
    {s : Lexer}
    {t : Text}
    (h : s.AtLine t) :
    ∀ column ∈ s.columns, column = 0 := by
  rcases h.columns with hNone | hFirst
  · rw [hNone]
    exact List.forall_mem_nil _
  · rw [hFirst, List.forall_mem_singleton]

/- The place after a key is on its line. -/
theorem place_afterKey
    {s : Lexer}
    {key rest : Text}
    (c : Candidate)
    (hLine : s.AtLine (key ++ rest))
    (hKey : IsKey key) :
    (s.afterKey c key rest).place =
      { rest := rest
        line := s.place.line
        column := key.length
        offset := s.place.offset + octets key } := by
  have hUnbroken : ∀ d ∈ key, isBreak d = false :=
    fun d hd => isBreak_of_isPrintable (hKey.isPrintable d hd)
  rw [afterKey, Place.moveTo_of_unbroken hLine.rest hUnbroken,
    hLine.column, Nat.zero_add]

/- The mark after a key stands close enough to it. -/
theorem settle?_afterKey
    {s : Lexer}
    {c : Candidate}
    {key t : Text}
    (hLine : s.AtLine (key ++ ':' :: t))
    (hKey : IsKey key)
    (hCandidate : c.line = s.place.line)
    (hOffset : c.offset = s.place.offset) :
    (s.afterKey c key (':' :: t)).settle? =
      some (s.afterKey c key (':' :: t)) := by
  have hShort := hKey.short
  have hPlace := place_afterKey c hLine hKey
  have hStart : StartsLine (':' :: t) := by
    rintro d ⟨⟩
    exact ⟨rfl, by decide, by decide⟩
  generalize hNext : s.afterKey c key (':' :: t) = next at hPlace
  have hRest : next.place.rest = ':' :: t := by
    rw [hPlace]
  have hReview :
      review? (next.place.moveTo (':' :: t)) next.candidate =
        some next.candidate := by
    rw [← hRest, Place.moveTo_self, hPlace, ← hNext, afterKey,
      review?, if_neg]
    simp only [Bool.or_eq_true, decide_eq_true_eq, not_or]
    omega
  have hSkip :
      skipGap false next.admitsKey (next.place.column = 0) false
          next.place.rest =
        (':' :: t, next.admitsKey) := by
    rw [hRest]
    exact skipGap_of_startsLine _ _ _ hStart
  have hOuter : next.outer = [] := by
    rw [← hNext, afterKey]
  have hColumns : ∀ column ∈ next.columns, column = 0 := by
    rw [← hNext]
    exact hLine.forall_columns
  rw [settle?_of_skipGap hOuter hColumns hReview hSkip, moveTo,
    ← hRest, Place.moveTo_self]

/- A key leads to the place before its value. -/
theorem run?_key
    {s here : Lexer}
    {key t : Text}
    (hSettle : s.settle? = some here)
    (hLine : here.AtLine (key ++ ':' :: ' ' :: t))
    (hKey : IsKey key)
    (hStart : StartsLine t) :
    ∃ next there : Lexer,
      s.run? = next.run? ∧ next.settle? = some there ∧
        there.AtValue t ∧
          there.tokens =
            .value :: .scalar .plain key :: .key ::
              opening here.columns ++ here.tokens := by
  rcases step?_key hLine hKey with
    ⟨c, hStep, hCandidate, hColumn, hOffset, hCount⟩
  have hMark :
      (here.afterKey c key (':' :: ' ' :: t)).step? =
        some (here.afterMark key (' ' :: t)) := by
    have hPlace := place_afterKey c hLine hKey
    have hFar :
        (here.afterKey c key (':' :: ' ' :: t)).place.column ≠ 0 := by
      rw [hPlace]
      exact Nat.ne_of_gt (List.length_pos_iff.mpr hKey.content)
    rw [step?_of_column rfl hFar]
    exact value?_afterKey (' ' :: t) _ hLine hColumn hCount
  have hSome : 0 < key.length :=
    List.length_pos_iff.mpr hKey.content
  have hFirst :
      s.run? = (here.afterKey c key (':' :: ' ' :: t)).run? := by
    apply run?_of_step hSettle _ hStep
    · rw [hLine.rest, afterKey, Place.rest_moveTo,
        List.length_append]
      omega
    · rw [hLine.rest]
      simp
  have hSecond :
      (here.afterKey c key (':' :: ' ' :: t)).run? =
        (here.afterMark key (' ' :: t)).run? :=
    run?_of_step
      (settle?_afterKey hLine hKey hCandidate hOffset)
      (List.cons_ne_nil ':' (' ' :: t)) hMark
      (Nat.lt_succ_self (' ' :: t).length)
  have hSkip :
      skipGap false (here.afterMark key (' ' :: t)).admitsKey
          ((here.afterMark key (' ' :: t)).place.column = 0) false
          (here.afterMark key (' ' :: t)).place.rest =
        (t, false) :=
    skipGap_of_startsLine false false false hStart
  have hZero :
      ∀ column ∈ (here.afterMark key (' ' :: t)).columns,
        column = 0 :=
    List.forall_mem_singleton.mpr rfl
  have hColumns :
      ((here.afterMark key (' ' :: t)).place.moveTo t).column ≠ 0 := by
    have hBlank : ∀ d ∈ [' '], isBreak d = false :=
      List.forall_mem_singleton.mpr rfl
    have hRest :
        (here.afterMark key (' ' :: t)).place.rest = [' '] ++ t :=
      rfl
    rw [Place.moveTo_of_unbroken hRest hBlank]
    exact Nat.succ_ne_zero _
  exact ⟨here.afterMark key (' ' :: t),
    { (here.afterMark key (' ' :: t)).moveTo t with
      admitsKey := false },
    hFirst.trans hSecond, settle?_of_skipGap rfl hZero rfl hSkip,
    ⟨rfl, hColumns, rfl, rfl, rfl, rfl⟩, rfl⟩

end Lexer

end Yaml

end CodecChain
