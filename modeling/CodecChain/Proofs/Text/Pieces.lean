import CodecChain.Text.Basic

/-
  The pieces of a text and the text of pieces. Splitting
  undoes joining on pieces without the separator, and both
  can be read from either end.

  Main statements:
    * `split_join`
    * `split_append`
    * `join_append`
    * `notMem_of_mem_split`
    * `reverse_join`
    * `head?_join_eq_some`
-/

namespace CodecChain.Text

variable {sep : Char}

------------------------------------------------------------
-- Splitting
------------------------------------------------------------

/- A text without the separator is one piece. -/
theorem split_of_notMem
    {t : Text}
    (h : sep ∉ t) :
    split sep t = [t] := by
  induction t with
  | nil => rfl
  | cons c cs ih =>
      rw [List.mem_cons, not_or] at h
      have hc : ¬ c = sep := fun hEq => h.1 hEq.symm
      simp only [split, hc, if_false, ih h.2,
        List.modifyHead]

/- A separator ends the pieces before it. -/
theorem split_append
    (s t : Text) :
    split sep (s ++ sep :: t) = split sep s ++ split sep t := by
  induction s with
  | nil => simp [split]
  | cons c cs ih =>
      by_cases hc : c = sep
      · simp only [List.cons_append, split, hc, if_true, ih]
      · simp only [List.cons_append, split, hc, if_false, ih]
        cases hSplit : split sep cs with
        | nil => exact absurd hSplit (split_ne_nil sep cs)
        | cons p ps => rfl

/- The first separator ends the first piece. -/
theorem split_append_separator
    {p : Text}
    (t : Text)
    (h : sep ∉ p) :
    split sep (p ++ sep :: t) = p :: split sep t := by
  rw [split_append, split_of_notMem h]
  rfl

/- What is put after a text belongs to its last piece. -/
theorem exists_split_append_of_notMem
    {pad : Text}
    (t : Text)
    (h : sep ∉ pad) :
    ∃ front last,
      split sep t = front ++ [last] ∧
        split sep (t ++ pad) = front ++ [last ++ pad] := by
  induction t with
  | nil => exact ⟨[], [], rfl, split_of_notMem h⟩
  | cons c cs ih =>
      rcases ih with ⟨front, last, hSplit, hPadded⟩
      by_cases hc : c = sep
      · refine ⟨[] :: front, last, ?_, ?_⟩
        · simp only [split, hc, if_true, hSplit,
            List.cons_append]
        · simp only [split, hc, if_true, hPadded,
            List.cons_append]
      · simp only [split, hc, if_false, hSplit, hPadded,
          List.cons_append]
        cases front with
        | nil => exact ⟨[], c :: last, rfl, rfl⟩
        | cons p ps => exact ⟨(c :: p) :: ps, last, rfl, rfl⟩

/- No piece of a text holds the separator. -/
theorem notMem_of_mem_split
    {t p : Text}
    (h : p ∈ split sep t) :
    sep ∉ p := by
  induction t generalizing p with
  | nil =>
      rw [split, List.mem_singleton] at h
      simp [h]
  | cons c cs ih =>
      unfold split at h
      split at h
      · rcases List.mem_cons.mp h with rfl | hRest
        · simp
        · exact ih hRest
      · rename_i hc
        cases hSplit : split sep cs with
        | nil => exact absurd hSplit (split_ne_nil sep cs)
        | cons q qs =>
            rw [hSplit] at h ih
            rcases List.mem_cons.mp h with rfl | hRest
            · rw [List.mem_cons, not_or]
              exact ⟨fun hEq => hc hEq.symm,
                ih List.mem_cons_self⟩
            · exact ih (List.mem_cons_of_mem q hRest)

------------------------------------------------------------
-- Joining
------------------------------------------------------------

@[simp] theorem join_singleton (p : Text) :
    join sep [p] = p := by
  simp [join, List.intercalate]

@[simp] theorem join_cons_cons
    (p q : Text)
    (rest : List Text) :
    join sep (p :: q :: rest) =
      p ++ sep :: join sep (q :: rest) := by
  simp [join, List.intercalate, List.intersperse]

/- Only an empty piece alone gives an empty text. -/
theorem eq_singleton_nil_of_join_eq_nil
    {pieces : List Text}
    (hPieces : pieces ≠ [])
    (h : join sep pieces = []) :
    pieces = [[]] := by
  cases pieces with
  | nil => exact absurd rfl hPieces
  | cons p ps =>
      cases ps with
      | nil =>
          rw [join_singleton] at h
          rw [h]
      | cons q qs =>
          rw [join_cons_cons] at h
          simp at h

/- Splitting undoes joining. -/
theorem split_join
    {pieces : List Text}
    (hPieces : pieces ≠ [])
    (hFree : ∀ p ∈ pieces, sep ∉ p) :
    split sep (join sep pieces) = pieces := by
  induction pieces with
  | nil => exact absurd rfl hPieces
  | cons p ps ih =>
      have hp : sep ∉ p := hFree p List.mem_cons_self
      cases ps with
      | nil =>
          rw [join_singleton]
          exact split_of_notMem hp
      | cons q qs =>
          have hRest := ih (by simp)
            fun r hr => hFree r (List.mem_cons_of_mem p hr)
          rw [join_cons_cons, split_append_separator _ hp,
            hRest]

/- Joined lists are joined with one more separator. -/
theorem join_append
    {front back : List Text}
    (hFront : front ≠ [])
    (hBack : back ≠ []) :
    join sep (front ++ back) =
      join sep front ++ sep :: join sep back := by
  induction front with
  | nil => exact absurd rfl hFront
  | cons p ps ih =>
      cases ps with
      | nil =>
          cases back with
          | nil => exact absurd rfl hBack
          | cons q qs =>
              rw [List.singleton_append, join_cons_cons,
                join_singleton]
      | cons r rest =>
          have hRest := ih (by simp)
          rw [List.cons_append] at hRest
          rw [List.cons_append, List.cons_append,
            join_cons_cons, hRest, join_cons_cons,
            List.append_assoc, List.cons_append]

/- Read from its end, a joined text is a joined text. -/
theorem reverse_join (pieces : List Text) :
    (join sep pieces).reverse =
      join sep (pieces.map List.reverse).reverse := by
  induction pieces with
  | nil => rfl
  | cons p ps ih =>
      cases ps with
      | nil => simp
      | cons q qs =>
          have hShape :
              ((q :: qs).map List.reverse).reverse ≠ [] := by
            simp
          rw [List.map_cons, List.reverse_cons,
            join_append hShape (by simp), ← ih,
            join_singleton, join_cons_cons, List.reverse_append,
            List.reverse_cons, List.append_assoc,
            List.singleton_append]

/-
  A joined text begins with its first piece, or with the
  separator if that piece is empty and another follows.
-/
theorem head?_join_eq_some
    {pieces : List Text}
    {c : Char}
    (h : (join sep pieces).head? = some c) :
    (∃ p, pieces.head? = some p ∧ p.head? = some c) ∨
      (pieces.head? = some [] ∧ c = sep) := by
  cases pieces with
  | nil => simp [join, List.intercalate] at h
  | cons p ps =>
      cases ps with
      | nil =>
          rw [join_singleton] at h
          exact Or.inl ⟨p, rfl, h⟩
      | cons q qs =>
          rw [join_cons_cons] at h
          cases p with
          | nil =>
              rw [List.nil_append, List.head?_cons,
                Option.some.injEq] at h
              exact Or.inr ⟨rfl, h.symm⟩
          | cons d ds =>
              rw [List.cons_append, List.head?_cons] at h
              exact Or.inl ⟨d :: ds, rfl, h⟩

/- The first piece begins as the joined text does. -/
theorem head?_join_of_head?_some
    {pieces : List Text}
    {p : Text}
    {c : Char}
    (hHead : pieces.head? = some p)
    (hc : p.head? = some c) :
    (join sep pieces).head? = some c := by
  cases pieces with
  | nil => simp at hHead
  | cons q qs =>
      rw [List.head?_cons, Option.some.injEq] at hHead
      subst hHead
      cases qs with
      | nil => rwa [join_singleton]
      | cons r rest =>
          rw [join_cons_cons, List.head?_append, hc]
          rfl

/-
  A text whose first piece is empty is empty itself, or it
  begins with the separator.
-/
theorem head?_join_of_head?_nil
    {pieces : List Text}
    (sep : Char)
    (h : pieces.head? = some []) :
    join sep pieces = [] ∨
      (join sep pieces).head? = some sep := by
  cases pieces with
  | nil => simp at h
  | cons p ps =>
      rw [List.head?_cons, Option.some.injEq] at h
      subst h
      cases ps with
      | nil => exact Or.inl (join_singleton [])
      | cons q qs =>
          rw [join_cons_cons]
          exact Or.inr rfl

end CodecChain.Text
