import Mathlib.Data.List.Forall2
import CodecChain.Proofs.Text.Trimmed

/-
  Blanks around a text and around its pieces. A text is its
  trimmed text between blanks, and blanks at its ends change
  none of its trimmed pieces, if the separator is no blank;
  nor do blanks around each of the pieces.

  Key definitions include:
    * `PadsTo`

  Main statements:
    * `exists_eq_append_trim`
    * `map_trim_split_trim`
    * `map_trim_split_of_padded`
-/

namespace CodecChain.Text

variable {sep : Char} {t pad : Text}

------------------------------------------------------------
-- Blanks Around Texts
------------------------------------------------------------

theorem trim_append_left_of_blank
    (h : ∀ c ∈ pad, isBlank c = true) :
    trim (pad ++ t) = trim t := by
  rw [trim, trimStart_append_of_blank h, trim]

theorem trim_append_right_of_blank
    (h : ∀ c ∈ pad, isBlank c = true) :
    trim (t ++ pad) = trim t := by
  have hPad : trimStart pad = [] :=
    List.dropWhile_eq_nil_iff.mpr h
  have hStart :
      trimStart (t ++ pad) =
        if (trimStart t).isEmpty then trimStart pad
        else trimStart t ++ pad :=
    List.dropWhile_append
  rw [trim, hStart, trim]
  by_cases hEmpty : trimStart t = []
  · rw [hEmpty, hPad]
    rfl
  · rw [if_neg (by simpa using hEmpty),
      trimEnd_append_of_blank h]

/- A text is what trimming leaves of it, between blanks. -/
theorem exists_eq_append_trim (t : Text) :
    ∃ front back,
      t = front ++ (trim t ++ back) ∧
        (∀ c ∈ front, isBlank c = true) ∧
        ∀ c ∈ back, isBlank c = true := by
  have hFront : t = t.takeWhile isBlank ++ trimStart t :=
    List.takeWhile_append_dropWhile.symm
  have hBack :
      (trimStart t).reverse =
        (trimStart t).reverse.takeWhile isBlank ++
          (trimStart t).reverse.dropWhile isBlank :=
    List.takeWhile_append_dropWhile.symm
  have hEnd :
      trimStart t =
        trim t ++
          ((trimStart t).reverse.takeWhile isBlank).reverse := by
    have hSides := congrArg List.reverse hBack
    rwa [List.reverse_reverse, List.reverse_append] at hSides
  refine ⟨t.takeWhile isBlank,
    ((trimStart t).reverse.takeWhile isBlank).reverse, ?_, ?_,
    ?_⟩
  · rw [← hEnd]
    exact hFront
  · intro c hc
    exact List.mem_takeWhile_imp hc
  · intro c hc
    rw [List.mem_reverse] at hc
    exact List.mem_takeWhile_imp hc

------------------------------------------------------------
-- Blanks Around Pieces
------------------------------------------------------------

/- A separator that is no blank is not among blanks. -/
theorem notMem_of_blank
    (hSep : isBlank sep = false)
    (h : ∀ c ∈ pad, isBlank c = true) :
    sep ∉ pad := by
  intro hMem
  have hBlank := h sep hMem
  rw [hSep] at hBlank
  exact absurd hBlank (by decide)

theorem map_trim_split_append_left
    (hSep : isBlank sep = false)
    (h : ∀ c ∈ pad, isBlank c = true) :
    (split sep (pad ++ t)).map trim =
      (split sep t).map trim := by
  induction pad with
  | nil => rfl
  | cons c cs ih =>
      have hc : ¬ c = sep := by
        intro hEq
        exact notMem_of_blank hSep h (by simp [hEq])
      have hBlank : ∀ d ∈ [c], isBlank d = true := by
        intro d hd
        rw [List.mem_singleton.mp hd]
        exact h c List.mem_cons_self
      have hRest := ih fun d hd =>
        h d (List.mem_cons_of_mem c hd)
      rw [← hRest, List.cons_append, split, if_neg hc]
      cases split sep (cs ++ t) with
      | nil => rfl
      | cons p ps =>
          have hTrim : trim (c :: p) = trim p :=
            trim_append_left_of_blank hBlank
          rw [List.modifyHead, List.map_cons, hTrim,
            List.map_cons]

theorem map_trim_split_append_right
    (hSep : isBlank sep = false)
    (h : ∀ c ∈ pad, isBlank c = true) :
    (split sep (t ++ pad)).map trim =
      (split sep t).map trim := by
  rcases exists_split_append_of_notMem t
    (notMem_of_blank hSep h) with
    ⟨front, last, hSplit, hPadded⟩
  rw [hSplit, hPadded, List.map_append, List.map_append,
    List.map_singleton, List.map_singleton,
    trim_append_right_of_blank h]

/- The pieces of a trimmed text are those of the text. -/
theorem map_trim_split_trim
    (hSep : isBlank sep = false)
    (t : Text) :
    (split sep (trim t)).map trim = (split sep t).map trim := by
  rcases exists_eq_append_trim t with
    ⟨front, back, hText, hFront, hBack⟩
  calc
    (split sep (trim t)).map trim =
        (split sep (trim t ++ back)).map trim :=
      (map_trim_split_append_right hSep hBack).symm
    _ = (split sep (front ++ (trim t ++ back))).map trim :=
      (map_trim_split_append_left hSep hFront).symm
    _ = (split sep t).map trim := by
      rw [← hText]

/- A text of blanks is a text of one piece of blanks. -/
theorem trim_eq_nil_iff_pieces
    (hSep : isBlank sep = false) :
    trim t = [] ↔ (split sep t).map trim = [[]] := by
  rw [← map_trim_split_trim hSep t]
  constructor
  · intro hNil
    rw [hNil]
    rfl
  · intro hPieces
    rcases List.map_eq_singleton_iff.mp hPieces with
      ⟨p, hSplit, hBlank⟩
    have hJoin := join_split sep (trim t)
    rw [hSplit, join_singleton] at hJoin
    subst hJoin
    rwa [trim_of_isTrimmed (isTrimmed_trim t)] at hBlank

------------------------------------------------------------
-- Padded Texts
------------------------------------------------------------

variable {padded : Text} {pieces paddedPieces : List Text}

/- The second text is the first one, put between blanks. -/
def PadsTo (t padded : Text) : Prop :=
  ∃ front back,
    padded = front ++ (t ++ back) ∧
      (∀ c ∈ front, isBlank c = true) ∧
      ∀ c ∈ back, isBlank c = true

theorem PadsTo.trim_eq
    (h : PadsTo t padded) :
    trim padded = trim t := by
  rcases h with ⟨front, back, rfl, hFront, hBack⟩
  rw [trim_append_left_of_blank hFront,
    trim_append_right_of_blank hBack]

/- Blanks bring no separator into a text. -/
theorem PadsTo.notMem
    (hSep : isBlank sep = false)
    (hFree : sep ∉ t)
    (h : PadsTo t padded) :
    sep ∉ padded := by
  rcases h with ⟨front, back, rfl, hFront, hBack⟩
  have hBefore := notMem_of_blank hSep hFront
  have hAfter := notMem_of_blank hSep hBack
  simp [hBefore, hFree, hAfter]

/- Padded pieces are trimmed to the same pieces. -/
theorem map_trim_of_forall₂
    (h : List.Forall₂ PadsTo pieces paddedPieces) :
    paddedPieces.map trim = pieces.map trim := by
  induction h with
  | nil => rfl
  | cons hPiece _ ih => simp [hPiece.trim_eq, ih]

theorem notMem_of_forall₂
    (hSep : isBlank sep = false)
    (hFree : ∀ p ∈ pieces, sep ∉ p)
    (h : List.Forall₂ PadsTo pieces paddedPieces) :
    ∀ p ∈ paddedPieces, sep ∉ p := by
  induction h with
  | nil => simp
  | cons hPiece _ ih =>
      simp only [List.forall_mem_cons] at hFree ⊢
      exact ⟨hPiece.notMem hSep hFree.1, ih hFree.2⟩

/-
  Blanks around the pieces of a text and around the whole
  change none of its trimmed pieces.
-/
theorem map_trim_split_of_padded
    {t : Text}
    (hSep : isBlank sep = false)
    (hFree : ∀ p ∈ pieces, sep ∉ p)
    (hPieces : List.Forall₂ PadsTo pieces paddedPieces)
    (hText : PadsTo (join sep paddedPieces) t) :
    (split sep t).map trim =
      (split sep (join sep pieces)).map trim := by
  have hOuter :
      (split sep t).map trim =
        (split sep (join sep paddedPieces)).map trim := by
    rw [← map_trim_split_trim hSep t, hText.trim_eq,
      map_trim_split_trim hSep]
  rw [hOuter]
  by_cases hNil : pieces = []
  · subst hNil
    rw [List.forall₂_nil_left_iff.mp hPieces]
  · have hPaddedNil : paddedPieces ≠ [] := by
      intro hEmpty
      subst hEmpty
      exact hNil (List.forall₂_nil_right_iff.mp hPieces)
    rw [split_join hNil hFree,
      split_join hPaddedNil
        (notMem_of_forall₂ hSep hFree hPieces),
      map_trim_of_forall₂ hPieces]

end CodecChain.Text
