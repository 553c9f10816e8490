import Mathlib.Data.List.TakeWhile
import CodecChain.Text.Blank
import CodecChain.Proofs.Text.Pieces

/-
  Texts that trimming leaves as they are. They are found as
  the results of trimming, and joining them with a separator
  gives such a text again, unless a blank separator meets an
  empty piece at one of the two ends.

  Key definitions include:
    * `FirstVisible`
    * `IsTrimmed`

  Main statements:
    * `trim_of_isTrimmed`
    * `isTrimmed_trim`
    * `isTrimmed_join`
    * `endsNonempty_map_trim`
-/

namespace CodecChain.Text

------------------------------------------------------------
-- Trimmed Texts
------------------------------------------------------------

/- A text that does not begin with a blank. -/
def FirstVisible (t : Text) : Prop :=
  ∀ c, t.head? = some c → isBlank c = false

/- A text with no blank at either end. -/
structure IsTrimmed (t : Text) : Prop where
  first : FirstVisible t
  last : FirstVisible t.reverse

theorem firstVisible_cons_iff
    {c : Char}
    {t : Text} :
    FirstVisible (c :: t) ↔ isBlank c = false := by
  simp [FirstVisible]

theorem isTrimmed_singleton
    {c : Char}
    (hc : isBlank c = false) :
    IsTrimmed [c] :=
  ⟨firstVisible_cons_iff.mpr hc, firstVisible_cons_iff.mpr hc⟩

/- A longer text ends where what follows its head ends. -/
theorem isTrimmed_cons_iff
    {c : Char}
    {t : Text}
    (ht : t ≠ []) :
    IsTrimmed (c :: t) ↔
      isBlank c = false ∧ FirstVisible t.reverse := by
  have hLast :
      FirstVisible (c :: t).reverse ↔
        FirstVisible t.reverse := by
    cases hShape : t.reverse with
    | nil => exact absurd (by simpa using hShape) ht
    | cons d ds =>
        rw [List.reverse_cons, hShape, List.cons_append,
          firstVisible_cons_iff, firstVisible_cons_iff]
  constructor
  · intro h
    exact ⟨firstVisible_cons_iff.mp h.first, hLast.mp h.last⟩
  · intro h
    exact ⟨firstVisible_cons_iff.mpr h.1, hLast.mpr h.2⟩

theorem trimStart_of_firstVisible
    {t : Text}
    (h : FirstVisible t) :
    trimStart t = t := by
  cases t with
  | nil => rfl
  | cons c cs =>
      have hc := firstVisible_cons_iff.mp h
      simp [trimStart, hc]

theorem firstVisible_trimStart (t : Text) :
    FirstVisible (trimStart t) := by
  intro c hc
  induction t with
  | nil => simp [trimStart] at hc
  | cons d ds ih =>
      unfold trimStart at hc ih
      cases hBlank : isBlank d with
      | true =>
          rw [List.dropWhile_cons_of_pos hBlank] at hc
          exact ih hc
      | false =>
          rw [List.dropWhile_cons_of_neg (by simp [hBlank]),
            List.head?_cons, Option.some.injEq] at hc
          rw [← hc]
          exact hBlank

theorem trimEnd_isPrefix (t : Text) :
    trimEnd t <+: t := by
  have h : trimStart t.reverse <:+ t.reverse :=
    List.dropWhile_suffix isBlank
  rw [← List.reverse_prefix] at h
  simpa [trimEnd, trimStart] using h

/- A part at the beginning begins as the whole text does. -/
theorem FirstVisible.of_isPrefix
    {s t : Text}
    (hPrefix : s <+: t)
    (h : FirstVisible t) :
    FirstVisible s := by
  intro c hc
  rcases hPrefix with ⟨rest, rfl⟩
  apply h
  rw [List.head?_append, hc]
  rfl

------------------------------------------------------------
-- Trimming
------------------------------------------------------------

/- Trimming removes nothing from a trimmed text. -/
theorem trim_of_isTrimmed
    {t : Text}
    (h : IsTrimmed t) :
    trim t = t := by
  have hLast := trimStart_of_firstVisible h.last
  rw [trim, trimStart_of_firstVisible h.first]
  simpa [trimEnd, trimStart] using congrArg List.reverse hLast

/- The result of trimming is trimmed. -/
theorem isTrimmed_trim (t : Text) : IsTrimmed (trim t) where
  first :=
    (firstVisible_trimStart t).of_isPrefix
      (trimEnd_isPrefix (trimStart t))
  last := by
    have h := firstVisible_trimStart (trimStart t).reverse
    simpa [trim, trimEnd, trimStart] using h

theorem mem_of_mem_trim
    {t : Text}
    {c : Char}
    (h : c ∈ trim t) :
    c ∈ t := by
  have hStart := (trimEnd_isPrefix (trimStart t)).subset h
  exact (List.dropWhile_suffix isBlank).subset hStart

/- A character that is no blank is not trimmed away. -/
theorem trim_ne_nil_of_mem
    {t : Text}
    {c : Char}
    (hMem : c ∈ t)
    (hc : isBlank c = false) :
    trim t ≠ [] := by
  intro hNil
  have hEnd :
      ∀ d ∈ (trimStart t).reverse, isBlank d = true := by
    rw [← List.dropWhile_eq_nil_iff]
    simpa [trim, trimEnd] using hNil
  have hStart : trimStart t = [] := by
    have h := firstVisible_trimStart t
    cases hShape : trimStart t with
    | nil => rfl
    | cons d ds =>
        rw [hShape] at h hEnd
        have hVisible := firstVisible_cons_iff.mp h
        rw [hEnd d (by simp)] at hVisible
        exact absurd hVisible (by decide)
  have hAll := List.dropWhile_eq_nil_iff.mp hStart c hMem
  rw [hc] at hAll
  exact absurd hAll (by decide)

theorem eq_nil_of_trim_eq_nil
    {t : Text}
    (h : FirstVisible t)
    (hTrim : trim t = []) :
    t = [] := by
  cases t with
  | nil => rfl
  | cons c cs =>
      have hc := firstVisible_cons_iff.mp h
      exact absurd hTrim
        (trim_ne_nil_of_mem List.mem_cons_self hc)

theorem eq_nil_of_trim_eq_nil_of_last
    {t : Text}
    (h : FirstVisible t.reverse)
    (hTrim : trim t = []) :
    t = [] := by
  cases hShape : t.reverse with
  | nil => simpa using hShape
  | cons c cs =>
      rw [hShape, firstVisible_cons_iff] at h
      have hMem : c ∈ t := by
        rw [← List.mem_reverse, hShape]
        exact List.mem_cons_self
      exact absurd hTrim (trim_ne_nil_of_mem hMem h)

------------------------------------------------------------
-- Joined Texts
------------------------------------------------------------

variable {sep : Char} {pieces : List Text}

/- A list whose first and last pieces are not empty. -/
structure EndsNonempty (pieces : List Text) : Prop where
  first : pieces.head? ≠ some []
  last : pieces.getLast? ≠ some []

theorem EndsNonempty.reverse
    (h : EndsNonempty pieces) :
    EndsNonempty pieces.reverse where
  first := by
    rw [List.head?_reverse]
    exact h.last
  last := by
    rw [List.getLast?_reverse]
    exact h.first

/- Ends stay as they are if none of them becomes empty. -/
theorem EndsNonempty.map
    {f : Text → Text}
    (h : EndsNonempty pieces)
    (hFirst :
      ∀ p, pieces.head? = some p → f p = [] → p = [])
    (hLast :
      ∀ p, pieces.getLast? = some p → f p = [] → p = []) :
    EndsNonempty (pieces.map f) where
  first := by
    rw [List.head?_map]
    intro hHead
    rcases Option.map_eq_some_iff.mp hHead with ⟨p, hp, hf⟩
    rw [hFirst p hp hf] at hp
    exact h.first hp
  last := by
    rw [List.getLast?_map]
    intro hEnd
    rcases Option.map_eq_some_iff.mp hEnd with ⟨p, hp, hf⟩
    rw [hLast p hp hf] at hp
    exact h.last hp

theorem firstVisible_join
    (hPieces : ∀ p ∈ pieces, FirstVisible p)
    (hSep : isBlank sep = true → pieces.head? ≠ some []) :
    FirstVisible (join sep pieces) := by
  intro c hc
  rcases head?_join_eq_some hc with
    ⟨p, hHead, hp⟩ | ⟨hHead, rfl⟩
  · exact hPieces p (List.mem_of_mem_head? hHead) c hp
  · cases hBlank : isBlank c with
    | false => rfl
    | true => exact absurd hHead (hSep hBlank)

/- Joined trimmed pieces are a trimmed text. -/
theorem isTrimmed_join
    (hPieces : ∀ p ∈ pieces, IsTrimmed p)
    (hSep : isBlank sep = true → EndsNonempty pieces) :
    IsTrimmed (join sep pieces) where
  first :=
    firstVisible_join (fun p hp => (hPieces p hp).first)
      fun hBlank => (hSep hBlank).first
  last := by
    rw [reverse_join]
    apply firstVisible_join
    · intro p hp
      rw [List.mem_reverse, List.mem_map] at hp
      rcases hp with ⟨q, hq, rfl⟩
      exact (hPieces q hq).last
    · intro hBlank
      have hNil (p : Text) (h : p.reverse = []) : p = [] := by
        simpa using h
      have hEnds := (hSep hBlank).map
        (fun p _ => hNil p) (fun p _ => hNil p)
      exact hEnds.reverse.first

theorem head?_ne_nil_of_firstVisible_join
    (hBlank : isBlank sep = true)
    (hText : join sep pieces ≠ [])
    (h : FirstVisible (join sep pieces)) :
    pieces.head? ≠ some [] := by
  intro hHead
  have hJoin := head?_join_of_head?_nil sep hHead
  rcases hJoin with hNil | hFirst
  · exact hText hNil
  · have hVisible := h sep hFirst
    rw [hBlank] at hVisible
    exact absurd hVisible (by decide)

/-
  A trimmed text between blank separators begins and ends
  with a piece that is not empty.
-/
theorem endsNonempty_of_isTrimmed_join
    (hBlank : isBlank sep = true)
    (hText : join sep pieces ≠ [])
    (h : IsTrimmed (join sep pieces)) :
    EndsNonempty pieces where
  first :=
    head?_ne_nil_of_firstVisible_join hBlank hText h.first
  last := by
    have hLast := h.last
    rw [reverse_join] at hLast
    have hHead := head?_ne_nil_of_firstVisible_join hBlank
      (by rw [← reverse_join]; simpa using hText) hLast
    rw [List.head?_reverse, List.getLast?_map] at hHead
    intro hNil
    rw [hNil] at hHead
    exact hHead rfl

theorem FirstVisible.of_head?_join
    {p : Text}
    (hHead : pieces.head? = some p)
    (h : FirstVisible (join sep pieces)) :
    FirstVisible p := by
  intro c hc
  exact h c (head?_join_of_head?_some hHead hc)

/- Trimming its pieces does not empty the ends of such a text. -/
theorem endsNonempty_map_trim
    (hBlank : isBlank sep = true)
    (hText : join sep pieces ≠ [])
    (h : IsTrimmed (join sep pieces)) :
    EndsNonempty (pieces.map trim) := by
  apply (endsNonempty_of_isTrimmed_join hBlank hText h).map
  · intro p hp
    exact eq_nil_of_trim_eq_nil (h.first.of_head?_join hp)
  · intro p hp
    have hLast := h.last
    rw [reverse_join] at hLast
    apply eq_nil_of_trim_eq_nil_of_last
    apply hLast.of_head?_join
    rw [List.head?_reverse, List.getLast?_map, hp]
    rfl

end CodecChain.Text
