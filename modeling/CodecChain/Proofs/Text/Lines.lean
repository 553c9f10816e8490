import CodecChain.Host.Machine
import CodecChain.Proofs.Text.Utf8
import CodecChain.Run.Console

/-
  The lines of a text. A text is cut behind each line feed in
  one way only, and reading an input line by line gives the
  bytes of these lines. Two ways to take the line ending off a
  line differ on lines that end in a carriage return.

  Key definitions include:
    * `Text.lines`
    * `Text.AreLines`
    * `Text.entered`

  Main statements:
    * `Text.lines_eq_iff`
    * `Text.entered_eq_dropLineEnding_iff`
    * `Machine.takeLine_encode_flatten`
-/

------------------------------------------------------------
-- Lines
------------------------------------------------------------

namespace CodecChain

namespace Text

variable {t line : Text} {ls rest : List Text}

/- The lines of a text, with the line feeds that end them. -/
def lines : Text → List Text
  | [] => []
  | c :: t =>
      if c = '\n' then
        ['\n'] :: lines t
      else
        match lines t with
        | [] => [[c]]
        | line :: rest => (c :: line) :: rest

/-
  Texts that end with their only line feed. The last one may
  have none, but is not empty then.
-/
inductive AreLines : List Text → Prop where
  | nil :
      AreLines []
  | last
      {line : Text}
      (hSome : line ≠ [])
      (hFeed : '\n' ∉ line) :
      AreLines [line]
  | cons
      {body : Text}
      {rest : List Text}
      (hFeed : '\n' ∉ body)
      (hRest : AreLines rest) :
      AreLines ((body ++ ['\n']) :: rest)

theorem AreLines.ne_nil
    (h : AreLines (line :: rest)) :
    line ≠ [] := by
  cases h with
  | last hSome => exact hSome
  | cons => simp

theorem AreLines.tail
    (h : AreLines (line :: rest)) :
    AreLines rest := by
  cases h with
  | last => exact .nil
  | cons _ hRest => exact hRest

theorem AreLines.of_append
    {front : List Text}
    (h : AreLines (front ++ ls)) :
    AreLines ls := by
  induction front with
  | nil => exact h
  | cons line front ih => exact ih h.tail

/- Only the last line can be without a line feed. -/
theorem AreLines.getLast?_eq
    (h : AreLines ls)
    (hLine : line ∈ ls)
    (hFeed : line.getLast? ≠ some '\n') :
    ls.getLast? = some line := by
  induction h with
  | nil => cases hLine
  | last =>
      rw [List.mem_singleton.mp hLine, List.getLast?_singleton]
  | @cons body rest _ _ ih =>
      rcases List.mem_cons.mp hLine with rfl | hRest
      · simp at hFeed
      · rw [List.getLast?_cons_of_ne_nil
          (List.ne_nil_of_mem hRest), ih hRest]

theorem lines_eq_singleton
    (hSome : t ≠ [])
    (hFeed : '\n' ∉ t) :
    lines t = [t] := by
  induction t with
  | nil => exact absurd rfl hSome
  | cons c t ih =>
      rw [List.mem_cons, not_or] at hFeed
      rw [lines, if_neg (Ne.symm hFeed.1)]
      cases t with
      | nil => rfl
      | cons d t => rw [ih (List.cons_ne_nil d t) hFeed.2]

theorem lines_append_feed
    {body : Text}
    (t : Text)
    (hFeed : '\n' ∉ body) :
    lines (body ++ '\n' :: t) = (body ++ ['\n']) :: lines t := by
  induction body with
  | nil => rfl
  | cons c body ih =>
      rw [List.mem_cons, not_or] at hFeed
      rw [List.cons_append, lines, if_neg (Ne.symm hFeed.1),
        ih hFeed.2]
      rfl

theorem AreLines.lines_flatten
    (h : AreLines ls) :
    lines ls.flatten = ls := by
  induction h with
  | nil => rfl
  | @last line hSome hFeed =>
      rw [List.flatten_singleton]
      exact lines_eq_singleton hSome hFeed
  | @cons body rest hFeed _ ih =>
      rw [List.flatten_cons, List.append_assoc,
        List.singleton_append, lines_append_feed _ hFeed, ih]

theorem areLines_lines (t : Text) :
    AreLines (lines t) := by
  induction t with
  | nil => exact .nil
  | cons c t ih =>
      unfold lines
      by_cases hc : c = '\n'
      · rw [if_pos hc]
        exact @AreLines.cons [] _ List.not_mem_nil ih
      rw [if_neg hc]
      have hFirst {s : Text} (hFeed : '\n' ∉ s) :
          '\n' ∉ c :: s := by
        rw [List.mem_cons, not_or]
        exact ⟨Ne.symm hc, hFeed⟩
      cases hLines : lines t with
      | nil =>
          exact .last (List.cons_ne_nil c [])
            (hFirst List.not_mem_nil)
      | cons line rest =>
          rw [hLines] at ih
          cases ih with
          | last _ hFeed =>
              exact .last (List.cons_ne_nil c line)
                (hFirst hFeed)
          | cons hFeed hRest => exact .cons (hFirst hFeed) hRest

@[simp] theorem flatten_lines (t : Text) :
    (lines t).flatten = t := by
  induction t with
  | nil => rfl
  | cons c t ih =>
      unfold lines
      by_cases hc : c = '\n'
      · rw [if_pos hc, List.flatten_cons, ih, hc]
        rfl
      · rw [if_neg hc]
        cases hLines : lines t with
        | nil =>
            rw [hLines] at ih
            rw [← ih]
            rfl
        | cons line rest =>
            rw [hLines] at ih
            rw [← ih]
            rfl

/- A text is cut into lines in one way. -/
theorem lines_eq_iff :
    lines t = ls ↔ AreLines ls ∧ ls.flatten = t := by
  constructor
  · rintro rfl
    exact ⟨areLines_lines t, flatten_lines t⟩
  · rintro ⟨hLines, rfl⟩
    exact hLines.lines_flatten

------------------------------------------------------------
-- Line Endings
------------------------------------------------------------

/-
  A line as it is entered: without a line feed at its end, and
  then without a carriage return at its end.
-/
def entered (line : Text) : Text :=
  dropFinal '\r' (dropFinal '\n' line)

/- With a line feed, the line ending is what is left out. -/
theorem entered_append_feed (body : Text) :
    entered (body ++ ['\n']) =
      dropLineEnding (body ++ ['\n']) := by
  simp [entered, dropLineEnding, dropFinal]

/-
  A carriage return that no line feed follows is no line
  ending, but it is left out all the same.
-/
theorem entered_append_return (body : Text) :
    entered (body ++ ['\r']) = body ∧
      dropLineEnding (body ++ ['\r']) = body ++ ['\r'] := by
  simp [entered, dropLineEnding, dropFinal]

theorem entered_eq_dropLineEnding_iff :
    entered line = dropLineEnding line ↔
      line.getLast? ≠ some '\r' := by
  rcases List.eq_nil_or_concat line with rfl | ⟨body, c, rfl⟩
  · decide
  by_cases hFeed : c = '\n'
  · subst hFeed
    simp [entered_append_feed]
  by_cases hReturn : c = '\r'
  · subst hReturn
    simp [entered_append_return]
  · simp [entered, dropLineEnding, dropFinal, hFeed, hReturn]

end Text

end CodecChain

------------------------------------------------------------
-- Inputs
------------------------------------------------------------

namespace CodecChain

namespace Utf8

theorem notMem_encode_of_notMem
    {t : Text}
    (h : '\n' ∉ t) :
    0x0a ∉ encode t := by
  intro hMem
  rcases List.mem_flatMap.mp hMem with ⟨c, hc, hByte⟩
  have hCode := toNat_eq_of_mem_encodeChar hByte (by decide)
  have hFeed : c = '\n' := Char.toNat_inj.mp hCode
  rw [hFeed] at hc
  exact h hc

end Utf8

namespace Machine

variable {bytes front : List UInt8} {line : Text}
variable {rest : List Text}

theorem takeLine_of_notMem
    (h : 0x0a ∉ bytes) :
    takeLine bytes = (bytes, []) := by
  induction bytes with
  | nil => rfl
  | cons b bytes ih =>
      rw [List.mem_cons, not_or] at h
      rw [takeLine, if_neg (Ne.symm h.1), ih h.2]

theorem takeLine_append_feed
    (bytes : List UInt8)
    (h : 0x0a ∉ front) :
    takeLine (front ++ 0x0a :: bytes) =
      (front ++ [0x0a], bytes) := by
  induction front with
  | nil => rfl
  | cons b front ih =>
      rw [List.mem_cons, not_or] at h
      rw [List.cons_append, takeLine, if_neg (Ne.symm h.1),
        ih h.2]
      rfl

/- The first line that is taken is the first line. -/
theorem takeLine_encode_flatten
    (h : Text.AreLines (line :: rest)) :
    takeLine (Utf8.encode (line :: rest).flatten) =
      (Utf8.encode line, Utf8.encode rest.flatten) := by
  have hByte : Utf8.encode ['\n'] = [0x0a] := rfl
  cases h with
  | last hSome hFeed =>
      rw [List.flatten_singleton]
      exact takeLine_of_notMem
        (Utf8.notMem_encode_of_notMem hFeed)
  | @cons body rest hFeed hRest =>
      rw [List.flatten_cons, Utf8.encode_append,
        Utf8.encode_append, hByte, List.append_assoc,
        List.singleton_append]
      exact takeLine_append_feed _
        (Utf8.notMem_encode_of_notMem hFeed)

end Machine

end CodecChain
