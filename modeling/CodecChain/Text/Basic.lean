/-
  This file defines the text on which everything else works.
  A text is the list of its characters, so that reading a text
  is recursion on a list; strings appear only where a text
  enters or leaves the program.

  Key definitions include:
    * `Text`
    * `Text.split`
    * `Text.join`
    * `Text.dropLineEnding`
-/

namespace CodecChain

------------------------------------------------------------
-- Texts
------------------------------------------------------------

/- A text is a finite sequence of Unicode characters. -/
abbrev Text :=
  List Char

namespace Text

/- The text of a string. -/
def ofString (s : String) : Text :=
  s.toList

/- The string of a text. -/
def asString (t : Text) : String :=
  String.ofList t

theorem asString_ofString (s : String) :
    asString (ofString s) = s := by
  simp [asString, ofString]

theorem ofString_asString (t : Text) :
    ofString (asString t) = t := by
  simp [asString, ofString]

------------------------------------------------------------
-- Splitting and Joining
------------------------------------------------------------

/-
  The pieces of a text between the occurrences of a
  separator. There is always at least one piece.
-/
def split (sep : Char) : Text → List Text
  | [] => [[]]
  | c :: cs =>
      if c = sep then
        [] :: split sep cs
      else
        (split sep cs).modifyHead (c :: ·)

/- The pieces of a list, with the separator between them. -/
def join (sep : Char) (pieces : List Text) : Text :=
  [sep].intercalate pieces

theorem split_ne_nil
    (sep : Char)
    (t : Text) :
    split sep t ≠ [] := by
  induction t with
  | nil =>
      simp [split]
  | cons c cs ih =>
      unfold split
      split
      · simp
      · simpa [List.modifyHead_eq_nil_iff] using ih

/- Joining the pieces of a text gives the text back. -/
theorem join_split
    (sep : Char)
    (t : Text) :
    join sep (split sep t) = t := by
  induction t with
  | nil =>
      simp [split, join, List.intercalate]
  | cons c cs ih =>
      have hne := split_ne_nil sep cs
      unfold split
      cases h : split sep cs with
      | nil => exact absurd h hne
      | cons p ps =>
          rw [h] at ih
          by_cases hc : c = sep
          · simp only [hc, if_true]
            simp only [join, List.intercalate] at ih ⊢
            simp [List.intersperse, ih]
          · simp only [hc, if_false, List.modifyHead]
            simp only [join, List.intercalate] at ih ⊢
            cases ps with
            | nil => simpa [List.intersperse] using ih
            | cons q qs => simpa [List.intersperse] using ih

------------------------------------------------------------
-- Line Endings
------------------------------------------------------------

/- A text without the given last character, if it has it. -/
def dropFinal
    (c : Char)
    (t : Text) : Text :=
  if t.getLast? = some c then t.dropLast else t

/-
  A text without the line ending it closes with: a line
  feed, and the carriage return before that line feed.
-/
def dropLineEnding (t : Text) : Text :=
  if t.getLast? = some '\n' then
    dropFinal '\r' t.dropLast
  else
    t

end Text

end CodecChain
