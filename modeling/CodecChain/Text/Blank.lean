import CodecChain.Text.CodeTable

/-
  This file defines white space and the removal of white
  space from the two ends of a text.

  Main statements:
    * `trimStart_append_of_blank`: blanks put before a text
      are removed with its own.
    * `trimEnd_append_of_blank`: the same for blanks put
      after a text.
-/

namespace CodecChain.Text

------------------------------------------------------------
-- White Space
------------------------------------------------------------

/- The Unicode property White_Space. -/
def blankTable : CodeTable :=
  [(0x09, 0x0d), (0x20, 0x20), (0x85, 0x85), (0xa0, 0xa0),
   (0x1680, 0x1680), (0x2000, 0x200a), (0x2028, 0x2029),
   (0x202f, 0x202f), (0x205f, 0x205f), (0x3000, 0x3000)]

/- A blank is a character of the property White_Space. -/
def isBlank (c : Char) : Bool :=
  blankTable.contains c

------------------------------------------------------------
-- Trimming
------------------------------------------------------------

/- A text without the blanks it begins with. -/
def trimStart (t : Text) : Text :=
  t.dropWhile isBlank

/- A text without the blanks it ends with. -/
def trimEnd (t : Text) : Text :=
  (t.reverse.dropWhile isBlank).reverse

/- A text without the blanks at its two ends. -/
def trim (t : Text) : Text :=
  trimEnd (trimStart t)

theorem trimStart_append_of_blank
    {pad t : Text}
    (hPad : ∀ c ∈ pad, isBlank c = true) :
    trimStart (pad ++ t) = trimStart t := by
  unfold trimStart
  induction pad with
  | nil => rfl
  | cons c cs ih =>
      have hc : isBlank c = true := hPad c (by simp)
      have hcs : ∀ d ∈ cs, isBlank d = true := by
        intro d hd
        exact hPad d (by simp [hd])
      simpa [hc] using ih hcs

theorem trimEnd_append_of_blank
    {t pad : Text}
    (hPad : ∀ c ∈ pad, isBlank c = true) :
    trimEnd (t ++ pad) = trimEnd t := by
  unfold trimEnd
  have h :
      trimStart (pad.reverse ++ t.reverse) =
        trimStart t.reverse :=
    trimStart_append_of_blank (by simpa using hPad)
  simpa [trimStart] using congrArg List.reverse h

end CodecChain.Text
