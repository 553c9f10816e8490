import CodecChain.Yaml.Character

/-
  This file defines what becomes of white space within
  scalars that go over several lines.

  Key definitions include:
    * `Yaml.foldBreaks`
    * `Yaml.foldGap`

  Main statements:
    * `foldGap_of_unbroken`: white space on one line stays.
-/

namespace CodecChain.Yaml

------------------------------------------------------------
-- Folding
------------------------------------------------------------

/-
  What line breaks come to. A line feed alone is a blank, and
  before other breaks it does not count; a separator of lines
  or paragraphs always stays.
-/
def foldBreaks : Text → Text
  | [] => []
  | b :: breaks =>
      if b ≠ '\n' then b :: breaks
      else if breaks = [] then [' ']
      else breaks

/- What white space between two words comes to. -/
def foldGap (gap : Text) : Text :=
  let breaks := gap.filter isBreak
  if breaks = [] then gap else foldBreaks breaks

/- White space on one line stays as it is. -/
theorem foldGap_of_unbroken
    {gap : Text}
    (h : gap.filter isBreak = []) :
    foldGap gap = gap := by
  simp only [foldGap]
  rw [if_pos h]

end CodecChain.Yaml
