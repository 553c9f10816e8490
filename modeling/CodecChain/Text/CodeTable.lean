import CodecChain.Text.Basic

/-
  This file defines tables of code point ranges, the form in
  which the properties of characters are written down.

  Key definitions include:
    * `CodeTable`
    * `CodeTable.contains`
-/

namespace CodecChain

/-
  A character property as the list of its ranges, each given
  by its first and its last code point, in ascending order.
-/
abbrev CodeTable :=
  List (Nat × Nat)

namespace CodeTable

/- A character has the property when some range holds it. -/
def contains
    (table : CodeTable)
    (c : Char) : Bool :=
  table.any fun range =>
    range.1 ≤ c.toNat && c.toNat ≤ range.2

theorem contains_iff
    (table : CodeTable)
    (c : Char) :
    table.contains c = true ↔
      ∃ range ∈ table,
        range.1 ≤ c.toNat ∧ c.toNat ≤ range.2 := by
  simp [contains]

end CodeTable

end CodecChain
