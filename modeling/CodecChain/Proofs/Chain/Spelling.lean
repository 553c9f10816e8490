import CodecChain.Proofs.Chain.Positions
import CodecChain.Proofs.Text.Trimmed

/-
  How tokens are spelled. A text is read as an instruction
  exactly if it spells it, and the text that undoes a token
  is read as the token that undoes it.

  Key definitions include:
    * `Instruction.Spelled`
    * `Token.undone`
    * `Token.canonical`

  Main statements:
    * `Token.read_eq_accepted_iff`
    * `Token.read_invertedToken`
    * `Token.isTrimmed_invertedToken`
    * `Token.mem_of_mem_invertedToken`
-/

------------------------------------------------------------
-- Spelled Instructions
------------------------------------------------------------

namespace CodecChain

namespace Instruction

/-
  The texts of an instruction. A tag is never empty, and what
  follows the selector of a protection is not looked at.
-/
def Spelled : Instruction → Text → Prop
  | encode tag, raw => tag ≠ [] ∧ raw = (encode tag).text
  | decode tag, raw => tag ≠ [] ∧ raw = (decode tag).text
  | protect, raw =>
      ∃ rest, raw = Operation.protect.selector :: rest

/- A spelled instruction can be undone, and is spelled so. -/
theorem Spelled.inverse
    {instruction : Instruction}
    {raw : Text}
    (h : instruction.Spelled raw) :
    instruction.inverse.Spelled instruction.inverse.text := by
  cases instruction with
  | encode tag => exact ⟨h.1, rfl⟩
  | decode tag => exact ⟨h.1, rfl⟩
  | protect => exact ⟨[], rfl⟩

end Instruction

namespace Token

theorem read_of_spelled
    {raw : Text}
    {instruction : Instruction}
    (position : Nat)
    (h : instruction.Spelled raw) :
    read position raw = accepted position raw instruction := by
  cases instruction with
  | encode tag =>
      rcases h with ⟨hTag, rfl⟩
      have hSelector :=
        Operation.ofSelector?_eq_some_iff.mpr
          (rfl : Operation.encode.selector = _)
      simp [read, Instruction.text, hSelector, hTag]
  | decode tag =>
      rcases h with ⟨hTag, rfl⟩
      have hSelector :=
        Operation.ofSelector?_eq_some_iff.mpr
          (rfl : Operation.decode.selector = _)
      simp [read, Instruction.text, hSelector, hTag]
  | protect =>
      rcases h with ⟨rest, rfl⟩
      have hSelector :=
        Operation.ofSelector?_eq_some_iff.mpr
          (rfl : Operation.protect.selector = _)
      simp [read, hSelector]

theorem spelled_of_read
    {position place : Nat}
    {raw written : Text}
    {instruction : Instruction}
    (h :
      read position raw = accepted place written instruction) :
    instruction.Spelled raw := by
  unfold read at h
  split at h
  · cases h
  · rename_i c tag
    split at h
    · cases h
    · rename_i hSelector
      cases h
      rw [Operation.ofSelector?_eq_some_iff] at hSelector
      exact ⟨tag, by rw [hSelector]⟩
    · rename_i hSelector
      rw [Operation.ofSelector?_eq_some_iff] at hSelector
      split at h
      · cases h
      · rename_i hTag
        cases h
        exact ⟨by simpa using hTag,
          by rw [Instruction.text, hSelector]⟩
    · rename_i hSelector
      rw [Operation.ofSelector?_eq_some_iff] at hSelector
      split at h
      · cases h
      · rename_i hTag
        cases h
        exact ⟨by simpa using hTag,
          by rw [Instruction.text, hSelector]⟩

/- A text is read as exactly the instruction that it spells. -/
theorem read_eq_accepted_iff
    {position : Nat}
    {raw : Text}
    {instruction : Instruction} :
    read position raw = accepted position raw instruction ↔
      instruction.Spelled raw :=
  ⟨spelled_of_read, read_of_spelled position⟩

end Token

end CodecChain

------------------------------------------------------------
-- Undone Tokens
------------------------------------------------------------

namespace CodecChain

namespace Token

/- The token that undoes a token, at the same position. -/
def undone : Token → Token
  | accepted position _ instruction =>
      accepted position instruction.inverse.text
        instruction.inverse
  | rejected position raw cause => rejected position raw cause

/- The text of what a token means. -/
def canonical : Token → Text
  | accepted _ _ instruction => instruction.text
  | rejected _ raw _ => raw

@[simp]
theorem undone_placed
    (position : Nat)
    (token : Token) :
    (token.placed position).undone =
      token.undone.placed position := by
  cases token <;> rfl

@[simp]
theorem canonical_placed
    (position : Nat)
    (token : Token) :
    (token.placed position).canonical = token.canonical := by
  cases token <;> rfl

@[simp]
theorem invertedToken_placed
    (position : Nat)
    (token : Token) :
    Chain.invertedToken (token.placed position) =
      Chain.invertedToken token := by
  cases token <;> rfl

theorem canonical_undone (token : Token) :
    token.undone.canonical = Chain.invertedToken token := by
  cases token <;> rfl

theorem invertedToken_undone (token : Token) :
    Chain.invertedToken token.undone = token.canonical := by
  cases token with
  | accepted position raw instruction =>
      simp [undone, canonical, Chain.invertedToken,
        Instruction.inverse_inverse]
  | rejected position raw cause => rfl

/- The text that undoes a token is read as what undoes it. -/
theorem read_invertedToken
    (position : Nat)
    (raw : Text) :
    read position (Chain.invertedToken (read position raw)) =
      (read position raw).undone := by
  have hPosition := position_read position raw
  cases hRead : read position raw with
  | accepted place written instruction =>
      rw [hRead, Token.position] at hPosition
      rw [hPosition]
      exact read_of_spelled position
        (spelled_of_read hRead).inverse
  | rejected place written cause =>
      have hWritten := raw_read position raw
      rw [hRead] at hWritten
      simpa [Chain.invertedToken, undone, ← hWritten,
        Token.raw] using hRead

theorem eq_nil_of_invertedToken_eq_nil
    {position : Nat}
    {raw : Text}
    (h : Chain.invertedToken (read position raw) = []) :
    raw = [] := by
  have hUndone := read_invertedToken position raw
  have hRaw := raw_read position raw
  rw [h] at hUndone
  cases hRead : read position raw with
  | accepted place written instruction =>
      rw [hRead] at hUndone
      cases hUndone
  | rejected place written cause =>
      rw [hRead] at h hRaw
      exact hRaw.symm.trans h

theorem isBlank_selector (operation : Operation) :
    Text.isBlank operation.selector = false := by
  cases operation <;> decide

/-
  What undoes a trimmed token is trimmed: it begins with a
  selector and ends as the token does.
-/
theorem isTrimmed_invertedToken
    {raw : Text}
    (position : Nat)
    (h : Text.IsTrimmed raw) :
    Text.IsTrimmed
      (Chain.invertedToken (read position raw)) := by
  cases hRead : read position raw with
  | accepted place written instruction =>
      have hSpelled := spelled_of_read hRead
      cases instruction with
      | encode tag =>
          rcases hSpelled with ⟨hTag, rfl⟩
          have hLast := ((Text.isTrimmed_cons_iff hTag).mp h).2
          exact (Text.isTrimmed_cons_iff hTag).mpr
            ⟨isBlank_selector .decode, hLast⟩
      | decode tag =>
          rcases hSpelled with ⟨hTag, rfl⟩
          have hLast := ((Text.isTrimmed_cons_iff hTag).mp h).2
          exact (Text.isTrimmed_cons_iff hTag).mpr
            ⟨isBlank_selector .encode, hLast⟩
      | protect =>
          exact Text.isTrimmed_singleton
            (isBlank_selector .protect)
  | rejected place written cause =>
      have hWritten := raw_read position raw
      rw [hRead] at hWritten
      rw [← hWritten] at h
      exact h

/-
  Apart from the two selectors that are exchanged, what
  undoes a token holds only what the token holds.
-/
theorem mem_of_mem_invertedToken
    {position : Nat}
    {raw : Text}
    {c : Char}
    (h : c ∈ Chain.invertedToken (read position raw))
    (hEncode : c ≠ Operation.encode.selector)
    (hDecode : c ≠ Operation.decode.selector) :
    c ∈ raw := by
  cases hRead : read position raw with
  | accepted place written instruction =>
      have hSpelled := spelled_of_read hRead
      rw [hRead] at h
      cases instruction with
      | encode tag =>
          rcases hSpelled with ⟨-, rfl⟩
          rcases List.mem_cons.mp h with hHead | hTag
          · exact absurd hHead hDecode
          · exact List.mem_cons_of_mem _ hTag
      | decode tag =>
          rcases hSpelled with ⟨-, rfl⟩
          rcases List.mem_cons.mp h with hHead | hTag
          · exact absurd hHead hEncode
          · exact List.mem_cons_of_mem _ hTag
      | protect =>
          rcases hSpelled with ⟨rest, rfl⟩
          rw [List.mem_singleton.mp h]
          exact List.mem_cons_self
  | rejected place written cause =>
      have hWritten := raw_read position raw
      rw [hRead] at h hWritten
      rw [← hWritten]
      exact h

end Token

end CodecChain
