import CodecChain.Deflate.Code
import CodecChain.Proofs.Deflate.Bits

/-
  Words of prefix-free codes. Where the word of a symbol comes
  next, that symbol is read, and nothing more than the word is
  taken.

  Key definitions include:
    * `Deflate.Code.symbols`

  Main statements:
    * `Deflate.Tree.read_of_gives`
    * `Deflate.Code.read_of_gives`
-/

namespace CodecChain

namespace Deflate

variable {s s' : Bits} {symbol : Nat} {bits : List Bool}

namespace Tree

/- The symbols that have a word, from left to right. -/
def symbols : Tree → List Nat
  | vacant => []
  | leaf symbol => [symbol]
  | node zero one => zero.symbols ++ one.symbols

theorem isSome_word?_iff {tree : Tree} :
    (tree.word? symbol).isSome ↔ symbol ∈ tree.symbols := by
  induction tree with
  | vacant => simp [word?, symbols]
  | leaf other =>
      by_cases hSame : other = symbol
      · simp [word?, symbols, hSame]
      · simp [word?, symbols, hSame, Ne.symm hSame]
  | node zero one ihZero ihOne =>
      rw [symbols, List.mem_append, ← ihZero, ← ihOne, word?]
      cases zero.word? symbol with
      | none => simp
      | some bits => simp

/- A word leads through the tree to its symbol. -/
theorem read_of_gives
    {tree : Tree}
    (stray : Reader Nat)
    (hWord : tree.word? symbol = some bits)
    (h : s.Gives bits s') :
    tree.read stray s = .ok (symbol, s') := by
  induction tree generalizing bits s with
  | vacant => cases hWord
  | leaf other =>
      rw [word?] at hWord
      split at hWord
      · rename_i hSame
        cases hWord
        cases h
        rw [hSame]
        rfl
      · cases hWord
  | node zero one ihZero ihOne =>
      rw [word?] at hWord
      cases hZero : zero.word? symbol with
      | some later =>
          rw [hZero] at hWord
          cases hWord
          rcases nextBit_of_gives h with ⟨s₁, hFirst, hRest⟩
          rw [read, bind_of_ok _ hFirst]
          exact ihZero hZero hRest
      | none =>
          rw [hZero] at hWord
          rcases Option.map_eq_some_iff.mp hWord with
            ⟨later, hOne, rfl⟩
          rcases nextBit_of_gives h with ⟨s₁, hFirst, hRest⟩
          rw [read, bind_of_ok _ hFirst]
          exact ihOne hOne hRest

end Tree

namespace Code

/- The symbols that have a word, from left to right. -/
def symbols (code : Code) : List Nat :=
  code.zero.symbols ++ code.one.symbols

theorem word_ne_nil_of_mem
    {code : Code}
    (h : symbol ∈ code.symbols) :
    code.word symbol ≠ [] := by
  rw [symbols, List.mem_append, ← Tree.isSome_word?_iff,
    ← Tree.isSome_word?_iff] at h
  unfold word
  cases hZero : code.zero.word? symbol with
  | some bits => exact List.cons_ne_nil false bits
  | none =>
      cases hOne : code.one.word? symbol with
      | some bits => exact List.cons_ne_nil true bits
      | none => simp [hZero, hOne] at h

/- A symbol is read where its word is given. -/
theorem read_of_gives
    {code : Code}
    (hWord : code.word symbol ≠ [])
    (h : s.Gives (code.word symbol) s') :
    code.read s = .ok (symbol, s') := by
  unfold word at hWord h
  cases hZero : code.zero.word? symbol with
  | some later =>
      rw [hZero] at h
      rcases nextBit_of_gives h with ⟨s₁, hFirst, hRest⟩
      rw [read, bind_of_ok _ hFirst]
      exact Tree.read_of_gives (stray s) hZero hRest
  | none =>
      cases hOne : code.one.word? symbol with
      | some later =>
          rw [hZero, hOne] at h
          rcases nextBit_of_gives h with ⟨s₁, hFirst, hRest⟩
          rw [read, bind_of_ok _ hFirst]
          exact Tree.read_of_gives (stray s) hOne hRest
      | none =>
          rw [hZero, hOne] at hWord
          exact absurd rfl hWord

end Code

end Deflate

end CodecChain
