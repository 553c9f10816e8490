import CodecChain.Deflate.Bits

/-
  This file defines prefix-free codes as binary trees. A code
  is given by the lengths of its words: shorter words come
  first, words of one length in the order of their symbols,
  and each word is the next free one of its length.

  Key definitions include:
    * `Deflate.Tree`
    * `Deflate.Code`
    * `Deflate.Code.ofLengths?`
    * `Deflate.Code.read`
    * `Deflate.Code.word`

  Main statements:
    * `Code.read_uses`: reading a symbol takes a bit.
-/

namespace CodecChain.Deflate

------------------------------------------------------------
-- Trees
------------------------------------------------------------

/- A tree of words, with vacant places where no word ends. -/
inductive Tree where
  | vacant
  | leaf (symbol : Nat)
  | node (zero one : Tree)
deriving DecidableEq, Repr

namespace Tree

/- A tree without vacant places. -/
def isFull : Tree → Bool
  | vacant => false
  | leaf _ => true
  | node zero one => zero.isFull && one.isFull

/-
  Hang words into a tree whose root lies at the given depth,
  from left to right, as far as they find a place. The words
  are pairs of length and symbol, in ascending order; those
  that find none are handed back. The first argument bounds
  the levels below the root.
-/
def grow : Nat → Nat → List (Nat × Nat) → Tree × List (Nat × Nat)
  | _, _, [] => (vacant, [])
  | levels, depth, (length, symbol) :: words =>
      if length ≤ depth then
        (leaf symbol, words)
      else
        match levels with
        | 0 => (vacant, (length, symbol) :: words)
        | levels + 1 =>
            let (zero, rest) :=
              grow levels (depth + 1) ((length, symbol) :: words)
            let (one, rest) := grow levels (depth + 1) rest
            (node zero one, rest)

/- The word of a symbol, if it is in the tree. -/
def word? (symbol : Nat) : Tree → Option (List Bool)
  | vacant => none
  | leaf s => if s = symbol then some [] else none
  | node zero one =>
      match zero.word? symbol with
      | some bits => some (false :: bits)
      | none => (one.word? symbol).map (true :: ·)

/-
  Follow the bits to a symbol. At a vacant place the given
  reader decides.
-/
def read (stray : Reader Nat) : Tree → Reader Nat
  | vacant => stray
  | leaf symbol => pure symbol
  | node zero one => do
      let bit ← nextBit
      if bit then one.read stray else zero.read stray

theorem read_uses
    {stray : Reader Nat}
    (hStray : stray.Uses 0)
    (tree : Tree) :
    (tree.read stray).Uses 0 := by
  induction tree with
  | vacant => exact hStray
  | leaf symbol => exact Reader.uses_pure symbol
  | node zero one ihZero ihOne =>
      have h := nextBit_uses.bind fun bit =>
        (show Reader.Uses 0
            (if bit then one.read stray else zero.read stray) by
          cases bit
          · exact ihZero
          · exact ihOne)
      exact h.mono (by omega)

end Tree

------------------------------------------------------------
-- Codes
------------------------------------------------------------

/- A code branches at its first bit, so no word is empty. -/
structure Code where
  zero : Tree
  one : Tree
deriving DecidableEq, Repr

/- The longest word of any code. -/
def longestWord : Nat :=
  15

namespace Code

/-
  The words of a code that is given by the length of each
  symbol's word, zero for a symbol without one: pairs of
  length and symbol in ascending order.
-/
def wordsOf (lengths : List Nat) : List (Nat × Nat) :=
  (List.range longestWord).flatMap fun l =>
    lengths.zipIdx.filter fun word => word.1 = l + 1

/-
  The code with the given lengths, and the words that find
  no place in it.
-/
def build (lengths : List Nat) : Code × List (Nat × Nat) :=
  let (zero, rest) := Tree.grow longestWord 1 (wordsOf lengths)
  let (one, rest) := Tree.grow longestWord 1 rest
  (⟨zero, one⟩, rest)

/- A code in which every sequence of bits is made of words. -/
def isFull (code : Code) : Bool :=
  code.zero.isFull && code.one.isFull

/- A code of at most one word. -/
def isSparse (lengths : List Nat) : Bool :=
  match wordsOf lengths with
  | [] => true
  | [(length, _)] => length = 1
  | _ => false

/-
  The code with the given lengths, if they fit together:
  every word finds its place, and no place is left vacant. A
  code of at most one word may be let off the second rule.
-/
def ofLengths?
    (allowSparse : Bool)
    (lengths : List Nat) : Option Code :=
  match build lengths with
  | (code, []) =>
      if code.isFull || (allowSparse && isSparse lengths) then
        some code
      else
        none
  | (_, _ :: _) => none

/- The word of a symbol. A symbol without one has no bits. -/
def word
    (code : Code)
    (symbol : Nat) : List Bool :=
  match code.zero.word? symbol, code.one.word? symbol with
  | some bits, _ => false :: bits
  | none, some bits => true :: bits
  | none, none => []

/-
  Bits that are no word are corrupt if as many bits are there
  as the longest word has; with fewer, the word may be cut
  short by the end of the input.
-/
def stray (start : Bits) : Reader Nat :=
  fun _ =>
    if start.size < longestWord then
      .error .incomplete
    else
      .error .corrupt

/- Take the symbol of a word. -/
def read (code : Code) : Reader Nat :=
  fun start =>
    (do
      let bit ← nextBit
      if bit then
        code.one.read (stray start)
      else
        code.zero.read (stray start) : Reader Nat) start

theorem read_uses (code : Code) : code.read.Uses 1 := by
  intro s a s' h
  have hStray : (stray s).Uses 0 := by
    intro t b t' ht
    unfold stray at ht
    split at ht <;> simp at ht
  have hRead := nextBit_uses.bind fun bit =>
    (show Reader.Uses 0
        (if bit then code.one.read (stray s)
          else code.zero.read (stray s)) by
      cases bit
      · exact Tree.read_uses hStray code.zero
      · exact Tree.read_uses hStray code.one)
  exact hRead s a s' h

end Code

end CodecChain.Deflate
