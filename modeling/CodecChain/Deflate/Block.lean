import CodecChain.Deflate.Code
import CodecChain.Deflate.Item

/-
  This file defines the three kinds of blocks that compressed
  data consists of, and the reading of one block: stored
  bytes, items under the fixed codes, and items under codes
  that the block declares itself.

  Key definitions include:
    * `Deflate.lengthTable`
    * `Deflate.distanceTable`
    * `Deflate.Codes`
    * `Deflate.Codes.fixed`
    * `Deflate.Codes.readItem`
    * `Deflate.readItems`
    * `Deflate.readStored`
    * `Deflate.readCodes`
    * `Deflate.readBlock`

  Main statements:
    * `Codes.readItem_uses`: an item takes at least a bit.
    * `readBlock_uses`: a block takes at least three bits.
-/

namespace CodecChain.Deflate

------------------------------------------------------------
-- Lengths and Distances
------------------------------------------------------------

/-
  The least length of each length symbol from 257 on, and the
  width of the number that is added to it.
-/
def lengthTable : List (Nat × Nat) :=
  [(3, 0), (4, 0), (5, 0), (6, 0), (7, 0), (8, 0), (9, 0),
   (10, 0), (11, 1), (13, 1), (15, 1), (17, 1), (19, 2),
   (23, 2), (27, 2), (31, 2), (35, 3), (43, 3), (51, 3),
   (59, 3), (67, 4), (83, 4), (99, 4), (115, 4), (131, 5),
   (163, 5), (195, 5), (227, 5), (258, 0)]

/-
  The least distance of each distance symbol, and the width
  of the number that is added to it.
-/
def distanceTable : List (Nat × Nat) :=
  [(1, 0), (2, 0), (3, 0), (4, 0), (5, 1), (7, 1), (9, 2),
   (13, 2), (17, 3), (25, 3), (33, 4), (49, 4), (65, 5),
   (97, 5), (129, 6), (193, 6), (257, 7), (385, 7), (513, 8),
   (769, 8), (1025, 9), (1537, 9), (2049, 10), (3073, 10),
   (4097, 11), (6145, 11), (8193, 12), (12289, 12),
   (16385, 13), (24577, 13)]

/- The symbol that ends a block. -/
def endOfBlock : Nat :=
  256

/- The first symbol of a length. -/
def firstLength : Nat :=
  257

/- Take the number that an entry of a table describes. -/
def readEntry (entry : Option (Nat × Nat)) : Reader Nat :=
  match entry with
  | none => fail .corrupt
  | some (least, width) => do
      let more ← number width
      pure (least + more)

theorem readEntry_uses (entry : Option (Nat × Nat)) :
    (readEntry entry).Uses 0 := by
  cases entry with
  | none => exact Reader.uses_fail .corrupt 0
  | some e =>
      exact ((number_uses e.2).mono (by omega)).seq fun more =>
        Reader.uses_pure (e.1 + more)

------------------------------------------------------------
-- Items of a Block
------------------------------------------------------------

/- The codes of a block with codes. -/
structure Codes where
  literals : Code
  distances : Code

namespace Codes

/- The word lengths of the fixed literal and length code. -/
def fixedLengths : List Nat :=
  List.replicate 144 8 ++ List.replicate 112 9 ++
    List.replicate 24 7 ++ List.replicate 8 8

/- The codes of blocks that do not declare any. -/
def fixed : Codes where
  literals := (Code.build fixedLengths).1
  distances := (Code.build (List.replicate 32 5)).1

/- Take an item, or the end of the block. -/
def readItem (codes : Codes) : Reader (Option Item) := do
  let symbol ← codes.literals.read
  if symbol < endOfBlock then
    pure (some (.literal (UInt8.ofNat symbol)))
  else if symbol = endOfBlock then
    pure none
  else do
    let length ← readEntry lengthTable[symbol - firstLength]?
    let far ← codes.distances.read
    let distance ← readEntry distanceTable[far]?
    pure (some (.copy length distance))

/- An item takes at least a bit. -/
theorem readItem_uses (codes : Codes) :
    codes.readItem.Uses 1 := by
  apply (Code.read_uses codes.literals).seq
  intro symbol
  by_cases hLiteral : symbol < endOfBlock
  · rw [if_pos hLiteral]
    exact Reader.uses_pure _
  · rw [if_neg hLiteral]
    by_cases hEnd : symbol = endOfBlock
    · rw [if_pos hEnd]
      exact Reader.uses_pure _
    · rw [if_neg hEnd]
      apply (readEntry_uses _).seq
      intro length
      apply ((Code.read_uses codes.distances).mono
        (by omega)).seq
      intro far
      exact (readEntry_uses _).seq fun distance =>
        Reader.uses_pure _

end Codes

/-
  Take items up to the end of the block, after those taken
  before, the last one first.
-/
def readItems
    (codes : Codes)
    (before : List Item)
    (s : Bits) : Except Fault (List Item × Bits) :=
  match _h : codes.readItem s with
  | .error f => .error f
  | .ok (none, rest) => .ok (before, rest)
  | .ok (some item, rest) =>
      readItems codes (item :: before) rest
termination_by s.size
decreasing_by exact codes.readItem_uses s _ _ _h

theorem readItems_uses
    (codes : Codes)
    (before : List Item) :
    Reader.Uses 0 (readItems codes before) := by
  intro s items s' h
  fun_induction readItems codes before s with
  | case1 => simp at h
  | case2 before s rest hItem =>
      simp only [Except.ok.injEq, Prod.mk.injEq] at h
      have := codes.readItem_uses s _ _ hItem
      rw [← h.2]
      omega
  | case3 before s item rest hItem ih =>
      have h1 := codes.readItem_uses s _ _ hItem
      have h2 := ih h
      omega

------------------------------------------------------------
-- Stored Blocks
------------------------------------------------------------

/-
  Take stored bytes, after the items taken before. They begin
  at a whole byte with their number and its complement, both
  of two bytes with the low one first.
-/
def readStored (before : List Item) : Reader (List Item) := do
  align
  fun s =>
    match s.bytes with
    | a :: b :: c :: d :: bytes =>
        let length := a.toNat + 256 * b.toNat
        let complement := c.toNat + 256 * d.toNat
        if length + complement ≠ 0xffff then
          .error .corrupt
        else
          let stored := bytes.take length
          if stored.length < length then
            .error .incomplete
          else
            .ok (stored.foldl (fun items b => .literal b :: items)
              before, ⟨[], bytes.drop length⟩)
    | _ => .error .incomplete

theorem readStored_uses (before : List Item) :
    (readStored before).Uses 0 := by
  apply align_uses.seq
  intro _ s items s' h
  simp only at h
  split at h
  · rename_i a b c d bytes hBytes
    split at h
    · simp at h
    · split at h
      · simp at h
      · simp only [Except.ok.injEq, Prod.mk.injEq] at h
        simp only [← h.2, Bits.size, hBytes, List.length_drop,
          List.length_cons, List.length_nil]
        omega
  · simp at h

------------------------------------------------------------
-- Declared Codes
------------------------------------------------------------

/-
  The order in which a block gives the word lengths of the
  code for word lengths.
-/
def lengthOrder : List Nat :=
  [16, 17, 18, 0, 8, 7, 9, 6, 10, 5, 11, 4, 12, 3, 13, 2, 14,
   1, 15]

/- Take as many three-bit numbers as asked for. -/
def readTriples : Nat → Reader (List Nat)
  | 0 => pure []
  | k + 1 => do
      let n ← number 3
      let ns ← readTriples k
      pure (n :: ns)

theorem readTriples_uses (k : Nat) :
    (readTriples k).Uses 0 := by
  induction k with
  | zero => exact Reader.uses_pure []
  | succ k ih =>
      exact ((number_uses 3).mono (by omega)).seq fun n =>
        ih.seq fun ns => Reader.uses_pure (n :: ns)

/-
  The word lengths of the code for word lengths, in the order
  of its symbols. Those that are not given are zero.
-/
def arrangeLengths (given : List Nat) : List Nat :=
  (List.range 19).map fun symbol =>
    given.getD (lengthOrder.idxOf symbol) 0

/-
  Take a repetition of word lengths: the width of the number
  that tells how often, and the least number of times.
-/
def readRepeat
    (width least length : Nat) : Reader (List Nat) := do
  let more ← number width
  pure (List.replicate (least + more) length)

theorem readRepeat_uses
    (width least length : Nat) :
    (readRepeat width least length).Uses 0 :=
  ((number_uses width).mono (by omega)).seq fun _ =>
    Reader.uses_pure _

/-
  Take one word length, or a repetition: symbol 16 repeats
  the length before it, 17 and 18 repeat zero.
-/
def readLengths
    (code : Code)
    (previous : Option Nat) : Reader (List Nat) := do
  let symbol ← code.read
  if symbol < 16 then
    pure [symbol]
  else if symbol = 16 then
    match previous with
    | none => fail .corrupt
    | some length => readRepeat 2 3 length
  else if symbol = 17 then
    readRepeat 3 3 0
  else
    readRepeat 7 11 0

theorem readLengths_uses
    (code : Code)
    (previous : Option Nat) :
    (readLengths code previous).Uses 1 := by
  apply (Code.read_uses code).seq
  intro symbol
  by_cases hPlain : symbol < 16
  · rw [if_pos hPlain]
    exact Reader.uses_pure _
  · rw [if_neg hPlain]
    by_cases hRepeat : symbol = 16
    · rw [if_pos hRepeat]
      cases previous with
      | none => exact Reader.uses_fail .corrupt 0
      | some length => exact readRepeat_uses 2 3 length
    · rw [if_neg hRepeat]
      by_cases hZeros : symbol = 17
      · rw [if_pos hZeros]
        exact readRepeat_uses 3 3 0
      · rw [if_neg hZeros]
        exact readRepeat_uses 7 11 0

/-
  Take word lengths until there are as many as declared, after
  those taken before, the last one first. A repetition must
  not run past the declared number.
-/
def readAllLengths
    (code : Code)
    (total : Nat)
    (before : List Nat)
    (s : Bits) : Except Fault (List Nat × Bits) :=
  if before.length = total then
    .ok (before.reverse, s)
  else if before.length > total then
    .error .corrupt
  else
    match _h : readLengths code before.head? s with
    | .error f => .error f
    | .ok (lengths, rest) =>
        readAllLengths code total (lengths.reverse ++ before) rest
termination_by s.size
decreasing_by exact readLengths_uses code _ s _ _ _h

theorem readAllLengths_uses
    (code : Code)
    (total : Nat)
    (before : List Nat) :
    Reader.Uses 0 (readAllLengths code total before) := by
  intro s lengths s' h
  fun_induction readAllLengths code total before s with
  | case1 before s hTotal =>
      simp only [Except.ok.injEq, Prod.mk.injEq] at h
      simp [← h.2]
  | case2 => simp at h
  | case3 => simp at h
  | case4 before s hTotal hMore lengths rest hRead ih =>
      have h1 := readLengths_uses code _ s _ _ hRead
      have h2 := ih h
      omega

/- The code with the given lengths, or a corrupt stream. -/
def codeOrFail
    (allowSparse : Bool)
    (lengths : List Nat) : Reader Code :=
  match Code.ofLengths? allowSparse lengths with
  | some code => pure code
  | none => fail .corrupt

theorem codeOrFail_uses
    (allowSparse : Bool)
    (lengths : List Nat) :
    (codeOrFail allowSparse lengths).Uses 0 := by
  unfold codeOrFail
  split
  · exact Reader.uses_pure _
  · exact Reader.uses_fail .corrupt 0

/- The most literal and length words, and distance words. -/
def mostLiterals : Nat :=
  286

def mostDistances : Nat :=
  30

/-
  The codes with the given lengths, of which the given number
  is for literals and lengths. The end of the block must have
  a word.
-/
def codesOfLengths
    (literals : Nat)
    (lengths : List Nat) : Reader Codes := do
  if lengths.getD endOfBlock 0 = 0 then
    fail .corrupt
  else do
    let forLiterals ← codeOrFail true (lengths.take literals)
    let forDistances ← codeOrFail true (lengths.drop literals)
    pure ⟨forLiterals, forDistances⟩

theorem codesOfLengths_uses
    (literals : Nat)
    (lengths : List Nat) :
    (codesOfLengths literals lengths).Uses 0 := by
  unfold codesOfLengths
  by_cases hEnd : lengths.getD endOfBlock 0 = 0
  · rw [if_pos hEnd]
    exact Reader.uses_fail .corrupt 0
  · rw [if_neg hEnd]
    apply (codeOrFail_uses true _).seq
    intro forLiterals
    apply (codeOrFail_uses true _).seq
    intro forDistances
    exact Reader.uses_pure _

/- Take the codes that a block declares. -/
def readCodes : Reader Codes := do
  let literals ← (· + 257) <$> number 5
  let distances ← (· + 1) <$> number 5
  let count ← (· + 4) <$> number 4
  if literals > mostLiterals ∨ distances > mostDistances then
    fail .corrupt
  else do
    let given ← readTriples count
    let code ← codeOrFail false (arrangeLengths given)
    let lengths ← readAllLengths code (literals + distances) []
    codesOfLengths literals lengths

theorem map_uses
    {α β : Type}
    {n : Nat}
    {r : Reader α}
    (f : α → β)
    (h : r.Uses n) :
    (f <$> r).Uses n := by
  rw [map_eq_pure_bind]
  exact h.seq fun a => Reader.uses_pure (f a)

theorem readCodes_uses : readCodes.Uses 0 := by
  apply (map_uses _ ((number_uses 5).mono (by omega))).seq
  intro literals
  apply (map_uses _ ((number_uses 5).mono (by omega))).seq
  intro distances
  apply (map_uses _ ((number_uses 4).mono (by omega))).seq
  intro count
  by_cases hMany :
      literals > mostLiterals ∨ distances > mostDistances
  · rw [if_pos hMany]
    exact Reader.uses_fail .corrupt 0
  · rw [if_neg hMany]
    apply (readTriples_uses count).seq
    intro given
    apply (codeOrFail_uses false _).seq
    intro code
    apply (readAllLengths_uses code _ []).seq
    intro lengths
    exact codesOfLengths_uses _ lengths

------------------------------------------------------------
-- Blocks
------------------------------------------------------------

/-
  Take the content of a block of the given kind, after the
  items taken before: all items, the last one first.
-/
def readContent
    (kind : Nat)
    (before : List Item) : Reader (List Item) :=
  match kind with
  | 0 => readStored before
  | 1 => readItems .fixed before
  | 2 => do
      let codes ← readCodes
      readItems codes before
  | _ => fail .corrupt

theorem readContent_uses
    (kind : Nat)
    (before : List Item) :
    (readContent kind before).Uses 0 := by
  unfold readContent
  split
  · exact readStored_uses before
  · exact readItems_uses .fixed before
  · exact readCodes_uses.seq fun codes =>
      readItems_uses codes before
  · exact Reader.uses_fail .corrupt 0

/-
  Take a block, after the items taken before: whether it is
  the final one, and all items, the last one first.
-/
def readBlock
    (before : List Item) : Reader (Bool × List Item) := do
  let isFinal ← nextBit
  let kind ← number 2
  let items ← readContent kind before
  pure (isFinal, items)

/- A block takes at least three bits. -/
theorem readBlock_uses (before : List Item) :
    (readBlock before).Uses 3 :=
  nextBit_uses.bind fun isFinal =>
    (number_uses 2).seq fun kind =>
      (readContent_uses kind before).seq fun items =>
        Reader.uses_pure (isFinal, items)

end CodecChain.Deflate
