import CodecChain.Proofs.Result
import CodecChain.Deflate.Compressor
import CodecChain.Proofs.Deflate.Fixed

/-
  What a stream holds does not depend on what follows it. A
  reader that does not run out of input gives the same value,
  or finds the same fault, whatever bytes come after its
  input, and leaves these bytes unread.

  Key definitions include:
    * `Deflate.Bits.followedBy`
    * `Deflate.leave`
    * `Deflate.Reader.Settles`

  Main statements:
    * `Deflate.Reader.Settles.bind`
    * `Deflate.Code.read_settles`
    * `Deflate.readBlock_settles`
    * `Deflate.inflate_settles`
    * `Compressor.inflate_append`
-/

------------------------------------------------------------
-- Input with More Bytes
------------------------------------------------------------

namespace CodecChain

namespace Deflate

variable {α β : Type} {more : List UInt8} {s s' : Bits}

/- Unread input with more bytes after it. -/
def Bits.followedBy
    (s : Bits)
    (more : List UInt8) : Bits :=
  ⟨s.begun, s.bytes ++ more⟩

theorem Bits.size_followedBy
    (s : Bits)
    (more : List UInt8) :
    (s.followedBy more).size = s.size + 8 * more.length := by
  simp only [size, followedBy, List.length_append]
  omega

/- A value read, with more bytes left after the unread ones. -/
def leave
    (more : List UInt8)
    (p : α × Bits) : α × Bits :=
  (p.1, p.2.followedBy more)

------------------------------------------------------------
-- Settled Readers
------------------------------------------------------------

namespace Reader

/-
  A reader settles another one when, unless it runs out of
  input, the other one finds the same with more bytes there.
-/
def Settles
    (more : List UInt8)
    (r r' : Reader α) : Prop :=
  ∀ s, Except.Settles (· = .incomplete) (leave more) (r s)
    (r' (s.followedBy more))

theorem settles_pure (a : α) :
    Settles more (pure a) (pure a) :=
  fun s => .value (a, s)

theorem settles_fail (f : Fault) :
    Settles more (fail f : Reader α) (fail f) :=
  fun _ => .error f

variable {r r' : Reader α}

/- A value is found again, with more bytes left unread. -/
theorem Settles.eq_ok
    {a : α}
    (h : Settles more r r')
    (hRead : r s = .ok (a, s')) :
    r' (s.followedBy more) = .ok (a, s'.followedBy more) := by
  have hSettles := h s
  rw [hRead] at hSettles
  exact hSettles.eq_ok

/- A fault that is no lack of input is found again. -/
theorem Settles.lacks_or_eq_error
    {fault : Fault}
    (h : Settles more r r')
    (hRead : r s = .error fault) :
    fault = .incomplete ∨
      r' (s.followedBy more) = .error fault := by
  have hSettles := h s
  rw [hRead] at hSettles
  exact hSettles.lacks_or_eq_error

/- Readers in sequence are settled one after the other. -/
theorem Settles.bind
    {f f' : α → Reader β}
    (hFirst : Settles more r r')
    (hNext : ∀ a, Settles more (f a) (f' a)) :
    Settles more (r >>= f) (r' >>= f') :=
  fun s => (hFirst s).bind fun p => hNext p.1 p.2

theorem Settles.map
    (f : α → β)
    (h : Settles more r r') :
    Settles more (f <$> r) (f <$> r') := by
  rw [map_eq_pure_bind, map_eq_pure_bind]
  exact h.bind fun a => settles_pure (f a)

end Reader

open Reader

------------------------------------------------------------
-- Bits and Numbers
------------------------------------------------------------

theorem nextBit_settles :
    nextBit.Settles more nextBit := by
  rintro ⟨_ | ⟨bit, begun⟩, _ | ⟨b, bytes⟩⟩
  · exact .lack rfl
  · exact .value _
  · exact .value _
  · exact .value _

theorem number_settles (k : Nat) :
    (number k).Settles more (number k) := by
  induction k with
  | zero => exact settles_pure 0
  | succ k ih =>
      unfold number
      apply nextBit_settles.bind
      intro bit
      apply ih.bind
      intro n
      exact settles_pure _

theorem align_settles : align.Settles more align :=
  fun s => .value ((), (⟨[], s.bytes⟩ : Bits))

------------------------------------------------------------
-- Codes
------------------------------------------------------------

theorem Tree.read_settles
    {stray stray' : Reader Nat}
    (hStray : stray.Settles more stray')
    (tree : Tree) :
    (tree.read stray).Settles more (tree.read stray') := by
  induction tree with
  | vacant => exact hStray
  | leaf symbol => exact settles_pure symbol
  | node zero one ihZero ihOne =>
      unfold read
      apply nextBit_settles.bind
      intro bit
      cases bit with
      | true => exact ihOne
      | false => exact ihZero

/- Once as many bits are there as words have, more do not count. -/
theorem Code.stray_settles (start : Bits) :
    (stray start).Settles more
      (stray (start.followedBy more)) := by
  intro s
  unfold stray
  rw [Bits.size_followedBy]
  by_cases hShort : start.size < longestWord
  · rw [if_pos hShort]
    exact .lack rfl
  · have hLong :
        ¬start.size + 8 * more.length < longestWord := by
      omega
    rw [if_neg hShort, if_neg hLong]
    exact .error Fault.corrupt

theorem Code.read_settles (code : Code) :
    code.read.Settles more code.read := by
  intro s
  refine nextBit_settles.bind ?_ s
  intro bit
  cases bit with
  | true => exact Tree.read_settles (stray_settles s) code.one
  | false => exact Tree.read_settles (stray_settles s) code.zero

theorem codeOrFail_settles
    (allowSparse : Bool)
    (lengths : List Nat) :
    (codeOrFail allowSparse lengths).Settles more
      (codeOrFail allowSparse lengths) := by
  unfold codeOrFail
  split
  · exact settles_pure _
  · exact settles_fail _

------------------------------------------------------------
-- Items
------------------------------------------------------------

theorem readEntry_settles (entry : Option (Nat × Nat)) :
    (readEntry entry).Settles more (readEntry entry) := by
  cases entry with
  | none => exact settles_fail .corrupt
  | some e =>
      apply (number_settles e.2).bind
      intro n
      exact settles_pure _

theorem Codes.readItem_settles (codes : Codes) :
    codes.readItem.Settles more codes.readItem := by
  unfold readItem
  apply (Code.read_settles codes.literals).bind
  intro symbol
  by_cases hLiteral : symbol < endOfBlock
  · rw [if_pos hLiteral]
    exact settles_pure _
  rw [if_neg hLiteral]
  by_cases hEnd : symbol = endOfBlock
  · rw [if_pos hEnd]
    exact settles_pure _
  rw [if_neg hEnd]
  apply (readEntry_settles _).bind
  intro length
  apply (Code.read_settles codes.distances).bind
  intro far
  apply (readEntry_settles _).bind
  intro distance
  exact settles_pure _

theorem readItems_of_error
    {codes : Codes}
    {before : List Item}
    {fault : Fault}
    (h : codes.readItem s = .error fault) :
    readItems codes before s = .error fault := by
  rw [readItems]
  split <;> simp_all

theorem readItems_settles
    (codes : Codes)
    (before : List Item) :
    Settles more (readItems codes before)
      (readItems codes before) := by
  intro s
  fun_induction readItems codes before s with
  | case1 before s fault hItem =>
      rcases codes.readItem_settles.lacks_or_eq_error hItem with
        hLacks | hSame
      · exact .lack hLacks
      · rw [readItems_of_error hSame]
        exact .error fault
  | case2 before s rest hItem =>
      rw [readItems_of_end (codes.readItem_settles.eq_ok hItem)]
      exact .value (before, rest)
  | case3 before s item rest hItem ih =>
      rw [readItems_of_item (codes.readItem_settles.eq_ok hItem)]
      exact ih

------------------------------------------------------------
-- Stored Bytes
------------------------------------------------------------

theorem readStored_settles (before : List Item) :
    (readStored before).Settles more (readStored before) := by
  unfold readStored
  apply align_settles.bind
  rintro _ ⟨begun, bytes⟩
  match bytes with
  | a :: b :: c :: d :: bytes =>
      dsimp only [Bits.followedBy, List.cons_append]
      by_cases hCorrupt :
          a.toNat + 256 * b.toNat + (c.toNat + 256 * d.toNat) ≠
            0xffff
      · rw [if_pos hCorrupt, if_pos hCorrupt]
        exact .error Fault.corrupt
      rw [if_neg hCorrupt, if_neg hCorrupt]
      by_cases hShort :
          (bytes.take (a.toNat + 256 * b.toNat)).length <
            a.toNat + 256 * b.toNat
      · rw [if_pos hShort]
        exact .lack rfl
      have hLength : a.toNat + 256 * b.toNat ≤ bytes.length := by
        rw [List.length_take] at hShort
        omega
      rw [List.take_append_of_le_length hLength,
        List.drop_append_of_le_length hLength, if_neg hShort,
        if_neg hShort]
      exact .value _
  | [] | [_] | [_, _] | [_, _, _] => exact .lack rfl

------------------------------------------------------------
-- Declared Codes
------------------------------------------------------------

theorem readTriples_settles (k : Nat) :
    (readTriples k).Settles more (readTriples k) := by
  induction k with
  | zero => exact settles_pure []
  | succ k ih =>
      unfold readTriples
      apply (number_settles 3).bind
      intro n
      apply ih.bind
      intro ns
      exact settles_pure _

theorem readRepeat_settles
    (width least length : Nat) :
    (readRepeat width least length).Settles more
      (readRepeat width least length) := by
  unfold readRepeat
  apply (number_settles width).bind
  intro n
  exact settles_pure _

theorem readLengths_settles
    (code : Code)
    (previous : Option Nat) :
    (readLengths code previous).Settles more
      (readLengths code previous) := by
  unfold readLengths
  apply (Code.read_settles code).bind
  intro symbol
  by_cases hPlain : symbol < 16
  · rw [if_pos hPlain]
    exact settles_pure _
  rw [if_neg hPlain]
  by_cases hRepeat : symbol = 16
  · rw [if_pos hRepeat]
    cases previous with
    | none => exact settles_fail .corrupt
    | some length => exact readRepeat_settles 2 3 length
  rw [if_neg hRepeat]
  by_cases hZeros : symbol = 17
  · rw [if_pos hZeros]
    exact readRepeat_settles 3 3 0
  · rw [if_neg hZeros]
    exact readRepeat_settles 7 11 0

section

variable {code : Code} {total : Nat} {before : List Nat}

theorem readAllLengths_of_error
    {fault : Fault}
    (hTotal : ¬before.length = total)
    (hMany : ¬before.length > total)
    (h : readLengths code before.head? s = .error fault) :
    readAllLengths code total before s = .error fault := by
  rw [readAllLengths, if_neg hTotal, if_neg hMany]
  split <;> simp_all

theorem readAllLengths_of_ok
    {lengths : List Nat}
    (hTotal : ¬before.length = total)
    (hMany : ¬before.length > total)
    (h : readLengths code before.head? s = .ok (lengths, s')) :
    readAllLengths code total before s =
      readAllLengths code total (lengths.reverse ++ before)
        s' := by
  rw [readAllLengths, if_neg hTotal, if_neg hMany]
  split <;> simp_all

end

theorem readAllLengths_settles
    (code : Code)
    (total : Nat)
    (before : List Nat) :
    Settles more (readAllLengths code total before)
      (readAllLengths code total before) := by
  intro s
  fun_induction readAllLengths code total before s with
  | case1 before s hTotal =>
      rw [readAllLengths, if_pos hTotal]
      exact .value (before.reverse, s)
  | case2 before s hTotal hMany =>
      rw [readAllLengths, if_neg hTotal, if_pos hMany]
      exact .error Fault.corrupt
  | case3 before s hTotal hMany fault hRead =>
      rcases (readLengths_settles code _).lacks_or_eq_error hRead
        with hLacks | hSame
      · exact .lack hLacks
      · rw [readAllLengths_of_error hTotal hMany hSame]
        exact .error fault
  | case4 before s hTotal hMany lengths rest hRead ih =>
      rw [readAllLengths_of_ok hTotal hMany
        ((readLengths_settles code _).eq_ok hRead)]
      exact ih

theorem codesOfLengths_settles
    (literals : Nat)
    (lengths : List Nat) :
    (codesOfLengths literals lengths).Settles more
      (codesOfLengths literals lengths) := by
  unfold codesOfLengths
  by_cases hEnd : lengths.getD endOfBlock 0 = 0
  · rw [if_pos hEnd]
    exact settles_fail _
  rw [if_neg hEnd]
  apply (codeOrFail_settles true _).bind
  intro forLiterals
  apply (codeOrFail_settles true _).bind
  intro forDistances
  exact settles_pure _

theorem readCodes_settles :
    readCodes.Settles more readCodes := by
  unfold readCodes
  apply ((number_settles 5).map _).bind
  intro literals
  apply ((number_settles 5).map _).bind
  intro distances
  apply ((number_settles 4).map _).bind
  intro count
  by_cases hMany :
      literals > mostLiterals ∨ distances > mostDistances
  · rw [if_pos hMany]
    exact settles_fail _
  rw [if_neg hMany]
  apply (readTriples_settles count).bind
  intro given
  apply (codeOrFail_settles false _).bind
  intro code
  apply Settles.bind (readAllLengths_settles code _ [])
  intro lengths
  exact codesOfLengths_settles literals lengths

------------------------------------------------------------
-- Blocks
------------------------------------------------------------

theorem readContent_settles
    (kind : Nat)
    (before : List Item) :
    (readContent kind before).Settles more
      (readContent kind before) := by
  unfold readContent
  split
  · exact readStored_settles before
  · exact readItems_settles .fixed before
  · apply readCodes_settles.bind
    intro codes
    exact readItems_settles codes before
  · exact settles_fail .corrupt

/- A block does not depend on what follows it. -/
theorem readBlock_settles (before : List Item) :
    (readBlock before).Settles more (readBlock before) := by
  unfold readBlock
  apply nextBit_settles.bind
  intro isFinal
  apply (number_settles 2).bind
  intro kind
  apply (readContent_settles kind before).bind
  intro items
  exact settles_pure _

theorem readBlocks_of_error
    {before : List Item}
    {fault : Fault}
    (h : readBlock before s = .error fault) :
    readBlocks before s = .error fault := by
  rw [readBlocks]
  split <;> simp_all

theorem readBlocks_of_more
    {before items : List Item}
    (h : readBlock before s = .ok ((false, items), s')) :
    readBlocks before s = readBlocks items s' := by
  rw [readBlocks]
  split <;> simp_all

theorem readBlocks_settles (before : List Item) :
    Settles more (readBlocks before) (readBlocks before) := by
  intro s
  fun_induction readBlocks before s with
  | case1 before s fault hBlock =>
      rcases (readBlock_settles before).lacks_or_eq_error hBlock
        with hLacks | hSame
      · exact .lack hLacks
      · rw [readBlocks_of_error hSame]
        exact .error fault
  | case2 before s items rest hBlock =>
      rw [readBlocks_of_final
        ((readBlock_settles before).eq_ok hBlock)]
      exact .value (items, rest)
  | case3 before s items rest hBlock ih =>
      rw [readBlocks_of_more
        ((readBlock_settles before).eq_ok hBlock)]
      exact ih

------------------------------------------------------------
-- Streams
------------------------------------------------------------

/-
  Bytes after a stream are left alone, and do not mend what
  is wrong with it, unless the stream came to no end.
-/
theorem inflate_settles
    (bytes more : List UInt8) :
    Except.Settles (· = .incomplete)
      (fun p => (p.1, p.2 ++ more))
      (inflate bytes) (inflate (bytes ++ more)) := by
  unfold inflate
  apply (readBlocks_settles [] (.ofBytes bytes)).bind
  intro p
  exact .value _

end Deflate

/- Bytes after a compressed content are left alone. -/
theorem Compressor.inflate_append
    [Compressor]
    (bytes rest : List UInt8) :
    Deflate.inflate (compress bytes ++ rest) =
      .ok (bytes, rest) := by
  have hMore := Deflate.inflate_settles (compress bytes) rest
  rw [inflate_compress] at hMore
  exact hMore.eq_ok

end CodecChain
