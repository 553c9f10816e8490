import CodecChain.Proofs.Deflate.Stable

/-
  How far a stream extends. A reader that gives a value has
  taken certain bytes of its input; those bytes alone settle
  the value, so that they give it again whatever follows, and
  also if nothing does. Hence a stream that is found at the
  beginning of bytes is a stream by itself.

  Key definitions include:
    * `Deflate.Reader.Takes`
    * `Deflate.Reader.IsLocal`

  Main statements:
    * `Deflate.Reader.Takes.next`
    * `Deflate.Reader.IsLocal.bind`
    * `Deflate.readBlock_isLocal`
    * `Deflate.exists_stream_of_inflate`
-/

------------------------------------------------------------
-- Readers That Look at What They Take
------------------------------------------------------------

namespace CodecChain

namespace Deflate

variable {α β : Type} {s s' s₁ s₂ : Bits}

namespace Reader

/-
  A reader takes the bytes between two inputs to give a value,
  and gives it for these bytes whatever comes after them.
-/
def Takes
    (r : Reader α)
    (s : Bits)
    (a : α)
    (s' : Bits) : Prop :=
  ∃ taken,
    s.bytes = taken ++ s'.bytes ∧
    ∀ rest,
      r ⟨s.begun, taken ++ rest⟩ = .ok (a, ⟨s'.begun, rest⟩)

/- A reader whose values depend on what it takes only. -/
def IsLocal (r : Reader α) : Prop :=
  ∀ s a s', r s = .ok (a, s') → r.Takes s a s'

/- One reader goes on where another one has stopped. -/
theorem Takes.next
    {r : Reader α}
    {next : Reader β}
    {whole : Reader β}
    {a : α}
    {b : β}
    (hFirst : r.Takes s a s₁)
    (hNext : next.Takes s₁ b s₂)
    (hWhole :
      ∀ t t', r t = .ok (a, t') → whole t = next t') :
    whole.Takes s b s₂ := by
  rcases hFirst with ⟨first, hBytes₁, hFirst⟩
  rcases hNext with ⟨second, hBytes₂, hSecond⟩
  refine ⟨first ++ second, ?_, ?_⟩
  · rw [hBytes₁, hBytes₂, List.append_assoc]
  · intro rest
    rw [List.append_assoc, hWhole _ _ (hFirst (second ++ rest))]
    exact hSecond rest

theorem bind_eq_ok_iff
    {r : Reader α}
    {f : α → Reader β}
    {p : β × Bits} :
    (r >>= f) s = .ok p ↔
      ∃ q, r s = .ok q ∧ f q.1 q.2 = .ok p :=
  Except.bind_eq_ok_iff

theorem isLocal_pure (a : α) :
    IsLocal (pure a : Reader α) := by
  intro s b s' h
  cases h
  exact ⟨[], rfl, fun rest => rfl⟩

theorem isLocal_fail (f : Fault) :
    IsLocal (fail f : Reader α) := by
  intro s b s' h
  cases h

variable {r : Reader α}

/- Readers in sequence are local if each of them is. -/
theorem IsLocal.bind
    {f : α → Reader β}
    (hFirst : r.IsLocal)
    (hNext : ∀ a, (f a).IsLocal) :
    (r >>= f).IsLocal := by
  intro s b s₂ h
  rcases bind_eq_ok_iff.mp h with ⟨⟨a, s₁⟩, hRead, hMore⟩
  exact (hFirst s a s₁ hRead).next (hNext a s₁ b s₂ hMore)
    fun t t' hTaken => bind_of_ok f hTaken

theorem IsLocal.map
    (f : α → β)
    (h : r.IsLocal) :
    (f <$> r).IsLocal := by
  rw [map_eq_pure_bind]
  exact h.bind fun a => isLocal_pure (f a)

end Reader

open Reader

------------------------------------------------------------
-- Bits and Numbers
------------------------------------------------------------

theorem nextBit_isLocal : nextBit.IsLocal := by
  rintro ⟨_ | ⟨bit, begun⟩, _ | ⟨b, bytes⟩⟩ a s' h
  · cases h
  · cases h
    exact ⟨[b], rfl, fun rest => rfl⟩
  · cases h
    exact ⟨[], rfl, fun rest => rfl⟩
  · cases h
    exact ⟨[], rfl, fun rest => rfl⟩

theorem number_isLocal (k : Nat) : (number k).IsLocal := by
  induction k with
  | zero => exact isLocal_pure 0
  | succ k ih =>
      unfold number
      apply nextBit_isLocal.bind
      intro bit
      apply ih.bind
      intro n
      exact isLocal_pure _

theorem align_isLocal : align.IsLocal := by
  intro s a s' h
  cases h
  exact ⟨[], rfl, fun rest => rfl⟩

------------------------------------------------------------
-- Codes
------------------------------------------------------------

/-
  Follow the bits to the symbol of a word, where bits that are
  no word are corrupt however many there are.
-/
def Code.follow (code : Code) : Reader Nat := do
  let bit ← nextBit
  if bit then
    code.one.read (fail .corrupt)
  else
    code.zero.read (fail .corrupt)

/- The way to a symbol does not lead to a vacant place. -/
theorem Tree.read_eq_ok_of_stray
    {stray stray' : Reader Nat}
    {p : Nat × Bits}
    (hStray : ∀ s p, stray s ≠ .ok p)
    (tree : Tree)
    (h : tree.read stray s = .ok p) :
    tree.read stray' s = .ok p := by
  induction tree generalizing s with
  | vacant => exact absurd h (hStray s p)
  | leaf symbol => exact h
  | node zero one ihZero ihOne =>
      rcases Reader.bind_eq_ok_iff.mp h with
        ⟨⟨bit, s₁⟩, hBit, hRest⟩
      rw [read, bind_of_ok _ hBit]
      cases bit with
      | true => exact ihOne hRest
      | false => exact ihZero hRest

/- A symbol is read alike whatever is done with other bits. -/
theorem Tree.read_eq_ok_iff_of_stray
    {stray stray' : Reader Nat}
    {p : Nat × Bits}
    (hStray : ∀ s p, stray s ≠ .ok p)
    (hStray' : ∀ s p, stray' s ≠ .ok p)
    (tree : Tree) :
    tree.read stray s = .ok p ↔ tree.read stray' s = .ok p :=
  ⟨read_eq_ok_of_stray hStray tree,
    read_eq_ok_of_stray hStray' tree⟩

theorem Code.stray_ne_ok
    (start s : Bits)
    (p : Nat × Bits) :
    stray start s ≠ .ok p := by
  unfold stray
  split <;> simp

theorem fail_ne_ok
    (f : Fault)
    (s : Bits)
    (p : α × Bits) :
    (fail f : Reader α) s ≠ .ok p := by
  intro h
  cases h

/- A symbol is read exactly where the bits lead to it. -/
theorem Code.read_eq_ok_iff
    {code : Code}
    {p : Nat × Bits} :
    code.read s = .ok p ↔ code.follow s = .ok p := by
  have hTree (tree : Tree) (s₁ : Bits) :
      tree.read (stray s) s₁ = .ok p ↔
        tree.read (fail .corrupt) s₁ = .ok p :=
    Tree.read_eq_ok_iff_of_stray (stray_ne_ok s)
      (fail_ne_ok .corrupt) tree
  unfold read follow
  rw [Reader.bind_eq_ok_iff, Reader.bind_eq_ok_iff]
  apply exists_congr
  rintro ⟨bit, s₁⟩
  apply and_congr_right
  intro _
  cases bit with
  | true => exact hTree code.one s₁
  | false => exact hTree code.zero s₁

theorem Tree.read_isLocal (tree : Tree) :
    (tree.read (fail .corrupt)).IsLocal := by
  induction tree with
  | vacant => exact isLocal_fail .corrupt
  | leaf symbol => exact isLocal_pure symbol
  | node zero one ihZero ihOne =>
      unfold read
      apply nextBit_isLocal.bind
      intro bit
      cases bit with
      | true => exact ihOne
      | false => exact ihZero

theorem Code.follow_isLocal (code : Code) :
    code.follow.IsLocal := by
  apply nextBit_isLocal.bind
  intro bit
  cases bit with
  | true => exact Tree.read_isLocal code.one
  | false => exact Tree.read_isLocal code.zero

theorem Code.read_isLocal (code : Code) :
    code.read.IsLocal := by
  intro s symbol s' h
  rcases code.follow_isLocal s symbol s'
      (read_eq_ok_iff.mp h) with ⟨taken, hBytes, hTaken⟩
  exact ⟨taken, hBytes, fun rest =>
    read_eq_ok_iff.mpr (hTaken rest)⟩

theorem codeOrFail_isLocal
    (allowSparse : Bool)
    (lengths : List Nat) :
    (codeOrFail allowSparse lengths).IsLocal := by
  unfold codeOrFail
  split
  · exact isLocal_pure _
  · exact isLocal_fail _

------------------------------------------------------------
-- Items
------------------------------------------------------------

theorem readEntry_isLocal (entry : Option (Nat × Nat)) :
    (readEntry entry).IsLocal := by
  cases entry with
  | none => exact isLocal_fail .corrupt
  | some e =>
      apply (number_isLocal e.2).bind
      intro n
      exact isLocal_pure _

theorem Codes.readItem_isLocal (codes : Codes) :
    codes.readItem.IsLocal := by
  unfold readItem
  apply codes.literals.read_isLocal.bind
  intro symbol
  by_cases hLiteral : symbol < endOfBlock
  · rw [if_pos hLiteral]
    exact isLocal_pure _
  rw [if_neg hLiteral]
  by_cases hEnd : symbol = endOfBlock
  · rw [if_pos hEnd]
    exact isLocal_pure _
  rw [if_neg hEnd]
  apply (readEntry_isLocal _).bind
  intro length
  apply codes.distances.read_isLocal.bind
  intro far
  apply (readEntry_isLocal _).bind
  intro distance
  exact isLocal_pure _

theorem readItems_isLocal
    (codes : Codes)
    (before : List Item) :
    IsLocal (readItems codes before) := by
  intro s items s' h
  fun_induction readItems codes before s with
  | case1 => cases h
  | case2 before s rest hItem =>
      exact (codes.readItem_isLocal s _ _ hItem).next
        (isLocal_pure before rest items s' h)
        fun t t' hTaken => readItems_of_end hTaken
  | case3 before s item rest hItem ih =>
      exact (codes.readItem_isLocal s _ _ hItem).next (ih h)
        fun t t' hTaken => readItems_of_item hTaken

------------------------------------------------------------
-- Stored Bytes
------------------------------------------------------------

theorem readStored_isLocal (before : List Item) :
    (readStored before).IsLocal := by
  unfold readStored
  apply align_isLocal.bind
  rintro _ ⟨begun, bytes⟩ items s' h
  match bytes with
  | a :: b :: c :: d :: bytes =>
      dsimp only at h
      split at h
      · cases h
      rename_i hSound
      split at h
      · cases h
      rename_i hLong
      cases h
      refine ⟨a :: b :: c :: d ::
        bytes.take (a.toNat + 256 * b.toNat), ?_, ?_⟩
      · simp
      · intro rest
        have hLength :
            (bytes.take (a.toNat + 256 * b.toNat)).length =
              a.toNat + 256 * b.toNat := by
          have hMost := List.length_take_le
            (a.toNat + 256 * b.toNat) bytes
          omega
        dsimp only [List.cons_append]
        rw [if_neg hSound, List.take_left' hLength,
          List.drop_left' hLength, if_neg hLong]
  | [] | [_] | [_, _] | [_, _, _] => cases h

------------------------------------------------------------
-- Declared Codes
------------------------------------------------------------

theorem readTriples_isLocal (k : Nat) :
    (readTriples k).IsLocal := by
  induction k with
  | zero => exact isLocal_pure []
  | succ k ih =>
      unfold readTriples
      apply (number_isLocal 3).bind
      intro n
      apply ih.bind
      intro ns
      exact isLocal_pure _

theorem readRepeat_isLocal
    (width least length : Nat) :
    (readRepeat width least length).IsLocal := by
  unfold readRepeat
  apply (number_isLocal width).bind
  intro n
  exact isLocal_pure _

theorem readLengths_isLocal
    (code : Code)
    (previous : Option Nat) :
    (readLengths code previous).IsLocal := by
  unfold readLengths
  apply code.read_isLocal.bind
  intro symbol
  by_cases hPlain : symbol < 16
  · rw [if_pos hPlain]
    exact isLocal_pure _
  rw [if_neg hPlain]
  by_cases hRepeat : symbol = 16
  · rw [if_pos hRepeat]
    cases previous with
    | none => exact isLocal_fail .corrupt
    | some length => exact readRepeat_isLocal 2 3 length
  rw [if_neg hRepeat]
  by_cases hZeros : symbol = 17
  · rw [if_pos hZeros]
    exact readRepeat_isLocal 3 3 0
  · rw [if_neg hZeros]
    exact readRepeat_isLocal 7 11 0

theorem readAllLengths_isLocal
    (code : Code)
    (total : Nat)
    (before : List Nat) :
    IsLocal (readAllLengths code total before) := by
  intro s lengths s' h
  fun_induction readAllLengths code total before s with
  | case1 before s hTotal =>
      cases h
      refine ⟨[], rfl, ?_⟩
      intro rest
      rw [readAllLengths, if_pos hTotal]
      rfl
  | case2 => cases h
  | case3 => cases h
  | case4 before s hTotal hMany lengths rest hRead ih =>
      exact (readLengths_isLocal code _ s _ _ hRead).next (ih h)
        fun t t' hTaken =>
          readAllLengths_of_ok hTotal hMany hTaken

theorem codesOfLengths_isLocal
    (literals : Nat)
    (lengths : List Nat) :
    (codesOfLengths literals lengths).IsLocal := by
  unfold codesOfLengths
  by_cases hEnd : lengths.getD endOfBlock 0 = 0
  · rw [if_pos hEnd]
    exact isLocal_fail _
  rw [if_neg hEnd]
  apply (codeOrFail_isLocal true _).bind
  intro forLiterals
  apply (codeOrFail_isLocal true _).bind
  intro forDistances
  exact isLocal_pure _

theorem readCodes_isLocal : readCodes.IsLocal := by
  unfold readCodes
  apply ((number_isLocal 5).map _).bind
  intro literals
  apply ((number_isLocal 5).map _).bind
  intro distances
  apply ((number_isLocal 4).map _).bind
  intro count
  by_cases hMany :
      literals > mostLiterals ∨ distances > mostDistances
  · rw [if_pos hMany]
    exact isLocal_fail _
  rw [if_neg hMany]
  apply (readTriples_isLocal count).bind
  intro given
  apply (codeOrFail_isLocal false _).bind
  intro code
  apply IsLocal.bind (readAllLengths_isLocal code _ [])
  intro lengths
  exact codesOfLengths_isLocal literals lengths

------------------------------------------------------------
-- Blocks and Streams
------------------------------------------------------------

theorem readContent_isLocal
    (kind : Nat)
    (before : List Item) :
    (readContent kind before).IsLocal := by
  unfold readContent
  split
  · exact readStored_isLocal before
  · exact readItems_isLocal .fixed before
  · apply readCodes_isLocal.bind
    intro codes
    exact readItems_isLocal codes before
  · exact isLocal_fail .corrupt

/- A block does not look beyond its last byte. -/
theorem readBlock_isLocal (before : List Item) :
    (readBlock before).IsLocal := by
  unfold readBlock
  apply nextBit_isLocal.bind
  intro isFinal
  apply (number_isLocal 2).bind
  intro kind
  apply (readContent_isLocal kind before).bind
  intro items
  exact isLocal_pure _

theorem readBlocks_isLocal (before : List Item) :
    IsLocal (readBlocks before) := by
  intro s items s' h
  fun_induction readBlocks before s with
  | case1 => cases h
  | case2 before s last rest hBlock =>
      exact (readBlock_isLocal before s _ _ hBlock).next
        (isLocal_pure last rest items s' h)
        fun t t' hTaken => readBlocks_of_final hTaken
  | case3 before s more rest hBlock ih =>
      exact (readBlock_isLocal before s _ _ hBlock).next (ih h)
        fun t t' hTaken => readBlocks_of_more hTaken

/-
  The bytes before those that are left over are a stream, and
  hold the same with anything after them.
-/
theorem exists_stream_of_inflate
    {bytes content rest : List UInt8}
    (h : inflate bytes = .ok (content, rest)) :
    ∃ stream,
      bytes = stream ++ rest ∧
      ∀ more, inflate (stream ++ more) = .ok (content, more) := by
  rcases Except.bind_eq_ok_iff.mp h with
    ⟨⟨items, s'⟩, hBlocks, hContent⟩
  cases hContent
  rcases readBlocks_isLocal [] _ _ _ hBlocks with
    ⟨stream, hBytes, hStream⟩
  refine ⟨stream, hBytes, ?_⟩
  intro more
  apply Except.bind_eq_ok_iff.mpr
  exact ⟨_, hStream more, rfl⟩

end Deflate

end CodecChain
