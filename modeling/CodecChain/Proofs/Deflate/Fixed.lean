import CodecChain.Deflate.Fixed
import CodecChain.Deflate.Stream
import CodecChain.Proofs.Deflate.Code

/-
  Streams under the fixed codes. The bits of items that fit
  are read as these items, and a stream of them inflates to
  what they expand to; bytes after the stream are left alone.

  Main statements:
    * `Deflate.Codes.readItem_of_gives`
    * `Deflate.readBlock_of_gives`
    * `Deflate.inflate_streamOf_append`
-/

namespace CodecChain

namespace Deflate

variable {s s' : Bits}

------------------------------------------------------------
-- Entries
------------------------------------------------------------

/- The entry found for a number describes that number. -/
theorem entryOf?_eq_some
    {table : List (Nat × Nat)}
    {n place width more : Nat}
    (h : entryOf? table n = some (place, width, more)) :
    ∃ least,
      table[place]? = some (least, width) ∧
        more < Nat.pow 2 width ∧ least + more = n := by
  rcases Option.map_eq_some_iff.mp h with
    ⟨⟨⟨least, w⟩, p⟩, hFind, hEntry⟩
  cases hEntry
  have hMem := List.mem_of_find?_eq_some hFind
  rw [List.mem_reverse, List.mem_zipIdx_iff_getElem?] at hMem
  have hRange := List.find?_some hFind
  simp only [Bool.and_eq_true, decide_eq_true_eq] at hRange
  exact ⟨least, hMem, by omega, by omega⟩

/- The number of an entry is taken where its bits are given. -/
theorem readEntry_of_gives
    {table : List (Nat × Nat)}
    {n place width more : Nat}
    (hEntry : entryOf? table n = some (place, width, more))
    (h : s.Gives (bitsOf width more) s') :
    readEntry table[place]? s = .ok (n, s') := by
  rcases entryOf?_eq_some hEntry with
    ⟨least, hPlace, hMore, rfl⟩
  rw [hPlace, readEntry,
    bind_of_ok _ (number_of_gives hMore h)]
  rfl

/-
  A number is taken as the symbol of its entry and the number
  that follows, where the bits of both are given.
-/
theorem exists_entry_of_gives
    {table : List (Nat × Nat)}
    {code : Code}
    {first n : Nat}
    (hWords :
      ∀ place < table.length, code.word (first + place) ≠ [])
    (hEntry : (entryOf? table n).isSome)
    (h :
      s.Gives (Item.entryBits code first (entryOf? table n))
        s') :
    ∃ place s₁,
      code.read s = .ok (first + place, s₁) ∧
        readEntry table[place]? s₁ = .ok (n, s') := by
  rcases Option.isSome_iff_exists.mp hEntry with
    ⟨⟨place, width, more⟩, hFound⟩
  rw [hFound, Item.entryBits, Bits.gives_append_iff] at h
  rcases h with ⟨s₁, hSymbol, hMore⟩
  rcases entryOf?_eq_some hFound with ⟨least, hPlace, -, -⟩
  have hIndex := (List.getElem?_eq_some_iff.mp hPlace).1
  exact ⟨place, s₁,
    Code.read_of_gives (hWords place hIndex) hSymbol,
    readEntry_of_gives hFound hMore⟩

------------------------------------------------------------
-- Items
------------------------------------------------------------

/-
  Codes that have a word for each symbol that an item or the
  end of a block may need.
-/
structure Codes.IsComplete (codes : Codes) : Prop where
  literal :
    ∀ symbol ≤ endOfBlock, codes.literals.word symbol ≠ []
  length :
    ∀ place < lengthTable.length,
      codes.literals.word (firstLength + place) ≠ []
  distance :
    ∀ place < distanceTable.length,
      codes.distances.word (0 + place) ≠ []

/- The words of the fixed codes by length, then by symbol. -/
theorem Codes.symbols_literals_fixed :
    Codes.fixed.literals.symbols =
      List.range' 256 24 ++ List.range' 0 144 ++
        List.range' 280 8 ++ List.range' 144 112 := by
  decide +kernel

theorem Codes.symbols_distances_fixed :
    Codes.fixed.distances.symbols = List.range' 0 32 := by
  decide +kernel

theorem Codes.isComplete_fixed : Codes.fixed.IsComplete where
  literal symbol hSymbol := by
    apply Code.word_ne_nil_of_mem
    unfold endOfBlock at hSymbol
    rw [symbols_literals_fixed]
    simp only [List.mem_append, List.mem_range'_1]
    omega
  length place hPlace := by
    apply Code.word_ne_nil_of_mem
    have hCount : lengthTable.length = 29 := rfl
    unfold firstLength
    rw [symbols_literals_fixed]
    simp only [List.mem_append, List.mem_range'_1]
    omega
  distance place hPlace := by
    apply Code.word_ne_nil_of_mem
    have hCount : distanceTable.length = 30 := rfl
    rw [symbols_distances_fixed, List.mem_range'_1]
    omega

theorem Codes.readItem_end_of_gives
    {codes : Codes}
    (hCodes : codes.IsComplete)
    (h : s.Gives (codes.literals.word endOfBlock) s') :
    codes.readItem s = .ok (none, s') := by
  have hWord := hCodes.literal endOfBlock (Nat.le_refl _)
  rw [readItem, bind_of_ok _ (Code.read_of_gives hWord h)]
  rfl

/- An item that fits is read where its bits are given. -/
theorem Codes.readItem_of_gives
    {codes : Codes}
    {item : Item}
    (hCodes : codes.IsComplete)
    (hFits : item.Fits)
    (h : s.Gives (item.bits codes) s') :
    codes.readItem s = .ok (some item, s') := by
  cases item with
  | literal b =>
      have hByte : b.toNat < endOfBlock := b.toNat_lt
      have hWord := hCodes.literal b.toNat (Nat.le_of_lt hByte)
      rw [readItem, bind_of_ok _ (Code.read_of_gives hWord h),
        if_pos hByte, UInt8.ofNat_toNat]
      rfl
  | copy length distance =>
      rw [Item.bits, Bits.gives_append_iff] at h
      rcases h with ⟨s₁, hFirst, hSecond⟩
      rcases exists_entry_of_gives hCodes.length hFits.1 hFirst
        with ⟨place, s₂, hSymbol, hLength⟩
      rcases exists_entry_of_gives hCodes.distance hFits.2
        hSecond with ⟨far, s₃, hFar, hDistance⟩
      have hCopy : ¬firstLength + place < endOfBlock := by
        unfold firstLength endOfBlock
        omega
      have hMore : firstLength + place ≠ endOfBlock := by
        unfold firstLength endOfBlock
        omega
      rw [Nat.zero_add] at hFar
      rw [readItem, bind_of_ok _ hSymbol, if_neg hCopy,
        if_neg hMore, Nat.add_sub_cancel_left,
        bind_of_ok _ hLength, bind_of_ok _ hFar,
        bind_of_ok _ hDistance]
      rfl

------------------------------------------------------------
-- Blocks
------------------------------------------------------------

theorem readItems_of_end
    {codes : Codes}
    {before : List Item}
    (h : codes.readItem s = .ok (none, s')) :
    readItems codes before s = .ok (before, s') := by
  rw [readItems]
  split <;> simp_all

theorem readItems_of_item
    {codes : Codes}
    {before : List Item}
    {item : Item}
    (h : codes.readItem s = .ok (some item, s')) :
    readItems codes before s =
      readItems codes (item :: before) s' := by
  rw [readItems]
  split <;> simp_all

/- Items are read in order, up to the end of the block. -/
theorem readItems_of_gives
    {codes : Codes}
    {items : List Item}
    (before : List Item)
    (hCodes : codes.IsComplete)
    (hFits : ∀ item ∈ items, item.Fits)
    (h :
      s.Gives
        (items.flatMap (Item.bits codes) ++
          codes.literals.word endOfBlock) s') :
    readItems codes before s =
      .ok (items.reverse ++ before, s') := by
  induction items generalizing before s with
  | nil =>
      exact readItems_of_end
        (Codes.readItem_end_of_gives hCodes h)
  | cons item items ih =>
      rw [List.flatMap_cons, List.append_assoc,
        Bits.gives_append_iff] at h
      rcases h with ⟨s₁, hItem, hRest⟩
      have hRead := Codes.readItem_of_gives hCodes
        (hFits item List.mem_cons_self) hItem
      rw [readItems_of_item hRead,
        ih (item :: before)
          (fun later hLater =>
            hFits later (List.mem_cons_of_mem item hLater))
          hRest,
        List.reverse_cons, List.append_assoc]
      rfl

/- A final block under the fixed codes is read. -/
theorem readBlock_of_gives
    {items : List Item}
    (before : List Item)
    (hFits : ∀ item ∈ items, item.Fits)
    (h : s.Gives (streamBits items) s') :
    readBlock before s =
      .ok ((true, items.reverse ++ before), s') := by
  rw [streamBits, fixedHeader, List.append_assoc,
    List.append_assoc, Bits.gives_append_iff] at h
  rcases h with ⟨s₁, hFinal, h⟩
  rw [Bits.gives_append_iff] at h
  rcases h with ⟨s₂, hKind, h⟩
  rcases nextBit_of_gives hFinal with ⟨_, hFirst, ⟨⟩⟩
  have hNumber := number_of_gives (by decide) hKind
  have hItems := readItems_of_gives before
    Codes.isComplete_fixed hFits h
  have hContent :
      readContent 1 before s₂ =
        .ok (items.reverse ++ before, s') :=
    hItems
  rw [readBlock, bind_of_ok _ hFirst, bind_of_ok _ hNumber,
    bind_of_ok _ hContent]
  rfl

------------------------------------------------------------
-- Streams
------------------------------------------------------------

theorem readBlocks_of_final
    {before items : List Item}
    (h : readBlock before s = .ok ((true, items), s')) :
    readBlocks before s = .ok (items, s') := by
  rw [readBlocks]
  split <;> simp_all

/- A stream of items that fit inflates to their expansion. -/
theorem inflate_streamOf_append
    {items : List Item}
    (rest : List UInt8)
    (hFits : ∀ item ∈ items, item.Fits) :
    inflate (streamOf items ++ rest) =
      .ok (expand items, rest) := by
  rcases gives_pack (streamBits items) rest with ⟨pad, h⟩
  have hBlocks := readBlocks_of_final
    (readBlock_of_gives [] hFits h)
  rw [inflate, streamOf, hBlocks, List.append_nil]
  show Except.ok (expand items.reverse.reverse, rest) = _
  rw [List.reverse_reverse]

end Deflate

end CodecChain
