import CodecChain.Base64
import CodecChain.Proofs.Result
import CodecChain.Proofs.Text.Utf8

/-
  Base64 text and the bytes it stands for. A text is read as
  bytes exactly if it is the text of these bytes: groups of
  four symbols for three bytes, and a last group without
  loose bits in which padding stands for what is missing.

  Key definitions include:
    * `Base64.symbolByte`
    * `Base64.LastGroup`

  Main statements:
    * `Base64.ofSymbols_eq_ok_iff`
    * `Base64.toBytes_ofBytes`
    * `Base64.eq_ofBytes_of_toBytes`
-/

------------------------------------------------------------
-- Symbols
------------------------------------------------------------

namespace CodecChain

namespace Base64

/- The byte of the symbol of a number. -/
def symbolByte (n : Nat) : UInt8 :=
  UInt8.ofNat (symbol n).toNat

theorem value?_symbolByte
    {n : Nat}
    (h : n < 64) :
    value? (symbolByte n) = some n := by
  decide +revert

theorem symbolByte_ne_padding
    {n : Nat}
    (h : n < 64) :
    symbolByte n ≠ padding := by
  decide +revert

theorem encodeChar_symbol
    {n : Nat}
    (h : n < 64) :
    Utf8.encodeChar (symbol n) = [symbolByte n] := by
  decide +revert

theorem value?_ofNat_eq_some :
    ∀ m < 256, ∀ n ∈ value? (UInt8.ofNat m),
      n < 64 ∧ UInt8.ofNat m = symbolByte n := by
  decide +kernel

/- Bytes with a number are those of the symbols. -/
theorem value?_eq_some_iff
    {b : UInt8}
    {n : Nat} :
    value? b = some n ↔ n < 64 ∧ b = symbolByte n := by
  constructor
  · intro h
    have hByte := value?_ofNat_eq_some b.toNat b.toNat_lt n
    rw [UInt8.ofNat_toNat] at hByte
    exact hByte h
  · rintro ⟨hBound, rfl⟩
    exact value?_symbolByte hBound

theorem values_eq_ok_iff
    {offset : Nat}
    {bytes : List UInt8}
    {ns : List Nat} :
    values offset bytes = .ok ns ↔
      (∀ n ∈ ns, n < 64) ∧ bytes = ns.map symbolByte := by
  induction bytes generalizing offset ns with
  | nil =>
      rw [values, Except.ok.injEq, List.nil_eq,
        List.nil_eq, List.map_eq_nil_iff]
      constructor
      · rintro rfl
        exact ⟨by simp, rfl⟩
      · rintro ⟨-, rfl⟩
        rfl
  | cons b bytes ih =>
      rw [values]
      constructor
      · intro h
        cases hValue : value? b with
        | none =>
            rw [hValue] at h
            cases h
        | some n =>
            rw [hValue] at h
            cases hRest : values (offset + 1) bytes with
            | error fault =>
                rw [hRest] at h
                cases h
            | ok later =>
                rw [hRest] at h
                cases h
                rcases value?_eq_some_iff.mp hValue with
                  ⟨hBound, rfl⟩
                rcases ih.mp hRest with ⟨hLater, rfl⟩
                refine ⟨?_, rfl⟩
                intro m hm
                rcases List.mem_cons.mp hm with rfl | hm
                · exact hBound
                · exact hLater m hm
      · rintro ⟨hBound, hBytes⟩
        cases ns with
        | nil => cases hBytes
        | cons n ns =>
            rw [List.map_cons, List.cons.injEq] at hBytes
            rcases hBytes with ⟨rfl, rfl⟩
            have hFirst := hBound n List.mem_cons_self
            have hRest : values (offset + 1)
                (ns.map symbolByte) = .ok ns :=
              ih.mpr ⟨fun m hm =>
                hBound m (List.mem_cons_of_mem n hm), rfl⟩
            rw [value?_symbolByte hFirst]
            dsimp only
            rw [hRest]
            rfl

------------------------------------------------------------
-- Last Groups
------------------------------------------------------------

/-
  The last four bytes of a base64 text, and the numbers of
  the symbols among them.
-/
inductive LastGroup : List UInt8 → List Nat → Prop where
  | two
      {a b : Nat}
      (ha : a < 64)
      (hb : b < 64) :
      LastGroup
        [symbolByte a, symbolByte b, padding, padding] [a, b]
  | three
      {a b c : Nat}
      (ha : a < 64)
      (hb : b < 64)
      (hc : c < 64) :
      LastGroup
        [symbolByte a, symbolByte b, symbolByte c, padding]
        [a, b, c]
  | four
      {a b c d : Nat}
      (ha : a < 64)
      (hb : b < 64)
      (hc : c < 64)
      (hd : d < 64) :
      LastGroup
        [symbolByte a, symbolByte b, symbolByte c, symbolByte d]
        [a, b, c, d]

theorem LastGroup.length_eq
    {last : List UInt8}
    {final : List Nat}
    (h : LastGroup last final) :
    last.length = 4 := by
  cases h <;> rfl

theorem LastGroup.two_le_length
    {last : List UInt8}
    {final : List Nat}
    (h : LastGroup last final) :
    2 ≤ final.length := by
  cases h <;> simp

theorem lastValues_padding
    {start place : Nat}
    {padded : Option Nat}
    {bytes : List UInt8}
    (h : 2 ≤ place) :
    lastValues start place padded (padding :: bytes) =
      lastValues start (place + 1) (padded.or (some place))
        bytes := by
  rw [lastValues.eq_def]
  dsimp only
  rw [if_pos rfl, if_neg (by omega)]

theorem lastValues_symbolByte
    {start place n : Nat}
    {bytes : List UInt8}
    (h : n < 64) :
    lastValues start place none (symbolByte n :: bytes) =
      (lastValues start (place + 1) none bytes).map (n :: ·) := by
  rw [lastValues.eq_def]
  dsimp only
  rw [if_neg (symbolByte_ne_padding h), value?_symbolByte h]
  dsimp only
  cases lastValues start (place + 1) none bytes <;> rfl

/-
  Without padding before it, a byte is a symbol or padding in
  the second half.
-/
theorem lastValues_cons_eq_ok_iff
    {start place : Nat}
    {b : UInt8}
    {bytes : List UInt8}
    {ns : List Nat} :
    lastValues start place none (b :: bytes) = .ok ns ↔
      (2 ≤ place ∧ b = padding ∧
        lastValues start (place + 1) (some place) bytes =
          .ok ns) ∨
      (∃ n later, n < 64 ∧ b = symbolByte n ∧
        lastValues start (place + 1) none bytes = .ok later ∧
        ns = n :: later) := by
  constructor
  · intro h
    rw [lastValues.eq_def] at h
    dsimp only at h
    split at h
    · rename_i hPadding
      split at h
      · cases h
      · exact Or.inl ⟨by omega, hPadding, h⟩
    · cases hValue : value? b with
      | none =>
          rw [hValue] at h
          cases h
      | some n =>
          rw [hValue] at h
          cases hRest :
              lastValues start (place + 1) none bytes with
          | error fault =>
              dsimp only at h
              rw [hRest] at h
              cases h
          | ok later =>
              dsimp only at h
              rw [hRest] at h
              cases h
              rcases value?_eq_some_iff.mp hValue with
                ⟨hBound, hByte⟩
              exact Or.inr ⟨n, later, hBound, hByte, rfl, rfl⟩
  · rintro (⟨hPlace, rfl, h⟩ | ⟨n, later, hn, rfl, h, rfl⟩)
    · rw [lastValues_padding hPlace]
      exact h
    · rw [lastValues_symbolByte hn, h]
      rfl

/- Behind padding there is nothing but padding. -/
theorem lastValues_some_cons_eq_ok_iff
    {start place first : Nat}
    {b : UInt8}
    {bytes : List UInt8}
    {ns : List Nat}
    (hPlace : 2 ≤ place) :
    lastValues start place (some first) (b :: bytes) = .ok ns ↔
      b = padding ∧
        lastValues start (place + 1) (some first) bytes =
          .ok ns := by
  constructor
  · intro h
    rw [lastValues.eq_def] at h
    dsimp only at h
    split at h
    · rename_i hPadding
      rw [if_neg (by omega)] at h
      exact ⟨hPadding, h⟩
    · cases h
  · rintro ⟨rfl, h⟩
    rw [lastValues_padding hPlace]
    exact h

theorem lastValues_nil_eq_ok_iff
    {start place : Nat}
    {padded : Option Nat}
    {ns : List Nat} :
    lastValues start place padded [] = .ok ns ↔ ns = [] := by
  rw [lastValues, Except.ok.injEq]
  exact eq_comm

/- Four bytes are a last group, or they are refused. -/
theorem lastValues_eq_ok_iff
    {start : Nat}
    {last : List UInt8}
    {final : List Nat}
    (hLength : last.length = 4) :
    lastValues start 0 none last = .ok final ↔
      LastGroup last final := by
  constructor
  · intro h
    match last, hLength with
    | [w, x, y, z], _ =>
      rw [lastValues_cons_eq_ok_iff] at h
      rcases h with ⟨hPlace, -⟩ | ⟨a, final, ha, rfl, h, rfl⟩
      · omega
      rw [lastValues_cons_eq_ok_iff] at h
      rcases h with ⟨hPlace, -⟩ | ⟨b, final, hb, rfl, h, rfl⟩
      · omega
      rw [lastValues_cons_eq_ok_iff] at h
      rcases h with ⟨-, rfl, h⟩ | ⟨c, final, hc, rfl, h, rfl⟩
      · rw [lastValues_some_cons_eq_ok_iff (by omega),
          lastValues_nil_eq_ok_iff] at h
        rcases h with ⟨rfl, rfl⟩
        exact LastGroup.two ha hb
      rw [lastValues_cons_eq_ok_iff] at h
      rcases h with ⟨-, rfl, h⟩ | ⟨d, final, hd, rfl, h, rfl⟩
      · rw [lastValues_nil_eq_ok_iff] at h
        rw [h]
        exact LastGroup.three ha hb hc
      · rw [lastValues_nil_eq_ok_iff] at h
        rw [h]
        exact LastGroup.four ha hb hc hd
  · intro h
    cases h with
    | two ha hb =>
        rw [lastValues_symbolByte ha, lastValues_symbolByte hb,
          lastValues_padding (by omega),
          lastValues_padding (by omega)]
        rfl
    | three ha hb hc =>
        rw [lastValues_symbolByte ha, lastValues_symbolByte hb,
          lastValues_symbolByte hc,
          lastValues_padding (by omega)]
        rfl
    | four ha hb hc hd =>
        rw [lastValues_symbolByte ha, lastValues_symbolByte hb,
          lastValues_symbolByte hc, lastValues_symbolByte hd]
        rfl

------------------------------------------------------------
-- Whole Texts
------------------------------------------------------------

/- Nothing is left over from whole groups. -/
theorem checkLeftover_of_whole
    {symbols : List UInt8}
    (h : symbols.length % 4 = 0) :
    checkLeftover symbols = .ok () := by
  unfold checkLeftover
  split
  · rfl
  · rw [if_neg]
    rintro ⟨hAlone, -⟩
    omega

/-
  What is read is empty, or groups of symbols and a last
  group that leaves no bits over.
-/
theorem ofSymbols_eq_ok_iff
    {symbols bytes : List UInt8} :
    ofSymbols symbols = .ok bytes ↔
      (symbols = [] ∧ bytes = []) ∨
      ∃ ns last final,
        (∀ n ∈ ns, n < 64) ∧ ns.length % 4 = 0 ∧
          LastGroup last final ∧ looseValue final = 0 ∧
          symbols = ns.map symbolByte ++ last ∧
          bytes = assemble (ns ++ final) := by
  constructor
  · intro h
    simp only [ofSymbols, Except.bind_eq_ok_iff] at h
    rcases h with ⟨⟨⟩, -, ns, hFront, final, hFinal, h⟩
    split at h
    · cases h
    split at h
    · cases h
    split at h
    · cases h
    rename_i hEnough hGroup hLoose
    cases h
    rw [Classical.not_not, List.length_drop] at hGroup
    have hSize : symbols.length % 4 = 0 := by
      unfold lastSize at hGroup
      split at hGroup <;> omega
    rw [lastSize, if_pos hSize] at hGroup hFront hFinal
    by_cases hEmpty : symbols = []
    · left
      subst hEmpty
      cases hFront
      cases hFinal
      exact ⟨rfl, rfl⟩
    · right
      have hLength := List.length_pos_iff.mpr hEmpty
      have hLast :
          (symbols.drop
            (symbols.length - min 4 symbols.length)).length =
              4 := by
        rw [List.length_drop]
        omega
      rw [lastValues_eq_ok_iff hLast] at hFinal
      rcases values_eq_ok_iff.mp hFront with
        ⟨hBound, hSymbols⟩
      have hCount := congrArg List.length hSymbols
      rw [List.length_take, List.length_map] at hCount
      refine ⟨ns, _, final, hBound, by omega, hFinal,
        Classical.not_not.mp hLoose, ?_, rfl⟩
      rw [← hSymbols, List.take_append_drop]
  · rintro (⟨rfl, rfl⟩ | ⟨ns, last, final, hBound, hLength,
      hLast, hLoose, rfl, rfl⟩)
    · rfl
    · have hSize :
          (ns.map symbolByte ++ last).length = ns.length + 4 := by
        rw [List.length_append, List.length_map, hLast.length_eq]
      have hWhole : (ns.length + 4) % 4 = 0 := by omega
      have hStart :
          ns.length + 4 - lastSize (ns.length + 4) =
            (ns.map symbolByte).length := by
        rw [lastSize, if_pos hWhole, List.length_map]
        omega
      simp only [ofSymbols, Except.bind_eq_ok_iff, hSize,
        hStart, List.take_left', List.drop_left',
        lastValues_eq_ok_iff hLast.length_eq, values_eq_ok_iff]
      refine ⟨(), ?_, ns, ⟨hBound, rfl⟩, final, hLast, ?_⟩
      · exact checkLeftover_of_whole (by rw [hSize, hWhole])
      · have hEnough : ¬(last ≠ [] ∧ final.length < 2) := by
          intro h
          exact absurd h.2 (Nat.not_lt.mpr hLast.two_le_length)
        have hFull : ¬last.length % 4 ≠ 0 := by
          rw [hLast.length_eq]
          decide
        rw [if_neg hEnough, if_neg hFull,
          if_neg (Classical.not_not.mpr hLoose)]
        rfl

------------------------------------------------------------
-- Bytes and Numbers
------------------------------------------------------------

/- Groups of four numbers stand for groups of three bytes. -/
theorem assemble_append
    {ns : List Nat}
    (final : List Nat)
    (h : ns.length % 4 = 0) :
    assemble (ns ++ final) = assemble ns ++ assemble final := by
  fun_induction assemble ns with
  | case1 a b c d rest ih =>
      have hRest : rest.length % 4 = 0 := by
        simp only [List.length_cons] at h
        omega
      have hCons :
          a :: b :: c :: d :: rest ++ final =
            a :: b :: c :: d :: (rest ++ final) :=
        rfl
      rw [hCons, assemble, ih hRest]
      rfl
  | case2 => cases h
  | case3 => cases h
  | case4 ns hFour hThree hTwo =>
      match ns, h with
      | [], _ => rfl
      | a :: b :: c :: d :: rest, _ =>
          exact (hFour a b c d rest rfl).elim

/- The symbols of three bytes are four. -/
theorem encode_ofBytes_cons
    (a b c : UInt8)
    (rest : List UInt8) :
    Utf8.encode (ofBytes (a :: b :: c :: rest)) =
      symbolByte (a.toNat / 4) ::
      symbolByte (a.toNat % 4 * 16 + b.toNat / 16) ::
      symbolByte (b.toNat % 16 * 4 + c.toNat / 64) ::
      symbolByte (c.toNat % 64) ::
        Utf8.encode (ofBytes rest) := by
  have ha := a.toNat_lt
  have hb := b.toNat_lt
  have hc := c.toNat_lt
  rw [ofBytes, Utf8.encode_cons, Utf8.encode_cons,
    Utf8.encode_cons, Utf8.encode_cons,
    encodeChar_symbol (by omega), encodeChar_symbol (by omega),
    encodeChar_symbol (by omega), encodeChar_symbol (by omega)]
  rfl

theorem toNat_ofNat_of_lt
    {n : Nat}
    (h : n < 256) :
    (UInt8.ofNat n).toNat = n :=
  UInt8.toNat_ofNat_of_lt' h

/- Groups of four numbers have their symbols back. -/
theorem encode_ofBytes_assemble_append
    (ns : List Nat)
    (rest : List UInt8)
    (hBound : ∀ n ∈ ns, n < 64)
    (hLength : ns.length % 4 = 0) :
    Utf8.encode (ofBytes (assemble ns ++ rest)) =
      ns.map symbolByte ++ Utf8.encode (ofBytes rest) := by
  fun_induction assemble ns with
  | case1 a b c d ns ih =>
      have hNs : ns.length % 4 = 0 := by
        simp only [List.length_cons] at hLength
        omega
      simp only [List.forall_mem_cons] at hBound
      rcases hBound with ⟨ha, hb, hc, hd, hBound⟩
      have hFirst : (a * 4 + b / 16) / 4 = a := by omega
      have hSecond :
          (a * 4 + b / 16) % 4 * 16 +
            (b % 16 * 16 + c / 4) / 16 = b := by
        omega
      have hThird :
          (b % 16 * 16 + c / 4) % 16 * 4 +
            (c % 4 * 64 + d) / 64 = c := by
        omega
      have hFourth : (c % 4 * 64 + d) % 64 = d := by omega
      rw [List.cons_append, List.cons_append, List.cons_append,
        encode_ofBytes_cons, ih hBound hNs,
        toNat_ofNat_of_lt (by omega),
        toNat_ofNat_of_lt (by omega),
        toNat_ofNat_of_lt (by omega), hFirst, hSecond,
        hThird, hFourth]
      rfl
  | case2 => cases hLength
  | case3 => cases hLength
  | case4 ns hFour hThree hTwo =>
      match ns, hLength with
      | [], _ => rfl
      | a :: b :: c :: d :: ns, _ =>
          exact (hFour a b c d ns rfl).elim

/- A last group without loose bits is that of its bytes. -/
theorem encode_ofBytes_assemble
    {last : List UInt8}
    {final : List Nat}
    (h : LastGroup last final)
    (hLoose : looseValue final = 0) :
    Utf8.encode (ofBytes (assemble final)) = last := by
  cases h with
  | @two a b ha hb =>
      have hNone : b % 16 = 0 := hLoose
      have hFirst : (a * 4 + b / 16) / 4 = a := by omega
      have hSecond : (a * 4 + b / 16) % 4 * 16 = b := by omega
      rw [assemble, ofBytes, toNat_ofNat_of_lt (by omega),
        hFirst, hSecond, Utf8.encode_cons, Utf8.encode_cons,
        encodeChar_symbol ha, encodeChar_symbol hb]
      rfl
  | @three a b c ha hb hc =>
      have hNone : c % 4 = 0 := hLoose
      have hFirst : (a * 4 + b / 16) / 4 = a := by omega
      have hSecond :
          (a * 4 + b / 16) % 4 * 16 +
            (b % 16 * 16 + c / 4) / 16 = b := by
        omega
      have hThird : (b % 16 * 16 + c / 4) % 16 * 4 = c := by
        omega
      rw [assemble, ofBytes, toNat_ofNat_of_lt (by omega),
        toNat_ofNat_of_lt (by omega), hFirst, hSecond,
        hThird, Utf8.encode_cons, Utf8.encode_cons,
        Utf8.encode_cons, encodeChar_symbol ha,
        encodeChar_symbol hb, encodeChar_symbol hc]
      rfl
  | @four a b c d ha hb hc hd =>
      have hBound : ∀ n ∈ [a, b, c, d], n < 64 := by
        simp [ha, hb, hc, hd]
      have hGroup := encode_ofBytes_assemble_append
        [a, b, c, d] [] hBound (Nat.mod_self 4)
      rwa [List.append_nil] at hGroup

/- The numbers of three bytes. -/
def numbers (a b c : UInt8) : List Nat :=
  [a.toNat / 4, a.toNat % 4 * 16 + b.toNat / 16,
    b.toNat % 16 * 4 + c.toNat / 64, c.toNat % 64]

theorem lt_of_mem_numbers
    {a b c : UInt8}
    {n : Nat}
    (h : n ∈ numbers a b c) :
    n < 64 := by
  have ha := a.toNat_lt
  have hb := b.toNat_lt
  have hc := c.toNat_lt
  simp only [numbers, List.mem_cons, List.not_mem_nil,
    or_false] at h
  omega

theorem assemble_numbers_append
    (a b c : UInt8)
    (ns : List Nat) :
    assemble (numbers a b c ++ ns) = a :: b :: c :: assemble ns := by
  have ha := a.toNat_lt
  have hb := b.toNat_lt
  have hc := c.toNat_lt
  have hFirst :
      a.toNat / 4 * 4 +
        (a.toNat % 4 * 16 + b.toNat / 16) / 16 = a.toNat := by
    omega
  have hSecond :
      (a.toNat % 4 * 16 + b.toNat / 16) % 16 * 16 +
        (b.toNat % 16 * 4 + c.toNat / 64) / 4 = b.toNat := by
    omega
  have hThird :
      (b.toNat % 16 * 4 + c.toNat / 64) % 4 * 64 +
        c.toNat % 64 = c.toNat := by
    omega
  rw [numbers, List.cons_append, List.cons_append,
    List.cons_append, List.cons_append, List.nil_append,
    assemble, hFirst, hSecond, hThird, UInt8.ofNat_toNat,
    UInt8.ofNat_toNat, UInt8.ofNat_toNat]

/- Bytes are made of numbers, with a last group. -/
theorem exists_numbers
    {bytes : List UInt8}
    (h : bytes ≠ []) :
    ∃ ns last final,
      (∀ n ∈ ns, n < 64) ∧ ns.length % 4 = 0 ∧
        LastGroup last final ∧ looseValue final = 0 ∧
        bytes = assemble (ns ++ final) := by
  induction bytes using ofBytes.induct with
  | case1 => exact absurd rfl h
  | case2 a =>
      have hByte := a.toNat_lt
      have hWhole :
          a.toNat / 4 * 4 + a.toNat % 4 * 16 / 16 = a.toNat := by
        omega
      refine ⟨[], _, [a.toNat / 4, a.toNat % 4 * 16], by simp,
        rfl, .two (by omega) (by omega), ?_, ?_⟩
      · show a.toNat % 4 * 16 % 16 = 0
        omega
      · rw [List.nil_append, assemble, hWhole,
          UInt8.ofNat_toNat]
  | case3 a b =>
      have hA := a.toNat_lt
      have hB := b.toNat_lt
      have hFirst :
          a.toNat / 4 * 4 +
            (a.toNat % 4 * 16 + b.toNat / 16) / 16 =
              a.toNat := by
        omega
      have hSecond :
          (a.toNat % 4 * 16 + b.toNat / 16) % 16 * 16 +
            b.toNat % 16 * 4 / 4 = b.toNat := by
        omega
      refine ⟨[], _,
        [a.toNat / 4, a.toNat % 4 * 16 + b.toNat / 16,
          b.toNat % 16 * 4], by simp, rfl,
        .three (by omega) (by omega) (by omega), ?_, ?_⟩
      · show b.toNat % 16 * 4 % 4 = 0
        omega
      · rw [List.nil_append, assemble, hFirst, hSecond,
          UInt8.ofNat_toNat, UInt8.ofNat_toNat]
  | case4 a b c rest ih =>
      have hA := a.toNat_lt
      have hB := b.toNat_lt
      have hC := c.toNat_lt
      by_cases hRest : rest = []
      · subst hRest
        refine ⟨[], _, numbers a b c, by simp, rfl,
          .four (by omega) (by omega) (by omega) (by omega), rfl,
          ?_⟩
        exact (assemble_numbers_append a b c []).symm
      · rcases ih hRest with
          ⟨ns, last, final, hBound, hLength, hLast, hLoose, rfl⟩
        refine ⟨numbers a b c ++ ns, last, final, ?_, ?_, hLast,
          hLoose, ?_⟩
        · intro n hn
          rcases List.mem_append.mp hn with hFirst | hLater
          · exact lt_of_mem_numbers hFirst
          · exact hBound n hLater
        · rw [List.length_append]
          show (4 + ns.length) % 4 = 0
          omega
        · rw [List.append_assoc, assemble_numbers_append]

/- The symbols of bytes are read as these bytes. -/
theorem toBytes_ofBytes (bytes : List UInt8) :
    toBytes (ofBytes bytes) = .ok bytes := by
  rw [toBytes, ofSymbols_eq_ok_iff]
  by_cases hBytes : bytes = []
  · left
    subst hBytes
    exact ⟨rfl, rfl⟩
  · right
    rcases exists_numbers hBytes with
      ⟨ns, last, final, hBound, hLength, hLast, hLoose, rfl⟩
    refine ⟨ns, last, final, hBound, hLength, hLast, hLoose, ?_,
      rfl⟩
    rw [assemble_append final hLength,
      encode_ofBytes_assemble_append ns _ hBound hLength,
      encode_ofBytes_assemble hLast hLoose]

/- A text that is read has the symbols of what is read. -/
theorem eq_ofBytes_of_toBytes
    {t : Text}
    {bytes : List UInt8}
    (h : toBytes t = .ok bytes) :
    t = ofBytes bytes := by
  apply Utf8.encode_injective
  rw [toBytes, ofSymbols_eq_ok_iff] at h
  rcases h with ⟨hEmpty, rfl⟩ | ⟨ns, last, final, hBound,
    hLength, hLast, hLoose, hSymbols, rfl⟩
  · rw [hEmpty]
    rfl
  · rw [hSymbols, assemble_append final hLength,
      encode_ofBytes_assemble_append ns _ hBound hLength,
      encode_ofBytes_assemble hLast hLoose]

end Base64

end CodecChain
