import CodecChain.Text.Utf8

/-
  Texts and their bytes. Reading finds the character whose
  bytes stand at the beginning of the input, and nothing but
  the bytes of a text is read as that text.

  Main statements:
    * `Utf8.leading_eq_some_iff`
    * `Utf8.scan_encode_append`
    * `Utf8.decode_eq_ok_iff`
-/

------------------------------------------------------------
-- Code Points
------------------------------------------------------------

namespace CodecChain

namespace Utf8

theorem toNat_continuation (n : Nat) :
    (continuation n).toNat = 0x80 + n % 64 := by
  rw [continuation, UInt8.toNat_ofNat']
  omega

theorem toNat_lt (c : Char) : c.toNat < 0x110000 := by
  have hValid := c.valid
  simp only [UInt32.isValidChar, Nat.isValidChar] at hValid
  show c.val.toNat < _
  omega

/- A code point from the least one on is that of its character. -/
theorem scalar?_eq_some_iff
    {least n : Nat}
    {c : Char} :
    scalar? least n = some c ↔ least ≤ n ∧ n = c.toNat := by
  unfold scalar?
  constructor
  · intro h
    by_cases hValid : least ≤ n ∧ n.isValidChar
    · rw [dif_pos hValid] at h
      cases h
      exact ⟨hValid.1, rfl⟩
    · rw [dif_neg hValid] at h
      cases h
  · rintro ⟨hLeast, rfl⟩
    have hValid : least ≤ c.toNat ∧ c.toNat.isValidChar :=
      ⟨hLeast, c.valid⟩
    rw [dif_pos hValid]
    rfl

/-
  Continuation bytes are those of the numbers below sixty-four,
  which are added in order.
-/
theorem continued_succ_eq_some_iff
    {k n m : Nat}
    {bytes rest : List UInt8} :
    continued (k + 1) n bytes = some (m, rest) ↔
      ∃ d later,
        d < 64 ∧ bytes = continuation d :: later ∧
          continued k (n * 64 + d) later = some (m, rest) := by
  cases bytes with
  | nil => simp [continued]
  | cons b bytes =>
      simp only [continued, List.cons.injEq]
      constructor
      · intro h
        split at h
        · rename_i hRange
          refine ⟨b.toNat - 0x80, bytes, by omega,
            ⟨?_, rfl⟩, h⟩
          apply UInt8.toNat_inj.mp
          rw [toNat_continuation]
          omega
        · cases h
      · rintro ⟨d, later, hd, ⟨rfl, rfl⟩, h⟩
        rw [toNat_continuation, if_pos (by omega)]
        have hBits : 0x80 + d % 64 - 0x80 = d := by omega
        rw [hBits]
        exact h

/- Only the low six bits of a number are in its continuation. -/
theorem continuation_mul_add
    (n d : Nat) :
    continuation (n * 64 + d) = continuation d := by
  have hLow : (n * 64 + d) % 64 = d % 64 := by omega
  rw [continuation, continuation, hLow]

theorem continued_continuation
    (k n m : Nat)
    (bytes : List UInt8) :
    continued (k + 1) n (continuation m :: bytes) =
      continued k (n * 64 + m % 64) bytes := by
  rw [continued, toNat_continuation, if_pos (by omega),
    Nat.add_sub_cancel_left]

theorem continued_zero_eq_some_iff
    {n m : Nat}
    {bytes rest : List UInt8} :
    continued 0 n bytes = some (m, rest) ↔
      n = m ∧ bytes = rest := by
  simp [continued]

/-
  The first bytes of characters, and what they announce: how
  many bytes continue the character, the least code point that
  needs as many, and the leading bits.
-/
inductive Announces : UInt8 → Nat → Nat → Nat → Prop where
  | one
      {n : Nat}
      (h : n < 0x80) :
      Announces (UInt8.ofNat n) 0 0 n
  | two
      {n : Nat}
      (h : n < 0x20) :
      Announces (UInt8.ofNat (0xc0 + n)) 1 0x80 n
  | three
      {n : Nat}
      (h : n < 0x10) :
      Announces (UInt8.ofNat (0xe0 + n)) 2 0x800 n
  | four
      {n : Nat}
      (h : n < 0x08) :
      Announces (UInt8.ofNat (0xf0 + n)) 3 0x10000 n

theorem announce_eq_some_iff
    {b : UInt8}
    {count least bits : Nat} :
    announce b = some (count, least, bits) ↔
      Announces b count least bits := by
  constructor
  · intro h
    have hByte (k : Nat) (hk : k ≤ b.toNat) :
        UInt8.ofNat (k + (b.toNat - k)) = b := by
      rw [Nat.add_sub_cancel' hk, UInt8.ofNat_toNat]
    unfold announce at h
    dsimp only at h
    split at h
    · cases h
      have hFirst := Announces.one (n := b.toNat) (by omega)
      rwa [UInt8.ofNat_toNat] at hFirst
    split at h
    · cases h
    split at h
    · cases h
      have hFirst :=
        Announces.two (n := b.toNat - 0xc0) (by omega)
      rwa [hByte 0xc0 (by omega)] at hFirst
    split at h
    · cases h
      have hFirst :=
        Announces.three (n := b.toNat - 0xe0) (by omega)
      rwa [hByte 0xe0 (by omega)] at hFirst
    split at h
    · cases h
      have hFirst :=
        Announces.four (n := b.toNat - 0xf0) (by omega)
      rwa [hByte 0xf0 (by omega)] at hFirst
    · cases h
  · intro h
    cases h with
    | one h =>
        rw [announce, UInt8.toNat_ofNat', Nat.mod_eq_of_lt
          (by omega), if_pos h]
    | two h =>
        rw [announce, UInt8.toNat_ofNat', Nat.mod_eq_of_lt
          (by omega), if_neg (by omega), if_neg (by omega),
          if_pos (by omega), Nat.add_sub_cancel_left]
    | three h =>
        rw [announce, UInt8.toNat_ofNat', Nat.mod_eq_of_lt
          (by omega), if_neg (by omega), if_neg (by omega),
          if_neg (by omega), if_pos (by omega),
          Nat.add_sub_cancel_left]
    | four h =>
        rw [announce, UInt8.toNat_ofNat', Nat.mod_eq_of_lt
          (by omega), if_neg (by omega), if_neg (by omega),
          if_neg (by omega), if_neg (by omega),
          if_pos (by omega), Nat.add_sub_cancel_left]

------------------------------------------------------------
-- Single Characters
------------------------------------------------------------

variable {c : Char} {rest : List UInt8}

theorem leading_cons_eq_some_iff
    {b : UInt8}
    {bytes : List UInt8} :
    leading (b :: bytes) = some (c, rest) ↔
      ∃ count least bits,
        Announces b count least bits ∧
        continued count bits bytes = some (c.toNat, rest) ∧
        least ≤ c.toNat := by
  simp only [leading, Option.bind_eq_bind,
    Option.bind_eq_some_iff, Prod.exists, scalar?_eq_some_iff,
    announce_eq_some_iff, Option.pure_def, Option.some.injEq,
    Prod.mk.injEq]
  constructor
  · rintro ⟨count, least, bits, hFirst, n, later, hMore, _,
      ⟨hLeast, rfl⟩, rfl, rfl⟩
    exact ⟨count, least, bits, hFirst, hMore, hLeast⟩
  · rintro ⟨count, least, bits, hFirst, hMore, hLeast⟩
    exact ⟨count, least, bits, hFirst, c.toNat, rest, hMore, c,
      ⟨hLeast, rfl⟩, rfl, rfl⟩

/- The bytes of a character are read as that character. -/
theorem leading_encodeChar_append
    (c : Char)
    (rest : List UInt8) :
    leading (encodeChar c ++ rest) = some (c, rest) := by
  have hBound := toNat_lt c
  generalize hn : c.toNat = n at hBound
  unfold encodeChar
  dsimp only
  rw [hn]
  split
  · rw [List.cons_append, leading_cons_eq_some_iff, hn]
    exact ⟨0, 0, n, .one (by omega), rfl, by omega⟩
  split
  · rw [List.cons_append, leading_cons_eq_some_iff, hn]
    refine ⟨1, 0x80, n / 64, .two (by omega), ?_, by omega⟩
    rw [List.cons_append, continued_continuation,
      continued_zero_eq_some_iff]
    exact ⟨by omega, rfl⟩
  split
  · rw [List.cons_append, leading_cons_eq_some_iff, hn]
    refine ⟨2, 0x800, n / 4096, .three (by omega), ?_,
      by omega⟩
    rw [List.cons_append, continued_continuation,
      List.cons_append, continued_continuation,
      continued_zero_eq_some_iff]
    exact ⟨by omega, rfl⟩
  · rw [List.cons_append, leading_cons_eq_some_iff, hn]
    refine ⟨3, 0x10000, n / 262144, .four (by omega), ?_,
      by omega⟩
    rw [List.cons_append, continued_continuation,
      List.cons_append, continued_continuation,
      List.cons_append, continued_continuation,
      continued_zero_eq_some_iff]
    exact ⟨by omega, rfl⟩

/- What is read as a character begins with its bytes. -/
theorem eq_encodeChar_append_of_leading
    {bytes : List UInt8}
    (h : leading bytes = some (c, rest)) :
    bytes = encodeChar c ++ rest := by
  cases bytes with
  | nil => cases h
  | cons b bytes =>
      rw [leading_cons_eq_some_iff] at h
      rcases h with ⟨count, least, bits, hFirst, hMore, hLeast⟩
      unfold encodeChar
      dsimp only
      cases hFirst with
      | one hBits =>
          rw [continued_zero_eq_some_iff] at hMore
          rcases hMore with ⟨hCode, rfl⟩
          rw [← hCode, if_pos hBits]
          rfl
      | two hBits =>
          rw [continued_succ_eq_some_iff] at hMore
          rcases hMore with ⟨d, later, hd, rfl, hMore⟩
          rw [continued_zero_eq_some_iff] at hMore
          rcases hMore with ⟨hCode, rfl⟩
          have hHigh : (bits * 64 + d) / 64 = bits := by omega
          rw [← hCode, if_neg (by omega), if_pos (by omega),
            hHigh, continuation_mul_add]
          rfl
      | three hBits =>
          rw [continued_succ_eq_some_iff] at hMore
          rcases hMore with ⟨d, later, hd, rfl, hMore⟩
          rw [continued_succ_eq_some_iff] at hMore
          rcases hMore with ⟨e, later, he, rfl, hMore⟩
          rw [continued_zero_eq_some_iff] at hMore
          rcases hMore with ⟨hCode, rfl⟩
          have hHigh :
              ((bits * 64 + d) * 64 + e) / 4096 = bits := by
            omega
          have hMiddle :
              ((bits * 64 + d) * 64 + e) / 64 = bits * 64 + d := by
            omega
          rw [← hCode, if_neg (by omega), if_neg (by omega),
            if_pos (by omega), hHigh, hMiddle,
            continuation_mul_add, continuation_mul_add]
          rfl
      | four hBits =>
          rw [continued_succ_eq_some_iff] at hMore
          rcases hMore with ⟨d, later, hd, rfl, hMore⟩
          rw [continued_succ_eq_some_iff] at hMore
          rcases hMore with ⟨e, later, he, rfl, hMore⟩
          rw [continued_succ_eq_some_iff] at hMore
          rcases hMore with ⟨f, later, hf, rfl, hMore⟩
          rw [continued_zero_eq_some_iff] at hMore
          rcases hMore with ⟨hCode, rfl⟩
          have hHigh :
              (((bits * 64 + d) * 64 + e) * 64 + f) / 262144 =
                bits := by
            omega
          have hSecond :
              (((bits * 64 + d) * 64 + e) * 64 + f) / 4096 =
                bits * 64 + d := by
            omega
          have hThird :
              (((bits * 64 + d) * 64 + e) * 64 + f) / 64 =
                (bits * 64 + d) * 64 + e := by
            omega
          rw [← hCode, if_neg (by omega), if_neg (by omega),
            if_neg (by omega), hHigh, hSecond, hThird,
            continuation_mul_add, continuation_mul_add,
            continuation_mul_add]
          rfl

/- Bytes begin with a character exactly if with its bytes. -/
theorem leading_eq_some_iff
    {bytes : List UInt8} :
    leading bytes = some (c, rest) ↔
      bytes = encodeChar c ++ rest := by
  constructor
  · exact eq_encodeChar_append_of_leading
  · rintro rfl
    exact leading_encodeChar_append c rest

theorem encodeChar_ne_nil (c : Char) :
    encodeChar c ≠ [] := by
  intro hNone
  have hRead := leading_encodeChar_append c []
  rw [hNone, List.append_nil] at hRead
  cases hRead

/- A small byte is the character that it is part of. -/
theorem toNat_eq_of_mem_encodeChar
    {b : UInt8}
    {c : Char}
    (h : b ∈ encodeChar c)
    (hSmall : b.toNat < 0x80) :
    c.toNat = b.toNat := by
  have hBound := toNat_lt c
  unfold encodeChar at h
  dsimp only at h
  generalize c.toNat = n at h hBound ⊢
  split at h
  · rw [List.mem_singleton] at h
    rw [h, UInt8.toNat_ofNat', Nat.mod_eq_of_lt (by omega)]
  split at h
  · simp only [List.mem_cons, List.not_mem_nil, or_false] at h
    rcases h with rfl | rfl <;>
      simp only [UInt8.toNat_ofNat', toNat_continuation]
        at hSmall <;>
      omega
  split at h
  · simp only [List.mem_cons, List.not_mem_nil, or_false] at h
    rcases h with rfl | rfl | rfl <;>
      simp only [UInt8.toNat_ofNat', toNat_continuation]
        at hSmall <;>
      omega
  · simp only [List.mem_cons, List.not_mem_nil, or_false] at h
    rcases h with rfl | rfl | rfl | rfl <;>
      simp only [UInt8.toNat_ofNat', toNat_continuation]
        at hSmall <;>
      omega

------------------------------------------------------------
-- Texts
------------------------------------------------------------

theorem encode_cons
    (c : Char)
    (t : Text) :
    encode (c :: t) = encodeChar c ++ encode t :=
  List.flatMap_cons

/- The bytes of a text of small code points are these. -/
theorem encode_eq_map
    {t : Text}
    (h : ∀ c ∈ t, c.toNat < 0x80) :
    encode t = t.map fun c => UInt8.ofNat c.toNat := by
  induction t with
  | nil => rfl
  | cons c t ih =>
      have hFirst := h c List.mem_cons_self
      have hRest := ih fun d hd => h d (List.mem_cons_of_mem c hd)
      rw [encode_cons, hRest, encodeChar]
      simp only [hFirst, if_true, List.singleton_append,
        List.map_cons]

/- Reading goes past the bytes of a text. -/
theorem scan_encode_append
    (before t : Text)
    (rest : List UInt8) :
    scan before (encode t ++ rest) =
      scan (t.reverse ++ before) rest := by
  induction t generalizing before with
  | nil => rfl
  | cons c t ih =>
      rw [encode_cons, List.append_assoc, scan,
        leading_encodeChar_append]
      dsimp only
      rw [ih, List.reverse_cons, List.append_assoc,
        List.singleton_append]

/-
  Reading stops behind the bytes of a text, where no character
  begins.
-/
theorem exists_of_scan_eq
    {before t : Text}
    {bytes : List UInt8}
    (h : scan before bytes = (t, rest)) :
    ∃ read,
      t = before.reverse ++ read ∧
        bytes = encode read ++ rest ∧ leading rest = none := by
  fun_induction scan before bytes with
  | case1 before bytes hNone =>
      cases h
      exact ⟨[], by simp, rfl, hNone⟩
  | case2 before bytes c later hSome ih =>
      rcases ih h with ⟨read, rfl, rfl, hNone⟩
      refine ⟨c :: read, by simp, ?_, hNone⟩
      rw [encode_cons, List.append_assoc]
      exact leading_eq_some_iff.mp hSome

/- Bytes are read as a text exactly if they are its bytes. -/
theorem decode_eq_ok_iff
    {bytes : List UInt8}
    {t : Text} :
    decode bytes = .ok t ↔ bytes = encode t := by
  constructor
  · intro h
    unfold decode at h
    rcases hScan : scan [] bytes with ⟨read, rest⟩
    rw [hScan] at h
    rcases exists_of_scan_eq hScan with ⟨_, rfl, hBytes, -⟩
    cases rest with
    | nil =>
        cases h
        simpa using hBytes
    | cons b rest => cases h
  · rintro rfl
    have hScan := scan_encode_append [] t []
    have hEnd : scan (t.reverse ++ []) [] = (t, []) := by
      rw [scan]
      simp [leading]
    rw [List.append_nil, hEnd] at hScan
    rw [decode, hScan]

theorem decode_encode (t : Text) :
    decode (encode t) = .ok t :=
  decode_eq_ok_iff.mpr rfl

theorem encode_injective : Function.Injective encode := by
  intro s t h
  have hDecode := decode_encode s
  rw [h, decode_encode t, Except.ok.injEq] at hDecode
  exact hDecode.symm

end Utf8

end CodecChain
