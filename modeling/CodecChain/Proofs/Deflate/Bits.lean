import CodecChain.Deflate.Bits

/-
  Bits that a stream gives next. A reader is understood by
  the bits it needs to find: it takes exactly those, wherever
  in a byte they begin and whatever comes after them.

  Key definitions include:
    * `Deflate.Bits.Gives`

  Main statements:
    * `Deflate.number_of_gives`
    * `Deflate.gives_pack`
-/

------------------------------------------------------------
-- Readers in Sequence
------------------------------------------------------------

namespace CodecChain

namespace Deflate

variable {α β : Type} {s s' : Bits}

theorem bind_of_ok
    {r : Reader α}
    {a : α}
    (f : α → Reader β)
    (h : r s = .ok (a, s')) :
    (r >>= f) s = f a s' := by
  have hBind :
      (r >>= f) s = (r s >>= fun p => f p.1 p.2) :=
    rfl
  rw [hBind, h]
  rfl

------------------------------------------------------------
-- Bits That Come Next
------------------------------------------------------------

/-
  A stream gives bits and becomes another one, if these are
  the bits that are taken from it one by one.
-/
inductive Bits.Gives : Bits → List Bool → Bits → Prop where
  | nil
      {s : Bits} :
      Gives s [] s
  | cons
      {s s₁ s' : Bits}
      {bit : Bool}
      {bits : List Bool}
      (hFirst : nextBit s = .ok (bit, s₁))
      (hRest : Gives s₁ bits s') :
      Gives s (bit :: bits) s'

namespace Bits

theorem gives_append_iff
    {front back : List Bool} :
    s.Gives (front ++ back) s' ↔
      ∃ s₁, s.Gives front s₁ ∧ s₁.Gives back s' := by
  induction front generalizing s with
  | nil =>
      constructor
      · intro h
        exact ⟨s, .nil, h⟩
      · rintro ⟨s₁, hFront, hBack⟩
        cases hFront
        exact hBack
  | cons bit front ih =>
      constructor
      · intro h
        cases h with
        | cons hFirst hRest =>
            rcases ih.mp hRest with ⟨s₁, hFront, hBack⟩
            exact ⟨s₁, .cons hFirst hFront, hBack⟩
      · rintro ⟨s₁, hFront, hBack⟩
        cases hFront with
        | cons hFirst hRest =>
            exact .cons hFirst (ih.mpr ⟨s₁, hRest, hBack⟩)

theorem Gives.append
    {s₁ : Bits}
    {front back : List Bool}
    (hFront : s.Gives front s₁)
    (hBack : s₁.Gives back s') :
    s.Gives (front ++ back) s' :=
  gives_append_iff.mpr ⟨s₁, hFront, hBack⟩

/- A byte that has been begun gives its bits. -/
theorem gives_begun
    (bits begun : List Bool)
    (bytes : List UInt8) :
    Gives ⟨bits ++ begun, bytes⟩ bits ⟨begun, bytes⟩ := by
  induction bits with
  | nil => exact .nil
  | cons bit bits ih => exact .cons rfl ih

/- The bits of a byte, from the least significant one on. -/
def ofByte (b : UInt8) : List Bool :=
  b.toNat.testBit 0 :: laterBits b

/- A whole byte gives its bits, as many as are asked for. -/
theorem gives_ofByte
    {b : UInt8}
    {bits begun : List Bool}
    (bytes : List UInt8)
    (hBits : bits ≠ [])
    (h : ofByte b = bits ++ begun) :
    Gives ⟨[], b :: bytes⟩ bits ⟨begun, bytes⟩ := by
  cases bits with
  | nil => exact absurd rfl hBits
  | cons bit bits =>
      rw [ofByte, List.cons_append, List.cons.injEq] at h
      rcases h with ⟨rfl, hLater⟩
      have hFirst :
          nextBit ⟨[], b :: bytes⟩ =
            .ok (b.toNat.testBit 0, ⟨laterBits b, bytes⟩) :=
        rfl
      rw [hLater] at hFirst
      exact .cons hFirst (gives_begun bits begun bytes)

end Bits

------------------------------------------------------------
-- Numbers
------------------------------------------------------------

theorem nextBit_of_gives
    {bit : Bool}
    {bits : List Bool}
    (h : s.Gives (bit :: bits) s') :
    ∃ s₁, nextBit s = .ok (bit, s₁) ∧ s₁.Gives bits s' := by
  cases h with
  | cons hFirst hRest => exact ⟨_, hFirst, hRest⟩

/- A number is taken where its bits are given. -/
theorem number_of_gives
    {k n : Nat}
    (hBound : n < Nat.pow 2 k)
    (h : s.Gives (bitsOf k n) s') :
    number k s = .ok (n, s') := by
  induction k generalizing n s with
  | zero =>
      cases h
      have hZero : n = 0 := Nat.lt_one_iff.mp hBound
      rw [hZero]
      rfl
  | succ k ih =>
      rcases nextBit_of_gives h with ⟨s₁, hFirst, hRest⟩
      have hPower : Nat.pow 2 (k + 1) = Nat.pow 2 k * 2 := rfl
      have hHalf : n / 2 < Nat.pow 2 k := by omega
      have hSum : (n % 2 == 1).toNat + 2 * (n / 2) = n := by
        rcases Nat.mod_two_eq_zero_or_one n with hBit | hBit
        · rw [hBit]
          show 0 + 2 * (n / 2) = n
          omega
        · rw [hBit]
          show 1 + 2 * (n / 2) = n
          omega
      rw [number, bind_of_ok _ hFirst,
        bind_of_ok _ (ih hHalf hRest), hSum]
      rfl

------------------------------------------------------------
-- Packed Bits
------------------------------------------------------------

/- Up to eight bits are the first ones of their byte. -/
theorem ofByte_value
    {bits : List Bool}
    (h : bits.length ≤ 8) :
    Bits.ofByte (UInt8.ofNat (value bits)) =
      bits ++ List.replicate (8 - bits.length) false := by
  match bits, h with
  | [], _ => decide
  | [a], _ => decide +kernel +revert
  | [a, b], _ => decide +kernel +revert
  | [a, b, c], _ => decide +kernel +revert
  | [a, b, c, d], _ => decide +kernel +revert
  | [a, b, c, d, e], _ => decide +kernel +revert
  | [a, b, c, d, e, f], _ => decide +kernel +revert
  | [a, b, c, d, e, f, g], _ => decide +kernel +revert
  | [a, b, c, d, e, f, g, i], _ => decide +kernel +revert

/- Bits from which no byte can be split off are less than one. -/
theorem length_lt_of_no_byte
    {bits : List Bool}
    (hMany :
      ∀ a b c d e f g h rest,
        bits = a :: b :: c :: d :: e :: f :: g :: h :: rest →
          False) :
    bits.length < 8 := by
  match bits with
  | a :: b :: c :: d :: e :: f :: g :: h :: rest =>
      exact (hMany a b c d e f g h rest rfl).elim
  | [] | [_] | [_, _] | [_, _, _] | [_, _, _, _]
  | [_, _, _, _, _] | [_, _, _, _, _, _]
  | [_, _, _, _, _, _, _] => simp

/-
  Packed bits are given back, and what is left of the last
  byte does not touch the bytes after it.
-/
theorem gives_pack
    (bits : List Bool)
    (rest : List UInt8) :
    ∃ pad,
      Bits.Gives (.ofBytes (pack bits ++ rest)) bits
        ⟨pad, rest⟩ := by
  induction bits using pack.induct with
  | case1 a b c d e f g h bits ih =>
      rcases ih with ⟨pad, ih⟩
      refine ⟨pad, ?_⟩
      have hByte : Bits.ofByte
          (UInt8.ofNat (value [a, b, c, d, e, f, g, h])) =
            [a, b, c, d, e, f, g, h] ++ [] :=
        ofByte_value (Nat.le_refl 8)
      exact (Bits.gives_ofByte (pack bits ++ rest)
        (List.cons_ne_nil a _) hByte).append ih
  | case2 => exact ⟨[], .nil⟩
  | case3 bits hMany hNil =>
      have hShort := Nat.le_of_lt (length_lt_of_no_byte hMany)
      refine ⟨List.replicate (8 - bits.length) false, ?_⟩
      rw [pack]
      · exact Bits.gives_ofByte rest hNil (ofByte_value hShort)
      · exact hMany
      · exact hNil

end Deflate

end CodecChain
