/-
  This file defines the bits of a compressed stream and the
  readers that take values from them. Bytes give their bits
  from the least significant one on.

  Key definitions include:
    * `Deflate.Bits`
    * `Deflate.Fault`
    * `Deflate.Reader`
    * `Deflate.Reader.Uses`
    * `Deflate.nextBit`
    * `Deflate.number`
    * `Deflate.pack`

  Main statements:
    * `nextBit_uses`, `number_uses`: how many bits a reader
      takes, by which every loop over a stream ends.
-/

namespace CodecChain.Deflate

------------------------------------------------------------
-- Bits
------------------------------------------------------------

/-
  Unread input: the bits left of a byte that has been begun,
  and the bytes after it.
-/
structure Bits where
  begun : List Bool
  bytes : List UInt8

/- The bits of a byte after its first one. -/
def laterBits (b : UInt8) : List Bool :=
  [b.toNat.testBit 1, b.toNat.testBit 2, b.toNat.testBit 3,
   b.toNat.testBit 4, b.toNat.testBit 5, b.toNat.testBit 6,
   b.toNat.testBit 7]

namespace Bits

/- The bits of whole bytes. -/
def ofBytes (bytes : List UInt8) : Bits :=
  ⟨[], bytes⟩

/- The number of unread bits. -/
def size (s : Bits) : Nat :=
  s.begun.length + 8 * s.bytes.length

/- All unread bits in order. -/
def toList (s : Bits) : List Bool :=
  s.begun ++ s.bytes.flatMap fun b =>
    b.toNat.testBit 0 :: laterBits b

theorem length_toList (s : Bits) :
    s.toList.length = s.size := by
  unfold toList size
  rw [List.length_append]
  congr 1
  induction s.bytes with
  | nil => rfl
  | cons b bs ih =>
      rw [List.flatMap_cons, List.length_append, ih]
      simp only [laterBits, List.length_cons, List.length_nil]
      omega

end Bits

------------------------------------------------------------
-- Readers
------------------------------------------------------------

/-
  A stream is corrupt when something in it is wrong, and
  incomplete when nothing is wrong up to its end but the end
  comes too early.
-/
inductive Fault where
  | corrupt
  | incomplete
deriving DecidableEq, Repr

/- The fault in words. -/
def Fault.reason : Fault → String
  | corrupt => "corrupt deflate stream"
  | incomplete => "incomplete deflate stream"

/- A reader takes a value from the unread bits, or fails. -/
abbrev Reader :=
  StateT Bits (Except Fault)

/- Fail with a fault. -/
def fail
    {α : Type}
    (f : Fault) : Reader α :=
  fun _ => .error f

namespace Reader

/- A reader takes at least the given number of bits. -/
def Uses
    {α : Type}
    (n : Nat)
    (r : Reader α) : Prop :=
  ∀ s a s', r s = .ok (a, s') → s'.size + n ≤ s.size

variable {α β : Type}

theorem uses_pure (a : α) :
    Uses 0 (pure a : Reader α) := by
  intro s b s' h
  have h' : (Except.ok (a, s) : Except Fault (α × Bits)) =
      .ok (b, s') := h
  simp only [Except.ok.injEq, Prod.mk.injEq] at h'
  simp [h'.2]

theorem uses_fail (f : Fault) (n : Nat) :
    Uses n (fail f : Reader α) := by
  intro s a s' h
  simp [fail] at h

theorem Uses.mono
    {m n : Nat}
    {r : Reader α}
    (h : Uses n r)
    (hmn : m ≤ n) :
    Uses m r := by
  intro s a s' hr
  have := h s a s' hr
  omega

/- One reader after another takes the bits of both. -/
theorem Uses.bind
    {m n : Nat}
    {r : Reader α}
    {f : α → Reader β}
    (hr : Uses m r)
    (hf : ∀ a, Uses n (f a)) :
    Uses (m + n) (r >>= f) := by
  intro s b s' h
  have h' : (r s >>= fun p => f p.1 p.2) = .ok (b, s') := h
  cases hrs : r s with
  | error e =>
      rw [hrs] at h'
      simp [Bind.bind, Except.bind] at h'
  | ok p =>
      rw [hrs] at h'
      have h'' : f p.1 p.2 = .ok (b, s') := h'
      have h1 := hr s p.1 p.2 hrs
      have h2 := hf p.1 p.2 b s' h''
      omega

theorem Uses.seq
    {n : Nat}
    {r : Reader α}
    {f : α → Reader β}
    (hr : Uses n r)
    (hf : ∀ a, Uses 0 (f a)) :
    Uses n (r >>= f) :=
  hr.bind hf

end Reader

------------------------------------------------------------
-- Single Bits and Numbers
------------------------------------------------------------

/- Take one bit. -/
def nextBit : Reader Bool
  | ⟨bit :: begun, bytes⟩ => .ok (bit, ⟨begun, bytes⟩)
  | ⟨[], b :: bytes⟩ =>
      .ok (b.toNat.testBit 0, ⟨laterBits b, bytes⟩)
  | ⟨[], []⟩ => .error .incomplete

/- Take a number of the given width, low bits first. -/
def number : Nat → Reader Nat
  | 0 => pure 0
  | k + 1 => do
      let bit ← nextBit
      let n ← number k
      pure (bit.toNat + 2 * n)

/- Take the rest of the byte that has been begun. -/
def align : Reader Unit :=
  fun s => .ok ((), ⟨[], s.bytes⟩)

theorem nextBit_uses : nextBit.Uses 1 := by
  intro s a s' h
  unfold nextBit at h
  split at h
  · simp only [Except.ok.injEq, Prod.mk.injEq] at h
    rw [← h.2]
    simp only [Bits.size, List.length_cons]
    omega
  · simp only [Except.ok.injEq, Prod.mk.injEq] at h
    rw [← h.2]
    simp only [Bits.size, laterBits, List.length_cons,
      List.length_nil]
    omega
  · simp at h

theorem number_uses (k : Nat) : (number k).Uses k := by
  induction k with
  | zero =>
      exact Reader.uses_pure 0
  | succ k ih =>
      have h := nextBit_uses.bind fun bit =>
        ih.seq fun n => Reader.uses_pure (bit.toNat + 2 * n)
      rw [Nat.add_comm] at h
      exact h

theorem align_uses : align.Uses 0 := by
  intro s a s' h
  simp only [align, Except.ok.injEq, Prod.mk.injEq] at h
  simp [← h.2, Bits.size]

------------------------------------------------------------
-- Writing
------------------------------------------------------------

/- The bits of a number of the given width, low bits first. -/
def bitsOf : Nat → Nat → List Bool
  | 0, _ => []
  | k + 1, n => (n % 2 == 1) :: bitsOf k (n / 2)

/- The number of bits given low bits first. -/
def value : List Bool → Nat
  | [] => 0
  | bit :: bits => bit.toNat + 2 * value bits

/- The bytes of bits, the last one filled up with zeros. -/
def pack : List Bool → List UInt8
  | a :: b :: c :: d :: e :: f :: g :: h :: rest =>
      UInt8.ofNat (value [a, b, c, d, e, f, g, h]) :: pack rest
  | [] => []
  | bits => [UInt8.ofNat (value bits)]

end CodecChain.Deflate
