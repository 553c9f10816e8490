import Std.Data.HashMap
import CodecChain.Deflate.Item

/-
  This file defines the search for repetitions in bytes. What
  it finds is a proposal only: whoever uses it compares the
  expansion of the items with the bytes.

  Key definitions include:
    * `Deflate.matchLength`
    * `Deflate.propose`
-/

namespace CodecChain.Deflate

------------------------------------------------------------
-- Matches
------------------------------------------------------------

/- The shortest and the longest copy, and the farthest one. -/
def shortestCopy : Nat :=
  3

def longestCopy : Nat :=
  258

def farthestCopy : Nat :=
  32768

/-
  How many bytes from one place on are those from another
  place on, up to the given number.
-/
def matchLength
    (bytes : Array UInt8) : Nat → Nat → Nat → Nat
  | 0, _, _ => 0
  | most + 1, i, j =>
      match bytes[i]?, bytes[j]? with
      | some a, some b =>
          if a = b then
            matchLength bytes most (i + 1) (j + 1) + 1
          else
            0
      | _, _ => 0

/- The three bytes from a place on as one number. -/
def trigram?
    (bytes : Array UInt8)
    (i : Nat) : Option Nat :=
  if h : i + 2 < bytes.size then
    some (bytes[i].toNat * 65536 + bytes[i + 1].toNat * 256 +
      bytes[i + 2].toNat)
  else
    none

------------------------------------------------------------
-- Search
------------------------------------------------------------

/- The places at which three bytes have last begun. -/
abbrev Places :=
  Std.HashMap Nat Nat

/-
  The copy with which the bytes from a place on can begin,
  looking only where the same three bytes last began.
-/
def findCopy?
    (bytes : Array UInt8)
    (places : Places)
    (i : Nat) : Option (Nat × Nat) := do
  let key ← trigram? bytes i
  let j ← places[key]?
  let length := matchLength bytes longestCopy i j
  if j < i ∧ i - j ≤ farthestCopy ∧ shortestCopy ≤ length then
    some (length, i - j)
  else
    none

/- Note where the three bytes from a place on begin. -/
def note
    (bytes : Array UInt8)
    (places : Places)
    (i : Nat) : Places :=
  match trigram? bytes i with
  | some key => places.insert key i
  | none => places

/- Items for the bytes from a place on, after those before. -/
def proposeFrom
    (bytes : Array UInt8)
    (places : Places)
    (before : List Item)
    (i : Nat) : List Item :=
  if h : i < bytes.size then
    match findCopy? bytes places i with
    | some (length, distance) =>
        let places := (List.range length).foldl
          (fun seen k => note bytes seen (i + k)) places
        proposeFrom bytes places
          (.copy length distance :: before) (i + max length 1)
    | none =>
        proposeFrom bytes (note bytes places i)
          (.literal bytes[i] :: before) (i + 1)
  else
    before.reverse
termination_by bytes.size - i

/- Items that should expand to the given bytes. -/
def propose (bytes : List UInt8) : List Item :=
  proposeFrom bytes.toArray ∅ [] 0

end CodecChain.Deflate
