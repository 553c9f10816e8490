/-
  This file defines the cyclic redundancy check of 32 bits
  that guards compressed files.

  Key definitions include:
    * `Gzip.crc32`
-/

namespace CodecChain.Gzip

/- The generator polynomial, its bits in reverse order. -/
def polynomial : UInt32 :=
  0xedb88320

/- Divide one bit off a remainder. -/
def divideBit (r : UInt32) : UInt32 :=
  if r &&& 1 = 1 then
    (r >>> 1) ^^^ polynomial
  else
    r >>> 1

/- Take a byte into a remainder. -/
def takeByte
    (r : UInt32)
    (b : UInt8) : UInt32 :=
  Nat.repeat divideBit 8 (r ^^^ b.toUInt32)

/- The check value of bytes. -/
def crc32 (bytes : List UInt8) : UInt32 :=
  bytes.foldl takeByte 0xffffffff ^^^ 0xffffffff

end CodecChain.Gzip
