import Std.Time.DateTime.PlainDateTime
import CodecChain.Text.Basic

/-
  This file defines how a time of the world's clock is
  written: date, time of day, and the fraction of the second
  with three, six or nine digits, or none if it is zero.

  Key definitions include:
    * `Clock.display`
-/

namespace CodecChain.Clock

open Std.Time

/- A number with zeros in front, up to a width. -/
def padded (width n : Nat) : Text :=
  let digits := Nat.toDigits 10 n
  List.replicate (width - digits.length) '0' ++ digits

/- The fraction of a second, with the point before it. -/
def fraction (nanoseconds : Nat) : Text :=
  if nanoseconds = 0 then
    []
  else if nanoseconds % 1000000 = 0 then
    '.' :: padded 3 (nanoseconds / 1000000)
  else if nanoseconds % 1000 = 0 then
    '.' :: padded 6 (nanoseconds / 1000)
  else
    '.' :: padded 9 nanoseconds

/- A time as it is written. -/
def display (t : PlainDateTime) : Text :=
  padded 4 (Int.toNat t.date.year) ++ ['-'] ++
    padded 2 t.date.month.val.toNat ++ ['-'] ++
    padded 2 t.date.day.val.toNat ++ ['T'] ++
    padded 2 t.time.hour.val.toNat ++ [':'] ++
    padded 2 t.time.minute.val.toNat ++ [':'] ++
    padded 2 t.time.second.val.toNat ++
    fraction t.time.nanosecond.val.toNat ++
    .ofString "+00:00"

end CodecChain.Clock
