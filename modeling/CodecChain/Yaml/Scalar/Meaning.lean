import CodecChain.Yaml.Character

/-
  This file defines what plain words stand for besides
  themselves: nothing, a truth value, or a number.

  Key definitions include:
    * `Yaml.isNull`
    * `Yaml.bool?`
    * `Yaml.isBasedInteger`
    * `Yaml.isFloat`
    * `Yaml.isMeaningful`
-/

namespace CodecChain.Yaml

------------------------------------------------------------
-- Words
------------------------------------------------------------

/- A word that stands for nothing. -/
def isNull (t : Text) : Bool :=
  ["", "~", "null", "Null", "NULL"].contains t.asString

/- The truth value that a word stands for. -/
def bool? (t : Text) : Option Bool :=
  if ["true", "True", "TRUE"].contains t.asString then
    some true
  else if ["false", "False", "FALSE"].contains t.asString then
    some false
  else
    none

------------------------------------------------------------
-- Integers
------------------------------------------------------------

/- The value of a digit in some base of at most sixteen. -/
def digit? (base : Nat) (c : Char) : Option Nat :=
  (hexNumber? [c]).filter (· < base)

/- The number that digits in some base stand for. -/
def number? (base : Nat) (digits : Text) : Option Nat :=
  if digits = [] then
    none
  else
    digits.foldlM
      (fun n c => (digit? base c).map (n * base + ·)) 0

/- The number after a sign for the base, if it is not ten. -/
def basedNumber? : Text → Option Nat
  | '0' :: 'x' :: digits => number? 16 digits
  | '0' :: 'o' :: digits => number? 8 digits
  | '0' :: 'b' :: digits => number? 2 digits
  | _ => none

/- Digits of a number that has zeros to begin with. -/
def isPadded (t : Text) : Bool :=
  match t with
  | '0' :: c :: digits => (c :: digits).all Char.isDigit
  | _ => false

/- A text without the sign that it may begin with. -/
def unsigned : Text → Text
  | '-' :: t => t
  | '+' :: t => t
  | t => t

/- How far numbers in a base other than ten go. -/
def integerLimit : Nat := Nat.pow 2 128

/-
  An integer in a base other than ten. Those below zero reach
  half as far.
-/
def isBasedInteger : Text → Bool
  | '-' :: t => (basedNumber? t).any (· ≤ integerLimit / 2)
  | '+' :: t => (basedNumber? t).any (· < integerLimit)
  | t => (basedNumber? t).any (· < integerLimit)

------------------------------------------------------------
-- Fractions
------------------------------------------------------------

/- A decimal number: its digits, and the power of ten. -/
structure Decimal where
  digits : Text
  power : Int
deriving DecidableEq, Repr

/- The power of ten that an exponent stands for. -/
def exponent? : Text → Option Int
  | [] => some 0
  | c :: t =>
      if c = 'e' ∨ c = 'E' then
        let number := number? 10 (unsigned t)
        match t with
        | '-' :: _ => number.map fun n => -n
        | _ => number.map fun n => n
      else
        none

/- The decimal number of a text without a sign. -/
def decimal? (t : Text) : Option Decimal := do
  let whole := t.takeWhile Char.isDigit
  let after := t.dropWhile Char.isDigit
  let (part, rest) :=
    match after with
    | '.' :: after =>
        (after.takeWhile Char.isDigit,
         after.dropWhile Char.isDigit)
    | _ => ([], after)
  if whole = [] ∧ part = [] then none
  let power ← exponent? rest
  pure
    { digits := whole ++ part
      power := power - part.length }

/-
  The least number beyond those of double precision: midway
  between the greatest of them and the next power of two.
-/
def doubleLimit : Nat :=
  (Nat.pow 2 54 - 1) * Nat.pow 2 970

/-
  A decimal number that is none beyond double precision. How
  many digits it has before the point decides that, but for
  numbers of the length of the limit.
-/
def Decimal.isDouble (d : Decimal) : Bool :=
  let digits := d.digits.dropWhile (· = '0')
  let length := digits.length + d.power
  let value := (number? 10 digits).getD 0
  if digits = [] ∨ length < 309 then true
  else if 309 < length then false
  else if digits.length ≤ 309 then
    value * Nat.pow 10 (309 - digits.length) < doubleLimit
  else
    value < doubleLimit * Nat.pow 10 (digits.length - 309)

/- A word for a number that is beyond all, or for none. -/
def isUnbounded (t : Text) : Bool :=
  [".inf", ".Inf", ".INF", "+.inf", "+.Inf", "+.INF", "-.inf",
   "-.Inf", "-.INF", ".nan", ".NaN", ".NAN"].contains t.asString

/- A number in base ten, with a fraction or not. -/
def isFloat (t : Text) : Bool :=
  isUnbounded t ||
    (decimal? (unsigned t)).any Decimal.isDouble

------------------------------------------------------------
-- Meaning
------------------------------------------------------------

/-
  A word that stands for something else than itself. Digits
  that begin with zeros are no number, but are taken for one.
-/
def isMeaningful (t : Text) : Bool :=
  isNull t || (bool? t).isSome || isBasedInteger t ||
    isFloat t || isPadded (unsigned t)

end CodecChain.Yaml
