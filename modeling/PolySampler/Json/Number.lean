import PolySampler.Text.Numeral

/-!
Numbers of a data file. A number is kept as it is written; what it stands for
is worked out only where a value is wanted, because a number that nobody asks
for may be of any size.
-/

namespace PolySampler.Json

/-- A number as written: sign, digits before the point, digits after it if
there is a point, and the exponent with its sign if there is one. -/
structure Numeral where
  negative : Bool
  whole : List Char
  places : Option (List Char) := none
  exponent : Option (Bool × List Char) := none
  deriving DecidableEq, Repr

/-- What a number stands for: a natural number of at most 64 bits, a negative
integer of at most 63 bits, or a real number. -/
inductive Number where
  | natural (value : Nat)
  | negative (magnitude : Nat)
  | real (value : Float)

/-- Appends digits to a significand for as long as it stays within 64 bits.
Gives the significand and the digits that did not fit. -/
def appendDigits : Nat → List Char → Nat × List Char
  | significand, [] => (significand, [])
  | significand, c :: rest =>
    let next := significand * 10 + (Text.digit? c).getD 0
    if next ≤ Text.maxWord64 then appendDigits next rest else (significand, c :: rest)

/-- The greatest exponent that is written out; larger ones are taken for
infinite. -/
def maxExponent : Nat := 0x7FFFFFFF

/-- The value of `significand * 10 ^ exponent` in double precision, by one multiplication or
division where a power of ten is representable. A product past the range is no
number. -/
def scaled : Nat → Float → Int → Option Float
  | 0, significand, _ => some significand
  | steps + 1, significand, exponent =>
    if exponent.natAbs ≤ 308 then
      let power := Float.ofScientific 1 false exponent.natAbs
      if 0 ≤ exponent then
        let product := significand * power
        if product.isInf then none else some product
      else some (significand / power)
    else if significand == 0 then some significand
    else if 0 ≤ exponent then none
    else scaled steps (significand / 1e308) (exponent + 308)

/-- The real number of a significand and its two exponents, if in range. -/
def realOf (significand : Nat) (shift : Int) (exponent : Option (Bool × List Char)) :
    Option Float :=
  match exponent with
  | none => scaled 4 (Float.ofNat significand) shift
  | some (negative, digits) =>
    let written := Text.digitsValue digits
    if maxExponent < written then
      if significand ≠ 0 ∧ ¬ negative then none else some 0
    else
      scaled 4 (Float.ofNat significand)
        (if negative then shift - written else shift + written)

/-- What a numeral stands for, if it is in range. A numeral without point and
exponent is an integer when it fits; minus zero is real. -/
def Numeral.value? (n : Numeral) : Option Number :=
  let (significand, dropped) := appendDigits 0 n.whole
  let signed (x : Float) : Float := if n.negative then -x else x
  match n.places, n.exponent with
  | none, none =>
    if dropped.isEmpty then
      if n.negative then
        if significand = 0 ∨ 0x8000000000000000 < significand then
          some (.real (-(Float.ofNat significand)))
        else some (.negative significand)
      else some (.natural significand)
    else (realOf significand dropped.length none).map fun x => .real (signed x)
  | none, some exponent =>
    (realOf significand dropped.length (some exponent)).map fun x => .real (signed x)
  | some places, exponent =>
    let (extended, unused) := appendDigits significand places
    let shift : Int := (dropped.length : Int) - ((places.length - unused.length : Nat) : Int)
    (realOf extended shift exponent).map fun x => .real (signed x)

end PolySampler.Json
