import PolySampler.Decimal.Shortest

/-!
How single-precision values are written: positionally with the fewest digits
that identify them, with a fixed number of places, or as a number of a data
file, which switches to an exponent for very large and very small values.
-/

namespace PolySampler.Decimal

def zeros (count : Nat) : String :=
  String.ofList (List.replicate count '0')

/-- Writes `digits * 10 ^ exponent` without an exponent and without a point
that nothing follows. -/
def Digits.positional (d : Digits) : String :=
  let text := toString d.digits
  if 0 ≤ d.exponent then
    text ++ zeros d.exponent.toNat
  else
    let places := (-d.exponent).toNat
    let padded := (zeros (places + 1 - text.length) ++ text).toList
    let whole := padded.length - places
    String.ofList (padded.take whole) ++ "." ++ String.ofList (padded.drop whole)

/-- The text of a value that is no finite number. -/
def special? (x : Float32) : Option String :=
  if x.isNaN then some "NaN"
  else if x.isInf then some (if signBit x then "-inf" else "inf")
  else none

/-- Values are shown with the fewest digits that read back, a tie between two
such decimals going up, and never with an exponent: `0.1`, `48000`, `-0`. -/
def plain (x : Float32) : String :=
  match special? x with
  | some text => text
  | none =>
    let value := Binary.ofSingle x
    let magnitude :=
      if value.mantissa = 0 then "0" else (value.shortest .awayFromZero).positional
    if signBit x then "-" ++ magnitude else magnitude

/-- The magnitude with a fixed number of places, rounded from the exact value,
a half going to the even neighbour. -/
def fixedMagnitude (places : Nat) (x : Float32) : String :=
  let (numerator, denominator) := (Binary.ofSingle x).quotient (-(places : Int))
  let text := toString (roundDiv numerator denominator .toEven)
  let padded := (zeros (places + 1 - text.length) ++ text).toList
  let whole := padded.length - places
  if places = 0 then text
  else String.ofList (padded.take whole) ++ "." ++ String.ofList (padded.drop whole)

def fixed (places : Nat) (x : Float32) : String :=
  match special? x with
  | some text => text
  | none => (if signBit x then "-" else "") ++ fixedMagnitude places x

/-- A value with a fixed number of places that always carries its sign. NaN has
none. -/
def fixedSigned (places : Nat) (x : Float32) : String :=
  if x.isNaN || signBit x then fixed places x else "+" ++ fixed places x

/-- The least and the greatest position of the leading digit that a data file
writes without an exponent. -/
def dataPositional : Int × Int := (-6, 12)

/-- Numbers in a data file have a point or an exponent, so that they read as
real numbers; values that are not finite are written as `null`. -/
def dataNumber (x : Float32) : String :=
  if x.isNaN || x.isInf then "null"
  else
    let value := Binary.ofSingle x
    let sign := if signBit x then "-" else ""
    if value.mantissa = 0 then sign ++ "0.0"
    else
      let d := value.shortest .toEven
      let text := toString d.digits
      let leading : Int := d.exponent + text.length - 1
      if dataPositional.1 ≤ leading ∧ leading ≤ dataPositional.2 then
        sign ++ d.positional ++ (if 0 ≤ d.exponent then ".0" else "")
      else
        let rest := String.ofList (text.toList.drop 1)
        sign ++ String.ofList (text.toList.take 1) ++
          (if rest.isEmpty then "" else "." ++ rest) ++ "e" ++ toString leading

end PolySampler.Decimal
