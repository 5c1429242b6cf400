/-!
Reading numbers as they are written in commands and arguments: natural numbers
below a limit, and real numbers rounded to single precision. The two grammars
are ASCII only and leave no room for blanks.
-/

namespace PolySampler.Text

inductive NumeralFault where
  | empty
  | invalidDigit
  | tooLarge
  deriving DecidableEq, Repr

def NumeralFault.message : NumeralFault → String
  | .empty => "cannot parse integer from empty string"
  | .invalidDigit => "invalid digit found in string"
  | .tooLarge => "number too large to fit in target type"

def digit? (c : Char) : Option Nat :=
  if '0' ≤ c ∧ c ≤ '9' then some (c.toNat - 48) else none

/-- Appends decimal digits to `value`. The first character that is no digit or
that takes the value past the limit decides the fault. -/
def readDigits (limit : Nat) : Nat → List Char → Except NumeralFault Nat
  | value, [] => .ok value
  | value, c :: rest =>
    match digit? c with
    | none => .error .invalidDigit
    | some d =>
      if limit < value * 10 + d then .error .tooLarge
      else readDigits limit (value * 10 + d) rest

/-- A natural number up to `limit`: decimal digits after an optional plus. A
sign with nothing behind it is an invalid digit. -/
def readNatural (limit : Nat) : List Char → Except NumeralFault Nat
  | [] => .error .empty
  | ['+'] => .error .invalidDigit
  | '+' :: c :: rest => readDigits limit 0 (c :: rest)
  | c :: rest => readDigits limit 0 (c :: rest)

def maxWord32 : Nat := 0xFFFFFFFF

def maxWord64 : Nat := 0xFFFFFFFFFFFFFFFF

def digitsValue (digits : List Char) : Nat :=
  digits.foldl (fun value c => value * 10 + (digit? c).getD 0) 0

/-- The value `mantissa * 10 ^ exponent` rounded to single precision. Exponents far past
either end of the range are cut off before any power is computed. -/
def singleOfDecimal (mantissa : Nat) (exponent : Int) : Float32 :=
  let leading : Int := exponent + ((toString mantissa).length : Int)
  if mantissa = 0 then 0
  else if leading < -60 then 0
  else if 60 < leading then Float32.ofScientific 1 false 60
  else Float32.ofScientific mantissa (exponent < 0) exponent.natAbs

/-- Reads an exponent mark with its digits; nothing at all is exponent zero. -/
def readExponent : List Char → Option Int
  | [] => some 0
  | mark :: rest =>
    if mark = 'e' ∨ mark = 'E' then
      let (negative, digits) := match rest with
        | '+' :: digits => (false, digits)
        | '-' :: digits => (true, digits)
        | digits => (false, digits)
      if digits.isEmpty || digits.any (fun c => (digit? c).isNone) then none
      else some (if negative then -(digitsValue digits : Int) else digitsValue digits)
    else none

/-- The magnitude of a real number: digits with an optional point among or
around them, at least one digit in all, then an optional exponent. -/
def readMagnitude (text : List Char) : Option Float32 :=
  let isDigit (c : Char) : Bool := (digit? c).isSome
  let whole := text.takeWhile isDigit
  let afterWhole := text.dropWhile isDigit
  let (places, rest) := match afterWhole with
    | '.' :: more => (more.takeWhile isDigit, more.dropWhile isDigit)
    | more => ([], more)
  if whole.isEmpty && places.isEmpty then none
  else
    (readExponent rest).map fun exponent =>
      singleOfDecimal (digitsValue (whole ++ places)) (exponent - places.length)

/-- A real number with an optional sign, or one of the words `inf`, `infinity`
and `nan` in any case; values past the range become infinite. -/
def readSingle (text : List Char) : Option Float32 :=
  let (negative, magnitude) := match text with
    | '+' :: rest => (false, rest)
    | '-' :: rest => (true, rest)
    | rest => (false, rest)
  let word := magnitude.map Char.toLower
  let value :=
    if word = "inf".toList ∨ word = "infinity".toList then some (1 / 0)
    else if word = "nan".toList then some (0 / 0)
    else readMagnitude magnitude
  if negative then value.map (-·) else value

end PolySampler.Text
