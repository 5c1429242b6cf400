/-!
Finite single-precision values as exact binary fractions, and the decimals
that stand for them. A decimal reads back to a value exactly when it lies in
the interval of reals that round to that value; `Binary.readsBack` decides
this with natural numbers only.
-/

namespace PolySampler.Decimal

/-- A finite non-negative value `mantissa * 2 ^ exponent`. -/
structure Binary where
  mantissa : Nat
  exponent : Int
  /-- The gap to the value below is half the gap to the value above. -/
  narrowBelow : Bool
  deriving DecidableEq, Repr

/-- The magnitude of a finite single-precision value. Infinities and NaN have
no such form and are told apart by the caller. -/
def Binary.ofSingle (x : Float32) : Binary :=
  let bits := x.toBits.toNat
  let biased : Nat := bits / 0x800000 % 256
  let fraction : Nat := bits % 0x800000
  if biased = 0 then
    { mantissa := fraction, exponent := -149, narrowBelow := false }
  else
    { mantissa := 0x800000 + fraction, exponent := (biased : Int) - 150,
      narrowBelow := fraction = 0 && 1 < biased }

def signBit (x : Float32) : Bool :=
  0x80000000 ≤ x.toBits.toNat

/-- A decimal `digits * 10 ^ exponent`. -/
structure Digits where
  digits : Nat
  exponent : Int
  deriving DecidableEq, Repr

/-- Compares `a * 10 ^ i` with `n * 2 ^ j` exactly. -/
def compareScaled (a : Nat) (i : Int) (n : Nat) (j : Int) : Ordering :=
  compare (a * Nat.pow 10 i.toNat * Nat.pow 2 (-j).toNat)
    (n * Nat.pow 2 j.toNat * Nat.pow 10 (-i).toNat)

/-- The decimal lies among the reals that round to the value, to nearest with
ties to even: the two ends of the interval belong to it exactly when the
mantissa is even. -/
def Binary.readsBack (x : Binary) (d : Digits) : Bool :=
  let low := if x.narrowBelow then 4 * x.mantissa - 1 else 4 * x.mantissa - 2
  let high := 4 * x.mantissa + 2
  let closed := x.mantissa % 2 = 0
  let atLow := compareScaled d.digits d.exponent low (x.exponent - 2)
  let atHigh := compareScaled d.digits d.exponent high (x.exponent - 2)
  (atLow = .gt || (closed && atLow = .eq)) && (atHigh = .lt || (closed && atHigh = .eq))

inductive Tie where
  | toEven
  | awayFromZero
  deriving DecidableEq, Repr

def roundDiv (numerator denominator : Nat) (tie : Tie) : Nat :=
  let quotient := numerator / denominator
  let rest := numerator % denominator
  match compare (2 * rest) denominator, tie with
  | .lt, _ => quotient
  | .gt, _ => quotient + 1
  | .eq, .awayFromZero => quotient + 1
  | .eq, .toEven => if quotient % 2 = 0 then quotient else quotient + 1

/-- The value `mantissa * 2 ^ exponent / 10 ^ scale` as a quotient of natural numbers. -/
def Binary.quotient (x : Binary) (scale : Int) : Nat × Nat :=
  (x.mantissa * Nat.pow 2 x.exponent.toNat * Nat.pow 10 (-scale).toNat,
    Nat.pow 2 (-x.exponent).toNat * Nat.pow 10 scale.toNat)

end PolySampler.Decimal
