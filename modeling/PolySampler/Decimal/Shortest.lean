import PolySampler.Decimal.Binary

/-!
The shortest decimal of a single-precision value: the fewest digits that read
back to it, and of those the nearest. Grids of one digit, two digits and so on
are tried in turn; on each grid only the two neighbours of the value can read
back if any point does.
-/

namespace PolySampler.Decimal

/-- The number of decimal digits before the point of the value, or minus the
number of zeros after it: the least `k` with `value < 10 ^ k`. -/
def Binary.scale (x : Binary) : Int :=
  let estimate : Int := (((x.mantissa.log2 : Int) + x.exponent) * 30103).fdiv 100000
  let below (k : Int) : Bool := compareScaled 1 k x.mantissa x.exponent = .gt
  if below (estimate - 1) then estimate - 1
  else if below estimate then estimate
  else if below (estimate + 1) then estimate + 1
  else estimate + 2

/-- The shortest candidate on the grid `10 ^ exponent`, if a neighbour of the
value on that grid reads back. -/
def Binary.onGrid (x : Binary) (exponent : Int) (tie : Tie) : Option Digits :=
  let (numerator, denominator) := x.quotient exponent
  let down : Digits := ⟨numerator / denominator, exponent⟩
  let up : Digits := ⟨numerator / denominator + 1, exponent⟩
  match x.readsBack down && down.digits ≠ 0, x.readsBack up with
  | true, true => some ⟨roundDiv numerator denominator tie, exponent⟩
  | true, false => some down
  | false, true => some up
  | false, false => none

def Digits.strip (d : Digits) : Nat → Digits
  | 0 => d
  | fuel + 1 =>
    if d.digits ≠ 0 ∧ d.digits % 10 = 0 then
      Digits.strip ⟨d.digits / 10, d.exponent + 1⟩ fuel
    else d

/-- The fewest digits that read back to a positive value. Nine always suffice
for single precision; should the search ever run dry, the exact value answers. -/
def Binary.shortest (x : Binary) (tie : Tie) : Digits :=
  let found := (List.range 17).findSome? fun (n : Nat) => x.onGrid (x.scale - (n + 1 : Nat)) tie
  let digits := found.getD
    (if x.exponent < 0 then
      ⟨x.mantissa * Nat.pow 5 (-x.exponent).toNat, x.exponent⟩
    else ⟨x.mantissa * Nat.pow 2 x.exponent.toNat, 0⟩)
  digits.strip 60

end PolySampler.Decimal
