/-!
Operations on single-precision values that treat NaN as a missing operand, and
the part of a value behind the point.
-/

namespace PolySampler.Signal

/-- The smaller of two values; NaN counts as missing. -/
def least (a b : Float32) : Float32 :=
  if a.isNaN then b
  else if b.isNaN then a
  else if b < a then b
  else a

/-- The larger of two values; NaN counts as missing. -/
def greatest (a b : Float32) : Float32 :=
  if a.isNaN then b
  else if b.isNaN then a
  else if a < b then b
  else a

def clamp (x low high : Float32) : Float32 :=
  let raised := if x < low then low else x
  if high < raised then high else raised

/-- The part of a value behind the point, with the value's sign. -/
def fraction (x : Float32) : Float32 :=
  x - (if x < 0 then x.ceil else x.floor)

def gainOfDecibels (level : Float32) : Float32 :=
  Float32.pow 10 (level / 20)

/-- The frequency in Hz of a key: key 69 sounds at 440 Hz and twelve keys make
an octave. -/
def keyFrequency (key : UInt8) : Float32 :=
  440 * Float32.pow 2 ((key.toNat.toFloat32 - 69) / 12)

end PolySampler.Signal
