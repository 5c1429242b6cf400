import PolySampler.Signal.Oscillator

/-!
The spectrum of a window of samples, read at frequencies that are evenly spaced
on a logarithmic axis. Levels rise at once and fall by a fixed step, so that
peaks can be seen for a while.
-/

namespace PolySampler.Signal

def spectrumPoints : Nat := 48

/-- The lowest level shown, in decibels. -/
def floorLevel : Float := -100

/-- How far a level falls from one window to the next, in decibels. -/
def fallStep : Float := 3

/-- The larger of two levels; NaN counts as missing. -/
def louder (a b : Float) : Float :=
  if a.isNaN then b
  else if b.isNaN then a
  else if a < b then b
  else a

structure SpectrumPoint where
  /-- The decimal logarithm of the frequency in Hz. -/
  logFrequency : Float
  /-- The multiple of the window's frequency that the level is read at. -/
  bin : Nat
  /-- The level in decibels. -/
  level : Float := floorLevel

/-- Gives the coefficients of a window, as real and imaginary part, by the multiple of the
window's frequency. -/
abbrev Transform := Array Float32 → Nat → Float × Float

structure Spectrum where
  transform : Transform
  /-- The weight of each sample of a window. -/
  weights : Array Float32
  points : List SpectrumPoint

/-- The weight of a sample by its place in a window: a raised cosine that is
zero at both ends. -/
def windowWeight (length index : Nat) : Float32 :=
  0.5 * (1 - (fullTurn * index.toFloat32 / (length - 1).toFloat32).cos)

def levelOfPower (power : Float32) : Float :=
  louder (10 * (louder power.toFloat 1e-12).log10) floorLevel

namespace Spectrum

/-- The frequency of a point, the first at 20 Hz and the last at half the sample
rate, but not above 20 kHz and not below 21 Hz. -/
def frequency (sampleRate : Float32) (point : Nat) : Float :=
  let highest := (clamp (sampleRate / 2) 21 20000).toFloat
  let share := point.toFloat / (spectrumPoints - 1).toFloat
  20 * Float.pow (highest / 20) share

/-- The sum of the samples turned by a multiple of the window's frequency, as
real and imaginary part. -/
def coefficient (samples : Array Float32) (bin : Nat) : Float × Float :=
  let step := 2 * 3.141592653589793 / samples.size.toFloat
  let sums := samples.foldl (fun (index, real, imaginary) sample =>
    let angle := step * (bin * index % samples.size).toFloat
    let value := sample.toFloat
    (index + 1, real + value * angle.cos, imaginary - value * angle.sin)) (0, 0, 0)
  sums.2

/-- A spectrum of windows of the given length, but of at least two samples. All
levels are at the floor. -/
def new (length : Nat) (sampleRate : Float32) (transform : Transform := coefficient) :
    Spectrum :=
  let length := max length 2
  let point (index : Nat) : SpectrumPoint :=
    let hertz := frequency sampleRate index
    let nearest := (hertz * length.toFloat / sampleRate.toFloat).round.toUInt64.toNat
    { logFrequency := hertz.log10, bin := min nearest (length / 2 - 1) }
  { transform
    weights := ((List.range length).map (windowWeight length)).toArray
    points := (List.range spectrumPoints).map point }

def weigh (s : Spectrum) (window : Array Float32) : Array Float32 :=
  Array.zipWith (· * ·) window s.weights

/-- The power at a multiple of the window's frequency, such that a sine of
amplitude 1 would have power 1 but for the weights. -/
def power (s : Spectrum) (samples : Array Float32) (bin : Nat) : Float32 :=
  let (real, imaginary) := s.transform samples bin
  let scale := 2 / samples.size.toFloat32
  let real := real.toFloat32 * scale
  let imaginary := imaginary.toFloat32 * scale
  real * real + imaginary * imaginary

/-- The spectrum after a window of its own length. A level that is not reached
again falls by the step. -/
def analyze (s : Spectrum) (window : Array Float32) : Spectrum :=
  let samples := s.weigh window
  let next (p : SpectrumPoint) : SpectrumPoint :=
    { p with level := louder (levelOfPower (s.power samples p.bin)) (p.level - fallStep) }
  { s with points := s.points.map next }

def update (s : Spectrum) (window : Array Float32) : Spectrum :=
  if window.size = s.weights.size then s.analyze window else s

end Spectrum

end PolySampler.Signal
