import PolySampler.Envelope.Description
import PolySampler.Instrument.Sample
import PolySampler.Signal.Oscillator

/-!
Instruments: lists of regions, each covering a rectangle of keys and velocities
with a source of sound and an envelope. An instrument does not change once it
is built.
-/

namespace PolySampler

structure MidiRange where
  low : UInt8
  high : UInt8
  deriving DecidableEq, Repr

def MidiRange.contains (r : MidiRange) (value : UInt8) : Bool :=
  r.low ≤ value && value ≤ r.high

inductive Source where
  | oscillator (waveform : Signal.Waveform)
  | sample (data : SampleData)

/-- One sound of an instrument with the keys and velocities it answers to. -/
structure Region where
  keys : MidiRange
  velocities : MidiRange
  /-- The key at which a sample sounds as recorded. -/
  keycenter : UInt8
  /-- Linear gain. -/
  gain : Float32
  source : Source
  envelope : Envelope.Description

def Region.matches (r : Region) (key velocity : UInt8) : Bool :=
  r.keys.contains key && r.velocities.contains velocity

/-- A response curve of a controller: pairs of input and output. -/
structure Curve where
  points : List (UInt8 × Float32)

structure Instrument where
  name : String
  regions : Array Region
  curves : List Curve

namespace Instrument

/-- The indices of the regions that answer to a note, in the order of their
declaration. -/
def regionsFor (i : Instrument) (key velocity : UInt8) : List Nat :=
  (List.range i.regions.size).filter fun index =>
    match i.regions[index]? with
    | some region => region.matches key velocity
    | none => false

end Instrument

end PolySampler
