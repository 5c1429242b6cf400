import PolySampler.Decimal.Notation
import PolySampler.Signal.Single

/-!
Envelopes as ordered lists of points. Each point is reached from the level of
the one before it in a given time along a curve; one point is held while the
key is down. The segments up to that point are the attack, those behind it the
release.
-/

namespace PolySampler.Envelope

open Signal

/-- A target of an envelope: the seconds it takes to get there, the level, and
the curve on the way, `0` for a straight line. -/
structure Point where
  time : Float32
  level : Float32
  shape : Float32

/-- The points of an envelope and the index of the one that is held. -/
structure Description where
  points : Array Point
  sustain : Nat

/-- The shortest time of the classic envelopes' segments, one frame at 48 kHz. -/
def minTime : Float32 := 1 / 48000

namespace Description

/-- The classic envelope of attack, decay, sustain level and release with
straight segments. -/
def adsr (attack decay sustain release : Float32) : Description where
  points :=
    #[⟨greatest attack minTime, 1, 0⟩,
      ⟨greatest decay minTime, clamp sustain 0 1, 0⟩,
      ⟨greatest release minTime, 0, 0⟩]
  sustain := 1

def releaseStart (d : Description) : Nat :=
  d.sustain + 1

end Description

/-- The envelope of a region that does not describe one. -/
instance : Inhabited Description :=
  ⟨Description.adsr 0.001 0 1 0.05⟩

inductive Fault where
  | noPoints
  | sustainOutOfRange (sustain points : Nat)
  | invalidTime (index : Nat) (time : Float32)
  | notFinite (index : Nat)

def Fault.message : Fault → String
  | .noPoints => "envelope has no points"
  | .sustainOutOfRange sustain points =>
    s!"sustain point {sustain} out of range ({points} points)"
  | .invalidTime index time => s!"point {index}: invalid time {Decimal.plain time}"
  | .notFinite index => s!"point {index}: level and shape must be finite"

def Point.fault? (index : Nat) (p : Point) : Option Fault :=
  if ¬ (p.time.isFinite ∧ 0 ≤ p.time) then some (.invalidTime index p.time)
  else if ¬ (p.level.isFinite ∧ p.shape.isFinite) then some (.notFinite index)
  else none

/-- The first fault of a list of points whose first has the given index. -/
def firstFault? : Nat → List Point → Option Fault
  | _, [] => none
  | index, p :: rest => (p.fault? index).or (firstFault? (index + 1) rest)

def Description.fault? (d : Description) : Option Fault :=
  if d.points.isEmpty then some .noPoints
  else if d.points.size ≤ d.sustain then some (.sustainOutOfRange d.sustain d.points.size)
  else firstFault? 0 d.points.toList

end PolySampler.Envelope
