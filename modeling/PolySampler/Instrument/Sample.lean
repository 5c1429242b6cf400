/-!
Recorded sound, one array of samples per channel, and reading it between the
frames.
-/

namespace PolySampler

/-- Decoded sound: the channels, of one length, and the rate they were recorded
at. -/
structure SampleData where
  channels : Array (Array Float32)
  sampleRate : Float32

namespace SampleData

def numFrames (s : SampleData) : Nat :=
  match s.channels[0]? with
  | some samples => samples.size
  | none => 0

/-- The channel of the given index; past the last one the last one again, so
that mono sound plays on both sides. -/
def channel? (s : SampleData) (index : Nat) : Option (Array Float32) :=
  s.channels[index]?.or s.channels.back?

/-- Reads one channel at a position between two frames, on the straight line
from the one to the other. Behind the last frame the sound fades to silence. -/
def read (s : SampleData) (channel : Nat) (position : Float) : Float32 :=
  match s.channel? channel with
  | none => 0
  | some samples =>
    let index := position.toUInt64
    let part := (position - index.toFloat).toFloat32
    match samples[index.toNat]?, samples[index.toNat + 1]? with
    | some a, some b => a + (b - a) * part
    | some a, none => a * (1 - part)
    | none, _ => 0

/-- Puts the samples of a frame behind those of the channels, each behind its
own. A frame may have more samples than there are channels. -/
def addFrame (channels : List (Array Float32)) (frame : List Float32) : List (Array Float32) :=
  List.zipWith Array.push channels frame

/-- Adds the frames of `width` samples from an offset on, as long as there is a
complete one. -/
def addFrames (width : Nat) (samples : Array Float32) (offset : Nat)
    (channels : List (Array Float32)) : List (Array Float32) :=
  if 0 < width ∧ offset + width ≤ samples.size then
    addFrames width samples (offset + width)
      (addFrame channels (samples.extract offset (offset + width)).toList)
  else channels
termination_by samples.size - offset

/-- Distributes interleaved samples over `kept` of `width` channels. An
incomplete frame at the end is dropped. -/
def deinterleave (width kept : Nat) (samples : Array Float32) : Array (Array Float32) :=
  (addFrames width samples 0 (List.replicate kept #[])).toArray

end SampleData

end PolySampler
