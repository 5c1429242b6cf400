import PolySampler.Envelope.Generator
import PolySampler.Instrument.Basic

/-!
A voice plays one region for one note. It keeps the envelope description of
its region bound after it falls silent; only `unbind` lets go of it. Sound is
made frame by frame: the envelope runs from the first frame on, the source of
sound once its delay is over.
-/

namespace PolySampler

open Signal

/-- Whether a voice is taken, and whether its key is still down. -/
inductive VoiceState where
  | free
  | active
  | releasing
  deriving DecidableEq, Repr, Inhabited

structure Voice where
  note : UInt8 := 0
  velocity : UInt8 := 0
  state : VoiceState := .free
  /-- The frame at which the note begins, counted over the whole run. -/
  age : Nat := 0
  sampleRate : Float32
  /-- The index of the region being played. -/
  region : Nat := 0
  envelope : Envelope.Generator
  oscillator : Oscillator := {}
  /-- Where a sample is being read, in frames of the sample. -/
  position : Float := 0
  /-- Frames until the source of sound begins. -/
  sourceDelay : UInt32 := 0
  /-- The key is up and the sustain pedal holds the note. -/
  sustained : Bool := false

/-- What drives the source of a region at one pitch: periods per frame of an
oscillator, or a sample with its frames per frame and its end. -/
inductive Drive where
  | oscillator (increment : Float32)
  | sample (data : SampleData) (step finish : Float)

inductive Sound where
  | waiting
  | ended
  | mixed (left right : Float32)

/-- The two sides being mixed, and the levels of the envelope run last. -/
structure Mix where
  left : Array Float32
  right : Array Float32
  envelope : Array Float32

namespace Mix

def frames (m : Mix) : Nat :=
  min (min m.left.size m.right.size) m.envelope.size

def add (m : Mix) (frame : Nat) (level : Float32) (sound : Sound) : Mix :=
  let { left, right, envelope } := m
  let envelope := envelope.setIfInBounds frame level
  match sound with
  | .mixed l r =>
    { left := left.modify frame (· + l), right := right.modify frame (· + r), envelope }
  | .waiting | .ended => { left, right, envelope }

end Mix

namespace Voice

def new (sampleRate : Float32) : Voice :=
  { sampleRate, envelope := .new sampleRate }

def start (v : Voice) (index : Nat) (region : Region) (note velocity : UInt8)
    (delay : UInt32) (age : Nat) : Voice :=
  { v with
    note, velocity, state := .active, age, region := index, position := 0,
    sourceDelay := delay, sustained := false
    oscillator := match region.source with
      | .oscillator waveform => (v.oscillator.setWaveform waveform).reset
      | .sample _ => v.oscillator
    envelope := (v.envelope.reset.configure region.envelope).start delay }

def release (v : Voice) (delay : UInt32) : Voice :=
  if v.state = .active then
    { v with state := .releasing, sustained := false, envelope := v.envelope.release delay }
  else v

/-- Takes note that the key came up while the sustain pedal was down. -/
def hold (v : Voice) : Voice :=
  if v.state = .active then { v with sustained := true } else v

def free (v : Voice) : Voice :=
  { v with state := .free, note := 0, velocity := 0, sustained := false }

def unbind (v : Voice) : Voice :=
  { v.free with envelope := v.envelope.unbind }

def setSampleRate (v : Voice) (sampleRate : Float32) : Voice :=
  { v with sampleRate, envelope := v.envelope.setSampleRate sampleRate }

def isFree (v : Voice) : Bool :=
  v.state = .free

def isActive (v : Voice) : Bool :=
  v.state = .active || v.state = .releasing

def drive (v : Voice) (region : Region) (pitchRatio : Float32) : Drive :=
  match region.source with
  | .oscillator _ => .oscillator (keyFrequency v.note * pitchRatio / v.sampleRate)
  | .sample data =>
    let transpose := (v.note.toNat.toFloat32 - region.keycenter.toNat.toFloat32) / 12
    .sample data
      ((data.sampleRate / v.sampleRate).toFloat *
        (Float32.pow 2 transpose * pitchRatio).toFloat)
      (Float.ofNat data.numFrames)

def gain (v : Voice) (region : Region) : Float32 :=
  region.gain * v.velocity.toNat.toFloat32 / 127

def sound (drive : Drive) (gain level : Float32) (v : Voice) : Sound × Voice :=
  if v.sourceDelay ≠ 0 then
    (.waiting, { v with sourceDelay := v.sourceDelay - 1 })
  else
    match drive with
    | .oscillator increment =>
      let (sample, oscillator) := v.oscillator.next increment
      let sample := sample * level * gain
      (.mixed sample sample, { v with oscillator })
    | .sample data step finish =>
      if finish ≤ v.position then (.ended, v)
      else
        let amplitude := level * gain
        (.mixed (data.read 0 v.position * amplitude) (data.read 1 v.position * amplitude),
          { v with position := v.position + step })

def tick (drive : Drive) (gain : Float32) (v : Voice) : Float32 × Sound × Voice :=
  let (level, envelope) := v.envelope.tick
  let (sound, v) := ({ v with envelope } : Voice).sound drive gain level
  (level, sound, v)

/-- Mixes `count` frames from `start` on. Tells whether the source ended. -/
def mixFrom (drive : Drive) (gain : Float32) :
    (count start : Nat) → (ended : Bool) → Mix → Voice → Bool × Mix × Voice
  | 0, _, ended, mix, v => (ended, mix, v)
  | n + 1, start, ended, mix, v =>
    let (level, sound, v) := v.tick drive gain
    let ended := ended || sound matches .ended
    mixFrom drive gain n (start + 1) ended (mix.add start level sound) v

/-- Mixes the first `frames` frames. A voice whose sound or envelope is over is
free afterwards, as is one whose region the instrument does not have. -/
def renderFrames (v : Voice) (instrument : Instrument) (pitchRatio : Float32) (frames : Nat)
    (mix : Mix) : Mix × Voice :=
  match instrument.regions[v.region]? with
  | none => (mix, v.free)
  | some region =>
    let (ended, mix, v) :=
      mixFrom (v.drive region pitchRatio) (v.gain region) frames 0 false mix v
    (mix, if ended || v.envelope.isFinished then v.free else v)

def render (v : Voice) (instrument : Instrument) (pitchRatio : Float32) (mix : Mix) :
    Mix × Voice :=
  v.renderFrames instrument pitchRatio mix.frames mix

end Voice

end PolySampler
