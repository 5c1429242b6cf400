import PolySampler.Signal.Single

/-!
A phase-accumulating oscillator with five waveforms. It is not band-limited.
Noise comes from a shift register that no note resets, so that two noise notes
in a row differ.
-/

namespace PolySampler.Signal

inductive Waveform where
  | sine
  | saw
  | square
  | triangle
  | noise
  deriving DecidableEq, Repr, Inhabited

def Waveform.name : Waveform → String
  | .sine => "sine"
  | .saw => "saw"
  | .square => "square"
  | .triangle => "triangle"
  | .noise => "noise"

def Waveform.all : List Waveform :=
  [.sine, .saw, .square, .triangle, .noise]

def Waveform.ofName? (name : String) : Option Waveform :=
  Waveform.all.find? fun w => w.name = name

def fullTurn : Float32 := Float32.ofBits 0x40C90FDB

/-- An oscillator. The phase runs from 0 to 1 over one period. -/
structure Oscillator where
  waveform : Waveform := .sine
  phase : Float32 := 0
  noiseState : UInt32 := 0x12345678

namespace Oscillator

def setWaveform (o : Oscillator) (waveform : Waveform) : Oscillator :=
  { o with waveform }

def reset (o : Oscillator) : Oscillator :=
  { o with phase := 0 }

def nextNoiseState (x : UInt32) : UInt32 :=
  let x := x ^^^ (x <<< 13)
  let x := x ^^^ (x >>> 17)
  x ^^^ (x <<< 5)

def shapeAt (phase : Float32) : Waveform → Float32
  | .sine => (fullTurn * phase).sin
  | .saw => 2 * phase - 1
  | .square => if phase < 0.5 then 1 else -1
  | .triangle => 1 - 4 * (phase - 0.5).abs
  | .noise => 0

def next (increment : Float32) (o : Oscillator) : Float32 × Oscillator :=
  let phase := fraction (o.phase + increment)
  match o.waveform with
  | .noise =>
    let state := nextNoiseState o.noiseState
    ((state.toFloat32 / (0xFFFFFFFF : UInt32).toFloat32) * 2 - 1,
      { o with phase, noiseState := state })
  | tonal => (shapeAt o.phase tonal, { o with phase })

def renderFrom (increment : Float32) :
    Nat → Array Float32 → Oscillator → Array Float32 × Oscillator
  | 0, done, o => (done, o)
  | n + 1, done, o =>
    let (sample, o) := o.next increment
    renderFrom increment n (done.push sample) o

def render (o : Oscillator) (frames : Nat) (frequency sampleRate : Float32) :
    Array Float32 × Oscillator :=
  renderFrom (frequency / sampleRate) frames #[] o

end Oscillator

end PolySampler.Signal
