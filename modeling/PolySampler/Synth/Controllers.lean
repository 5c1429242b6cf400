import PolySampler.Midi.Event

/-!
Controllers twice over: the values as the events have left them, which move the
moment an event is dispatched, and those that the sound depends on, which move
at the frame of the event.
-/

namespace PolySampler.Synth

def volumeController : UInt8 := 7

def expressionController : UInt8 := 11

def sustainController : UInt8 := 64

def allSoundOff : UInt8 := 120

def resetControllers : UInt8 := 121

def allNotesOff : UInt8 := 123

/-- A controller number or key cut to seven bits, as an index. -/
def sevenBitIndex (value : UInt8) : Fin 128 :=
  ⟨value.toNat % 128, Nat.mod_lt _ (by decide)⟩

structure Controllers where
  values : Vector UInt8 128
  polyPressure : Vector UInt8 128
  channelPressure : UInt8
  pitchBend : Int

namespace Controllers

def initial : Controllers where
  values :=
    ((Vector.replicate 128 0).set (sevenBitIndex volumeController) 127).set
      (sevenBitIndex expressionController) 127
  polyPressure := Vector.replicate 128 0
  channelPressure := 0
  pitchBend := 0

def value (c : Controllers) (controller : UInt8) : UInt8 :=
  c.values[sevenBitIndex controller]

def setValue (c : Controllers) (controller value : UInt8) : Controllers :=
  { c with values := c.values.set (sevenBitIndex controller) value }

def pressure (c : Controllers) (key : UInt8) : UInt8 :=
  c.polyPressure[sevenBitIndex key]

def setPressure (c : Controllers) (key value : UInt8) : Controllers :=
  { c with polyPressure := c.polyPressure.set (sevenBitIndex key) value }

def sustainDown (c : Controllers) : Bool :=
  64 ≤ c.value sustainController

end Controllers

/-- A controller value that the sound depends on. -/
inductive Change where
  | volume (value : UInt8)
  | expression (value : UInt8)
  | pitchBend (value : Int)
  deriving DecidableEq, Repr

/-- The controller values that the sound depends on, as they stand at the frame
being rendered. -/
structure Performance where
  volume : UInt8 := 127
  expression : UInt8 := 127
  pitchBend : Int := 0
  deriving DecidableEq, Repr

namespace Performance

def apply (p : Performance) : Change → Performance
  | .volume value => { p with volume := value }
  | .expression value => { p with expression := value }
  | .pitchBend value => { p with pitchBend := value }

def applyAll (p : Performance) (changes : List Change) : Performance :=
  changes.foldl apply p

def gain (p : Performance) : Float32 :=
  p.volume.toNat.toFloat32 / 127 * p.expression.toNat.toFloat32 / 127

/-- Semitones at the end of the pitch wheel's way. -/
def bendRange : Float32 := 2

def pitchRatio (p : Performance) : Float32 :=
  if p.pitchBend = 0 then 1
  else
    let semitones := Float32.ofInt p.pitchBend / 8192 * bendRange
    Float32.pow 2 (semitones / 12)

end Performance

/-- A change and the frame of the coming block at which it takes effect. -/
abbrev Pending := UInt32 × Change

def maxPending : Nat := 512

def insertPending (delay : UInt32) (change : Change) : List Pending → List Pending
  | [] => [(delay, change)]
  | (due, other) :: rest =>
    if due ≤ delay then (due, other) :: insertPending delay change rest
    else (delay, change) :: (due, other) :: rest

def isDue (frame : Nat) (p : Pending) : Bool :=
  p.1.toNat ≤ frame

@[simp] theorem length_insertPending (delay : UInt32) (change : Change) (pending : List Pending) :
    (insertPending delay change pending).length = pending.length + 1 := by
  induction pending with
  | nil => rfl
  | cons p rest ih =>
    simp only [insertPending]
    split <;> simp [ih]

end PolySampler.Synth
