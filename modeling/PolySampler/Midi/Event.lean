/-!
Channel messages after decoding, and the interface of the transports that
deliver them: a frame within the block and perhaps a message.
-/

namespace PolySampler.Midi

/-- A decoded message. Velocity zero never appears in a note-on: it is a
note-off in disguise, see `Event.ofNoteOn`. -/
inductive Event where
  | noteOn (channel key velocity : UInt8)
  | noteOff (channel key velocity : UInt8)
  | polyPressure (channel key pressure : UInt8)
  | channelPressure (channel pressure : UInt8)
  | controlChange (channel controller value : UInt8)
  | pitchBend (channel : UInt8) (value : Int)
  | programChange (channel program : UInt8)
  | system
  deriving DecidableEq, Repr

/-- A note-on, or the note-off it stands for when its velocity is zero. -/
def Event.ofNoteOn (channel key velocity : UInt8) : Event :=
  if velocity = 0 then .noteOff channel key 0 else .noteOn channel key velocity

def IsBend (value : Int) : Prop :=
  -8192 ≤ value ∧ value ≤ 8191

instance (value : Int) : Decidable (IsBend value) :=
  inferInstanceAs (Decidable (_ ∧ _))

def Event.WellFormed : Event → Prop
  | .noteOn channel key velocity =>
    channel < 16 ∧ key < 128 ∧ velocity < 128 ∧ velocity ≠ 0
  | .noteOff channel key velocity => channel < 16 ∧ key < 128 ∧ velocity < 128
  | .polyPressure channel key pressure => channel < 16 ∧ key < 128 ∧ pressure < 128
  | .channelPressure channel pressure => channel < 16 ∧ pressure < 128
  | .controlChange channel controller value =>
    channel < 16 ∧ controller < 128 ∧ value < 128
  | .pitchBend channel value => channel < 16 ∧ IsBend value
  | .programChange channel program => channel < 16 ∧ program < 128
  | .system => True

/-- What a transport delivers: something with a frame in the present block that
may decode to a message. -/
class TransportEvent (α : Type) where
  frame : α → UInt32
  /-- Absent for malformed and for unknown input. -/
  decode? : α → Option Event

end PolySampler.Midi
