import PolySampler.Midi.Raw

/-!
Typed records as a sequencer queue delivers them. They come split into fields,
with controllers and values of 32 bits and the pitch bend already centered; a
field out of range makes the record malformed.
-/

namespace PolySampler.Midi

inductive Record where
  | noteOn (channel note velocity : UInt8)
  | noteOff (channel note velocity : UInt8)
  | keyPressure (channel note value : UInt8)
  | controller (channel : UInt8) (param : Nat) (value : Int)
  | channelPressure (channel : UInt8) (value : Int)
  | pitchBend (channel : UInt8) (value : Int)
  | programChange (channel : UInt8) (value : Int)
  | systemExclusive
  | other
  deriving DecidableEq, Repr

/-- A record at a frame of the present block. -/
structure SequencerEvent where
  tick : UInt32
  record : Record
  deriving DecidableEq, Repr

def sevenBits? (value : Int) : Option UInt8 :=
  if 0 ≤ value ∧ value < 128 then some (UInt8.ofNat value.toNat) else none

/-- Decodes a record. Absent for unknown records and fields out of range; a
channel is cut to its low four bits. -/
def Record.decode? : Record → Option Event
  | .noteOn channel note velocity => do
    return .ofNoteOn (channelOf channel) (← sevenBits? note.toNat) (← sevenBits? velocity.toNat)
  | .noteOff channel note velocity => do
    return .noteOff (channelOf channel) (← sevenBits? note.toNat) (← sevenBits? velocity.toNat)
  | .keyPressure channel note value => do
    return .polyPressure (channelOf channel) (← sevenBits? note.toNat) (← sevenBits? value.toNat)
  | .controller channel param value => do
    return .controlChange (channelOf channel) (← sevenBits? param) (← sevenBits? value)
  | .channelPressure channel value => do
    return .channelPressure (channelOf channel) (← sevenBits? value)
  | .pitchBend channel value =>
    if IsBend value then some (.pitchBend (channelOf channel) value) else none
  | .programChange channel value => do
    return .programChange (channelOf channel) (← sevenBits? value)
  | .systemExclusive => some .system
  | .other => none

/-- The tick of a record is a frame of the block. -/
instance : TransportEvent SequencerEvent where
  frame e := e.tick
  decode? e := e.record.decode?

end PolySampler.Midi
