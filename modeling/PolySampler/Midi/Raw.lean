import PolySampler.Midi.Event

/-!
Raw messages: bytes as a driver delivers them. Running status is not
supported, so a message begins with a status byte, whose high half tells the
kind and whose low half the channel.
-/

namespace PolySampler.Midi

def statusOf (byte : UInt8) : UInt8 :=
  byte &&& 0xF0

def channelOf (byte : UInt8) : UInt8 :=
  byte &&& 0x0F

/-- The centered pitch bend of two data bytes, the low seven bits first. -/
def centeredPitch (low high : UInt8) : Int :=
  (high.toNat % 128 : Int) * 128 + (low.toNat % 128 : Int) - 8192

def dataBits (byte : UInt8) : UInt8 :=
  byte &&& 0x7F

/-- Decodes one message. Absent if there is no status byte or a data byte that
the status asks for is missing; bytes past those are skipped. -/
def decodeBytes? : List UInt8 → Option Event
  | [] => none
  | first :: rest =>
    if first < 0x80 then none
    else
      let channel := channelOf first
      let status := statusOf first
      match rest.map dataBits with
      | [] => if status = 0xF0 then some .system else none
      | [a] =>
        if status = 0xC0 then some (.programChange channel a)
        else if status = 0xD0 then some (.channelPressure channel a)
        else if status = 0xF0 then some .system
        else none
      | a :: b :: _ =>
        if status = 0x80 then some (.noteOff channel a b)
        else if status = 0x90 then some (.ofNoteOn channel a b)
        else if status = 0xA0 then some (.polyPressure channel a b)
        else if status = 0xB0 then some (.controlChange channel a b)
        else if status = 0xC0 then some (.programChange channel a)
        else if status = 0xD0 then some (.channelPressure channel a)
        else if status = 0xE0 then some (.pitchBend channel (centeredPitch a b))
        else some .system

/-- A short message at a frame. Of longer messages only the first three bytes
are kept, which is enough to decode them. -/
structure RawEvent where
  time : UInt32
  data : List UInt8
  length_data : data.length ≤ 3
  deriving DecidableEq

namespace RawEvent

def ofBytes (time : UInt32) (bytes : List UInt8) : RawEvent where
  time
  data := bytes.take 3
  length_data := List.length_take_le 3 bytes

def noteOn (time : UInt32) (channel key velocity : UInt8) : RawEvent :=
  ofBytes time [0x90 ||| channelOf channel, key, velocity]

def noteOff (time : UInt32) (channel key velocity : UInt8) : RawEvent :=
  ofBytes time [0x80 ||| channelOf channel, key, velocity]

def controlChange (time : UInt32) (channel controller value : UInt8) : RawEvent :=
  ofBytes time [0xB0 ||| channelOf channel, controller, value]

def withTime (e : RawEvent) (time : UInt32) : RawEvent :=
  { e with time }

end RawEvent

/-- Raw messages carry their own frame. -/
instance : TransportEvent RawEvent where
  frame e := e.time
  decode? e := decodeBytes? e.data

end PolySampler.Midi
