import PolySampler.Midi.Sequencer

/-!
Handing the events of a block to whatever plays them. Every event that decodes
to something playable becomes one call, in order; all others leave no trace.
-/

namespace PolySampler.Midi

/-- The six things that can be asked of an instrument, each with the frame of
the present block it is due at. -/
inductive Call where
  | noteOn (delay : UInt32) (key velocity : UInt8)
  | noteOff (delay : UInt32) (key velocity : UInt8)
  | polyAftertouch (delay : UInt32) (key value : UInt8)
  | channelAftertouch (delay : UInt32) (value : UInt8)
  | controlChange (delay : UInt32) (controller value : UInt8)
  | pitchWheel (delay : UInt32) (value : Int)
  deriving DecidableEq, Repr

class EventSink (σ : Type) where
  noteOn : UInt32 → (key velocity : UInt8) → σ → σ
  noteOff : UInt32 → (key velocity : UInt8) → σ → σ
  polyAftertouch : UInt32 → (key value : UInt8) → σ → σ
  channelAftertouch : UInt32 → (value : UInt8) → σ → σ
  controlChange : UInt32 → (controller value : UInt8) → σ → σ
  pitchWheel : UInt32 → (value : Int) → σ → σ

def Call.perform {σ : Type} [EventSink σ] : Call → σ → σ
  | .noteOn delay key velocity => EventSink.noteOn delay key velocity
  | .noteOff delay key velocity => EventSink.noteOff delay key velocity
  | .polyAftertouch delay key value => EventSink.polyAftertouch delay key value
  | .channelAftertouch delay value => EventSink.channelAftertouch delay value
  | .controlChange delay controller value => EventSink.controlChange delay controller value
  | .pitchWheel delay value => EventSink.pitchWheel delay value

/-- A sink that writes down the calls made to it, the latest last. -/
instance : EventSink (List Call) where
  noteOn delay key velocity calls := calls ++ [.noteOn delay key velocity]
  noteOff delay key velocity calls := calls ++ [.noteOff delay key velocity]
  polyAftertouch delay key value calls := calls ++ [.polyAftertouch delay key value]
  channelAftertouch delay value calls := calls ++ [.channelAftertouch delay value]
  controlChange delay controller value calls := calls ++ [.controlChange delay controller value]
  pitchWheel delay value calls := calls ++ [.pitchWheel delay value]

/-- Forwards one decoded event and tells whether there was anything to play.
Program changes and system messages are not for playing. -/
def dispatchEvent {σ : Type} [EventSink σ] (delay : UInt32) (event : Event) (sink : σ) :
    Bool × σ :=
  match event with
  | .noteOn _ key velocity => (true, EventSink.noteOn delay key velocity sink)
  | .noteOff _ key velocity => (true, EventSink.noteOff delay key velocity sink)
  | .polyPressure _ key pressure => (true, EventSink.polyAftertouch delay key pressure sink)
  | .channelPressure _ pressure => (true, EventSink.channelAftertouch delay pressure sink)
  | .controlChange _ controller value =>
    (true, EventSink.controlChange delay controller value sink)
  | .pitchBend _ value => (true, EventSink.pitchWheel delay value sink)
  | .programChange _ _ | .system => (false, sink)

/-- Dispatches the events of one transport and counts those that reached the
sink. -/
def dispatch {σ α : Type} [EventSink σ] [TransportEvent α] : List α → σ → Nat × σ
  | [], sink => (0, sink)
  | event :: rest, sink =>
    match TransportEvent.decode? event with
    | none => dispatch rest sink
    | some decoded =>
      let (played, sink) := dispatchEvent (TransportEvent.frame event) decoded sink
      let (count, sink) := dispatch rest sink
      (if played then count + 1 else count, sink)

inductive Transport where
  | raw (events : List RawEvent)
  | sequencer (events : List SequencerEvent)

def Transport.dispatch {σ : Type} [EventSink σ] : Transport → σ → Nat × σ
  | .raw events => Midi.dispatch events
  | .sequencer events => Midi.dispatch events

/-- Dispatches several transports one after the other and adds up the counts. -/
def dispatchAll {σ : Type} [EventSink σ] : List Transport → σ → Nat × σ
  | [], sink => (0, sink)
  | transport :: rest, sink =>
    let (count, sink) := transport.dispatch sink
    let (more, sink) := dispatchAll rest sink
    (count + more, sink)

end PolySampler.Midi
