import PolySampler.Midi.Source

/-!
Dispatching as a list of calls. Every event asks for one call or for none, and the
events of a block are dispatched by making the calls that they ask for, in their order.
A source that is read while its events are being played makes no difference to that,
and is left with nothing more to hand out.
-/

namespace PolySampler.Midi

/-- The call that a decoded event asks for; absent for what is not for playing. -/
def Event.call? (delay : UInt32) : Event → Option Call
  | .noteOn _ key velocity => some (.noteOn delay key velocity)
  | .noteOff _ key velocity => some (.noteOff delay key velocity)
  | .polyPressure _ key pressure => some (.polyAftertouch delay key pressure)
  | .channelPressure _ pressure => some (.channelAftertouch delay pressure)
  | .controlChange _ controller value => some (.controlChange delay controller value)
  | .pitchBend _ value => some (.pitchWheel delay value)
  | .programChange _ _ | .system => none

section Calls

variable {σ α : Type} [EventSink σ] [TransportEvent α]

def call? (event : α) : Option Call :=
  (TransportEvent.decode? event).bind (Event.call? (TransportEvent.frame event))

def calls (events : List α) : List Call :=
  events.filterMap call?

def performAll (calls : List Call) (sink : σ) : σ :=
  calls.foldl (fun sink call => call.perform sink) sink

theorem dispatchEvent_eq (delay : UInt32) (event : Event) (sink : σ) :
    dispatchEvent delay event sink = match event.call? delay with
      | some call => (true, call.perform sink)
      | none => (false, sink) := by
  cases event <;> rfl

/-- The number of calls and the sink after them. -/
def made (calls : List Call) (sink : σ) : Nat × σ :=
  (calls.length, performAll calls sink)

theorem calls_cons (event : α) (rest : List α) :
    calls (event :: rest) = (call? event).toList ++ calls rest := by
  rw [calls, calls, List.filterMap_cons]
  cases call? event <;> rfl

theorem dispatch_cons (event : α) (rest : List α) (sink : σ) :
    dispatch (event :: rest) sink = match call? event with
      | none => dispatch rest sink
      | some call =>
        ((dispatch rest (call.perform sink)).1 + 1, (dispatch rest (call.perform sink)).2) := by
  rw [dispatch, call?]
  cases TransportEvent.decode? event with
  | none => rfl
  | some decoded =>
      simp only [dispatchEvent_eq, Option.bind_some]
      cases Event.call? (TransportEvent.frame event) decoded <;> rfl

theorem dispatch_eq (events : List α) (sink : σ) :
    dispatch events sink = made (calls events) sink := by
  induction events generalizing sink with
  | nil => rfl
  | cons event rest ih =>
      rw [dispatch_cons, calls_cons]
      cases call? event with
      | none => exact ih sink
      | some call =>
          dsimp only
          rw [ih]
          rfl

end Calls

/-! ### Transports -/

def Transport.calls : Transport → List Call
  | .raw events => Midi.calls events
  | .sequencer events => Midi.calls events

theorem Transport.dispatch_eq {σ : Type} [EventSink σ] (transport : Transport) (sink : σ) :
    transport.dispatch sink = made transport.calls sink := by
  cases transport with
  | raw events => exact Midi.dispatch_eq events sink
  | sequencer events => exact Midi.dispatch_eq events sink

theorem dispatchAll_eq {σ : Type} [EventSink σ] (transports : List Transport) (sink : σ) :
    dispatchAll transports sink = made (transports.flatMap Transport.calls) sink := by
  induction transports generalizing sink with
  | nil => rfl
  | cons transport rest ih =>
      rw [dispatchAll, Transport.dispatch_eq, List.flatMap_cons, made]
      dsimp only
      rw [ih, made, made, List.length_append, performAll, performAll, performAll,
        List.foldl_append]

/-! ### Sources -/

section Sources

variable {σ ω α : Type} [EventSource ω α]

def EventSource.events (source : ω) : List α :=
  match h : EventSource.next? source with
  | none => []
  | some (event, rest) =>
    have := EventSource.remaining_lt h
    event :: EventSource.events rest
termination_by EventSource.remaining source

open EventSource

theorem events_of_none {source : ω} (h : next? source = none) : events source = [] := by
  rw [events]
  split
  · rfl
  · next heq => simp [h] at heq

theorem events_of_some {source rest : ω} {event : α} (h : next? source = some (event, rest)) :
    events source = event :: events rest := by
  rw [events]
  split
  · next heq => simp [h] at heq
  · next event' rest' heq =>
      obtain ⟨rfl, rfl⟩ := Prod.mk.inj (Option.some.inj (h.symm.trans heq))
      rfl

theorem discard_of_none {source : ω} (h : next? source = none) : discard source = source := by
  rw [discard]
  split
  · rfl
  · next heq => simp [h] at heq

theorem discard_of_some {source rest : ω} {event : α} (h : next? source = some (event, rest)) :
    discard source = discard rest := by
  rw [discard]
  split
  · next heq => simp [h] at heq
  · next event' rest' heq =>
      obtain ⟨rfl, rfl⟩ := Prod.mk.inj (Option.some.inj (h.symm.trans heq))
      rfl

/-- Induction over the events that a source still has. -/
theorem source_induction {motive : ω → Prop}
    (exhausted : ∀ source, next? source = none → motive source)
    (event : ∀ source event rest, next? source = some (event, rest) → motive rest →
      motive source) (source : ω) : motive source := by
  cases h : next? source with
  | none => exact exhausted source h
  | some fetched =>
      have := remaining_lt h
      exact event source fetched.1 fetched.2 h (source_induction exhausted event fetched.2)
termination_by remaining source

/-- A source that has been discarded hands out nothing more. -/
theorem next?_discard (source : ω) : next? (discard source) = none := by
  induction source using source_induction with
  | exhausted source h => rwa [discard_of_none h]
  | event source event rest h ih => rwa [discard_of_some h]

theorem dispatchFrom_of_none [EventSink σ] [TransportEvent α] {source : ω}
    (h : next? source = none) (sink : σ) : dispatchFrom source sink = (0, source, sink) := by
  rw [dispatchFrom]
  split
  · rfl
  · next heq => simp [h] at heq

theorem dispatchFrom_of_some [EventSink σ] [TransportEvent α] {source rest : ω} {event : α}
    (h : next? source = some (event, rest)) (sink : σ) :
    dispatchFrom source sink = match call? event with
      | none => dispatchFrom rest sink
      | some call =>
        ((dispatchFrom rest (call.perform sink)).1 + 1,
          (dispatchFrom rest (call.perform sink)).2) := by
  rw [dispatchFrom]
  split
  · next heq => simp [h] at heq
  · next event' rest' heq =>
      obtain ⟨rfl, rfl⟩ := Prod.mk.inj (Option.some.inj (h.symm.trans heq))
      rw [call?]
      cases TransportEvent.decode? event with
      | none => rfl
      | some decoded =>
          simp only [dispatchEvent_eq, Option.bind_some]
          cases Event.call? (TransportEvent.frame event) decoded <;> rfl

/-- Reading the events one by one makes the calls that all of them ask for, and
exhausts the source. -/
theorem dispatchFrom_eq [EventSink σ] [TransportEvent α] (source : ω) (sink : σ) :
    dispatchFrom source sink =
      ((calls (events source)).length, discard source,
        performAll (calls (events source)) sink) := by
  induction source using source_induction generalizing sink with
  | exhausted source h =>
      rw [dispatchFrom_of_none h, events_of_none h, discard_of_none h]
      rfl
  | event source event rest h ih =>
      rw [dispatchFrom_of_some h, events_of_some h, discard_of_some h, calls_cons]
      cases call? event with
      | none => exact ih sink
      | some call =>
          dsimp only
          rw [ih]
          rfl

@[simp] theorem events_list (source : List α) : events source = source := by
  induction source with
  | nil => exact events_of_none rfl
  | cons event rest ih =>
      have hnext : next? (event :: rest) = some (event, rest) := rfl
      rw [events_of_some hnext, ih]

end Sources

end PolySampler.Midi
