import PolySampler.Midi.Dispatch
import PolySampler.Midi.Queue

/-!
Sources of events that are read while the events are being played: each event is
fetched when its turn has come, and whoever made the source sees what was fetched.
-/

namespace PolySampler.Midi

/-- Something that hands out events one at a time, and after finitely many no more. -/
class EventSource (ω : Type) (α : outParam Type) where
  /-- The next event and what remains behind it. -/
  next? : ω → Option (α × ω)
  /-- How many events remain at most. -/
  remaining : ω → Nat
  remaining_lt {source rest : ω} {event : α} (h : next? source = some (event, rest)) :
    remaining rest < remaining source

/-- A list hands out its elements. -/
instance {α : Type} : EventSource (List α) α where
  next? events := match events with
    | [] => none
    | event :: rest => some (event, rest)
  remaining := List.length
  remaining_lt {source rest event} h := by
    cases source with
    | nil => cases h
    | cons first more =>
        obtain ⟨rfl, rfl⟩ := Prod.mk.inj (Option.some.inj h)
        exact Nat.lt_succ_self _

/-- A queue is emptied. -/
instance {ρ : Type} [MessageRing ρ] : EventSource (Queue ρ) RawEvent where
  next? := Queue.pop?
  remaining q := MessageReceiver.slots q.ring
  remaining_lt h := Nat.lt_of_succ_le (Nat.le_of_eq (Queue.slots_pop h).symm)

section

variable {ω α σ : Type} [EventSource ω α]

/-- Fetches the events of a source and hands each on before the next is fetched.
Counts those that reached the sink, and gives the source back. -/
def dispatchFrom [EventSink σ] [TransportEvent α] (source : ω) (sink : σ) : Nat × ω × σ :=
  match h : EventSource.next? source with
  | none => (0, source, sink)
  | some (event, rest) =>
    have := EventSource.remaining_lt h
    match TransportEvent.decode? event with
    | none => dispatchFrom rest sink
    | some decoded =>
      let (played, sink) := dispatchEvent (TransportEvent.frame event) decoded sink
      let (count, source, sink) := dispatchFrom rest sink
      (if played then count + 1 else count, source, sink)
termination_by EventSource.remaining source

def discard (source : ω) : ω :=
  match h : EventSource.next? source with
  | none => source
  | some (_, rest) =>
    have := EventSource.remaining_lt h
    discard rest
termination_by EventSource.remaining source

end

end PolySampler.Midi
