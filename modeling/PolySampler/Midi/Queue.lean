import PolySampler.Midi.Raw

/-!
The queue between a transport that has no frames of its own and the renderer.
They share a ring, each at its end. A full ring takes no message; the message
is dropped, and the sender counts the loss.
-/

namespace PolySampler.Midi

/-- Where messages come from that arrive outside the blocks of the driver. -/
class MessageReceiver (ρ : Type) where
  /-- Takes out the oldest message. -/
  pop? : ρ → Option (RawEvent × ρ)
  /-- How many messages can be taken out. -/
  slots : ρ → Nat
  slots_pop {ring rest : ρ} {message : RawEvent} (h : pop? ring = some (message, rest)) :
    slots ring = slots rest + 1

/-- What a transport and the renderer do with a ring, each at its end. -/
class MessageRing (ρ : Type) extends MessageReceiver ρ where
  new : Nat → ρ
  /-- Puts a message behind those that wait. A full ring takes none. -/
  push? : ρ → RawEvent → Option ρ
  slots_push {ring more : ρ} {message : RawEvent} (h : push? ring message = some more) :
    slots more = slots ring + 1

structure Backlog where
  capacity : Nat
  waiting : List RawEvent := []

namespace Backlog

def push? (b : Backlog) (message : RawEvent) : Option Backlog :=
  if b.waiting.length < b.capacity then some { b with waiting := b.waiting ++ [message] }
  else none

def pop? (b : Backlog) : Option (RawEvent × Backlog) :=
  match b.waiting with
  | [] => none
  | oldest :: rest => some (oldest, { b with waiting := rest })

theorem length_push {b more : Backlog} {message : RawEvent} (h : b.push? message = some more) :
    more.waiting.length = b.waiting.length + 1 := by
  rw [push?] at h
  split at h
  · cases h
    exact List.length_append
  · cases h

theorem length_pop {b rest : Backlog} {message : RawEvent} (h : b.pop? = some (message, rest)) :
    b.waiting.length = rest.waiting.length + 1 := by
  obtain ⟨capacity, waiting⟩ := b
  cases waiting with
  | nil => cases h
  | cons oldest waiting =>
      cases h
      rfl

end Backlog

instance : MessageRing Backlog where
  new capacity := { capacity }
  push? := Backlog.push?
  pop? := Backlog.pop?
  slots b := b.waiting.length
  slots_pop := Backlog.length_pop
  slots_push := Backlog.length_push

/-- A ring, and how much was dropped in front of it. -/
structure Queue (ρ : Type := Backlog) where
  ring : ρ
  dropped : Nat := 0

namespace Queue

variable {ρ : Type} [MessageRing ρ]

def new (capacity : Nat) : Queue ρ :=
  { ring := MessageRing.new capacity }

/-- Queues one message, or drops it if the ring is full. Tells whether it was
accepted. -/
def send (q : Queue ρ) (bytes : List UInt8) : Bool × Queue ρ :=
  match MessageRing.push? q.ring (RawEvent.ofBytes 0 bytes) with
  | some ring => (true, { q with ring })
  | none => (false, { q with dropped := q.dropped + 1 })

/-- Takes out the oldest message. Queued messages know no frame, so they all fall
on the first one. -/
def pop? (q : Queue ρ) : Option (RawEvent × Queue ρ) :=
  (MessageReceiver.pop? q.ring).map fun (message, ring) =>
    (message.withTime 0, { q with ring })

def take (q : Queue ρ) : (limit : Nat) → List RawEvent × Queue ρ
  | 0 => ([], q)
  | limit + 1 =>
    match q.pop? with
    | none => ([], q)
    | some (message, rest) =>
      let (messages, rest) := rest.take limit
      (message :: messages, rest)

def drain (q : Queue ρ) : List RawEvent × Queue ρ :=
  q.take (MessageReceiver.slots q.ring)

theorem slots_pop {q rest : Queue ρ} {message : RawEvent} (h : q.pop? = some (message, rest)) :
    MessageReceiver.slots q.ring = MessageReceiver.slots rest.ring + 1 := by
  obtain ⟨⟨oldest, ring⟩, hpop, heq⟩ := Option.map_eq_some_iff.mp h
  cases heq
  exact MessageReceiver.slots_pop hpop

end Queue

end PolySampler.Midi
