import PolySampler.Proofs.Midi.Dispatch

/-!
What is relied on in the ring under a queue of messages: it is first in, first out, and
takes messages until as many wait as it was made for.
-/

namespace PolySampler.Midi

open MessageRing MessageReceiver

variable {ρ : Type} [MessageRing ρ]

/-- The messages that wait in a ring form a queue with room for so many. -/
structure IsFifo (capacityOf : ρ → Nat) (waiting : ρ → List RawEvent) : Prop where
  capacity_new (capacity : Nat) : capacityOf (new capacity) = capacity
  waiting_new (capacity : Nat) : waiting (new capacity) = []
  push {ring : ρ} (message : RawEvent) (h : (waiting ring).length < capacityOf ring) :
    ∃ more, push? ring message = some more ∧ capacityOf more = capacityOf ring ∧
      waiting more = waiting ring ++ [message]
  full {ring : ρ} (message : RawEvent) (h : (waiting ring).length = capacityOf ring) :
    push? ring message = none
  pop {ring : ρ} {oldest : RawEvent} {younger : List RawEvent}
      (h : waiting ring = oldest :: younger) :
    ∃ rest, pop? ring = some (oldest, rest) ∧ capacityOf rest = capacityOf ring ∧
      waiting rest = younger
  empty {ring : ρ} (h : waiting ring = []) : pop? ring = none

theorem Backlog.isFifo : IsFifo Backlog.capacity Backlog.waiting where
  capacity_new _ := rfl
  waiting_new _ := rfl
  push message h := ⟨_, if_pos h, rfl, rfl⟩
  full message h := if_neg (Nat.not_lt_of_le (Nat.le_of_eq h.symm))
  pop {ring _ _} h := by
    obtain ⟨capacity, waiting⟩ := ring
    obtain rfl : waiting = _ := h
    exact ⟨_, rfl, rfl, rfl⟩
  empty {ring} h := by
    obtain ⟨capacity, waiting⟩ := ring
    obtain rfl : waiting = [] := h
    rfl

/-- A queue hands out what draining it would give, and is left as draining it would
leave it. -/
theorem queue_drain (q : Queue ρ) : (EventSource.events q, discard q) = q.drain := by
  rw [Queue.drain]
  induction hslots : slots q.ring generalizing q with
  | zero =>
      have hnone : EventSource.next? q = none := by
        refine Option.eq_none_iff_forall_ne_some.mpr fun ⟨message, rest⟩ hsome => ?_
        have hpopped := Queue.slots_pop hsome
        omega
      rw [events_of_none hnone, discard_of_none hnone]
      rfl
  | succ count ih =>
      rw [Queue.take]
      cases hnext : q.pop? with
      | none => rw [events_of_none hnext, discard_of_none hnext]
      | some fetched =>
          obtain ⟨message, rest⟩ := fetched
          have hpopped := Queue.slots_pop hnext
          have hrest := ih rest (by omega)
          rw [events_of_some hnext, discard_of_some hnext]
          dsimp only
          rw [← hrest]

variable {capacityOf : ρ → Nat} {waiting : ρ → List RawEvent} {q : Queue ρ}

namespace IsFifo

theorem next (h : IsFifo capacityOf waiting) {message : RawEvent} {rest : Queue ρ}
    (hnext : EventSource.next? q = some (message, rest)) :
    ∃ oldest, message = oldest.withTime 0 ∧ waiting q.ring = oldest :: waiting rest.ring ∧
      capacityOf rest.ring = capacityOf q.ring ∧ rest.dropped = q.dropped := by
  obtain ⟨⟨popped, ring⟩, hpop, heq⟩ := Option.map_eq_some_iff.mp hnext
  obtain ⟨rfl, rfl⟩ := Prod.mk.inj heq
  cases hwaiting : waiting q.ring with
  | nil =>
      rw [h.empty hwaiting] at hpop
      cases hpop
  | cons oldest younger =>
      obtain ⟨rest, hpopped, hcapacity, rfl⟩ := h.pop hwaiting
      obtain ⟨rfl, rfl⟩ := Prod.mk.inj (Option.some.inj (hpopped.symm.trans hpop))
      exact ⟨oldest, rfl, rfl, hcapacity, rfl⟩

theorem exhausted (h : IsFifo capacityOf waiting) (hnext : EventSource.next? q = none) :
    waiting q.ring = [] := by
  cases hwaiting : waiting q.ring with
  | nil => rfl
  | cons oldest younger =>
      obtain ⟨rest, hpop, -, -⟩ := h.pop hwaiting
      rw [Option.map_eq_none_iff.mp hnext] at hpop
      cases hpop

theorem send_of_room (h : IsFifo capacityOf waiting)
    (hroom : (waiting q.ring).length < capacityOf q.ring) (bytes : List UInt8) :
    ∃ ring, q.send bytes = (true, { q with ring }) ∧ capacityOf ring = capacityOf q.ring ∧
      waiting ring = waiting q.ring ++ [RawEvent.ofBytes 0 bytes] := by
  obtain ⟨ring, hpush, hcapacity, hwaiting⟩ := h.push (RawEvent.ofBytes 0 bytes) hroom
  refine ⟨ring, ?_, hcapacity, hwaiting⟩
  rw [Queue.send, hpush]

theorem send_of_full (h : IsFifo capacityOf waiting)
    (hfull : (waiting q.ring).length = capacityOf q.ring) (bytes : List UInt8) :
    q.send bytes = (false, { q with dropped := q.dropped + 1 }) := by
  rw [Queue.send, h.full (RawEvent.ofBytes 0 bytes) hfull]

end IsFifo

end PolySampler.Midi
