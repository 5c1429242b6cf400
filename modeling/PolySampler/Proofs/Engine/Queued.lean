import Mathlib.Data.List.Basic
import PolySampler.Proofs.Engine.Blocks
import PolySampler.Proofs.Midi.Queue

/-!
Messages on their way from a transport through the queue to the engine. The transport
sends when it pleases, also while a block is fetching, and blocks find the gate free or
busy. Each message is either dropped at the queue, or waits there, or is fetched by one
block: the first that comes by, which plays it on its first frame or loses it.
-/

namespace PolySampler.Engine

open Signal Midi

variable {ρ : Type} [MessageRing ρ]

/-! ### The transport and the queue -/

/-- A queue with a transport at its other end, and what has been done at both. -/
structure Line (ρ : Type) where
  queue : Queue ρ
  /-- The number of messages sent, whether or not there was room for them. -/
  sends : Nat := 0
  /-- The messages that there was room for, the first sent first. -/
  accepted : List RawEvent := []
  /-- The messages fetched by the present block. -/
  fetched : List RawEvent := []
  /-- What is sent while the block is under way: so many messages before its first fetch,
  so many before the second, and so on. -/
  arrivals : List (List (List UInt8)) := []

namespace Line

def send (l : Line ρ) (bytes : List UInt8) : Line ρ :=
  let (granted, queue) := l.queue.send bytes
  { l with
    queue
    sends := l.sends + 1
    accepted := if granted then l.accepted ++ [RawEvent.ofBytes 0 bytes] else l.accepted }

def sendAll (l : Line ρ) (messages : List (List UInt8)) : Line ρ :=
  messages.foldl send l

/-- The line at the moment of the next fetch. -/
def arrive (l : Line ρ) : Line ρ :=
  { l.sendAll (l.arrivals.headD []) with arrivals := l.arrivals.tail }

/-- The line after the block, with everything sent that was still to be sent during it. -/
def hangUp (l : Line ρ) : Line ρ :=
  { l.sendAll l.arrivals.flatten with fetched := [], arrivals := [] }

theorem fetched_sendAll (l : Line ρ) (messages : List (List UInt8)) :
    (l.sendAll messages).fetched = l.fetched := by
  induction messages generalizing l with
  | nil => rfl
  | cons bytes messages ih => exact ih (l.send bytes)

theorem accepted_prefix_sendAll (l : Line ρ) (messages : List (List UInt8)) :
    l.accepted <+: (l.sendAll messages).accepted := by
  induction messages generalizing l with
  | nil => exact List.prefix_refl _
  | cons bytes messages ih =>
      refine List.IsPrefix.trans ?_ (ih (l.send bytes))
      rw [send]
      dsimp only
      split
      · exact List.prefix_append _ _
      · exact List.prefix_refl _

theorem slots_send (l : Line ρ) (bytes : List UInt8) :
    MessageReceiver.slots (l.send bytes).queue.ring ≤
      MessageReceiver.slots l.queue.ring + 1 := by
  rw [send, Queue.send]
  cases hpush : MessageRing.push? l.queue.ring (RawEvent.ofBytes 0 bytes) with
  | some ring => exact Nat.le_of_eq (MessageRing.slots_push hpush)
  | none => exact Nat.le_succ _

theorem slots_sendAll (l : Line ρ) (messages : List (List UInt8)) :
    MessageReceiver.slots (l.sendAll messages).queue.ring ≤
      MessageReceiver.slots l.queue.ring + messages.length := by
  induction messages generalizing l with
  | nil => exact Nat.le_refl _
  | cons bytes messages ih =>
      have hfirst := l.slots_send bytes
      have hrest : MessageReceiver.slots (l.sendAll (bytes :: messages)).queue.ring ≤ _ :=
        ih (l.send bytes)
      rw [List.length_cons]
      omega

def next? (l : Line ρ) : Option (RawEvent × Line ρ) :=
  (EventSource.next? l.arrive.queue).map fun (message, queue) =>
    (message, { l.arrive with queue, fetched := l.fetched ++ [message] })

/-- What is waiting or has not been sent yet. -/
def remaining (l : Line ρ) : Nat :=
  MessageReceiver.slots l.queue.ring + l.arrivals.flatten.length

theorem remaining_lt {l rest : Line ρ} {message : RawEvent}
    (h : l.next? = some (message, rest)) : rest.remaining < l.remaining := by
  obtain ⟨⟨_, queue⟩, hpop, heq⟩ := Option.map_eq_some_iff.mp h
  obtain ⟨rfl, rfl⟩ := Prod.mk.inj heq
  have hpopped : MessageReceiver.slots queue.ring <
      MessageReceiver.slots l.arrive.queue.ring := EventSource.remaining_lt hpop
  have hcame : MessageReceiver.slots l.arrive.queue.ring ≤ _ :=
    l.slots_sendAll (l.arrivals.headD [])
  have harrivals : l.arrivals.flatten.length =
      (l.arrivals.headD []).length + l.arrivals.tail.flatten.length := by
    cases l.arrivals with
    | nil => rfl
    | cons batch batches => rw [List.flatten_cons, List.length_append]; rfl
  show MessageReceiver.slots queue.ring + l.arrivals.tail.flatten.length < _
  rw [remaining, harrivals]
  omega

end Line

instance : EventSource (Line ρ) RawEvent where
  next? := Line.next?
  remaining := Line.remaining
  remaining_lt := Line.remaining_lt

namespace Line

variable {capacityOf : ρ → Nat} {waiting : ρ → List RawEvent} {capacity : Nat}
  {earlier : List RawEvent} {l : Line ρ}

/-- Every message is accounted for: it was dropped, has been fetched by one of the blocks
before or by the present one, or is waiting, the last to be sent at the end. -/
structure Accounted (capacityOf : ρ → Nat) (waiting : ρ → List RawEvent) (capacity : Nat)
    (earlier : List RawEvent) (l : Line ρ) : Prop where
  capacity_eq : capacityOf l.queue.ring = capacity
  length_le : (waiting l.queue.ring).length ≤ capacity
  sends_eq : l.sends = l.accepted.length + l.queue.dropped
  accepted_eq : l.accepted = earlier ++ l.fetched ++ waiting l.queue.ring
  time_eq : ∀ message ∈ l.accepted, message.time = 0

theorem Accounted.send_cases (h : Accounted capacityOf waiting capacity earlier l)
    (hfifo : IsFifo capacityOf waiting) (bytes : List UInt8) :
    if (waiting l.queue.ring).length = capacity then
      l.queue.send bytes = (false, { l.queue with dropped := l.queue.dropped + 1 })
    else ∃ ring, l.queue.send bytes = (true, { l.queue with ring }) ∧
      capacityOf ring = capacity ∧
      waiting ring = waiting l.queue.ring ++ [RawEvent.ofBytes 0 bytes] := by
  have hlength := h.length_le
  have hcapacity := h.capacity_eq
  split
  · next hfull => exact hfifo.send_of_full (hfull.trans hcapacity.symm) bytes
  · next hroom =>
      rw [← hcapacity]
      exact hfifo.send_of_room (by omega) bytes

theorem Accounted.send (h : Accounted capacityOf waiting capacity earlier l)
    (hfifo : IsFifo capacityOf waiting) (bytes : List UInt8) :
    Accounted capacityOf waiting capacity earlier (l.send bytes) := by
  have hsends := h.sends_eq
  have hlength := h.length_le
  have hsent := h.send_cases hfifo bytes
  split at hsent
  · have hline : l.send bytes = { l with
        queue := { l.queue with dropped := l.queue.dropped + 1 }
        sends := l.sends + 1 } := by
      rw [Line.send, hsent]
      rfl
    rw [hline]
    refine ⟨h.capacity_eq, h.length_le, ?_, h.accepted_eq, h.time_eq⟩
    dsimp only
    omega
  · obtain ⟨ring, hqueue, hcapacity, hwaiting⟩ := hsent
    have hline : l.send bytes = { l with
        queue := { l.queue with ring }
        sends := l.sends + 1
        accepted := l.accepted ++ [RawEvent.ofBytes 0 bytes] } := by
      rw [Line.send, hqueue]
      rfl
    rw [hline]
    refine ⟨hcapacity, ?_, ?_, ?_, ?_⟩
    · dsimp only
      rw [hwaiting, List.length_append, List.length_singleton]
      omega
    · dsimp only
      rw [List.length_append, List.length_singleton]
      omega
    · dsimp only
      rw [h.accepted_eq, hwaiting, List.append_assoc]
    · intro message hmem
      rcases List.mem_append.mp hmem with hold | hnew
      · exact h.time_eq message hold
      · rw [List.mem_singleton.mp hnew]
        rfl

theorem Accounted.sendAll (h : Accounted capacityOf waiting capacity earlier l)
    (hfifo : IsFifo capacityOf waiting) (messages : List (List UInt8)) :
    Accounted capacityOf waiting capacity earlier (l.sendAll messages) := by
  induction messages generalizing l with
  | nil => exact h
  | cons bytes messages ih => exact ih (h.send hfifo bytes)

omit [MessageRing ρ] in
theorem Accounted.withArrivals (h : Accounted capacityOf waiting capacity earlier l)
    (arrivals : List (List (List UInt8))) :
    Accounted capacityOf waiting capacity earlier { l with arrivals } :=
  ⟨h.capacity_eq, h.length_le, h.sends_eq, h.accepted_eq, h.time_eq⟩

theorem Accounted.arrive (h : Accounted capacityOf waiting capacity earlier l)
    (hfifo : IsFifo capacityOf waiting) :
    Accounted capacityOf waiting capacity earlier l.arrive :=
  (h.sendAll hfifo _).withArrivals _

theorem Accounted.next (h : Accounted capacityOf waiting capacity earlier l)
    (hfifo : IsFifo capacityOf waiting) {message : RawEvent} {rest : Line ρ}
    (hnext : EventSource.next? l = some (message, rest)) :
    Accounted capacityOf waiting capacity earlier rest ∧ rest.fetched = l.fetched ++ [message] := by
  obtain ⟨⟨_, queue⟩, hpop, heq⟩ := Option.map_eq_some_iff.mp hnext
  obtain ⟨rfl, rfl⟩ := Prod.mk.inj heq
  obtain ⟨oldest, rfl, hwaiting, hcapacity, hdropped⟩ := hfifo.next hpop
  have hcame := h.arrive hfifo
  have haccepted := hcame.accepted_eq
  have hlength := hcame.length_le
  have hfetched : l.arrive.fetched = l.fetched := l.fetched_sendAll _
  rw [hfetched, hwaiting] at haccepted
  rw [hwaiting, List.length_cons] at hlength
  have htime : oldest.time = 0 := hcame.time_eq oldest (by simp [haccepted])
  have hsame : oldest.withTime 0 = oldest := by rw [RawEvent.withTime, ← htime]
  refine ⟨⟨hcapacity.trans hcame.capacity_eq, Nat.le_of_succ_le hlength, ?_, ?_,
    hcame.time_eq⟩, rfl⟩
  · dsimp only
    rw [hdropped]
    exact hcame.sends_eq
  · dsimp only
    rw [haccepted, hsame]
    simp

/-- However much arrives on the way, nothing is lost between the queue and the block. -/
theorem Accounted.discard (h : Accounted capacityOf waiting capacity earlier l)
    (hfifo : IsFifo capacityOf waiting) :
    Accounted capacityOf waiting capacity earlier (Midi.discard l) ∧
      (Midi.discard l).fetched = l.fetched ++ EventSource.events l := by
  induction l using source_induction with
  | exhausted l hnone =>
      rw [discard_of_none hnone, events_of_none hnone]
      exact ⟨h, (List.append_nil _).symm⟩
  | event l message rest hnext ih =>
      obtain ⟨hrest, hfetched⟩ := h.next hfifo hnext
      obtain ⟨hleft, hall⟩ := ih hrest
      rw [discard_of_some hnext, events_of_some hnext]
      refine ⟨hleft, ?_⟩
      rw [hall, hfetched, List.append_assoc, List.singleton_append]

theorem Accounted.waiting_of_exhausted (h : Accounted capacityOf waiting capacity earlier l)
    (hfifo : IsFifo capacityOf waiting) (hnone : EventSource.next? l = none) :
    waiting l.queue.ring = [] := by
  have haccepted : l.accepted <+: l.arrive.accepted := l.accepted_prefix_sendAll _
  have hfetched : l.arrive.fetched = l.fetched := l.fetched_sendAll _
  have hcame : waiting l.arrive.queue.ring = [] :=
    hfifo.exhausted (Option.map_eq_none_iff.mp hnone)
  rw [(h.arrive hfifo).accepted_eq, h.accepted_eq, hfetched, hcame,
    List.prefix_append_right_inj] at haccepted
  exact List.prefix_nil.mp haccepted

end Line

/-! ### Blocks -/

/-- A block, the line it has fetched from, and the engine before and after. -/
structure Block (ρ : Type) where
  before : Engine
  given : List (Array Float32)
  status : RenderStatus
  outputs : List (Array Float32)
  after : Engine
  line : Line ρ

namespace Block

def messages (block : Block ρ) : List RawEvent :=
  block.line.fetched

def contested (block : Block ρ) : Bool :=
  block.before.gate.busy

/-- On a free gate every message that asks for a call has been played, on the first
frame and in its turn, and the block has been rendered after that. On a busy gate
nothing has been played, and the synth is as it was. -/
def Played (block : Block ρ) : Prop :=
  if block.contested then
    block.status = .silenced ∧ block.outputs = block.given.map silence ∧
      block.after = block.before.counting (block.before.contentionCount + 1)
  else
    let calls := block.messages.filterMap fun message =>
      (decodeBytes? message.data).bind (Event.call? 0)
    let (s, outputs) := (calls.foldl (fun s call => call.perform s) block.before.synth).renderBlock
      block.given
    block.status = .rendered calls.length ∧ block.outputs = outputs ∧
      block.after = block.before.rendered s

end Block

/-- Each block in its turn has emptied the queue, and has fetched what was accepted since
the block before, in the order in which it was sent. -/
def InTurn (waiting : ρ → List RawEvent) : (accepted : List RawEvent) → List (Block ρ) → Prop
  | _, [] => True
  | accepted, block :: rest =>
    waiting block.line.queue.ring = [] ∧ block.line.accepted = accepted ++ block.messages ∧
      InTurn waiting block.line.accepted rest

/-- The messages of blocks that found the gate free. Those that do not ask for a call
have been skipped. -/
def dispatched (blocks : List (Block ρ)) : List RawEvent :=
  (blocks.filter fun block => !block.contested).flatMap Block.messages

def discarded (blocks : List (Block ρ)) : List RawEvent :=
  (blocks.filter Block.contested).flatMap Block.messages

/-- The block that the engine renders with what is in the queue and what arrives while
it is under way. -/
def block (e : Engine) (l : Line ρ) (outputs : List (Array Float32))
    (arrivals : List (List (List UInt8))) : Block ρ :=
  let (status, rendered, after, line) := e.renderFrom { l with arrivals } outputs
  { before := e, given := outputs, status, outputs := rendered, after, line }

theorem Line.arrive_of_quiet {l : Line ρ} (h : l.arrivals = []) : l.arrive = l := by
  obtain ⟨queue, sends, accepted, fetched, arrivals⟩ := l
  obtain rfl : arrivals = [] := h
  rfl

theorem Line.events_of_quiet {l : Line ρ} (h : l.arrivals = []) :
    EventSource.events l = EventSource.events l.queue ∧
      (discard l).queue = discard l.queue := by
  induction l using source_induction with
  | exhausted l hnone =>
      have hqueue := Option.map_eq_none_iff.mp hnone
      rw [arrive_of_quiet h] at hqueue
      rw [events_of_none hnone, discard_of_none hnone, events_of_none hqueue,
        discard_of_none hqueue]
      exact ⟨rfl, rfl⟩
  | event l message rest hnext ih =>
      obtain ⟨⟨_, queue⟩, hpop, heq⟩ := Option.map_eq_some_iff.mp hnext
      obtain ⟨rfl, rfl⟩ := Prod.mk.inj heq
      rw [arrive_of_quiet h] at hpop
      obtain ⟨hevents, hrest⟩ := ih ((congrArg Line.arrivals (arrive_of_quiet h)).trans h)
      rw [events_of_some hnext, discard_of_some hnext, events_of_some hpop, discard_of_some hpop,
        hevents, hrest]
      exact ⟨rfl, rfl⟩

/-- If nothing arrives, a block is what the engine renders with the queue. -/
theorem renderQueue_eq (e : Engine) (l : Line ρ) (outputs : List (Array Float32)) :
    let block := e.block l outputs []
    e.renderQueue l.queue outputs =
      (block.status, block.outputs, block.after, block.line.queue) := by
  obtain ⟨hevents, hrest⟩ := Line.events_of_quiet (l := { l with arrivals := [] }) rfl
  rw [renderQueue, block]
  cases hgate : e.gate.busy with
  | false =>
      rw [renderFrom_of_free hgate, renderFrom_of_free hgate, hevents, ← hrest]
  | true =>
      rw [renderFrom_of_busy hgate, renderFrom_of_busy hgate, ← hrest]

/-- What happens to the line or to the engine: a message is sent, a block is called for,
while which more may arrive, or something else is done to the engine, such as that its
gate is taken or released. -/
inductive Happening where
  | send (bytes : List UInt8)
  | render (outputs : List (Array Float32)) (arrivals : List (List (List UInt8)))
  | change (f : Engine → Engine)

def play : List Happening → Line ρ → Engine → List (Block ρ) × Line ρ × Engine
  | [], l, e => ([], l, e)
  | .send bytes :: rest, l, e => play rest (l.send bytes) e
  | .render outputs arrivals :: rest, l, e =>
    let block := e.block l outputs arrivals
    let (blocks, l, e) := play rest block.line.hangUp block.after
    (block :: blocks, l, e)
  | .change f :: rest, l, e => play rest l (f e)

theorem block_line (e : Engine) (l : Line ρ) (outputs : List (Array Float32))
    (arrivals : List (List (List UInt8))) :
    (e.block l outputs arrivals).line = Midi.discard { l with arrivals } := by
  rw [block]
  cases hgate : e.gate.busy with
  | false => rw [renderFrom_of_free hgate]
  | true => rw [renderFrom_of_busy hgate]

variable {capacityOf : ρ → Nat} {waiting : ρ → List RawEvent} {capacity : Nat}
  {earlier : List RawEvent} {l : Line ρ}

theorem block_of_accounted (h : l.Accounted capacityOf waiting capacity earlier)
    (hfifo : IsFifo capacityOf waiting) (hrest : l.fetched = []) (e : Engine)
    (outputs : List (Array Float32)) (arrivals : List (List (List UInt8))) :
    let block := e.block l outputs arrivals
    block.line.Accounted capacityOf waiting capacity earlier ∧
      waiting block.line.queue.ring = [] ∧ block.Played := by
  have hline := e.block_line l outputs arrivals
  obtain ⟨hleft, hfetched⟩ := (h.withArrivals arrivals).discard hfifo
  have hmessages : (Midi.discard { l with arrivals } : Line ρ).fetched =
      EventSource.events { l with arrivals } := by
    rw [hfetched, hrest, List.nil_append]
  refine ⟨hline ▸ hleft, ?_, ?_⟩
  · rw [hline]
    exact hleft.waiting_of_exhausted hfifo (next?_discard _)
  have hcalls : Midi.calls (EventSource.events { l with arrivals }) =
      (e.block l outputs arrivals).messages.filterMap fun message =>
        (decodeBytes? message.data).bind (Midi.Event.call? 0) := by
    rw [Block.messages, hline, hmessages]
    refine List.filterMap_congr fun message hmem => ?_
    have htime : message.time = 0 := hleft.time_eq message (by
      rw [hleft.accepted_eq, hmessages]
      simp [hmem])
    show (decodeBytes? message.data).bind (Midi.Event.call? message.time) = _
    rw [htime]
  rw [Block.Played, ← hcalls]
  show if e.gate.busy then _ else _
  cases hgate : e.gate.busy with
  | true =>
      rw [if_pos rfl, block, renderFrom_of_busy hgate]
      exact ⟨rfl, rfl, rfl⟩
  | false =>
      rw [if_neg Bool.false_ne_true, block, renderFrom_of_free hgate]
      exact ⟨rfl, rfl, rfl⟩

theorem Line.Accounted.hangUp (h : l.Accounted capacityOf waiting capacity earlier)
    (hfifo : IsFifo capacityOf waiting) :
    l.hangUp.Accounted capacityOf waiting capacity (earlier ++ l.fetched) := by
  have hsent := h.sendAll hfifo l.arrivals.flatten
  refine ⟨hsent.capacity_eq, hsent.length_le, hsent.sends_eq, ?_, hsent.time_eq⟩
  show (l.sendAll l.arrivals.flatten).accepted =
    earlier ++ l.fetched ++ [] ++ waiting (l.sendAll l.arrivals.flatten).queue.ring
  rw [hsent.accepted_eq, fetched_sendAll, List.append_nil]

theorem play_of_accounted (happenings : List Happening)
    (h : l.Accounted capacityOf waiting capacity earlier) (hfifo : IsFifo capacityOf waiting)
    (hrest : l.fetched = []) (e : Engine) :
    let (blocks, line, _) := play happenings l e
    line.Accounted capacityOf waiting capacity (earlier ++ blocks.flatMap Block.messages) ∧
      line.fetched = [] ∧ InTurn waiting earlier blocks ∧ ∀ block ∈ blocks, block.Played := by
  induction happenings generalizing l e earlier with
  | nil =>
      refine ⟨?_, hrest, trivial, fun block hmem => by cases hmem⟩
      rw [List.flatMap_nil, List.append_nil]
      exact h
  | cons happening happenings ih =>
      cases happening with
      | send bytes =>
          have hsent : (l.send bytes).fetched = [] := hrest
          exact ih (h.send hfifo bytes) hsent e
      | change f => exact ih h hrest (f e)
      | render outputs arrivals =>
          obtain ⟨hblock, hempty, hplayed⟩ := block_of_accounted h hfifo hrest e outputs arrivals
          have haccepted := hblock.accepted_eq
          rw [hempty, List.append_nil] at haccepted
          obtain ⟨hline, hover, hturn, hall⟩ :=
            ih (hblock.hangUp hfifo) rfl (e.block l outputs arrivals).after
          refine ⟨?_, hover, ⟨hempty, haccepted, ?_⟩, ?_⟩
          · rw [List.flatMap_cons, ← List.append_assoc]
            exact hline
          · rw [haccepted]
            exact hturn
          · intro block hmem
            rcases List.mem_cons.mp hmem with rfl | hmem
            · exact hplayed
            · exact hall block hmem

omit [MessageRing ρ] in
/-- Every message fetched is among the dispatched or among the discarded. -/
theorem length_messages (blocks : List (Block ρ)) :
    (blocks.flatMap Block.messages).length =
      (dispatched blocks).length + (discarded blocks).length := by
  induction blocks with
  | nil => rfl
  | cons block blocks ih =>
      rw [dispatched, discarded] at ih ⊢
      cases hcontested : block.contested with
      | true =>
          rw [List.filter_cons_of_neg (by simp [hcontested]), List.filter_cons_of_pos hcontested,
            List.flatMap_cons, List.flatMap_cons, List.length_append, List.length_append, ih]
          omega
      | false =>
          rw [List.filter_cons_of_pos (by simp [hcontested]),
            List.filter_cons_of_neg (by simp [hcontested]),
            List.flatMap_cons, List.flatMap_cons, List.length_append, List.length_append, ih]
          omega

/-- The line after one more fetch, if there is anything to be fetched. -/
def Line.fetch (l : Line ρ) : Line ρ :=
  match EventSource.next? l with
  | some (_, rest) => rest
  | none => l

theorem Line.Accounted.fetch (h : l.Accounted capacityOf waiting capacity earlier)
    (hfifo : IsFifo capacityOf waiting) (n : Nat) :
    (Nat.repeat Line.fetch n l).Accounted capacityOf waiting capacity earlier := by
  induction n with
  | zero => exact h
  | succ n ih =>
      show (Nat.repeat Line.fetch n l).fetch.Accounted capacityOf waiting capacity earlier
      rw [Line.fetch]
      split
      · next message rest hnext => exact (ih.next hfifo hnext).1
      · exact ih

/-- Whatever is sent to a queue over a ring of any capacity that is first in, first out,
and whichever blocks are called for, on a free gate or on a busy one: a message is accepted
unless the ring is full, and is counted as dropped if it is. Each block empties the ring and
has fetched what was accepted since the block before; it has played that on its first frame,
or lost it. What was accepted is what the blocks have fetched, one after the other, and then
what is waiting, so that no message is fetched twice. Between the blocks and after each fetch
of a block, every message sent is accounted for. -/
theorem queued_messages_delivered_once (hfifo : IsFifo capacityOf waiting) (capacity : Nat)
    (happenings : List Happening) (e : Engine) :
    let (blocks, line, _) := play happenings ({ queue := Queue.new capacity } : Line ρ) e
    (waiting line.queue.ring).length ≤ capacity ∧
    (∀ bytes,
      if (waiting line.queue.ring).length = capacity then
        line.queue.send bytes = (false, { line.queue with dropped := line.queue.dropped + 1 })
      else ∃ ring, line.queue.send bytes = (true, { line.queue with ring }) ∧
        capacityOf ring = capacity ∧
        waiting ring = waiting line.queue.ring ++ [RawEvent.ofBytes 0 bytes]) ∧
    InTurn waiting [] blocks ∧ (∀ block ∈ blocks, block.Played) ∧
    line.accepted = blocks.flatMap Block.messages ++ waiting line.queue.ring ∧
    line.fetched = [] ∧
    ∀ arrivals fetches,
      let moment := Nat.repeat Line.fetch fetches { line with arrivals }
      moment.accepted.length = (dispatched blocks).length + (discarded blocks).length +
        moment.fetched.length + (waiting moment.queue.ring).length ∧
      moment.sends = moment.accepted.length + moment.queue.dropped := by
  have hempty : waiting (MessageRing.new capacity) = [] := hfifo.waiting_new capacity
  have hnew : Line.Accounted capacityOf waiting capacity []
      ({ queue := Queue.new capacity } : Line ρ) :=
    ⟨hfifo.capacity_new capacity, by
      show (waiting (MessageRing.new capacity)).length ≤ capacity
      rw [hempty]
      exact Nat.zero_le _, rfl, hempty.symm, fun message hmem => by cases hmem⟩
  obtain ⟨hline, hrest, hturn, hplayed⟩ := play_of_accounted happenings hnew hfifo rfl e
  have haccepted := hline.accepted_eq
  rw [List.nil_append, hrest, List.append_nil] at haccepted
  refine ⟨hline.length_le, hline.send_cases hfifo, hturn, hplayed, haccepted, hrest,
    fun arrivals fetches => ?_⟩
  have hmoment := (hline.withArrivals arrivals).fetch hfifo fetches
  refine ⟨?_, hmoment.sends_eq⟩
  rw [hmoment.accepted_eq, List.nil_append, List.length_append, List.length_append,
    length_messages]

/-- Three messages for a ring of two places: the third is lost. A block plays the others.
The gate is taken, and while the next block is fetching two more messages arrive, which
are lost with it. -/
theorem third_message_finds_ring_full :
    let on : List UInt8 := [0x90, 60, 100]
    let off : List UInt8 := [0x80, 60, 0]
    ∃ e, Engine.new .machine { numVoices := 2 } = .ok e ∧
      IsFifo Backlog.capacity Backlog.waiting ∧
      let (blocks, line, _) := play [.send on, .send off, .send on, .render [#[1, 1]] [],
        .change held, .render [#[1, 1]] [[off], [on]]] ({ queue := .new 2 } : Line Backlog) e
      (∀ block ∈ blocks, block.Played) ∧
        dispatched blocks = [RawEvent.ofBytes 0 on, RawEvent.ofBytes 0 off] ∧
        discarded blocks = [RawEvent.ofBytes 0 off, RawEvent.ofBytes 0 on] ∧
        line.accepted = dispatched blocks ++ discarded blocks ∧
        line.sends = 5 ∧ line.queue.dropped = 1 := by
  intro on off
  obtain ⟨s, hnew⟩ := Synth.exists_duet
  have he : Engine.new .machine { numVoices := 2 } = .ok { gate := { state := s } } := by
    rw [Engine.new, hnew]
    rfl
  refine ⟨_, he, Backlog.isFifo, ?_⟩
  generalize hstart : ({ gate := { state := s } } : Engine) = start
  have hfree : start.gate.busy = false := by rw [← hstart]
  obtain ⟨-, -, -, hplayed, haccepted, -, -⟩ := queued_messages_delivered_once
    Backlog.isFifo 2 [.send on, .send off, .send on, .render [#[1, 1]] [], .change held,
      .render [#[1, 1]] [[off], [on]]] start
  let sent : Line Backlog := ((({ queue := .new 2 } : Line Backlog).send on).send off).send on
  let first := start.block sent [#[1, 1]] []
  let second := (held first.after).block first.line.hangUp [#[1, 1]] [[off], [on]]
  have hfirst : first.line = { sent with
      queue := { sent.queue with ring := ⟨2, []⟩ }
      fetched := [RawEvent.ofBytes 0 on, RawEvent.ofBytes 0 off] } := by
    rw [block_line, discard_of_some rfl, discard_of_some rfl, discard_of_none rfl]
    rfl
  have hsecond : second.line = { first.line.hangUp with
      sends := 5
      accepted := first.line.accepted ++ [RawEvent.ofBytes 0 off, RawEvent.ofBytes 0 on]
      fetched := [RawEvent.ofBytes 0 off, RawEvent.ofBytes 0 on] } := by
    rw [block_line, hfirst, discard_of_some rfl, discard_of_some rfl, discard_of_none rfl]
    rfl
  have hmessages : first.messages = [RawEvent.ofBytes 0 on, RawEvent.ofBytes 0 off] :=
    congrArg Line.fetched hfirst
  have hlost : second.messages = [RawEvent.ofBytes 0 off, RawEvent.ofBytes 0 on] :=
    congrArg Line.fetched hsecond
  have huncontested : first.contested = false := hfree
  have hcontested : second.contested = true := rfl
  have hdispatched : dispatched [first, second] = first.messages := by
    simp [dispatched, huncontested, hcontested]
  have hdiscarded : discarded [first, second] = second.messages := by
    simp [discarded, huncontested, hcontested]
  have hring : second.line.hangUp.queue = { ring := ⟨2, []⟩, dropped := 1 } := by
    rw [hsecond, hfirst]
    rfl
  refine ⟨hplayed, hdispatched.trans hmessages, hdiscarded.trans hlost, ?_, ?_, ?_⟩
  · show second.line.hangUp.accepted = dispatched [first, second] ++ discarded [first, second]
    rw [hdispatched, hdiscarded]
    refine Eq.trans haccepted ?_
    show first.messages ++ (second.messages ++ []) ++ second.line.hangUp.queue.ring.waiting = _
    rw [hring, List.append_nil, List.append_nil]
  · show second.line.hangUp.sends = 5
    rw [hsecond]
    rfl
  · show second.line.hangUp.queue.dropped = 1
    rw [hring]

end PolySampler.Engine
