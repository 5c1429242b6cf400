import PolySampler.Proofs.Midi.Decoding
import PolySampler.Proofs.Midi.Dispatch

/-!
What reaches the instrument. Of the events that the transports hand over, those that
decode to something for playing make one call each, in the order in which they come; the
others could as well not be there.
-/

namespace PolySampler.Midi

/-- Something to play, which program changes and system messages are not. -/
def Event.playable : Event → Bool
  | .programChange _ _ | .system => false
  | .noteOn _ _ _ | .noteOff _ _ _ | .polyPressure _ _ _ | .channelPressure _ _
  | .controlChange _ _ _ | .pitchBend _ _ => true

section Events

variable {α : Type} [TransportEvent α]

def playable (event : α) : Bool :=
  (TransportEvent.decode? event).any Event.playable

/-- The frame of an event and what it decodes to, if that is for playing. -/
def played? (event : α) : Option (UInt32 × Event) :=
  ((TransportEvent.decode? event).filter Event.playable).map (TransportEvent.frame event, ·)

/-- What is there to play among events, each with its frame. -/
def played (events : List α) : List (UInt32 × Event) :=
  events.filterMap played?

theorem call?_of_played? (event : α) :
    (call? event).map some = (played? event).map fun item => item.2.call? item.1 := by
  rw [call?, played?]
  cases TransportEvent.decode? event with
  | none => rfl
  | some decoded => cases decoded <;> rfl

theorem map_some_calls (events : List α) :
    (calls events).map some = (played events).map fun item => item.2.call? item.1 := by
  rw [calls, played, List.map_filterMap, List.map_filterMap]
  exact congrArg (List.filterMap · events) (funext call?_of_played?)

theorem played?_isSome (event : α) : (played? event).isSome = playable event := by
  rw [played?, playable]
  cases TransportEvent.decode? event with
  | none => rfl
  | some decoded => cases h : decoded.playable <;> simp [h]

/-- Events that are not for playing can be left out. -/
theorem played_filter (events : List α) : played (events.filter playable) = played events := by
  rw [played, played, List.filterMap_filter]
  congr 1
  funext event
  rw [← played?_isSome]
  cases played? event <;> rfl

end Events

/-! ### Transports -/

def Transport.played : Transport → List (UInt32 × Event)
  | .raw events => Midi.played events
  | .sequencer events => Midi.played events

/-- A transport without the events that are not for playing. -/
def Transport.sifted : Transport → Transport
  | .raw events => .raw (events.filter playable)
  | .sequencer events => .sequencer (events.filter playable)

theorem Transport.played_sifted (transport : Transport) :
    transport.sifted.played = transport.played := by
  cases transport with
  | raw events => exact played_filter events
  | sequencer events => exact played_filter events

theorem Transport.map_some_calls (transport : Transport) :
    transport.calls.map some = transport.played.map fun item => item.2.call? item.1 := by
  cases transport with
  | raw events => exact Midi.map_some_calls events
  | sequencer events => exact Midi.map_some_calls events

theorem map_some_flatMap_calls (transports : List Transport) :
    (transports.flatMap Transport.calls).map some =
      (transports.flatMap Transport.played).map fun item => item.2.call? item.1 := by
  simp only [List.map_flatMap, Transport.map_some_calls]

theorem wellFormed_of_mem_played {transports : List Transport} {item : UInt32 × Event}
    (h : item ∈ transports.flatMap Transport.played) : item.2.WellFormed := by
  obtain ⟨transport, -, hitem⟩ := List.mem_flatMap.mp h
  cases transport with
  | raw events =>
      obtain ⟨event, -, heq⟩ := List.mem_filterMap.mp hitem
      obtain ⟨decoded, hdecoded, rfl⟩ := Option.map_eq_some_iff.mp heq
      exact wellFormed_of_decodeBytes? (Option.filter_eq_some_iff.mp hdecoded).1
  | sequencer events =>
      obtain ⟨event, -, heq⟩ := List.mem_filterMap.mp hitem
      obtain ⟨decoded, hdecoded, rfl⟩ := Option.map_eq_some_iff.mp heq
      exact (Record.wellFormed_of_decode? (Option.filter_eq_some_iff.mp hdecoded).1).1

theorem call?_ne_noteOn_zero {event : Event} (h : event.WellFormed) (time delay : UInt32)
    (key : UInt8) : event.call? time ≠ some (.noteOn delay key 0) := by
  intro hcall
  cases event with
  | noteOn channel key velocity =>
      cases hcall
      exact h.2.2.2 rfl
  | noteOff | polyPressure | channelPressure | controlChange | pitchBend | programChange
  | system => cases hcall

theorem noteOn_zero_not_mem (transports : List Transport) (delay : UInt32) (key : UInt8) :
    Call.noteOn delay key 0 ∉ transports.flatMap Transport.calls := by
  intro hmem
  have hsome := List.mem_map_of_mem (f := some) hmem
  rw [map_some_flatMap_calls] at hsome
  obtain ⟨item, hitem, hcall⟩ := List.mem_map.mp hsome
  exact call?_ne_noteOn_zero (wellFormed_of_mem_played hitem) _ _ _ hcall

theorem performAll_recorder (calls recorded : List Call) :
    performAll calls recorded = recorded ++ calls := by
  induction calls generalizing recorded with
  | nil => exact (List.append_nil recorded).symm
  | cons call rest ih =>
      have hcall : call.perform recorded = recorded ++ [call] := by cases call <;> rfl
      rw [performAll, List.foldl_cons, hcall, ← performAll, ih, List.append_assoc]
      rfl

/-- What is dispatched depends on what is there to play and on nothing else. -/
theorem dispatchAll_congr {σ : Type} [EventSink σ] {transports others : List Transport}
    (h : others.flatMap Transport.played = transports.flatMap Transport.played) (sink : σ) :
    dispatchAll others sink = dispatchAll transports sink := by
  have hcalls := map_some_flatMap_calls others
  rw [h, ← map_some_flatMap_calls] at hcalls
  have hsome : Function.Injective (some : Call → Option Call) := fun a b => Option.some.inj
  rw [dispatchAll_eq, dispatchAll_eq, List.map_inj_right hsome |>.mp hcalls]

theorem played?_raw_noteOn_zero (time : UInt32) {first velocity : UInt8} (key : UInt8)
    (hstatus : statusOf first = 0x90) (hvelocity : dataBits velocity = 0) :
    played? (RawEvent.ofBytes time [first, key, velocity]) =
      some (time, .noteOff (channelOf first) (dataBits key) 0) := by
  have hfirst : ¬ first < 0x80 := by
    intro hlt
    -- The high half of a byte is not above the byte.
    have hle : (statusOf first).toNat ≤ first.toNat := by
      rw [statusOf, UInt8.toNat_and]
      exact Nat.and_le_left
    rw [hstatus] at hle
    exact absurd (UInt8.lt_iff_toNat_lt.mp hlt) (Nat.not_lt.mpr (Nat.le_trans (by decide) hle))
  have hdecode : TransportEvent.decode? (RawEvent.ofBytes time [first, key, velocity]) =
      some (.noteOff (channelOf first) (dataBits key) 0) := by
    show decodeBytes? [first, key, velocity] = _
    rw [decodeBytes?_cons hfirst, hstatus, if_pos (by simp [dataCount])]
    simp [Event.ofData, Event.ofNoteOn, hvelocity]
  rw [played?, hdecode]
  rfl

theorem played?_record_noteOn_zero (tick : UInt32) (channel : UInt8) {note : UInt8}
    (hnote : note < 128) :
    played? (⟨tick, .noteOn channel note 0⟩ : SequencerEvent) =
      some (tick, .noteOff (channelOf channel) note 0) := by
  have hdecode : TransportEvent.decode? (⟨tick, .noteOn channel note 0⟩ : SequencerEvent) =
      some (.noteOff (channelOf channel) note 0) := by
    have hzero : sevenBits? ((0 : UInt8).toNat) = some 0 := by decide
    show Record.decode? _ = _
    simp only [Record.decode?, sevenBits?_toNat hnote, hzero]
    rfl
  rw [played?, hdecode]
  rfl

/-- Every event that decodes to something to play reaches the sink by one call, with its
own frame and its decoded fields, in the order in which the events come; there are no
other calls, and as many are counted as are made. A note-on without velocity arrives as
the end of the note. What is not for playing can be put in or left out anywhere: it
changes neither the sink nor the count. -/
theorem dispatchAll_delivers_played {σ : Type} [EventSink σ] (transports : List Transport)
    (sink : σ) :
    (∃ calls : List Call,
      calls.map some =
        (transports.flatMap Transport.played).map (fun item => item.2.call? item.1) ∧
      dispatchAll transports sink = (calls.length, performAll calls sink) ∧
      dispatchAll transports ([] : List Call) = (calls.length, calls) ∧
      calls.length = (transports.flatMap Transport.played).length ∧
      ∀ delay key, Call.noteOn delay key 0 ∉ calls) ∧
    (∀ time first key velocity, statusOf first = 0x90 → dataBits velocity = 0 →
      played? (RawEvent.ofBytes time [first, key, velocity]) =
        some (time, .noteOff (channelOf first) (dataBits key) 0)) ∧
    (∀ tick channel note, note < 128 →
      played? (⟨tick, .noteOn channel note 0⟩ : SequencerEvent) =
        some (tick, .noteOff (channelOf channel) note 0)) ∧
    ∀ others : List Transport, others.map Transport.sifted = transports.map Transport.sifted →
      dispatchAll others sink = dispatchAll transports sink := by
  refine ⟨⟨transports.flatMap Transport.calls, map_some_flatMap_calls transports,
    dispatchAll_eq transports sink, ?_, ?_, noteOn_zero_not_mem transports⟩,
    fun time first key velocity => played?_raw_noteOn_zero time key,
    fun tick channel note => played?_record_noteOn_zero tick channel,
    fun others h => dispatchAll_congr ?_ sink⟩
  · rw [dispatchAll_eq, made, performAll_recorder, List.nil_append]
  · have hlength := congrArg List.length (map_some_flatMap_calls transports)
    rwa [List.length_map, List.length_map] at hlength
  · have hplayed := congrArg (List.flatMap Transport.played) h
    simpa only [List.flatMap_map, Transport.played_sifted] using hplayed

/-- A bend among a program change, a message cut short and a record out of range. -/
theorem dispatchAll_bend_alone :
    dispatchAll
        [.raw [.ofBytes 0 [0xC0, 5], .ofBytes 1 [0x90, 60]],
          .sequencer [⟨2, .controller 0 300 1⟩, ⟨4, .pitchBend 0 (-8192)⟩]] ([] : List Call) =
      dispatchAll [.raw [], .sequencer [⟨4, .pitchBend 0 (-8192)⟩]] ([] : List Call) := by
  obtain ⟨-, -, -, hsame⟩ := dispatchAll_delivers_played
    [.raw [], .sequencer [⟨4, .pitchBend 0 (-8192)⟩]] ([] : List Call)
  exact hsame _ rfl

end PolySampler.Midi
