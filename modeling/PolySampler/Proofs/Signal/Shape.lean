import PolySampler.Signal.Buffer

/-!
The shape of a buffer. Its first channels, as many as it counts, are there, and all of
them have its length in storage of so many whole lanes; the slots behind them are
empty. Whatever is done to a buffer keeps this.
-/

namespace PolySampler.Signal

theorem le_lanesFor (frames : Nat) : frames ≤ lanesFor frames * laneWidth := by
  simp only [lanesFor, laneWidth]
  omega

namespace Channel

/-- The channel has so many samples, in as many lanes as they need. -/
structure Holds (c : Channel) (frames : Nat) : Prop where
  length : c.length = frames
  storage : c.storage.size = lanesFor frames * laneWidth

@[simp] theorem size_fitStorage (storage : Array Float32) (size : Nat) :
    (fitStorage storage size).size = size := by
  rw [fitStorage]
  split
  · rw [Array.size_extract]
    omega
  · rw [Array.size_append, Array.size_replicate]
    omega

@[simp] theorem size_silence (count start : Nat) (storage : Array Float32) :
    (silence count start storage).size = storage.size := by
  induction count generalizing start storage with
  | zero => rfl
  | succ n ih => rw [silence, ih, Array.size_setIfInBounds]

theorem holds_setLength (c : Channel) (frames : Nat) : (c.setLength frames).Holds frames :=
  ⟨rfl, by rw [setLength, size_silence, size_fitStorage]⟩

theorem Holds.setSample {c : Channel} {frames : Nat} (h : c.Holds frames) (frame : Nat)
    (sample : Float32) :
    Holds { c with storage := c.storage.setIfInBounds frame sample } frames :=
  ⟨h.length, Array.size_setIfInBounds.trans h.storage⟩

theorem Holds.set {c : Channel} {frames : Nat} (h : c.Holds frames) (frame : Nat)
    (sample : Float32) : (c.set frame sample).Holds frames := by
  rw [Channel.set]
  split
  · exact h.setSample frame sample
  · exact h

theorem Holds.writeFrom {c : Channel} {frames : Nat} (h : c.Holds frames)
    (samples : Array Float32) (count start : Nat) :
    (writeFrom samples count start c).Holds frames := by
  induction count generalizing start c with
  | zero => exact h
  | succ n ih =>
      rw [Channel.writeFrom]
      split
      next sample _ =>
        split
        · exact ih (h.setSample start sample) (start + 1)
        · exact h
      next => exact h

theorem Holds.write {c : Channel} {frames : Nat} (h : c.Holds frames)
    (samples : Array Float32) : (c.write samples).Holds frames :=
  h.writeFrom samples samples.size 0

theorem Holds.size_samples {c : Channel} {frames : Nat} (h : c.Holds frames) :
    c.samples.size = frames := by
  have := le_lanesFor frames
  rw [samples, Array.size_extract, h.length, h.storage]
  omega

end Channel

namespace AudioBuffer

variable {capacity : Nat}

/-- The first slots hold channels of the length of the buffer, the others nothing. -/
structure WellFormed (b : AudioBuffer capacity) : Prop where
  numChannels_le : b.numChannels ≤ capacity
  holds : ∀ (index : Nat) (channel : Channel), b.slots[index]? = some (some channel) →
    channel.Holds b.numFrames
  isSome_iff : ∀ (index : Nat) (slot : Option Channel),
    b.slots[index]? = some slot → (slot.isSome ↔ index < b.numChannels)

theorem wellFormed_empty {frames : Nat} :
    WellFormed { (empty : AudioBuffer capacity) with numFrames := frames } := by
  have hslots {index : Nat} {slot : Option Channel}
      (h : (Vector.replicate capacity (none : Option Channel))[index]? = some slot) :
      slot = none := by
    rw [Vector.getElem?_replicate] at h
    split at h
    · exact (Option.some.inj h).symm
    · cases h
  refine ⟨Nat.zero_le _, fun index channel h => ?_, fun index slot h => ?_⟩
  · exact absurd (hslots h) (Option.some_ne_none _)
  · rw [hslots h]
    exact ⟨fun hsome => absurd hsome Bool.false_ne_true, fun hlt => absurd hlt (Nat.not_lt_zero _)⟩

theorem getElem?_set_eq_some {slots : Vector (Option Channel) capacity} {channel index : Nat}
    {slot new : Option Channel} (h : (slots.setIfInBounds channel new)[index]? = some slot) :
    index = channel ∧ slot = new ∨ index ≠ channel ∧ slots[index]? = some slot := by
  rw [Vector.getElem?_setIfInBounds] at h
  by_cases heq : channel = index
  · rw [if_pos heq] at h
    split at h
    · exact .inl ⟨heq.symm, (Option.some.inj h).symm⟩
    · cases h
  · rw [if_neg heq] at h
    exact .inr ⟨Ne.symm heq, h⟩

theorem WellFormed.addChannel {b : AudioBuffer capacity} (h : b.WellFormed) (memory : Memory) :
    (b.addChannel memory).2.WellFormed := by
  rw [AudioBuffer.addChannel]
  split
  · exact h
  next hroom =>
    split
    · refine ⟨Nat.not_le.mp hroom, fun index channel hslot => ?_, fun index slot hslot => ?_⟩
      · rcases getElem?_set_eq_some hslot with ⟨rfl, hnew⟩ | ⟨-, hslot⟩
        · obtain rfl := Option.some.inj hnew
          exact Channel.holds_setLength _ _
        · exact h.holds index channel hslot
      · rcases getElem?_set_eq_some hslot with ⟨rfl, rfl⟩ | ⟨hne, hslot⟩
        · exact iff_of_true rfl (Nat.lt_succ_self _)
        · rw [h.isSome_iff index slot hslot]
          dsimp only
          omega
    · exact h

theorem WellFormed.addChannels {b : AudioBuffer capacity} (h : b.WellFormed) (memory : Memory)
    (count : Nat) : (b.addChannels memory count).WellFormed := by
  induction count generalizing b with
  | zero => exact h
  | succ n ih => exact ih (h.addChannel memory)

theorem wellFormed_ofShape (memory : Memory) (channels frames : Nat) :
    (ofShape memory channels frames : AudioBuffer capacity).WellFormed :=
  wellFormed_empty.addChannels memory _

theorem resize_eq_ok {memory : Memory} {b b' : AudioBuffer capacity} {frames : Nat}
    (h : b.resize memory frames = .ok b') :
    b' = { b with
      slots := b.slots.map fun slot => slot.map fun channel => channel.setLength frames
      numFrames := frames } := by
  rw [resize] at h
  split at h
  · exact (Except.ok.inj h).symm
  · cases h

theorem WellFormed.mapChannels {b : AudioBuffer capacity} (h : b.WellFormed)
    {f : Channel → Channel} {frames : Nat} (hf : ∀ c, c.Holds b.numFrames → (f c).Holds frames) :
    WellFormed { b with
      slots := b.slots.map fun slot => slot.map f
      numFrames := frames } := by
  refine ⟨h.numChannels_le, fun index channel hslot => ?_, fun index slot hslot => ?_⟩
  · rw [Vector.getElem?_map] at hslot
    obtain ⟨slot, hold, hslot⟩ := Option.map_eq_some_iff.mp hslot
    obtain ⟨channel, rfl, rfl⟩ := Option.map_eq_some_iff.mp hslot
    exact hf channel (h.holds index channel hold)
  · rw [Vector.getElem?_map] at hslot
    obtain ⟨slot, hold, rfl⟩ := Option.map_eq_some_iff.mp hslot
    rw [Option.isSome_map]
    exact h.isSome_iff index slot hold

theorem WellFormed.resize {memory : Memory} {b b' : AudioBuffer capacity} {frames : Nat}
    (h : b.WellFormed) (hgranted : b.resize memory frames = .ok b') : b'.WellFormed := by
  obtain rfl := resize_eq_ok hgranted
  exact h.mapChannels fun channel _ => channel.holds_setLength frames

@[simp] theorem numFrames_modifyChannel (b : AudioBuffer capacity) (channel : Nat)
    (f : Channel → Channel) : (b.modifyChannel channel f).numFrames = b.numFrames := by
  rw [modifyChannel]
  split <;> rfl

@[simp] theorem numChannels_modifyChannel (b : AudioBuffer capacity) (channel : Nat)
    (f : Channel → Channel) : (b.modifyChannel channel f).numChannels = b.numChannels := by
  rw [modifyChannel]
  split <;> rfl

theorem getElem?_modifyChannel (b : AudioBuffer capacity) (channel : Nat) (f : Channel → Channel)
    (index : Nat) :
    (b.modifyChannel channel f).slots[index]? =
      if channel = index then b.slots[index]?.map (·.map f) else b.slots[index]? := by
  rw [modifyChannel]
  split
  · next slot hslot =>
      rw [Vector.getElem?_setIfInBounds]
      split
      · next heq =>
          obtain ⟨hlt, -⟩ := Vector.getElem?_eq_some_iff.mp hslot
          rw [if_pos hlt, ← heq, hslot]
          rfl
      · rfl
  · next hnone =>
      split
      · next heq => rw [← heq, hnone]; rfl
      · rfl

theorem WellFormed.modifyChannel {b : AudioBuffer capacity} (h : b.WellFormed) (channel : Nat)
    {f : Channel → Channel} (hf : ∀ c, c.Holds b.numFrames → (f c).Holds b.numFrames) :
    (b.modifyChannel channel f).WellFormed := by
  refine ⟨?_, fun index c hslot => ?_, fun index slot hslot => ?_⟩
  · rw [numChannels_modifyChannel]
    exact h.numChannels_le
  · rw [getElem?_modifyChannel] at hslot
    rw [numFrames_modifyChannel]
    split at hslot
    · obtain ⟨slot, hold, hslot⟩ := Option.map_eq_some_iff.mp hslot
      obtain ⟨old, rfl, rfl⟩ := Option.map_eq_some_iff.mp hslot
      exact hf old (h.holds index old hold)
    · exact h.holds index c hslot
  · rw [getElem?_modifyChannel] at hslot
    rw [numChannels_modifyChannel]
    split at hslot
    · obtain ⟨slot, hold, rfl⟩ := Option.map_eq_some_iff.mp hslot
      rw [Option.isSome_map]
      exact h.isSome_iff index slot hold
    · exact h.isSome_iff index slot hslot

theorem WellFormed.write {b : AudioBuffer capacity} (h : b.WellFormed) (channel : Nat)
    (samples : Array Float32) : (b.write channel samples).WellFormed :=
  h.modifyChannel channel fun _ hc => hc.write samples

/-- The slots that are counted hold channels of the length of the buffer. -/
theorem WellFormed.exists_channel {b : AudioBuffer capacity} (h : b.WellFormed) {channel : Nat}
    (hcounted : channel < b.numChannels) :
    ∃ c, b.slots[channel]? = some (some c) ∧ c.Holds b.numFrames := by
  have hlt : channel < capacity := Nat.lt_of_lt_of_le hcounted h.numChannels_le
  have hslot : b.slots[channel]? = some b.slots[channel] := Vector.getElem?_eq_getElem hlt
  obtain ⟨c, hc⟩ := Option.isSome_iff_exists.mp ((h.isSome_iff channel _ hslot).mpr hcounted)
  rw [hc] at hslot
  exact ⟨c, hslot, h.holds channel c hslot⟩

theorem samples_of_slot {b : AudioBuffer capacity} {channel : Nat} {c : Channel}
    (h : b.slots[channel]? = some (some c)) : b.samples channel = c.samples := by
  rw [samples, h]

theorem WellFormed.size_samples {b : AudioBuffer capacity} (h : b.WellFormed) {channel : Nat}
    (hcounted : channel < b.numChannels) : (b.samples channel).size = b.numFrames := by
  obtain ⟨c, hslot, hholds⟩ := h.exists_channel hcounted
  rw [samples_of_slot hslot]
  exact hholds.size_samples

end AudioBuffer

end PolySampler.Signal
