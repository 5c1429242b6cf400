import PolySampler.Proofs.Voice.Frames

/-!
Voices that cannot be told apart for `k` frames. Either they differ in nothing
that sounds but in releases not due by then, or both are silent that long, since
the sources of their sounds still wait. What a late event does to a voice leaves
it indistinct from the voice before.
-/

namespace PolySampler.Voice

open Envelope

/-- The voices do the same, for `k` frames at least. -/
structure Alike (k : Nat) (v w : Voice) : Prop where
  active : v.isActive = w.isActive
  note : v.note = w.note
  velocity : v.velocity = w.velocity
  sampleRate : v.sampleRate = w.sampleRate
  region : v.region = w.region
  oscillator : v.oscillator = w.oscillator
  position : v.position = w.position
  sourceDelay : v.sourceDelay = w.sourceDelay
  envelope : Generator.Alike k v.envelope w.envelope

/-- The voice is silent for `k` frames: it is free, or its source waits. -/
def Waits (k : Nat) (v : Voice) : Prop :=
  v.isActive → k ≤ v.sourceDelay.toNat

/-- The voices cannot be told apart for `k` frames. -/
inductive Indistinct (k : Nat) (v w : Voice) : Prop where
  | alike (h : Alike k v w)
  | waiting (hv : v.Waits k) (hw : w.Waits k)

theorem Alike.refl (k : Nat) (v : Voice) : Alike k v v :=
  ⟨rfl, rfl, rfl, rfl, rfl, rfl, rfl, rfl, .refl k _⟩

theorem Indistinct.mono {j k : Nat} (h : j ≤ k) {v w : Voice} (hvw : Indistinct k v w) :
    Indistinct j v w := by
  cases hvw with
  | alike hvw => exact .alike { hvw with envelope := hvw.envelope.mono h }
  | waiting hv hw =>
      exact .waiting (fun hactive => Nat.le_trans h (hv hactive))
        (fun hactive => Nat.le_trans h (hw hactive))

theorem Alike.drive_eq {k : Nat} {v w : Voice} (h : Alike k v w) (region : Region)
    (pitchRatio : Float32) : v.drive region pitchRatio = w.drive region pitchRatio := by
  simp only [Voice.drive, h.note, h.sampleRate]

theorem Alike.gain_eq {k : Nat} {v w : Voice} (h : Alike k v w) (region : Region) :
    v.gain region = w.gain region := by
  simp only [Voice.gain, h.velocity]

variable (drive : Drive) (gain : Float32)

theorem Alike.tick {k : Nat} {v w : Voice} (h : Alike (k + 1) v w) :
    (v.tick drive gain).2.1 = (w.tick drive gain).2.1 ∧
      Alike k (v.tick drive gain).2.2 (w.tick drive gain).2.2 := by
  obtain ⟨hlevel, henvelope⟩ := h.envelope.tick
  simp only [Voice.tick, sound, hlevel, h.sourceDelay, h.oscillator, h.position]
  split
  · exact ⟨rfl, h.active, h.note, h.velocity, h.sampleRate, h.region, rfl, rfl, rfl, henvelope⟩
  · cases drive with
    | oscillator increment =>
        exact ⟨rfl, h.active, h.note, h.velocity, h.sampleRate, h.region, rfl, rfl, rfl, henvelope⟩
    | sample data step finish =>
        dsimp only
        split
        · exact ⟨rfl, h.active, h.note, h.velocity, h.sampleRate, h.region, rfl, rfl, rfl,
            henvelope⟩
        · exact ⟨rfl, h.active, h.note, h.velocity, h.sampleRate, h.region, rfl, rfl, rfl,
            henvelope⟩

theorem Alike.after {k : Nat} (n : Nat) {v w : Voice} (h : Alike (k + n) v w) :
    Alike k (v.after drive gain n) (w.after drive gain n) ∧
      v.endsWithin drive gain n = w.endsWithin drive gain n := by
  induction n generalizing v w with
  | zero => exact ⟨h, rfl⟩
  | succ n ih =>
      obtain ⟨hsound, hrest⟩ := h.tick drive gain
      obtain ⟨hafter, hended⟩ := ih hrest
      refine ⟨hafter, ?_⟩
      simp only [endsWithin, hsound, hended]

theorem Alike.soundAt_eq {k frame : Nat} (hf : frame < k) {v w : Voice} (h : Alike k v w) :
    v.soundAt drive gain frame = w.soundAt drive gain frame := by
  obtain ⟨more, rfl⟩ : ∃ more, k = more + 1 + frame := ⟨k - 1 - frame, by omega⟩
  exact ((h.after drive gain frame).1.tick drive gain).1

/-! ### Within a chunk -/

theorem Waits.addSoundAt_eq {k frame : Nat} (hf : frame < k) {v : Voice} (h : v.Waits k)
    (instrument : Instrument) (pitchRatio : Float32) (sides : Sides) :
    v.addSoundAt instrument pitchRatio frame sides = sides := by
  rw [addSoundAt]
  by_cases hv : v.isActive
  · rw [if_pos hv]
    cases instrument.regions[v.region]? with
    | none => rfl
    | some region =>
        have hwaiting : v.soundAt (v.drive region pitchRatio) (v.gain region) frame = .waiting :=
          (soundAt_eq_waiting_iff _ _ _ _).mpr (Nat.lt_of_lt_of_le hf (h hv))
        simp only [hwaiting, Sound.addTo]
  · rw [if_neg hv]

theorem Indistinct.addSoundAt_eq {k frame : Nat} (hf : frame < k) {v w : Voice}
    (h : Indistinct k v w) (instrument : Instrument) (pitchRatio : Float32) (sides : Sides) :
    v.addSoundAt instrument pitchRatio frame sides =
      w.addSoundAt instrument pitchRatio frame sides := by
  cases h with
  | waiting hv hw => rw [hv.addSoundAt_eq hf, hw.addSoundAt_eq hf]
  | alike h =>
      simp only [addSoundAt, h.active, h.region, h.drive_eq, h.gain_eq,
        h.soundAt_eq _ _ hf]

theorem waits_of_not_isActive {v : Voice} (h : v.isActive = false) (k : Nat) : v.Waits k := by
  intro hv
  rw [h] at hv
  exact absurd hv (by decide)

theorem Waits.played {k n : Nat} {v : Voice} (h : v.Waits (k + n)) (instrument : Instrument)
    (pitchRatio : Float32) : (v.played instrument pitchRatio n).Waits k := by
  intro hplayed
  have hv := isActive_of_isActive_played hplayed
  have hdelay := h hv
  cases hregion : instrument.regions[v.region]? with
  | none => simp [Voice.played, hv, hregion] at hplayed
  | some region =>
      simp only [Voice.played, if_pos hv, hregion] at hplayed ⊢
      split at hplayed
      · exact absurd hplayed (by simp)
      · next hgoes =>
          rw [if_neg hgoes, toNat_sourceDelay_after]
          omega

theorem Indistinct.played {k n : Nat} {v w : Voice} (h : Indistinct (k + n) v w)
    (instrument : Instrument) (pitchRatio : Float32) :
    Indistinct k (v.played instrument pitchRatio n) (w.played instrument pitchRatio n) := by
  cases h with
  | waiting hv hw => exact .waiting (hv.played _ _) (hw.played _ _)
  | alike h =>
      -- Both are freed or neither is, since the same sounds end and the same stage is reached.
      by_cases hw : w.isActive
      · have hv : v.isActive := h.active.trans hw
        cases hregion : instrument.regions[w.region]? with
        | none =>
            simp only [Voice.played, if_pos hv, if_pos hw, h.region, hregion]
            exact .waiting (waits_of_not_isActive rfl k) (waits_of_not_isActive rfl k)
        | some region =>
            obtain ⟨hafter, hended⟩ := h.after (w.drive region pitchRatio) (w.gain region) n
            simp only [Voice.played, if_pos hv, if_pos hw, h.region, hregion, h.drive_eq,
              h.gain_eq, hended, hafter.envelope.isFinished_eq]
            split
            · exact .waiting (waits_of_not_isActive rfl k) (waits_of_not_isActive rfl k)
            · exact .alike hafter
      · have hw : w.isActive = false := by simpa using hw
        have hv : v.isActive = false := h.active.trans hw
        rw [played_of_not_isActive hv, played_of_not_isActive hw]
        exact .waiting (waits_of_not_isActive hv k) (waits_of_not_isActive hw k)

/-! ### Late events -/

theorem Indistinct.refl (k : Nat) (v : Voice) : Indistinct k v v :=
  .alike (.refl k v)

theorem Indistinct.release {k : Nat} {v w : Voice} (h : Indistinct k v w) {delay : UInt32}
    (hdelay : k ≤ delay.toNat) : Indistinct k (v.release delay) w := by
  by_cases hactive : v.state = .active
  · have hv : v.isActive := by simp [isActive, hactive]
    simp only [Voice.release, if_pos hactive]
    cases h with
    | waiting hv' hw => exact .waiting (fun _ => hv' hv) hw
    | alike h =>
        exact .alike ⟨(h.active.symm.trans hv).symm ▸ rfl, h.note, h.velocity, h.sampleRate,
          h.region, h.oscillator, h.position, h.sourceDelay, h.envelope.release hdelay⟩
  · simpa only [Voice.release, if_neg hactive] using h

theorem Indistinct.hold {k : Nat} {v w : Voice} (h : Indistinct k v w) :
    Indistinct k v.hold w := by
  rw [Voice.hold]
  split
  · cases h with
    | waiting hv hw => exact .waiting hv hw
    | alike h => exact .alike { h with }
  · exact h

/-- A note that is started in a free voice is not heard before its frame. -/
theorem Indistinct.start {k : Nat} {v w : Voice} (h : Indistinct k v w) (hfree : v.isFree)
    {delay : UInt32} (hdelay : k ≤ delay.toNat) (index : Nat) (region : Region)
    (note velocity : UInt8) (age : Nat) :
    Indistinct k (v.start index region note velocity delay age) w := by
  have hv : v.isActive = false := by
    have hstate : v.state = .free := by simpa [isFree] using hfree
    simp [isActive, hstate]
  have hw : w.Waits k := by
    cases h with
    | waiting _ hw => exact hw
    | alike h => exact waits_of_not_isActive (h.active.symm.trans hv) k
  exact .waiting (fun _ => hdelay) hw

end PolySampler.Voice
