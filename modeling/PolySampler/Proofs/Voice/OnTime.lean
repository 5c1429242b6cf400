import PolySampler.Proofs.Envelope.Trigger
import PolySampler.Proofs.Voice.Frames

/-!
Notes begin on their frame. A voice carries two countdowns, that of its envelope
and that of its source, and the frame at which the note begins. `OnTime` ties the
three to the number of the present frame. Every frame keeps the tie, and so does
every event, so that the source and the attack begin in the frame that was named
when the key went down.
-/

namespace PolySampler.Voice

open Envelope

/-- At frame `now` the note either waits, with both countdowns set to the frame at
which it begins, or it began before. -/
structure OnTime (now : Nat) (v : Voice) : Prop where
  bound : v.envelope.description ≠ none
  waiting : v.envelope.progress.stage = .delayed →
    v.sourceDelay = v.envelope.progress.triggerCountdown ∧
      now + v.envelope.progress.triggerCountdown.toNat = v.age
  begun : v.envelope.progress.stage ≠ .delayed → v.sourceDelay = 0 ∧ v.age < now

/-! ### Frames -/

section Frames

variable (drive : Drive) (gain : Float32)

/-- A frame keeps the countdowns in step with the number of the frame. -/
theorem OnTime.tick {now : Nat} {v : Voice} (h : v.OnTime now) :
    (v.tick drive gain).2.2.OnTime (now + 1) := by
  obtain ⟨d, hd⟩ := Option.ne_none_iff_exists'.mp h.bound
  have hage := (v.sameNote_tick drive gain).age
  have hsource := v.toNat_sourceDelay_tick drive gain
  have hover (hzero : v.sourceDelay = 0) : (v.tick drive gain).2.2.sourceDelay = 0 := by
    rw [← UInt32.toNat_inj, hsource, hzero]
    rfl
  have hprogress : (v.tick drive gain).2.2.envelope.progress =
      (v.envelope.progress.tick d v.envelope.sampleRate).2 := by
    rw [envelope_tick, Generator.progress_tick hd]
  have hbound : (v.tick drive gain).2.2.envelope.description ≠ none := by
    rw [envelope_tick, Generator.description_tick]
    exact h.bound
  by_cases hstage : v.envelope.progress.stage = .delayed
  · obtain ⟨hequal, hsum⟩ := h.waiting hstage
    by_cases hzero : v.envelope.progress.triggerCountdown = 0
    · -- The trigger fires in this frame, and so this is the frame of the note.
      have hbegun := Progress.begun_tick_of_zero d v.envelope.sampleRate hstage hzero
      rw [← hprogress] at hbegun
      refine ⟨hbound, fun hdelayed => absurd hdelayed hbegun, fun _ => ?_⟩
      rw [hzero] at hequal hsum
      have hnow : now = v.age := hsum
      exact ⟨hover hequal, by omega⟩
    · obtain ⟨hstage', hcount⟩ :=
        Progress.tick_of_ne_zero d v.envelope.sampleRate hstage hzero
      rw [← hprogress] at hstage' hcount
      refine ⟨hbound, fun _ => ?_, fun hbegun => absurd hstage' hbegun⟩
      have hpred := toNat_pred hzero
      have hpos : v.envelope.progress.triggerCountdown.toNat ≠ 0 :=
        fun h0 => hzero (UInt32.toNat_inj.mp h0)
      refine ⟨?_, ?_⟩
      · rw [← UInt32.toNat_inj, hsource, hcount, hpred, hequal]
      · rw [hcount, hpred, hage]
        omega
  · obtain ⟨hzero, hpast⟩ := h.begun hstage
    have hbegun := Progress.Begun.tick d v.envelope.sampleRate hstage
    rw [← hprogress] at hbegun
    exact ⟨hbound, fun hdelayed => absurd hdelayed hbegun, fun _ => ⟨hover hzero, by omega⟩⟩

theorem OnTime.after {now : Nat} {v : Voice} (h : v.OnTime now) (n : Nat) :
    (v.after drive gain n).OnTime (now + n) := by
  induction n generalizing now v with
  | zero => exact h
  | succ n ih =>
      rw [after_succ, Nat.add_comm n 1, ← Nat.add_assoc]
      exact ih (h.tick drive gain)

theorem OnTime.soundAt_eq_waiting_iff {now : Nat} {v : Voice} (h : v.OnTime now) (i : Nat) :
    v.soundAt drive gain i = .waiting ↔ now + i < v.age := by
  rw [Voice.soundAt_eq_waiting_iff]
  by_cases hstage : v.envelope.progress.stage = .delayed
  · obtain ⟨hequal, hsum⟩ := h.waiting hstage
    rw [hequal]
    omega
  · obtain ⟨hzero, hpast⟩ := h.begun hstage
    have hnone : (0 : UInt32).toNat = 0 := rfl
    rw [hzero, hnone]
    omega

theorem OnTime.addSoundAt_eq {now : Nat} {v : Voice} (h : v.isFree = false → v.OnTime now)
    {i : Nat} (hi : now + i < v.age) (instrument : Instrument) (pitchRatio : Float32)
    (sides : Sides) : v.addSoundAt instrument pitchRatio i sides = sides := by
  rw [addSoundAt]
  split
  · next hactive =>
      have hfree : v.isFree = false := by
        rw [isActive_eq_not_isFree] at hactive
        simpa using hactive
      cases instrument.regions[v.region]? with
      | none => rfl
      | some region =>
          dsimp only
          rw [((h hfree).soundAt_eq_waiting_iff _ _ i).mpr hi]
          rfl
  · rfl

/-- The envelope waits as long as the source does: the attack begins in the frame
at which the note begins. -/
theorem OnTime.stage_after_eq_delayed_iff {now : Nat} {v : Voice} (h : v.OnTime now) (i : Nat) :
    (v.after drive gain (i + 1)).envelope.progress.stage = .delayed ↔ now + i < v.age := by
  have hafter := h.after drive gain (i + 1)
  have hage := (v.sameNote_after drive gain (i + 1)).age
  constructor
  · intro hstage
    have := (hafter.waiting hstage).2
    omega
  · intro hlt
    cases hstage : (v.after drive gain (i + 1)).envelope.progress.stage with
    | delayed => rfl
    | idle | attack | sustain | release | done =>
        have := (hafter.begun (by rw [hstage]; exact Stage.noConfusion)).2
        omega

theorem OnTime.played {now : Nat} {v : Voice} (h : v.isFree = false → v.OnTime now)
    (instrument : Instrument) (pitchRatio : Float32) (n : Nat)
    (hplayed : (v.played instrument pitchRatio n).isFree = false) :
    (v.played instrument pitchRatio n).OnTime (now + n) := by
  have hplays : (v.played instrument pitchRatio n).isActive := by
    rw [isActive_eq_not_isFree, hplayed]
    rfl
  have hactive := isActive_of_isActive_played hplays
  have hfree : v.isFree = false := by
    rw [isActive_eq_not_isFree] at hactive
    simpa using hactive
  cases hregion : instrument.regions[v.region]? with
  | none =>
      simp only [Voice.played, if_pos hactive, hregion] at hplayed
      exact absurd hplayed (by simp)
  | some region =>
      simp only [Voice.played, if_pos hactive, hregion] at hplayed ⊢
      split at hplayed
      · exact absurd hplayed (by simp)
      · next hgoes =>
          rw [if_neg hgoes]
          exact (h hfree).after _ _ n

end Frames

/-! ### Events -/

theorem OnTime.start (v : Voice) (index : Nat) (region : Region) (note velocity : UInt8)
    (delay : UInt32) (now : Nat) :
    (v.start index region note velocity delay (now + delay.toNat)).OnTime now := by
  refine ⟨?_, fun _ => ⟨rfl, rfl⟩, fun hbegun => absurd rfl hbegun⟩
  show some region.envelope ≠ none
  exact Option.some_ne_none _

theorem OnTime.hold {now : Nat} {v : Voice} (h : v.OnTime now) : v.hold.OnTime now := by
  rw [Voice.hold]
  split
  · exact ⟨h.bound, h.waiting, h.begun⟩
  · exact h

theorem OnTime.release {now : Nat} {v : Voice} (h : v.OnTime now) (delay : UInt32) :
    (v.release delay).OnTime now := by
  rw [Voice.release]
  split
  · obtain ⟨hbound, hstage, hcount⟩ := v.envelope.release_trigger delay
    refine ⟨?_, ?_, ?_⟩
    · dsimp only
      rw [hbound]
      exact h.bound
    · dsimp only
      rw [hstage, hcount]
      exact h.waiting
    · dsimp only
      rw [hstage]
      exact h.begun
  · exact h

theorem OnTime.setSampleRate {now : Nat} {v : Voice} (h : v.OnTime now) (sampleRate : Float32) :
    (v.setSampleRate sampleRate).OnTime now := by
  obtain ⟨hbound, hstage, hcount⟩ := v.envelope.setSampleRate_trigger sampleRate
  rw [Voice.setSampleRate]
  refine ⟨?_, ?_, ?_⟩
  · dsimp only
    rw [hbound]
    exact h.bound
  · dsimp only
    rw [hstage, hcount]
    exact h.waiting
  · dsimp only
    rw [hstage]
    exact h.begun

end PolySampler.Voice
