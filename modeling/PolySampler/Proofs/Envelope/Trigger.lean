import PolySampler.Proofs.Envelope.PendingRelease

/-!
The trigger of an envelope. While it is awaited every frame counts it down by
one; the frame that finds nothing left to count begins the attack; and from then
on no frame and no release goes back to waiting.
-/

namespace PolySampler.Envelope

namespace Progress

/-- The trigger has fired, or was never scheduled. -/
def Begun (p : Progress) : Prop :=
  p.stage ≠ .delayed

variable (d : Description) (sampleRate : Float32)

theorem Begun.enterSegment {p : Progress} (h : p.Begun) (segment : Nat) :
    (p.enterSegment d segment sampleRate).Begun := h

theorem Begun.completeSegment {p : Progress} (h : p.Begun) :
    (p.completeSegment d sampleRate).Begun := by
  rw [Progress.completeSegment]
  split
  · split
    · exact Stage.noConfusion
    · exact h.enterSegment d sampleRate _
  · split
    · exact Stage.noConfusion
    · exact h.enterSegment d sampleRate _
  · exact h.enterSegment d sampleRate _

theorem Begun.advance {p : Progress} (h : p.Begun) : (p.advance d sampleRate).Begun := by
  rw [Progress.advance]
  split
  · exact Stage.noConfusion
  · dsimp only
    split
    · exact h
    · exact Begun.completeSegment d sampleRate h

theorem Begun.countRelease {p : Progress} (h : p.Begun) :
    (p.countRelease d sampleRate).Begun := by
  rw [Progress.countRelease]
  split
  · exact h
  · split
    · rw [enterRelease]
      split
      · exact Stage.noConfusion
      · exact Stage.noConfusion
    · exact h

theorem Begun.sound {p : Progress} (h : p.Begun) : (p.sound d sampleRate).2.Begun := by
  have hcounted := h.countRelease d sampleRate
  rw [sound_eq_emit]
  generalize p.countRelease d sampleRate = q at hcounted ⊢
  rw [emit]
  split
  · exact hcounted.advance d sampleRate
  · exact hcounted.advance d sampleRate
  · split <;> exact hcounted
  · exact hcounted
  · exact hcounted
  · exact hcounted

theorem Begun.tick {p : Progress} (h : p.Begun) : (p.tick d sampleRate).2.Begun := by
  rw [Progress.tick]
  split
  · exact h
  · exact h
  · next hdelayed => exact absurd hdelayed h
  · exact h.sound d sampleRate
  · exact h.sound d sampleRate
  · exact h.sound d sampleRate

theorem begun_tick_of_zero {p : Progress} (hstage : p.stage = .delayed)
    (hzero : p.triggerCountdown = 0) : (p.tick d sampleRate).2.Begun := by
  simp only [Progress.tick, hstage, hzero, ne_eq, not_true_eq_false, if_false]
  refine Begun.sound d sampleRate ?_
  exact Stage.noConfusion

theorem tick_of_ne_zero {p : Progress} (hstage : p.stage = .delayed)
    (hcount : p.triggerCountdown ≠ 0) :
    (p.tick d sampleRate).2.stage = .delayed ∧
      (p.tick d sampleRate).2.triggerCountdown = p.triggerCountdown - 1 := by
  simp only [Progress.tick, hstage, ne_eq, hcount, not_false_eq_true, if_true, and_self]

end Progress

namespace Generator

theorem description_tick (g : Generator) : g.tick.2.description = g.description := by
  rw [tick]
  split
  · rfl
  · rfl

theorem progress_tick {g : Generator} {d : Description} (h : g.description = some d) :
    g.tick.2.progress = (g.progress.tick d g.sampleRate).2 := by
  simp only [tick, h]

theorem release_trigger (g : Generator) (delay : UInt32) :
    (g.release delay).description = g.description ∧
      (g.release delay).progress.stage = g.progress.stage ∧
      (g.release delay).progress.triggerCountdown = g.progress.triggerCountdown := by
  rcases g.release_cases delay with heq | ⟨frame, -, -, heq⟩
  · rw [heq]
    exact ⟨rfl, rfl, rfl⟩
  · rw [heq]
    exact ⟨rfl, rfl, rfl⟩

theorem setSampleRate_trigger (g : Generator) (sampleRate : Float32) :
    (g.setSampleRate sampleRate).description = g.description ∧
      (g.setSampleRate sampleRate).progress.stage = g.progress.stage ∧
      (g.setSampleRate sampleRate).progress.triggerCountdown = g.progress.triggerCountdown := by
  rw [setSampleRate]
  dsimp only
  split
  · split <;> exact ⟨rfl, rfl, rfl⟩
  · split <;> exact ⟨rfl, rfl, rfl⟩
  · exact ⟨rfl, rfl, rfl⟩

end Generator

end PolySampler.Envelope
