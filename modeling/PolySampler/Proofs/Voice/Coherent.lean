import PolySampler.Proofs.Envelope.Stages
import PolySampler.Proofs.Voice.Frames

/-!
A voice and its envelope agree. The voice knows whether its key is down, the
envelope where it is, and the two are moved by different hands: events move the
voice and schedule the release, frames move the envelope. `Coherent` says what
they never disagree about, and each of the things that can happen to a voice keeps
it.
-/

namespace PolySampler

open Envelope

/-- The envelope is where the state of its voice wants it: with the key down no
release is in wait, and once the key is up one is in wait or under way. -/
def Envelope.Progress.Follows : VoiceState → Progress → Prop
  | .free, _ => True
  | .active, p => p.Unreleased ∧ p.releaseCountdown = none
  | .releasing, p => p.Unreleased ∧ p.releaseCountdown.isSome ∨ p.stage = .release

/-- A frame keeps the envelope where it is wanted, unless it ends the note. -/
theorem Envelope.Progress.Follows.tick {state : VoiceState} {p : Progress} (h : p.Follows state)
    (d : Description) (sampleRate : Float32) :
    (p.tick d sampleRate).2.Follows state ∨ (p.tick d sampleRate).2.stage = .done := by
  cases state with
  | free => exact .inl trivial
  | active =>
      obtain ⟨hunreleased, hnone⟩ := h
      cases hunreleased.tick d sampleRate with
      | goesOn hunreleased harmed =>
          rw [hnone] at harmed
          exact .inl ⟨hunreleased, Option.isNone_iff_eq_none.mp (by simpa using harmed)⟩
      | releases harmed hstage => simp [hnone] at harmed
      | ends hstage => exact .inr hstage
  | releasing =>
      rcases h with ⟨hunreleased, hsome⟩ | hstage
      · cases hunreleased.tick d sampleRate with
        | goesOn hunreleased harmed => exact .inl (.inl ⟨hunreleased, harmed.trans hsome⟩)
        | releases harmed hstage => exact .inl (.inr hstage)
        | ends hstage => exact .inr hstage
      · rcases Falling.tick d sampleRate (.inl hstage) with hstage | hstage
        · exact .inl (.inr hstage)
        · exact .inr hstage

namespace Voice

structure Coherent (v : Voice) : Prop where
  envelope : v.envelope.progress.Follows v.state
  sustained : v.sustained → v.state = .active
  free : v.state = .free → v.note = 0 ∧ v.velocity = 0 ∧ v.sustained = false

theorem coherent_of_silent {v : Voice} (hstate : v.state = .free) (hnote : v.note = 0)
    (hvelocity : v.velocity = 0) (hsustained : v.sustained = false) : v.Coherent := by
  refine ⟨?_, ?_, fun _ => ⟨hnote, hvelocity, hsustained⟩⟩
  · rw [hstate]
    trivial
  · simp [hsustained]

theorem coherent_free (v : Voice) : v.free.Coherent :=
  coherent_of_silent rfl rfl rfl rfl

theorem coherent_start (v : Voice) (index : Nat) (region : Region) (note velocity : UInt8)
    (delay : UInt32) (age : Nat) : (v.start index region note velocity delay age).Coherent :=
  ⟨⟨.inl rfl, rfl⟩, fun hsustained => absurd hsustained Bool.false_ne_true,
    fun hfree => VoiceState.noConfusion hfree⟩

theorem Coherent.hold {v : Voice} (h : v.Coherent) : v.hold.Coherent := by
  rw [Voice.hold]
  split
  · next hactive => exact ⟨h.envelope, fun _ => hactive, fun hfree => by simp [hactive] at hfree⟩
  · exact h

theorem Coherent.release {v : Voice} (h : v.Coherent) (delay : UInt32) :
    (v.release delay).Coherent := by
  rw [Voice.release]
  split
  · next hactive =>
      have henvelope := h.envelope
      rw [hactive] at henvelope
      refine ⟨.inl ?_, fun hsustained => absurd hsustained Bool.false_ne_true,
        fun hfree => VoiceState.noConfusion hfree⟩
      obtain ⟨hstage | hsounding, -⟩ := henvelope
      · dsimp only
        rw [Generator.release_of_delayed hstage]
        exact ⟨.inl hstage, rfl⟩
      · dsimp only
        rw [Generator.release_of_sounding hsounding]
        exact ⟨.inr hsounding, rfl⟩
  · exact h

theorem Coherent.setSampleRate {v : Voice} (h : v.Coherent) (sampleRate : Float32) :
    (v.setSampleRate sampleRate).Coherent := by
  obtain ⟨step, heq⟩ := v.envelope.setSampleRate_eq sampleRate
  rw [Voice.setSampleRate, heq]
  refine ⟨?_, h.sustained, h.free⟩
  have henvelope := h.envelope
  dsimp only
  cases hstate : v.state with
  | free => trivial
  | active => rwa [hstate] at henvelope
  | releasing => rwa [hstate] at henvelope

/-- After any number of frames the envelope is where it is wanted, or it is
over. -/
theorem follows_after (drive : Drive) (gain : Float32) {v : Voice}
    (h : v.envelope.progress.Follows v.state) (n : Nat) :
    (v.after drive gain n).envelope.progress.Follows v.state ∨
      (v.after drive gain n).envelope.isFinished := by
  induction n generalizing v with
  | zero => exact .inl h
  | succ n ih =>
      rw [after_succ]
      have hstate := (v.sameNote_tick drive gain).state
      have henvelope := v.envelope_tick drive gain
      cases hbound : v.envelope.description with
      | none =>
          rw [← hstate]
          refine ih ?_
          rw [henvelope, Generator.tick, hbound, hstate]
          exact h
      | some d =>
          have hprogress := Generator.progress_tick hbound
          rw [← henvelope] at hprogress
          rcases h.tick d v.envelope.sampleRate with hfollows | hdone
          · rw [← hstate]
            refine ih ?_
            rw [hprogress, hstate]
            exact hfollows
          · refine .inr (isFinished_after drive gain ?_ n)
            rw [Generator.isFinished, hprogress, hdone]
            rfl

/-- A chunk frees the voice if it ends the envelope, so what it leaves agrees. -/
theorem Coherent.played {v : Voice} (h : v.Coherent) (instrument : Instrument)
    (pitchRatio : Float32) (n : Nat) : (v.played instrument pitchRatio n).Coherent := by
  rw [Voice.played]
  split
  · split
    · exact v.coherent_free
    · next region hregion =>
        dsimp only
        split
        · exact coherent_free _
        · next hgoes =>
            have hsame := v.sameNote_after (v.drive region pitchRatio) (v.gain region) n
            rcases follows_after (v.drive region pitchRatio) (v.gain region) h.envelope n with
              hfollows | hfinished
            · refine ⟨?_, ?_, ?_⟩
              · rwa [hsame.state]
              · rw [hsame.state, hsame.sustained]
                exact h.sustained
              · rw [hsame.state, hsame.note, hsame.velocity, hsame.sustained]
                exact h.free
            · simp [hfinished] at hgoes
  · exact h

theorem Coherent.isFree_of_isFinished {v : Voice} (h : v.Coherent)
    (hfinished : v.envelope.isFinished) : v.isFree := by
  have hstage : v.envelope.progress.stage = .done := by
    simpa [Generator.isFinished] using hfinished
  have hnever : ¬ v.envelope.progress.Unreleased := by
    rintro (hdelayed | hsounding)
    · simp [hstage] at hdelayed
    · exact hsounding.not_falling (.inr hstage)
  have henvelope := h.envelope
  cases hstate : v.state with
  | free => simp [isFree, hstate]
  | active =>
      rw [hstate] at henvelope
      exact absurd henvelope.1 hnever
  | releasing =>
      rw [hstate] at henvelope
      rcases henvelope with ⟨hunreleased, -⟩ | hrelease
      · exact absurd hunreleased hnever
      · simp [hstage] at hrelease

end Voice

end PolySampler
