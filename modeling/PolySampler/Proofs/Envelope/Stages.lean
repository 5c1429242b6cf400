import PolySampler.Proofs.Envelope.Trigger

/-!
Where a frame leads. Before its release begins an envelope that has been
triggered is in the attack or held, and a frame keeps it there unless its points
run out. Once the release has begun only the end is left. The release begins in
the frame that finds its countdown run out, and in no other.
-/

namespace PolySampler.Envelope

namespace Progress

variable (d : Description) (sampleRate : Float32)

/-- The trigger has fired, and no release has begun. -/
def Sounding (p : Progress) : Prop :=
  p.stage = .attack ∨ p.stage = .sustain

/-- The release has begun, and may be over. -/
def Falling (p : Progress) : Prop :=
  p.stage = .release ∨ p.stage = .done

instance (p : Progress) : Decidable p.Falling :=
  inferInstanceAs (Decidable (_ ∨ _))

theorem Sounding.not_falling {p : Progress} (h : p.Sounding) : ¬ p.Falling := by
  intro hfalling
  rcases h with h | h <;> rcases hfalling with h' | h' <;> simp [h] at h'

/-! ### Along the points -/

/-- In the attack a frame stays on its segment, goes on to the next one, reaches
the point that is held, or finds no point to go to. -/
theorem advance_attack_cases {p : Progress} (h : p.stage = .attack) :
    (d.points[p.segment]? = none ∧ (p.advance d sampleRate).stage = .done) ∨
      ((p.advance d sampleRate).stage = .attack ∧
        (p.advance d sampleRate).segment = p.segment) ∨
      (p.segment < d.sustain ∧ (p.advance d sampleRate).stage = .attack ∧
        (p.advance d sampleRate).segment = p.segment + 1) ∨
      (p.advance d sampleRate).stage = .sustain := by
  rw [Progress.advance]
  split
  · next hnone => exact .inl ⟨hnone, rfl⟩
  · dsimp only
    split
    · exact .inr (.inl ⟨h, rfl⟩)
    · simp only [completeSegment, h]
      split
      · exact .inr (.inr (.inr rfl))
      · next hlast => exact .inr (.inr (.inl ⟨Nat.not_le.mp hlast, rfl, rfl⟩))

theorem falling_advance {p : Progress} (h : p.stage = .release) :
    (p.advance d sampleRate).Falling := by
  rw [Progress.advance]
  split
  · exact .inr rfl
  · dsimp only
    split
    · exact .inl h
    · simp only [completeSegment, h]
      split
      · exact .inr rfl
      · exact .inl rfl

@[simp] theorem releaseCountdown_emit (p : Progress) :
    (p.emit d sampleRate).2.releaseCountdown = p.releaseCountdown := by
  have h := emit_withRelease d sampleRate p p.releaseCountdown
  rw [withRelease_self] at h
  rw [h]
  rfl

theorem stage_emit_of_sustain {p : Progress} (h : p.stage = .sustain) :
    (p.emit d sampleRate).2.stage = .sustain := by
  simp only [emit, h]
  split
  · rfl
  · exact h

theorem Sounding.emit {p : Progress} (h : p.Sounding) :
    (p.emit d sampleRate).2.Sounding ∨ (p.emit d sampleRate).2.stage = .done := by
  rcases h with h | h
  · simp only [Progress.emit, h, Sounding]
    rcases advance_attack_cases d sampleRate h with
      ⟨-, hdone⟩ | ⟨hstage, -⟩ | ⟨-, hstage, -⟩ | hstage
    · exact .inr hdone
    · exact .inl (.inl hstage)
    · exact .inl (.inl hstage)
    · exact .inl (.inr hstage)
  · exact .inl (.inr (stage_emit_of_sustain d sampleRate h))

theorem Falling.emit {p : Progress} (h : p.Falling) : (p.emit d sampleRate).2.Falling := by
  rcases h with h | h
  · simp only [Progress.emit, h]
    exact falling_advance d sampleRate h
  · simp only [Progress.emit, h]
    exact .inr h

/-- The envelope sounds and has not passed the point that is held. -/
structure OnCourse (p : Progress) : Prop where
  sounding : p.Sounding
  segment : p.stage = .attack → p.segment ≤ d.sustain

theorem OnCourse.emit {p : Progress} (h : p.OnCourse d) (hsustain : d.sustain < d.points.size) :
    (p.emit d sampleRate).2.OnCourse d := by
  rcases h.sounding with hstage | hstage
  · have hsegment := h.segment hstage
    simp only [Progress.emit, hstage]
    rcases advance_attack_cases d sampleRate hstage with
      ⟨hnone, -⟩ | ⟨hattack, hsame⟩ | ⟨hlt, hattack, hnext⟩ | hheld
    · have hsize := Array.getElem?_eq_none_iff.mp hnone
      omega
    · exact ⟨.inl hattack, fun _ => by omega⟩
    · exact ⟨.inl hattack, fun _ => by omega⟩
    · exact ⟨.inr hheld, fun hattack => by rw [hheld] at hattack; cases hattack⟩
  · have hheld := stage_emit_of_sustain d sampleRate hstage
    exact ⟨.inr hheld, fun hattack => by rw [hheld] at hattack; cases hattack⟩

/-! ### The beginning of the release -/

theorem falling_enterRelease (p : Progress) : (p.enterRelease d sampleRate).Falling := by
  rw [enterRelease]
  split
  · exact .inr rfl
  · exact .inl rfl

/-- The frame in which the release begins: what it would produce if it were the
first frame of the release, entered from wherever the envelope has got to. -/
def releaseFrame (p : Progress) : Float32 × Progress :=
  ((p.withRelease none).enterRelease d sampleRate).emit d sampleRate

theorem falling_releaseFrame (p : Progress) : (p.releaseFrame d sampleRate).2.Falling :=
  (falling_enterRelease d sampleRate _).emit d sampleRate

theorem releaseFrame_of_no_points (p : Progress) (h : d.points.size ≤ d.releaseStart) :
    (p.releaseFrame d sampleRate).1 = 0 ∧ (p.releaseFrame d sampleRate).2.stage = .done := by
  rw [releaseFrame, enterRelease, if_pos h]
  exact ⟨rfl, rfl⟩

/-- A countdown that has run out begins the release. -/
theorem sound_of_zero {p : Progress} (h : p.releaseCountdown = some 0) :
    p.sound d sampleRate = p.releaseFrame d sampleRate := by
  rw [sound_eq_emit, releaseFrame]
  simp only [countRelease, h, if_true]
  rfl

theorem sound_of_ne_zero {p : Progress} (h : p.releaseCountdown ≠ some 0) :
    p.sound d sampleRate =
      (p.withRelease (p.releaseCountdown.map (· - 1))).emit d sampleRate := by
  rw [sound_eq_emit]
  cases hrelease : p.releaseCountdown with
  | none =>
      simp only [countRelease, hrelease]
      rw [Option.map_none, ← hrelease, withRelease_self]
  | some countdown =>
      have hne : countdown ≠ 0 := by
        rintro rfl
        exact h hrelease
      simp only [countRelease, hrelease, if_neg hne]
      rfl

theorem Falling.countRelease {p : Progress} (h : p.Falling) :
    (p.countRelease d sampleRate).Falling := by
  rw [Progress.countRelease]
  split
  · exact h
  · split
    · exact falling_enterRelease d sampleRate _
    · exact h

/-- Once the release has begun, no frame leads back. -/
theorem Falling.tick {p : Progress} (h : p.Falling) : (p.tick d sampleRate).2.Falling := by
  rcases h with hstage | hstage
  · simp only [Progress.tick, hstage, sound_eq_emit]
    exact (Falling.countRelease d sampleRate (.inl hstage)).emit d sampleRate
  · simp only [Progress.tick, hstage]
    exact .inr hstage

/-! ### Frames -/

theorem tick_of_sounding {p : Progress} (h : p.Sounding) :
    p.tick d sampleRate = p.sound d sampleRate := by
  rcases h with h | h <;> simp only [tick, h]

def triggered (p : Progress) : Progress :=
  ({ p with level := 0, stage := .attack } : Progress).enterSegment d 0 sampleRate

theorem onCourse_triggered (p : Progress) : (p.triggered d sampleRate).OnCourse d :=
  ⟨.inl rfl, fun _ => Nat.zero_le _⟩

theorem tick_of_delayed_zero {p : Progress} (hstage : p.stage = .delayed)
    (hzero : p.triggerCountdown = 0) :
    p.tick d sampleRate = (p.triggered d sampleRate).sound d sampleRate := by
  rw [tick, hstage]
  exact if_neg fun hcount => hcount hzero

theorem tick_of_delayed_ne_zero {p : Progress} (hstage : p.stage = .delayed)
    (hcount : p.triggerCountdown ≠ 0) :
    p.tick d sampleRate = (0, { p with
      triggerCountdown := p.triggerCountdown - 1
      releaseCountdown := p.releaseCountdown.map fun r => if r = 0 then 0 else r - 1 }) := by
  rw [tick, hstage]
  exact if_pos hcount

def Unreleased (p : Progress) : Prop :=
  p.stage = .delayed ∨ p.Sounding

/-- What a frame makes of a note whose release has not begun: it goes on, with a
release in wait or not as before, or a release that was in wait begins, or the
note is over. -/
inductive Proceeds (p q : Progress) : Prop where
  | goesOn (hunreleased : q.Unreleased)
      (harmed : q.releaseCountdown.isSome = p.releaseCountdown.isSome)
  | releases (harmed : p.releaseCountdown.isSome) (hstage : q.stage = .release)
  | ends (hstage : q.stage = .done)

theorem Sounding.sound {p : Progress} (h : p.Sounding) :
    p.Proceeds (p.sound d sampleRate).2 := by
  by_cases hzero : p.releaseCountdown = some 0
  · rw [sound_of_zero d sampleRate hzero]
    rcases falling_releaseFrame d sampleRate p with hstage | hstage
    · exact .releases (by rw [hzero]; rfl) hstage
    · exact .ends hstage
  · rw [sound_of_ne_zero d sampleRate hzero]
    have hsame : (p.withRelease (p.releaseCountdown.map (· - 1))).Sounding := h
    rcases hsame.emit d sampleRate with hsounding | hstage
    · refine .goesOn (.inr hsounding) ?_
      rw [releaseCountdown_emit]
      exact Option.isSome_map
    · exact .ends hstage

theorem Unreleased.tick {p : Progress} (h : p.Unreleased) :
    p.Proceeds (p.tick d sampleRate).2 := by
  rcases h with hstage | hsounding
  · by_cases hzero : p.triggerCountdown = 0
    · rw [tick_of_delayed_zero d sampleRate hstage hzero]
      -- Firing the trigger leaves the release countdown alone.
      cases (onCourse_triggered d sampleRate p).sounding.sound d sampleRate with
      | goesOn hunreleased harmed => exact .goesOn hunreleased harmed
      | releases harmed hstage => exact .releases harmed hstage
      | ends hstage => exact .ends hstage
    · rw [tick_of_delayed_ne_zero d sampleRate hstage hzero]
      exact .goesOn (.inl hstage) Option.isSome_map
  · rw [tick_of_sounding d sampleRate hsounding]
    exact hsounding.sound d sampleRate

end Progress

namespace Generator

theorem tick_of_bound {g : Generator} {d : Description} (h : g.description = some d) :
    g.tick = ((g.progress.tick d g.sampleRate).1,
      { g with progress := (g.progress.tick d g.sampleRate).2 }) := by
  simp only [tick, h]

theorem setSampleRate_eq (g : Generator) (sampleRate : Float32) :
    ∃ step, g.setSampleRate sampleRate =
      { g with sampleRate, progress := { g.progress with segmentStep := step } } := by
  rw [setSampleRate]
  dsimp only
  split
  · split <;> exact ⟨_, rfl⟩
  · split <;> exact ⟨_, rfl⟩
  · exact ⟨_, rfl⟩

theorem release_of_falling {g : Generator} (h : g.progress.Falling) (delay : UInt32) :
    g.release delay = g := by
  rw [release]
  rcases h with h | h <;> rw [h]

theorem release_of_sounding {g : Generator} (h : g.progress.Sounding) (delay : UInt32) :
    g.release delay = { g with
      progress := g.progress.withRelease (some (earlier delay g.progress.releaseCountdown)) } := by
  rw [release]
  rcases h with h | h <;> rw [h] <;> rfl

/-- Before the trigger a release is moved behind it. -/
theorem release_of_delayed {g : Generator} (h : g.progress.stage = .delayed) (delay : UInt32) :
    g.release delay = { g with
      progress := g.progress.withRelease (some (earlier
        (if delay < afterTrigger g.progress.triggerCountdown then
          afterTrigger g.progress.triggerCountdown else delay)
        g.progress.releaseCountdown)) } := by
  rw [release, h]
  rfl

end Generator

end PolySampler.Envelope
