import PolySampler.Envelope.Generator

/-!
A release that is scheduled but not yet due is carried along and changes nothing
else. Two generators that differ only in releases that are not due for `k`
frames therefore produce the same `k` levels.
-/

namespace PolySampler

theorem toNat_pred {countdown : UInt32} (h : countdown ≠ 0) :
    (countdown - 1).toNat = countdown.toNat - 1 := by
  have hpos : countdown.toNat ≠ 0 := fun h0 => h (UInt32.toNat_inj.mp h0)
  have hle : (1 : UInt32) ≤ countdown := by
    rw [UInt32.le_iff_toNat_le]
    exact Nat.one_le_iff_ne_zero.mpr hpos
  exact UInt32.toNat_sub_of_le _ _ hle

namespace Envelope

open Signal

def NotBefore (k : Nat) : Option UInt32 → Prop
  | none => True
  | some countdown => k ≤ countdown.toNat

theorem NotBefore.mono {j k : Nat} (h : j ≤ k) {release : Option UInt32}
    (hr : NotBefore k release) : NotBefore j release := by
  cases release with
  | none => trivial
  | some countdown => exact Nat.le_trans h hr

theorem NotBefore.pred {k : Nat} {countdown : UInt32} (h : NotBefore (k + 1) (some countdown)) :
    countdown ≠ 0 ∧ NotBefore k (some (countdown - 1)) := by
  have hpos : k + 1 ≤ countdown.toNat := h
  have hne : countdown ≠ 0 := by
    rintro rfl
    exact absurd hpos (by simp)
  refine ⟨hne, ?_⟩
  show k ≤ (countdown - 1).toNat
  rw [toNat_pred hne]
  omega

namespace Progress

def withRelease (p : Progress) (release : Option UInt32) : Progress :=
  { p with releaseCountdown := release }

@[simp] theorem withRelease_withRelease (p : Progress) (a b : Option UInt32) :
    (p.withRelease a).withRelease b = p.withRelease b := rfl

@[simp] theorem withRelease_self (p : Progress) : p.withRelease p.releaseCountdown = p := rfl

@[simp] theorem stage_withRelease (p : Progress) (release : Option UInt32) :
    (p.withRelease release).stage = p.stage := rfl

variable (d : Description) (sampleRate : Float32)

theorem completeSegment_withRelease (p : Progress) (release : Option UInt32) :
    (p.withRelease release).completeSegment d sampleRate =
      (p.completeSegment d sampleRate).withRelease release := by
  cases hstage : p.stage with
  | attack =>
      by_cases hlast : d.sustain ≤ p.segment
      · simp only [completeSegment, withRelease, hstage, if_pos hlast]
      · simp only [completeSegment, withRelease, hstage, if_neg hlast, enterSegment]
  | release =>
      by_cases hlast : d.points.size ≤ p.segment + 1
      · simp only [completeSegment, withRelease, hstage, if_pos hlast]
      · simp only [completeSegment, withRelease, hstage, if_neg hlast, enterSegment]
  | idle => simp only [completeSegment, withRelease, hstage, enterSegment]
  | delayed => simp only [completeSegment, withRelease, hstage, enterSegment]
  | sustain => simp only [completeSegment, withRelease, hstage, enterSegment]
  | done => simp only [completeSegment, withRelease, hstage, enterSegment]

theorem advance_withRelease (p : Progress) (release : Option UInt32) :
    (p.withRelease release).advance d sampleRate =
      (p.advance d sampleRate).withRelease release := by
  obtain ⟨stage, trigger, scheduled, segment, start, position, step, level⟩ := p
  dsimp only [advance, withRelease]
  cases d.points[segment]? with
  | none => rfl
  | some point =>
      dsimp only
      by_cases hposition : least (position + step) 1 < 1
      · rw [if_pos hposition, if_pos hposition]
      · rw [if_neg hposition, if_neg hposition]
        exact completeSegment_withRelease d sampleRate
          ⟨stage, trigger, scheduled, segment, start, least (position + step) 1, step,
            point.level⟩ release

/-- The level of one frame, the release having been counted. -/
def emit (p : Progress) : Float32 × Progress :=
  match p.stage with
  | .attack | .release => ((p.advance d sampleRate).level, p.advance d sampleRate)
  | .sustain =>
    match d.points[d.sustain]? with
    | some point => (point.level, { p with level := point.level })
    | none => (p.level, p)
  | .done => (0, p)
  | .idle | .delayed => (p.level, p)

theorem sound_eq_emit (p : Progress) :
    p.sound d sampleRate = (p.countRelease d sampleRate).emit d sampleRate := rfl

theorem emit_withRelease (p : Progress) (release : Option UInt32) :
    (p.withRelease release).emit d sampleRate =
      ((p.emit d sampleRate).1, (p.emit d sampleRate).2.withRelease release) := by
  cases hstage : p.stage with
  | attack => simp only [emit, stage_withRelease, hstage, advance_withRelease]; rfl
  | release => simp only [emit, stage_withRelease, hstage, advance_withRelease]; rfl
  | sustain =>
      simp only [emit, stage_withRelease, hstage]
      cases d.points[d.sustain]? with
      | none => rfl
      | some point => rfl
  | done => simp only [emit, stage_withRelease, hstage]
  | idle => simp only [emit, stage_withRelease, hstage]; rfl
  | delayed => simp only [emit, stage_withRelease, hstage]; rfl

theorem sound_withRelease (p : Progress) {k : Nat} {release : Option UInt32}
    (h : NotBefore (k + 1) release) :
    ∃ later, NotBefore k later ∧
      (p.withRelease release).sound d sampleRate =
        (((p.withRelease none).sound d sampleRate).1,
          ((p.withRelease none).sound d sampleRate).2.withRelease later) := by
  obtain ⟨later, hlater, hcount⟩ : ∃ later, NotBefore k later ∧
      (p.withRelease release).countRelease d sampleRate = p.withRelease later := by
    cases release with
    | none => exact ⟨none, trivial, rfl⟩
    | some countdown =>
        obtain ⟨hne, hpred⟩ := h.pred
        exact ⟨some (countdown - 1), hpred, by simp [countRelease, withRelease, hne]⟩
  refine ⟨later, hlater, ?_⟩
  have hnone : (p.withRelease none).countRelease d sampleRate = p.withRelease none := rfl
  rw [sound_eq_emit, sound_eq_emit, hcount, hnone, emit_withRelease, emit_withRelease,
    withRelease_withRelease]

/-- A release that is not due leaves the level of a frame alone, and the frame
leaves it not due. -/
theorem tick_withRelease (p : Progress) {k : Nat} {release : Option UInt32}
    (h : NotBefore (k + 1) release) :
    ∃ later, NotBefore k later ∧
      (p.withRelease release).tick d sampleRate =
        (((p.withRelease none).tick d sampleRate).1,
          ((p.withRelease none).tick d sampleRate).2.withRelease later) := by
  unfold tick
  rw [stage_withRelease, stage_withRelease]
  cases p.stage with
  | idle => exact ⟨release, h.mono (Nat.le_succ k), rfl⟩
  | done => exact ⟨release, h.mono (Nat.le_succ k), rfl⟩
  | attack => exact p.sound_withRelease d sampleRate h
  | sustain => exact p.sound_withRelease d sampleRate h
  | release => exact p.sound_withRelease d sampleRate h
  | delayed =>
      have htrigger : (p.withRelease release).triggerCountdown = p.triggerCountdown := rfl
      have htrigger' : (p.withRelease none).triggerCountdown = p.triggerCountdown := rfl
      dsimp only
      rw [htrigger, htrigger']
      -- Before the trigger both countdowns run; at the trigger the frame sounds.
      by_cases hcount : p.triggerCountdown ≠ 0
      · rw [if_pos hcount, if_pos hcount]
        cases release with
        | none => exact ⟨none, trivial, rfl⟩
        | some countdown =>
            obtain ⟨hne, hpred⟩ := h.pred
            exact ⟨some (countdown - 1), hpred, by simp [withRelease, hne]⟩
      · rw [if_neg hcount, if_neg hcount]
        exact sound_withRelease d sampleRate
          (({ p with level := 0, stage := .attack } : Progress).enterSegment d 0 sampleRate) h

/-- Nothing tells the two apart but releases that are not due for `k` frames. -/
def Alike (k : Nat) (p q : Progress) : Prop :=
  p = q ∨ p.withRelease none = q.withRelease none ∧
    NotBefore k p.releaseCountdown ∧ NotBefore k q.releaseCountdown

theorem Alike.mono {j k : Nat} (h : j ≤ k) {p q : Progress} (hpq : Alike k p q) :
    Alike j p q := by
  rcases hpq with heq | ⟨hsame, hp, hq⟩
  · exact .inl heq
  · exact .inr ⟨hsame, hp.mono h, hq.mono h⟩

theorem Alike.stage {k : Nat} {p q : Progress} (h : Alike k p q) : p.stage = q.stage := by
  rcases h with heq | ⟨hsame, -, -⟩
  · rw [heq]
  · simpa using congrArg Progress.stage hsame

theorem Alike.tick {k : Nat} {p q : Progress} (h : Alike (k + 1) p q) :
    (p.tick d sampleRate).1 = (q.tick d sampleRate).1 ∧
      Alike k (p.tick d sampleRate).2 (q.tick d sampleRate).2 := by
  rcases h with rfl | ⟨hsame, hp, hq⟩
  · exact ⟨rfl, .inl rfl⟩
  · obtain ⟨a, ha, hpt⟩ := p.tick_withRelease d sampleRate hp
    obtain ⟨b, hb, hqt⟩ := q.tick_withRelease d sampleRate hq
    rw [withRelease_self] at hpt hqt
    rw [hpt, hqt, hsame]
    exact ⟨rfl, .inr ⟨rfl, ha, hb⟩⟩

end Progress

namespace Generator

/-- The generators do the same, for `k` frames at least. -/
structure Alike (k : Nat) (g h : Generator) : Prop where
  description : g.description = h.description
  sampleRate : g.sampleRate = h.sampleRate
  progress : Progress.Alike k g.progress h.progress

theorem Alike.refl (k : Nat) (g : Generator) : Alike k g g :=
  ⟨rfl, rfl, .inl rfl⟩

theorem Alike.mono {j k : Nat} (h : j ≤ k) {g g' : Generator} (hg : Alike k g g') :
    Alike j g g' :=
  ⟨hg.description, hg.sampleRate, hg.progress.mono h⟩

theorem Alike.isFinished_eq {k : Nat} {g h : Generator} (hgh : Alike k g h) :
    g.isFinished = h.isFinished := by
  simp only [isFinished, hgh.progress.stage]

theorem Alike.tick {k : Nat} {g h : Generator} (hgh : Alike (k + 1) g h) :
    g.tick.1 = h.tick.1 ∧ Alike k g.tick.2 h.tick.2 := by
  cases hd : h.description with
  | none =>
      have hd' : g.description = none := hgh.description.trans hd
      simp only [Generator.tick, hd, hd']
      exact ⟨trivial, hgh.description, hgh.sampleRate, hgh.progress.mono (Nat.le_succ k)⟩
  | some d =>
      have hd' : g.description = some d := hgh.description.trans hd
      obtain ⟨hlevel, hprogress⟩ := hgh.progress.tick d h.sampleRate
      simp only [Generator.tick, hd, hd', hgh.sampleRate]
      exact ⟨hlevel, rfl, rfl, hprogress⟩

/-- The release that is in force once one has been asked for. -/
def earlier (frame : UInt32) : Option UInt32 → UInt32
  | some pending => if frame < pending then frame else pending
  | none => frame

/-- Asking for a release changes nothing, or schedules one that is not due
before the frame asked for, and none had been due before it. -/
theorem release_cases (g : Generator) (delay : UInt32) :
    g.release delay = g ∨ ∃ frame, delay.toNat ≤ frame.toNat ∧
      NotBefore frame.toNat g.progress.releaseCountdown ∧
      g.release delay = { g with progress := g.progress.withRelease (some frame) } := by
  -- Of the frame asked for and one that is pending the earlier counts.
  have hschedule (frame : UInt32) (hframe : delay.toNat ≤ frame.toNat) :
      { g with progress :=
          g.progress.withRelease (some (earlier frame g.progress.releaseCountdown)) } = g ∨
        ∃ later, delay.toNat ≤ later.toNat ∧
          NotBefore later.toNat g.progress.releaseCountdown ∧
          { g with progress :=
            g.progress.withRelease (some (earlier frame g.progress.releaseCountdown)) } =
            { g with progress := g.progress.withRelease (some later) } := by
    cases hpending : g.progress.releaseCountdown with
    | none => exact .inr ⟨frame, hframe, trivial, rfl⟩
    | some pending =>
        by_cases hlt : frame < pending
        · simp only [earlier, if_pos hlt]
          exact .inr ⟨frame, hframe, Nat.le_of_lt (UInt32.lt_iff_toNat_lt.mp hlt), rfl⟩
        · simp only [earlier, if_neg hlt, ← hpending]
          exact .inl rfl
  generalize hrelease : g.release delay = r
  rw [release] at hrelease
  dsimp only at hrelease
  split at hrelease
  · exact .inl hrelease.symm
  · exact .inl hrelease.symm
  · exact .inl hrelease.symm
  · rw [← hrelease]
    refine hschedule (if delay < afterTrigger g.progress.triggerCountdown then
      afterTrigger g.progress.triggerCountdown else delay) ?_
    by_cases hearly : delay < afterTrigger g.progress.triggerCountdown
    · rw [if_pos hearly]
      exact Nat.le_of_lt (UInt32.lt_iff_toNat_lt.mp hearly)
    · exact Nat.le_of_eq (congrArg UInt32.toNat (if_neg hearly).symm)
  · rw [← hrelease]
    exact hschedule delay (Nat.le_refl _)
  · rw [← hrelease]
    exact hschedule delay (Nat.le_refl _)

theorem Alike.release {k : Nat} {g h : Generator} (hgh : Alike k g h) {delay : UInt32}
    (hdelay : k ≤ delay.toNat) : Alike k (g.release delay) h := by
  rcases g.release_cases delay with heq | ⟨frame, hframe, hbefore, heq⟩
  · rw [heq]
    exact hgh
  · rw [heq]
    refine ⟨hgh.description, hgh.sampleRate, .inr ?_⟩
    have hlate : k ≤ frame.toNat := Nat.le_trans hdelay hframe
    rcases hgh.progress with hsame | ⟨hsame, -, hq⟩
    · exact ⟨by rw [← hsame]; rfl, hlate, hsame ▸ hbefore.mono hlate⟩
    · exact ⟨by rw [← hsame]; rfl, hlate, hq⟩

end Generator

end Envelope

end PolySampler
