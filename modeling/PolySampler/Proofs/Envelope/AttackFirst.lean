import PolySampler.Proofs.Envelope.Timeline

/-!
The attack comes before the release. A release that is asked for while the trigger
is awaited is moved behind it, as far ahead as frames can be scheduled. Only the
latest trigger of all has no frame behind it: a release that is asked for together
with it begins in the frame of the trigger, and nothing of the attack is heard. With
every other trigger, and with every other release, a frame of the attack comes first.
-/

namespace PolySampler.Envelope.Generator

open Progress

/-- Before every frame in which the release has begun there is one that is produced in
the attack or held. -/
def AttackFirst (frames : List Generator) : Prop :=
  ∀ (frame : Nat) (falling : Generator), frames[frame]? = some falling →
    falling.tick.2.progress.Falling →
    ∃ earlier < frame, ∃ sounding : Generator, frames[earlier]? = some sounding ∧
      sounding.tick.2.progress.Sounding

theorem attackFirst_nil : AttackFirst [] := by
  intro frame falling hfalling
  simp at hfalling

theorem attackFirst_cons {g : Generator} {rest : List Generator} :
    AttackFirst (g :: rest) ↔
      g.tick.2.progress.Sounding ∨ ¬ g.tick.2.progress.Falling ∧ AttackFirst rest := by
  constructor
  · intro h
    by_cases hsounding : g.tick.2.progress.Sounding
    · exact .inl hsounding
    · refine .inr ⟨fun hfalling => ?_, fun frame falling hframe hfalling => ?_⟩
      · obtain ⟨earlier, hearlier, -⟩ := h 0 g rfl hfalling
        exact Nat.not_lt_zero earlier hearlier
      · obtain ⟨earlier, hearlier, sounding, hat, hsounds⟩ :=
          h (frame + 1) falling hframe hfalling
        cases earlier with
        | zero =>
            obtain rfl := Option.some.inj hat
            exact absurd hsounds hsounding
        | succ earlier => exact ⟨earlier, Nat.lt_of_succ_lt_succ hearlier, sounding, hat, hsounds⟩
  · rintro h (_ | frame) falling hframe hfalling
    · obtain rfl := Option.some.inj hframe
      rcases h with hsounding | ⟨hnot, -⟩
      · exact absurd hfalling hsounding.not_falling
      · exact absurd hfalling hnot
    · rcases h with hsounding | ⟨-, hrest⟩
      · exact ⟨0, Nat.succ_pos frame, g, rfl, hsounding⟩
      · obtain ⟨earlier, hearlier, sounding, hat, hsounds⟩ := hrest frame falling hframe hfalling
        exact ⟨earlier + 1, Nat.succ_lt_succ hearlier, sounding, hat, hsounds⟩

def releasedAtOnce : List Operation → Bool
  | [] => false
  | .release _ :: _ => true
  | .setSampleRate _ :: rest => releasedAtOnce rest
  | .process n :: rest => n == 0 && releasedAtOnce rest

/-! ### While the trigger is awaited -/

structure Waiting (d : Description) (g : Generator) : Prop where
  bound : g.description = some d
  stage : g.progress.stage = .delayed

section Frames

variable {d : Description} {g : Generator}

theorem not_falling_of_delayed (h : g.progress.stage = .delayed) : ¬ g.progress.Falling := by
  rintro (hstage | hstage) <;> simp [h] at hstage

theorem not_sounding_of_delayed (h : g.progress.stage = .delayed) : ¬ g.progress.Sounding := by
  rintro (hstage | hstage) <;> simp [h] at hstage

theorem Waiting.setSampleRate (h : Waiting d g) (rate : Float32) :
    Waiting d (g.setSampleRate rate) ∧
      (g.setSampleRate rate).progress.triggerCountdown = g.progress.triggerCountdown ∧
      (g.setSampleRate rate).progress.releaseCountdown = g.progress.releaseCountdown := by
  obtain ⟨step, heq⟩ := g.setSampleRate_eq rate
  rw [heq]
  exact ⟨⟨h.bound, h.stage⟩, rfl, rfl⟩

theorem Waiting.release (h : Waiting d g) (ahead : UInt32) :
    Waiting d (g.release ahead) ∧
      (g.release ahead).progress.triggerCountdown = g.progress.triggerCountdown ∧
      (g.release ahead).progress.releaseCountdown = some (earlier
        (if ahead < afterTrigger g.progress.triggerCountdown then
          afterTrigger g.progress.triggerCountdown else ahead)
        g.progress.releaseCountdown) := by
  rw [release_of_delayed h.stage]
  exact ⟨⟨h.bound, h.stage⟩, rfl, rfl⟩

theorem Waiting.tick (h : Waiting d g) (hcount : g.progress.triggerCountdown ≠ 0) :
    Waiting d g.tick.2 ∧
      g.tick.2.progress.triggerCountdown.toNat = g.progress.triggerCountdown.toNat - 1 ∧
      g.tick.2.progress.releaseCountdown.map (·.toNat) =
        g.progress.releaseCountdown.map (·.toNat - 1) := by
  rw [tick_eq_skip h.bound h.stage hcount]
  refine ⟨⟨h.bound, h.stage⟩, toNat_countedOff _ 1, ?_⟩
  simp only [skip, Option.map_map, Function.comp_def, toNat_countedOff]

theorem Waiting.tick_of_zero (h : Waiting d g) (hzero : g.progress.triggerCountdown = 0) :
    g.tick.2.progress = ((g.progress.triggered d g.sampleRate).sound d g.sampleRate).2 := by
  rw [progress_tick h.bound, tick_of_delayed_zero d g.sampleRate h.stage hzero]

/-! ### Releases behind the trigger -/

/-- A release that is in wait comes behind the trigger. -/
def Behind (g : Generator) : Prop :=
  ∀ release ∈ g.progress.releaseCountdown,
    g.progress.triggerCountdown.toNat < release.toNat

theorem Behind.tick (hbehind : Behind g) (h : Waiting d g)
    (hcount : g.progress.triggerCountdown ≠ 0) : Behind g.tick.2 := by
  obtain ⟨-, htrigger, hrelease⟩ := h.tick hcount
  have hpos : g.progress.triggerCountdown.toNat ≠ 0 :=
    fun hzero => hcount (UInt32.toNat_inj.mp hzero)
  intro release hmem
  have hmem' : g.progress.releaseCountdown.map (·.toNat - 1) = some release.toNat := by
    rw [← hrelease, hmem, Option.map_some]
  obtain ⟨before, hbefore, hpred⟩ := Option.map_eq_some_iff.mp hmem'
  have hlt := hbehind before hbefore
  omega

theorem Behind.release (hbehind : Behind g) (h : Waiting d g)
    (hroom : g.progress.triggerCountdown ≠ maxDelay) (ahead : UInt32) :
    Behind (g.release ahead) := by
  obtain ⟨-, htrigger, hrelease⟩ := h.release ahead
  have hlt : g.progress.triggerCountdown < maxDelay :=
    UInt32.lt_of_le_of_ne (UInt32.le_iff_toNat_le.mpr
      (Nat.le_of_lt_succ g.progress.triggerCountdown.toNat_lt)) hroom
  have hafter := toNat_afterTrigger hlt
  generalize hmoved : (if ahead < afterTrigger g.progress.triggerCountdown then
    afterTrigger g.progress.triggerCountdown else ahead) = moved at hrelease
  have hle : (afterTrigger g.progress.triggerCountdown).toNat ≤ moved.toNat := by
    rw [← hmoved]
    split
    · exact Nat.le_refl _
    · next hnot => exact UInt32.le_iff_toNat_le.mp (UInt32.not_lt.mp hnot)
  intro release hmem
  rw [hrelease] at hmem
  obtain rfl := Option.some.inj hmem
  rw [htrigger]
  cases hpending : g.progress.releaseCountdown with
  | none =>
      simp only [earlier]
      omega
  | some pending =>
      have hpast := hbehind pending hpending
      simp only [earlier]
      split <;> omega

theorem Behind.sounding_tick (hbehind : Behind g) (h : Waiting d g)
    (hsustain : d.sustain < d.points.size) (hzero : g.progress.triggerCountdown = 0) :
    g.tick.2.progress.Sounding := by
  have hne : (g.progress.triggered d g.sampleRate).releaseCountdown ≠ some 0 := by
    intro hdue
    have hlt := hbehind 0 hdue
    exact Nat.not_lt_zero _ hlt
  have hcourse := onCourse_triggered d g.sampleRate g.progress
  have hcounted : ((g.progress.triggered d g.sampleRate).withRelease
      ((g.progress.triggered d g.sampleRate).releaseCountdown.map (· - 1))).OnCourse d :=
    ⟨hcourse.sounding, hcourse.segment⟩
  rw [h.tick_of_zero hzero, sound_of_ne_zero d g.sampleRate hne]
  exact (hcounted.emit d g.sampleRate hsustain).sounding

/-! ### A release together with the trigger -/

/-- A release is in wait for the very frame of the trigger. -/
def Tied (g : Generator) : Prop :=
  g.progress.releaseCountdown = some g.progress.triggerCountdown

theorem Tied.tick (htied : Tied g) (h : Waiting d g)
    (hcount : g.progress.triggerCountdown ≠ 0) : Tied g.tick.2 := by
  obtain ⟨-, htrigger, hrelease⟩ := h.tick hcount
  rw [htied, Option.map_some, ← htrigger] at hrelease
  obtain ⟨release, hsome, heq⟩ := Option.map_eq_some_iff.mp hrelease
  rw [Tied, hsome, UInt32.toNat_inj.mp heq]

theorem le_afterTrigger (countdown : UInt32) : countdown ≤ afterTrigger countdown := by
  by_cases hlast : countdown = maxDelay
  · rw [afterTrigger, if_pos hlast, hlast]
    exact UInt32.le_refl _
  · have hlt : countdown < maxDelay :=
      UInt32.lt_of_le_of_ne (UInt32.le_iff_toNat_le.mpr
        (Nat.le_of_lt_succ countdown.toNat_lt)) hlast
    rw [UInt32.le_iff_toNat_le, toNat_afterTrigger hlt]
    exact Nat.le_succ _

theorem Tied.release (htied : Tied g) (h : Waiting d g) (ahead : UInt32) :
    Tied (g.release ahead) := by
  obtain ⟨-, htrigger, hrelease⟩ := h.release ahead
  rw [Tied, hrelease, htrigger, htied]
  refine congrArg some (if_neg (UInt32.not_lt.mpr ?_))
  split
  · exact le_afterTrigger _
  · next hnot => exact UInt32.le_trans (le_afterTrigger _) (UInt32.not_lt.mp hnot)

theorem Tied.falling_tick (htied : Tied g) (h : Waiting d g)
    (hzero : g.progress.triggerCountdown = 0) : g.tick.2.progress.Falling := by
  have hdue : (g.progress.triggered d g.sampleRate).releaseCountdown = some 0 := by
    rw [← hzero]
    exact htied
  rw [h.tick_of_zero hzero, sound_of_zero d g.sampleRate hdue]
  exact falling_releaseFrame d g.sampleRate _

end Frames

/-! ### Runs -/

section Runs

variable {d : Description} {g : Generator}

theorem Waiting.start (hbound : g.description = some d) (delay : UInt32) :
    Waiting d (g.start delay) ∧ (g.start delay).progress.triggerCountdown = delay ∧
      (g.start delay).progress.releaseCountdown = none := by
  have hstart : g.start delay =
      { g with progress := { stage := .delayed, triggerCountdown := delay } } := by
    simp only [Generator.start, hbound]
  rw [hstart]
  exact ⟨⟨hbound, rfl⟩, rfl, rfl⟩

theorem ne_maxDelay_of_toNat_eq_pred {countdown later : UInt32} (hcount : countdown ≠ 0)
    (hlater : later.toNat = countdown.toNat - 1) : later ≠ maxDelay := by
  rintro rfl
  have hlast : maxDelay.toNat = 4294967295 := rfl
  have hlt := countdown.toNat_lt
  have hpos : countdown.toNat ≠ 0 := fun hzero => hcount (UInt32.toNat_inj.mp hzero)
  omega

/-- The attack comes first in every run from a generator with its releases behind the
trigger, if only no release is asked for at once with the latest trigger. -/
theorem Waiting.attackFirst (h : Waiting d g) (hbehind : Behind g)
    (hsustain : d.sustain < d.points.size) (ops : List Operation)
    (hroom : g.progress.triggerCountdown = maxDelay → releasedAtOnce ops = false) :
    AttackFirst (frames ops g) := by
  induction ops, g using frames_induction with
  | done g => exact attackFirst_nil
  | block rest g ih =>
      rw [frames_process_zero]
      exact ih h hbehind hroom
  | frame n rest g ih =>
      rw [frames_process_succ, attackFirst_cons]
      by_cases hzero : g.progress.triggerCountdown = 0
      · exact .inl (hbehind.sounding_tick h hsustain hzero)
      · obtain ⟨hwaiting, htrigger, -⟩ := h.tick hzero
        refine .inr ⟨not_falling_of_delayed hwaiting.stage,
          ih hwaiting (hbehind.tick h hzero) fun hlast => ?_⟩
        exact absurd hlast (ne_maxDelay_of_toNat_eq_pred hzero htrigger)
  | rate rate rest g ih =>
      obtain ⟨hwaiting, htrigger, hrelease⟩ := h.setSampleRate rate
      refine ih hwaiting ?_ fun hlast => hroom (htrigger.symm.trans hlast)
      rwa [Behind, htrigger, hrelease]
  | release ahead rest g ih =>
      have hbefore : g.progress.triggerCountdown ≠ maxDelay := by
        intro hlast
        exact absurd (hroom hlast) Bool.noConfusion
      obtain ⟨hwaiting, htrigger, -⟩ := h.release ahead
      refine ih hwaiting (hbehind.release h hbefore ahead) fun hlast => ?_
      exact absurd (htrigger.symm.trans hlast) hbefore

theorem Waiting.attackFirst_of_short (h : Waiting d g) (ops : List Operation)
    (hshort : (frames ops g).length ≤ g.progress.triggerCountdown.toNat) :
    AttackFirst (frames ops g) := by
  induction ops, g using frames_induction with
  | done g => exact attackFirst_nil
  | block rest g ih =>
      rw [frames_process_zero] at hshort ⊢
      exact ih h hshort
  | frame n rest g ih =>
      rw [frames_process_succ] at hshort ⊢
      rw [List.length_cons] at hshort
      have hcount : g.progress.triggerCountdown ≠ 0 := by
        intro hzero
        rw [hzero] at hshort
        exact Nat.not_succ_le_zero _ hshort
      obtain ⟨hwaiting, htrigger, -⟩ := h.tick hcount
      rw [attackFirst_cons]
      exact .inr ⟨not_falling_of_delayed hwaiting.stage, ih hwaiting (by omega)⟩
  | rate rate rest g ih =>
      obtain ⟨hwaiting, htrigger, -⟩ := h.setSampleRate rate
      exact ih hwaiting (htrigger ▸ hshort)
  | release ahead rest g ih =>
      obtain ⟨hwaiting, htrigger, -⟩ := h.release ahead
      exact ih hwaiting (htrigger ▸ hshort)

theorem Tied.not_attackFirst (htied : Tied g) (h : Waiting d g) (ops : List Operation)
    (hlong : g.progress.triggerCountdown.toNat < (frames ops g).length) :
    ¬ AttackFirst (frames ops g) := by
  induction ops, g using frames_induction with
  | done g => exact absurd hlong (Nat.not_lt_zero _)
  | block rest g ih =>
      rw [frames_process_zero] at hlong ⊢
      exact ih htied h hlong
  | frame n rest g ih =>
      rw [frames_process_succ] at hlong ⊢
      rw [attackFirst_cons]
      by_cases hzero : g.progress.triggerCountdown = 0
      · have hfalling := htied.falling_tick h hzero
        rintro (hsounding | ⟨hnot, -⟩)
        · exact hsounding.not_falling hfalling
        · exact hnot hfalling
      · obtain ⟨hwaiting, htrigger, -⟩ := h.tick hzero
        rintro (hsounding | ⟨-, hrest⟩)
        · exact not_sounding_of_delayed hwaiting.stage hsounding
        · refine ih (htied.tick h hzero) hwaiting ?_ hrest
          rw [List.length_cons] at hlong
          have hpos : g.progress.triggerCountdown.toNat ≠ 0 :=
            fun hnone => hzero (UInt32.toNat_inj.mp hnone)
          omega
  | rate rate rest g ih =>
      obtain ⟨hwaiting, htrigger, hrelease⟩ := h.setSampleRate rate
      refine ih ?_ hwaiting (htrigger ▸ hlong)
      rw [Tied, htrigger, hrelease, htied]
  | release ahead rest g ih =>
      obtain ⟨hwaiting, htrigger, -⟩ := h.release ahead
      exact ih (htied.release h ahead) hwaiting (htrigger ▸ hlong)

theorem Waiting.not_attackFirst (h : Waiting d g)
    (hlast : g.progress.triggerCountdown = maxDelay)
    (hnone : g.progress.releaseCountdown = none) (ops : List Operation)
    (hatOnce : releasedAtOnce ops) (hlong : maxDelay.toNat < (frames ops g).length) :
    ¬ AttackFirst (frames ops g) := by
  induction ops, g using frames_induction with
  | done g => exact absurd hatOnce Bool.noConfusion
  | block rest g ih =>
      rw [frames_process_zero] at hlong ⊢
      exact ih h hlast hnone hatOnce hlong
  | frame n rest g ih => exact absurd hatOnce Bool.noConfusion
  | rate rate rest g ih =>
      obtain ⟨hwaiting, htrigger, hrelease⟩ := h.setSampleRate rate
      exact ih hwaiting (htrigger.trans hlast) (hrelease.trans hnone) hatOnce hlong
  | release ahead rest g ih =>
      obtain ⟨hwaiting, htrigger, hrelease⟩ := h.release ahead
      refine Tied.not_attackFirst ?_ hwaiting rest ?_
      · rw [Tied, htrigger, hrelease, hnone, hlast]
        refine congrArg some ?_
        -- No frame is behind the last one, and none that is asked for can be later.
        have hle : ahead ≤ maxDelay :=
          UInt32.le_iff_toNat_le.mpr (Nat.le_of_lt_succ ahead.toNat_lt)
        show (if ahead < maxDelay then maxDelay else ahead) = maxDelay
        split
        · rfl
        · next hnot => exact UInt32.le_antisymm hle (UInt32.not_lt.mp hnot)
      · rw [htrigger, hlast]
        exact hlong

/-- The attack of a note comes before its release, whenever releases are asked for and
however the frames are divided into blocks, except in one case: the trigger is the
latest that can be scheduled, a release is asked for together with it, and the run gets
as far as their common frame. -/
theorem attackFirst_iff (hbound : g.description = some d)
    (hsustain : d.sustain < d.points.size) (delay : UInt32) (ops : List Operation) :
    AttackFirst (frames ops (g.start delay)) ↔
      ¬ (delay = maxDelay ∧ releasedAtOnce ops ∧
        maxDelay.toNat < (frames ops (g.start delay)).length) := by
  obtain ⟨hwaiting, htrigger, hnone⟩ := Waiting.start hbound delay
  have hbehind : Behind (g.start delay) := by
    intro release hmem
    rw [hnone] at hmem
    cases hmem
  constructor
  · rintro hfirst ⟨rfl, hatOnce, hlong⟩
    exact hwaiting.not_attackFirst htrigger hnone ops hatOnce hlong hfirst
  · intro hnot
    by_cases hatOnce : delay = maxDelay ∧ releasedAtOnce ops
    · refine hwaiting.attackFirst_of_short ops (Nat.not_lt.mp fun hlong => hnot ?_)
      rw [htrigger, hatOnce.1] at hlong
      exact ⟨hatOnce.1, hatOnce.2, hatOnce.1 ▸ hlong⟩
    · refine hwaiting.attackFirst hbehind hsustain ops fun hlast => ?_
      rw [htrigger] at hlast
      exact Bool.eq_false_iff.mpr fun hreleased => hatOnce ⟨hlast, hreleased⟩

/-- A release that is asked for one frame after the latest trigger was scheduled comes
behind the attack. -/
theorem attackFirst_of_latest_trigger :
    let g := (Generator.new 1000).configure default
    let ops := [.process 1, .release 0, .process 4294967296]
    g.description = some default ∧
      (default : Description).sustain < (default : Description).points.size ∧
      AttackFirst (frames ops (g.start maxDelay)) := by
  intro g ops
  have hbound : g.description = some default := rfl
  have hsustain : (default : Description).sustain < (default : Description).points.size := by
    decide
  exact ⟨hbound, hsustain, (attackFirst_iff hbound hsustain maxDelay ops).mpr fun hatOnce =>
    absurd hatOnce.2.1 Bool.noConfusion⟩

/-- One that is asked for together with it does not: the release begins in the frame of
the trigger, and no frame of the attack comes before it. -/
theorem not_attackFirst_of_latest_trigger :
    let g := (Generator.new 1000).configure default
    let ops := [.release 0, .process 4294967296]
    g.description = some default ∧
      (default : Description).sustain < (default : Description).points.size ∧
      ¬ AttackFirst (frames ops (g.start maxDelay)) := by
  intro g ops
  refine ⟨rfl, by decide, ?_⟩
  obtain ⟨hwaiting, htrigger, hnone⟩ :=
    Waiting.start (show g.description = some default from rfl) maxDelay
  refine hwaiting.not_attackFirst htrigger hnone ops rfl ?_
  simp only [ops, frames, Operation.frames, List.length_append, length_upcoming, List.length_nil]
  decide

end Runs

end PolySampler.Envelope.Generator
