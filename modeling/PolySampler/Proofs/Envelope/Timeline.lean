import PolySampler.Proofs.Envelope.Stages

/-!
The timeline of a note's envelope. It is started once, and from then on frames
are produced in blocks of any length, with releases and changes of the sample
rate asked for in between. Two frames say all about it: that of the trigger, and
that of the release, the earliest of those asked for. What is in between sounds,
what is before is silent, and nothing but the releases asked for before theirs
begins has a say in it.
-/

namespace PolySampler.Envelope.Generator

/-! ### Operations and their frames -/

def ticked : Nat → Generator → Generator
  | 0, g => g
  | n + 1, g => ticked n g.tick.2

/-- The generators that each of the next frames is produced from. -/
def upcoming : Nat → Generator → List Generator
  | 0, _ => []
  | n + 1, g => g :: upcoming n g.tick.2

@[simp] theorem length_upcoming (n : Nat) (g : Generator) : (upcoming n g).length = n := by
  induction n generalizing g with
  | zero => rfl
  | succ n ih => simp [upcoming, ih]

theorem getElem?_upcoming {n i : Nat} (h : i < n) (g : Generator) :
    (upcoming n g)[i]? = some (ticked i g) := by
  induction n generalizing i g with
  | zero => omega
  | succ n ih =>
      cases i with
      | zero => rfl
      | succ i =>
          simp only [upcoming, List.getElem?_cons_succ]
          exact ih (by omega) g.tick.2

theorem processFrom_eq (n : Nat) (done : Array Float32) (g : Generator) :
    processFrom n done g = (done ++ ((upcoming n g).map (·.tick.1)).toArray, ticked n g) := by
  induction n generalizing done g with
  | zero => simp [processFrom, upcoming, ticked]
  | succ n ih => simp [processFrom, upcoming, ticked, ih]

theorem ticked_add (m n : Nat) (g : Generator) : ticked (m + n) g = ticked n (ticked m g) := by
  induction m generalizing g with
  | zero => rw [Nat.zero_add, ticked]
  | succ m ih => rw [Nat.succ_add, ticked, ticked, ih]

theorem upcoming_add (m n : Nat) (g : Generator) :
    upcoming (m + n) g = upcoming m g ++ upcoming n (ticked m g) := by
  induction m generalizing g with
  | zero => rw [Nat.zero_add, upcoming, ticked, List.nil_append]
  | succ m ih => rw [Nat.succ_add, upcoming, upcoming, ticked, ih, List.cons_append]

/-! ### Frames that wait for the trigger -/

theorem toNat_countedOff (countdown : UInt32) (frames : Nat) :
    (UInt32.ofNat (countdown.toNat - frames)).toNat = countdown.toNat - frames :=
  UInt32.toNat_ofNat_of_lt' (Nat.lt_of_le_of_lt (Nat.sub_le _ _) countdown.toNat_lt)

@[simp] theorem skip_zero (g : Generator) : g.skip 0 = g := by
  simp [skip]

theorem skip_skip (m n : Nat) (g : Generator) : (g.skip m).skip n = g.skip (m + n) := by
  simp only [skip, toNat_countedOff, Nat.sub_sub, Option.map_map, Function.comp_def]

theorem tick_eq_skip {g : Generator} {d : Description} (hbound : g.description = some d)
    (hstage : g.progress.stage = .delayed) (hcount : g.progress.triggerCountdown ≠ 0) :
    g.tick = (0, g.skip 1) := by
  have hpred (countdown : UInt32) :
      (if countdown = 0 then 0 else countdown - 1) = UInt32.ofNat (countdown.toNat - 1) := by
    rw [← UInt32.toNat_inj, toNat_countedOff]
    split
    · next hzero => rw [hzero]; rfl
    · next hne => exact toNat_pred hne
  have htrigger := hpred g.progress.triggerCountdown
  rw [if_neg hcount] at htrigger
  rw [tick_of_bound hbound, Progress.tick_of_delayed_ne_zero d g.sampleRate hstage hcount, skip,
    htrigger]
  simp only [hpred]

/-- The frames up to the trigger are silent, and count off as many frames. -/
theorem ticked_of_waiting {g : Generator} {d : Description} (hbound : g.description = some d)
    (hstage : g.progress.stage = .delayed) {n : Nat}
    (hn : n ≤ g.progress.triggerCountdown.toNat) :
    (upcoming n g).map (·.tick.1) = List.replicate n 0 ∧ ticked n g = g.skip n := by
  induction n generalizing g with
  | zero => exact ⟨rfl, g.skip_zero.symm⟩
  | succ n ih =>
      have hcount : g.progress.triggerCountdown ≠ 0 := by
        intro hzero
        rw [hzero] at hn
        exact absurd hn (by simp)
      have htick := tick_eq_skip hbound hstage hcount
      have hleft : n ≤ (g.skip 1).progress.triggerCountdown.toNat := by
        simp only [skip, toNat_countedOff]
        omega
      have ⟨hlevels, hlater⟩ := ih (g := g.skip 1) hbound hstage hleft
      refine ⟨?_, ?_⟩
      · rw [upcoming, List.map_cons, htick, hlevels, List.replicate_succ]
      · rw [ticked, htick, hlater, skip_skip, Nat.add_comm]

theorem silentFrames_le (g : Generator) (frames : Nat) : g.silentFrames frames ≤ frames := by
  rw [silentFrames]
  split
  · exact Nat.min_le_left _ _
  · exact Nat.zero_le _

theorem ticked_silentFrames (g : Generator) (frames : Nat) :
    (upcoming (g.silentFrames frames) g).map (·.tick.1) =
        List.replicate (g.silentFrames frames) 0 ∧
      ticked (g.silentFrames frames) g = g.skip (g.silentFrames frames) := by
  rw [silentFrames]
  split
  · next d hbound hstage => exact ticked_of_waiting hbound hstage (Nat.min_le_right _ _)
  · exact ⟨rfl, g.skip_zero.symm⟩

/-- A block is produced as if frame by frame. -/
theorem process_eq (n : Nat) (g : Generator) :
    g.process n = (((upcoming n g).map (·.tick.1)).toArray, ticked n g) := by
  obtain ⟨hlevels, hlater⟩ := g.ticked_silentFrames n
  have hsplit : g.silentFrames n + (n - g.silentFrames n) = n :=
    Nat.add_sub_cancel' (g.silentFrames_le n)
  conv => rhs; rw [← hsplit]
  rw [process, processFrom_eq, upcoming_add, ticked_add, List.map_append, hlevels, hlater,
    ← List.toArray_replicate, List.append_toArray]

/-- What can be asked of a generator that has been started. -/
inductive Operation where
  | process (frames : Nat)
  | setSampleRate (rate : Float32)
  | release (ahead : UInt32)

namespace Operation

def run (g : Generator) : Operation → Generator
  | process n => (g.process n).2
  | setSampleRate rate => g.setSampleRate rate
  | release ahead => g.release ahead

def levels (g : Generator) : Operation → List Float32
  | process n => (g.process n).1.toList
  | setSampleRate _ | release _ => []

def frames (g : Generator) : Operation → List Generator
  | process n => upcoming n g
  | setSampleRate _ | release _ => []

theorem levels_eq (g : Generator) (op : Operation) :
    op.levels g = (op.frames g).map (·.tick.1) := by
  cases op with
  | process n => simp only [levels, frames, process_eq]
  | setSampleRate rate => rfl
  | release ahead => rfl

end Operation

def levels : List Operation → Generator → List Float32
  | [], _ => []
  | op :: rest, g => op.levels g ++ levels rest (op.run g)

def frames : List Operation → Generator → List Generator
  | [], _ => []
  | op :: rest, g => op.frames g ++ frames rest (op.run g)

theorem levels_eq_map_frames (ops : List Operation) (g : Generator) :
    levels ops g = (frames ops g).map (·.tick.1) := by
  induction ops generalizing g with
  | nil => rfl
  | cons op rest ih => rw [levels, frames, List.map_append, ih, op.levels_eq]

theorem frames_process_succ (n : Nat) (rest : List Operation) (g : Generator) :
    frames (.process (n + 1) :: rest) g = g :: frames (.process n :: rest) g.tick.2 := by
  simp only [frames, Operation.frames, Operation.run, process_eq, upcoming, ticked,
    List.cons_append]

theorem frames_process_zero (rest : List Operation) (g : Generator) :
    frames (.process 0 :: rest) g = frames rest g := by
  simp only [frames, Operation.frames, Operation.run, process_eq, upcoming, ticked,
    List.nil_append]

/-- Induction along a run, one frame or one request at a time. -/
theorem frames_induction {motive : List Operation → Generator → Prop}
    (done : ∀ g, motive [] g)
    (block : ∀ rest g, motive rest g → motive (.process 0 :: rest) g)
    (frame : ∀ n rest g, motive (.process n :: rest) g.tick.2 →
      motive (.process (n + 1) :: rest) g)
    (rate : ∀ rate rest g, motive rest (g.setSampleRate rate) →
      motive (.setSampleRate rate :: rest) g)
    (release : ∀ ahead rest g, motive rest (g.release ahead) →
      motive (.release ahead :: rest) g)
    (ops : List Operation) (g : Generator) : motive ops g := by
  induction ops generalizing g with
  | nil => exact done g
  | cons op rest ih =>
      cases op with
      | process n =>
          induction n generalizing g with
          | zero => exact block rest g (ih g)
          | succ n ihn => exact frame n rest g (ihn g.tick.2)
      | setSampleRate newRate => exact rate newRate rest g (ih _)
      | release ahead => exact release ahead rest g (ih _)

/-! ### Targets of releases -/

/-- The frame that a release aims at which is asked for after `now` frames: the one
that is named, but never one before the frame behind the trigger. -/
def target (trigger now : Nat) (ahead : UInt32) : Nat :=
  if trigger < now then now + ahead.toNat else max (now + ahead.toNat) (trigger + 1)

/-- The frames aimed at by the releases that are asked for before a release has
begun. -/
def targets (trigger : Nat) : Nat → List Operation → Generator → List Nat
  | _, [], _ => []
  | now, .release ahead :: rest, g =>
    if g.progress.Falling then targets trigger now rest (g.release ahead)
    else target trigger now ahead :: targets trigger now rest (g.release ahead)
  | now, .process n :: rest, g => targets trigger (now + n) rest (g.process n).2
  | now, .setSampleRate rate :: rest, g => targets trigger now rest (g.setSampleRate rate)

/-- The frames aimed at by all releases that are asked for, whatever has become of
the generator. -/
def allTargets (trigger : Nat) : Nat → List Operation → List Nat
  | _, [] => []
  | now, .release ahead :: rest => target trigger now ahead :: allTargets trigger now rest
  | now, .process n :: rest => allTargets trigger (now + n) rest
  | now, .setSampleRate _ :: rest => allTargets trigger now rest

theorem le_target (trigger now : Nat) (ahead : UInt32) : now ≤ target trigger now ahead := by
  rw [target]
  split <;> omega

theorem trigger_lt_target (trigger now : Nat) (ahead : UInt32) :
    trigger < target trigger now ahead := by
  rw [target]
  split <;> omega

theorem le_of_mem_allTargets {trigger now : Nat} {ops : List Operation} {aim : Nat}
    (h : aim ∈ allTargets trigger now ops) : now ≤ aim := by
  induction ops generalizing now with
  | nil => exact absurd h List.not_mem_nil
  | cons op rest ih =>
      cases op with
      | process n => exact Nat.le_trans (Nat.le_add_right now n) (ih h)
      | setSampleRate rate => exact ih h
      | release ahead =>
          rcases List.mem_cons.mp h with rfl | h
          · exact le_target trigger now ahead
          · exact ih h

abbrev sooner : Option Nat → Option Nat → Option Nat :=
  Option.merge min

theorem min?_cons_eq_sooner (aim : Nat) (aims : List Nat) :
    (aim :: aims).min? = sooner (some aim) aims.min? := by
  rw [List.min?_cons]
  cases aims.min? <;> rfl

theorem sooner_assoc (a b c : Option Nat) : sooner (sooner a b) c = sooner a (sooner b c) :=
  (Option.associative_merge min).assoc a b c

theorem forall_mem_sooner (a b : Option Nat) (frame : Nat) :
    (∀ release ∈ sooner a b, frame ≤ release) ↔
      (∀ release ∈ a, frame ≤ release) ∧ ∀ release ∈ b, frame ≤ release := by
  cases a with
  | none => simp [sooner]
  | some first =>
      cases b with
      | none => simp [sooner]
      | some second =>
          show (∀ release ∈ some (min first second), frame ≤ release) ↔ _
          simp only [Option.mem_some_iff, forall_eq']
          exact Nat.le_min

theorem sooner_of_later (a : Option Nat) {aims : List Nat} {frame : Nat}
    (h : ∀ aim ∈ aims, frame < aim) :
    ((∀ release ∈ sooner a aims.min?, frame < release) ↔ ∀ release ∈ a, frame < release) ∧
      (sooner a aims.min? = some frame ↔ a = some frame) := by
  have hleast : ∀ release ∈ aims.min?, frame < release := by
    intro release hrelease
    exact h release (List.min?_eq_some_iff.mp hrelease).1
  refine ⟨(forall_mem_sooner a aims.min? (frame + 1)).trans (and_iff_left hleast), ?_⟩
  cases hmin : aims.min? with
  | none => cases a <;> simp [sooner]
  | some aim =>
      have hlt := hleast aim hmin
      cases a <;> simp [sooner] <;> omega

/-! ### Keeping to the schedule -/

open Progress

/-- The generator keeps to its schedule: `now` frames have been produced, the
trigger is that of frame `trigger`, and `due` is the frame of the release, if one
has been asked for. -/
structure Scheduled (d : Description) (trigger now : Nat) (due : Option Nat) (g : Generator) :
    Prop where
  bound : g.description = some d
  waiting : now ≤ trigger →
    g.progress.stage = .delayed ∧ now + g.progress.triggerCountdown.toNat = trigger
  sounding : trigger < now → (∀ release ∈ due, now ≤ release) → g.progress.OnCourse d
  falling : ∀ release ∈ due, release < now → g.progress.Falling
  armed : (∀ release ∈ due, now ≤ release) →
    g.progress.releaseCountdown.map (now + ·.toNat) = due
  behind : ∀ release ∈ due, trigger < release

section Frames

variable {d : Description} {trigger now : Nat} {due : Option Nat} {g : Generator}

theorem Scheduled.start {g : Generator} (hbound : g.description = some d) (delay : UInt32) :
    Scheduled d delay.toNat 0 none (g.start delay) := by
  simp only [Generator.start, hbound]
  refine ⟨rfl, fun _ => ⟨rfl, Nat.zero_add _⟩, fun h => absurd h (Nat.not_lt_zero _), ?_,
    fun _ => rfl, ?_⟩
  · intro release hrelease
    cases hrelease
  · intro release hrelease
    cases hrelease

theorem map_add_pred {countdown : Option UInt32} (h : countdown ≠ some 0) :
    (countdown.map (· - 1)).map (now + 1 + ·.toNat) = countdown.map (now + ·.toNat) := by
  cases countdown with
  | none => rfl
  | some countdown =>
      have hne : countdown ≠ 0 := fun hzero => h (by rw [hzero])
      have hpos : countdown.toNat ≠ 0 := fun hzero => hne (UInt32.toNat_inj.mp hzero)
      have hpred := toNat_pred hne
      simp only [Option.map_some, Option.some.injEq]
      omega

theorem countdown_ne_zero {countdown : Option UInt32}
    (harmed : countdown.map (now + ·.toNat) = due) (hlater : ∀ release ∈ due, now < release) :
    countdown ≠ some 0 := by
  rintro rfl
  exact absurd (hlater now harmed.symm) (Nat.lt_irrefl now)

theorem Scheduled.tick_of_due (h : Scheduled d trigger now (some now) g) :
    g.progress.Sounding ∧
      g.tick = ((g.progress.releaseFrame d g.sampleRate).1,
        { g with progress := (g.progress.releaseFrame d g.sampleRate).2 }) := by
  have hdue : ∀ release ∈ some now, now ≤ release := by
    rintro release ⟨⟩
    exact Nat.le_refl now
  have hsounding := (h.sounding (h.behind now rfl) hdue).sounding
  have hzero : g.progress.releaseCountdown = some 0 := by
    obtain ⟨countdown, hcountdown, hsum⟩ := Option.map_eq_some_iff.mp (h.armed hdue)
    have hnone : countdown = 0 := by
      rw [← UInt32.toNat_inj]
      show countdown.toNat = 0
      omega
    rw [hcountdown, hnone]
  refine ⟨hsounding, ?_⟩
  rw [tick_of_bound h.bound, tick_of_sounding d g.sampleRate hsounding,
    sound_of_zero d g.sampleRate hzero]

theorem scheduled_sound (hsustain : d.sustain < d.points.size) (hbound : g.description = some d)
    (hbehind : ∀ release ∈ due, trigger < release) (hnow : trigger ≤ now)
    (hlater : ∀ release ∈ due, now < release) {p : Progress} (hcourse : p.OnCourse d)
    (harmed : p.releaseCountdown.map (now + ·.toNat) = due) :
    Scheduled d trigger (now + 1) due { g with progress := (p.sound d g.sampleRate).2 } := by
  have hne := countdown_ne_zero harmed hlater
  rw [sound_of_ne_zero d g.sampleRate hne]
  refine ⟨hbound, fun hle => by omega, fun _ _ => ?_, ?_, fun _ => ?_, hbehind⟩
  · exact OnCourse.emit d g.sampleRate ⟨hcourse.sounding, hcourse.segment⟩ hsustain
  · intro release hrelease hlt
    have := hlater release hrelease
    omega
  · rw [releaseCountdown_emit]
    exact (map_add_pred hne).trans harmed

theorem Scheduled.falling_tick (h : Scheduled d trigger now due g) {release : Nat}
    (hrelease : release ∈ due) (hle : release ≤ now) : g.tick.2.progress.Falling := by
  rw [tick_of_bound h.bound]
  rcases Nat.lt_or_eq_of_le hle with hlt | rfl
  · exact (h.falling release hrelease hlt).tick d g.sampleRate
  · cases hrelease
    have htick := congrArg (·.2.progress) h.tick_of_due.2
    rw [tick_of_bound h.bound] at htick
    dsimp only at htick
    rw [htick]
    exact falling_releaseFrame d g.sampleRate g.progress

theorem Scheduled.tick_of_waiting (h : Scheduled d trigger now due g) (hlt : now < trigger) :
    g.tick.1 = 0 ∧ Scheduled d trigger (now + 1) due g.tick.2 := by
  have hlater : ∀ release ∈ due, now < release := by
    intro release hrelease
    exact Nat.lt_trans hlt (h.behind release hrelease)
  have harmed := h.armed fun release hrelease => Nat.le_of_lt (hlater release hrelease)
  have hne := countdown_ne_zero harmed hlater
  obtain ⟨hstage, hsum⟩ := h.waiting (Nat.le_of_lt hlt)
  have hcount : g.progress.triggerCountdown ≠ 0 := by
    intro hzero
    rw [hzero] at hsum
    exact absurd hsum (Nat.ne_of_lt hlt)
  have hpred := toNat_pred hcount
  have hrun : (g.progress.releaseCountdown.map fun r => if r = 0 then 0 else r - 1) =
      g.progress.releaseCountdown.map (· - 1) := by
    cases hrelease : g.progress.releaseCountdown with
    | none => rfl
    | some countdown =>
        have hpos : countdown ≠ 0 := fun hzero => hne (by rw [hrelease, hzero])
        simp [hpos]
  rw [tick_of_bound h.bound, tick_of_delayed_ne_zero d g.sampleRate hstage hcount, hrun]
  refine ⟨rfl, h.bound, fun _ => ⟨hstage, ?_⟩, fun _ => by omega, ?_, fun _ => ?_, h.behind⟩
  · dsimp only
    omega
  · intro release hrelease _
    have := hlater release hrelease
    omega
  · exact (map_add_pred hne).trans harmed

/-- Every frame keeps to the schedule. -/
theorem Scheduled.tick (h : Scheduled d trigger now due g) (hsustain : d.sustain < d.points.size) :
    Scheduled d trigger (now + 1) due g.tick.2 := by
  by_cases hover : ∃ release ∈ due, release ≤ now
  · obtain ⟨release, hrelease, hle⟩ := hover
    have hfalling := h.falling_tick hrelease hle
    have hbehind := h.behind release hrelease
    refine ⟨?_, fun hle => by omega, fun _ hlater => ?_, fun _ _ _ => hfalling,
      fun hlater => ?_, h.behind⟩
    · rw [description_tick, h.bound]
    · have := hlater release hrelease
      omega
    · have := hlater release hrelease
      omega
  · have hlater : ∀ release ∈ due, now < release := by
      intro release hrelease
      exact Nat.not_le.mp fun hle => hover ⟨release, hrelease, hle⟩
    have hnotPast := fun release hrelease => Nat.le_of_lt (hlater release hrelease)
    have harmed := h.armed hnotPast
    rcases Nat.lt_trichotomy now trigger with hlt | heq | hgt
    · exact (h.tick_of_waiting hlt).2
    · -- The trigger fires in this frame.
      obtain ⟨hstage, hsum⟩ := h.waiting (Nat.le_of_eq heq)
      have hzero : g.progress.triggerCountdown = 0 := by
        rw [← UInt32.toNat_inj]
        show g.progress.triggerCountdown.toNat = 0
        omega
      rw [tick_of_bound h.bound, tick_of_delayed_zero d g.sampleRate hstage hzero]
      exact scheduled_sound hsustain h.bound h.behind (Nat.le_of_eq heq.symm) hlater
        (onCourse_triggered d g.sampleRate g.progress) harmed
    · have hcourse := h.sounding hgt hnotPast
      rw [tick_of_bound h.bound, tick_of_sounding d g.sampleRate hcourse.sounding]
      exact scheduled_sound hsustain h.bound h.behind (Nat.le_of_lt hgt) hlater hcourse harmed

theorem Scheduled.ticked (h : Scheduled d trigger now due g)
    (hsustain : d.sustain < d.points.size) (n : Nat) :
    Scheduled d trigger (now + n) due (g.ticked n) := by
  induction n generalizing now g with
  | zero => exact h
  | succ n ih =>
      have hrest := ih (h.tick hsustain)
      rwa [Nat.add_assoc, Nat.add_comm 1 n] at hrest

end Frames

/-! ### Operations keep to the schedule -/

section Operations

variable {d : Description} {trigger now : Nat} {due : Option Nat} {g : Generator}

theorem Scheduled.setSampleRate (h : Scheduled d trigger now due g) (sampleRate : Float32) :
    Scheduled d trigger now due (g.setSampleRate sampleRate) := by
  obtain ⟨step, heq⟩ := g.setSampleRate_eq sampleRate
  rw [heq]
  refine ⟨h.bound, h.waiting, fun hlt hlater => ?_, h.falling, h.armed, h.behind⟩
  have hcourse := h.sounding hlt hlater
  exact ⟨hcourse.sounding, hcourse.segment⟩

theorem add_earlier (now : Nat) (countdown : UInt32) (pending : Option UInt32) :
    some (now + (earlier countdown pending).toNat) =
      sooner (pending.map (now + ·.toNat)) (some (now + countdown.toNat)) := by
  cases pending with
  | none => rfl
  | some pending =>
      simp only [earlier, sooner, Option.map_some, Option.merge, Option.some.injEq]
      split
      · next hlt =>
          have := UInt32.lt_iff_toNat_lt.mp hlt
          omega
      · next hle =>
          have := UInt32.le_iff_toNat_le.mp (UInt32.not_lt.mp hle)
          omega

/-- As long as frames can be scheduled behind the trigger, a release before the
trigger is moved to the frame behind it at the earliest. -/
theorem toNat_afterTrigger {countdown : UInt32} (h : countdown < maxDelay) :
    (afterTrigger countdown).toNat = countdown.toNat + 1 := by
  have hne : countdown ≠ maxDelay := UInt32.ne_of_lt h
  have hlt : countdown.toNat < 4294967295 := UInt32.lt_iff_toNat_lt.mp h
  have hone : (1 : UInt32).toNat = 1 := rfl
  rw [afterTrigger, if_neg hne, UInt32.toNat_add, hone]
  omega

theorem Scheduled.release (h : Scheduled d trigger now due g) (htrigger : trigger < maxDelay.toNat)
    (hfalling : ¬ g.progress.Falling) (ahead : UInt32) :
    Scheduled d trigger now (sooner due (some (target trigger now ahead))) (g.release ahead) := by
  have hlater : ∀ release ∈ due, now ≤ release := by
    intro release hrelease
    exact Nat.not_lt.mp fun hlt => hfalling (h.falling release hrelease hlt)
  have harmed := h.armed hlater
  have hbehind : ∀ release ∈ sooner due (some (target trigger now ahead)), trigger < release := by
    refine (forall_mem_sooner _ _ (trigger + 1)).mpr ⟨h.behind, ?_⟩
    rintro release ⟨⟩
    exact trigger_lt_target trigger now ahead
  have hlater' : ∀ release ∈ sooner due (some (target trigger now ahead)), now ≤ release := by
    refine (forall_mem_sooner _ _ now).mpr ⟨hlater, ?_⟩
    rintro release ⟨⟩
    exact le_target trigger now ahead
  obtain ⟨countdown, haim, heq⟩ : ∃ countdown : UInt32,
      now + countdown.toNat = target trigger now ahead ∧
      g.release ahead = { g with
        progress := g.progress.withRelease
          (some (earlier countdown g.progress.releaseCountdown)) } := by
    by_cases hbegun : trigger < now
    · refine ⟨ahead, ?_, release_of_sounding (h.sounding hbegun hlater).sounding ahead⟩
      rw [target, if_pos hbegun]
    · obtain ⟨hstage, hsum⟩ := h.waiting (Nat.not_lt.mp hbegun)
      have hcount : g.progress.triggerCountdown < maxDelay := by
        rw [UInt32.lt_iff_toNat_lt]
        omega
      have hafter := toNat_afterTrigger hcount
      refine ⟨_, ?_, release_of_delayed hstage ahead⟩
      rw [target, if_neg hbegun]
      split
      · next hlt =>
          have := UInt32.lt_iff_toNat_lt.mp hlt
          omega
      · next hle =>
          have := UInt32.le_iff_toNat_le.mp (UInt32.not_lt.mp hle)
          omega
  rw [heq]
  refine ⟨h.bound, h.waiting, fun hlt _ => ?_, ?_, fun _ => ?_, hbehind⟩
  · have hcourse := h.sounding hlt hlater
    exact ⟨hcourse.sounding, hcourse.segment⟩
  · intro release hrelease hlt
    exact absurd (hlater' release hrelease) (Nat.not_le.mpr hlt)
  · show some (now + (earlier countdown g.progress.releaseCountdown).toNat) = _
    rw [add_earlier, harmed, haim]

/-- The release counts if none has begun, and is not heeded otherwise. -/
theorem targets_release (trigger now : Nat) (ahead : UInt32) (rest : List Operation)
    (g : Generator) :
    targets trigger now (.release ahead :: rest) g =
      if g.progress.Falling then targets trigger now rest (g.release ahead)
      else target trigger now ahead :: targets trigger now rest (g.release ahead) := rfl

theorem falling_ticked (h : g.progress.Falling) (n : Nat) : (g.ticked n).progress.Falling := by
  induction n generalizing g with
  | zero => exact h
  | succ n ih =>
      apply ih
      rw [tick]
      split
      · exact h
      · exact h.tick _ _

theorem targets_of_falling (hfalling : g.progress.Falling) (ops : List Operation) :
    targets trigger now ops g = [] := by
  induction ops generalizing now g with
  | nil => rfl
  | cons op rest ih =>
      cases op with
      | process n =>
          refine ih ?_
          rw [process_eq]
          exact falling_ticked hfalling n
      | setSampleRate rate =>
          obtain ⟨step, heq⟩ := g.setSampleRate_eq rate
          refine ih ?_
          rw [heq]
          exact hfalling
      | release ahead =>
          rw [targets_release, if_pos hfalling, release_of_falling hfalling]
          exact ih hfalling

theorem le_of_mem_targets {ops : List Operation} {aim : Nat}
    (h : aim ∈ targets trigger now ops g) : now ≤ aim := by
  induction ops generalizing now g with
  | nil => exact absurd h List.not_mem_nil
  | cons op rest ih =>
      cases op with
      | process n => exact Nat.le_trans (Nat.le_add_right now n) (ih h)
      | setSampleRate rate => exact ih h
      | release ahead =>
          rw [targets_release] at h
          split at h
          · exact ih h
          · rcases List.mem_cons.mp h with rfl | h
            · exact le_target trigger now ahead
            · exact ih h

/-! ### Every frame of a run -/

/-- What a frame is like, produced from `g`: silent before the frame of the
trigger, sounding from there up to the frame of the release, and falling from that
one on, which is the first of the release. -/
structure OnSchedule (d : Description) (trigger : Nat) (due : Option Nat) (frame : Nat)
    (g : Generator) : Prop where
  silent : frame < trigger → g.tick.1 = 0 ∧ g.tick.2.progress.stage = .delayed
  sounding : g.tick.2.progress.Sounding ↔ trigger ≤ frame ∧ ∀ release ∈ due, frame < release
  falling : g.tick.2.progress.Falling ↔ ∃ release ∈ due, release ≤ frame
  entering : due = some frame → g.progress.Sounding ∧
    g.tick = ((g.progress.releaseFrame d g.sampleRate).1,
      { g with progress := (g.progress.releaseFrame d g.sampleRate).2 })

theorem Scheduled.onSchedule (h : Scheduled d trigger now due g)
    (hsustain : d.sustain < d.points.size) : OnSchedule d trigger due now g := by
  have hnext := h.tick hsustain
  have hfalls : (∃ release ∈ due, release ≤ now) → g.tick.2.progress.Falling := by
    rintro ⟨release, hrelease, hle⟩
    exact h.falling_tick hrelease hle
  have hsounds : trigger ≤ now → (∀ release ∈ due, now < release) → g.tick.2.progress.Sounding :=
    fun hle hlater => (hnext.sounding (Nat.lt_succ_of_le hle) hlater).sounding
  have hwaits (hlt : now < trigger) : g.tick.2.progress.stage = .delayed :=
    (hnext.waiting hlt).1
  refine ⟨fun hlt => ⟨(h.tick_of_waiting hlt).1, hwaits hlt⟩, ⟨fun hsounding => ?_, ?_⟩,
    ⟨fun hfalling => ?_, hfalls⟩, ?_⟩
  · refine ⟨Nat.not_lt.mp fun hlt => ?_, fun release hrelease => Nat.not_le.mp fun hle => ?_⟩
    · rcases hsounding with hstage | hstage <;> simp [hwaits hlt] at hstage
    · exact hsounding.not_falling (hfalls ⟨release, hrelease, hle⟩)
  · exact fun ⟨hle, hlater⟩ => hsounds hle hlater
  · -- Before the trigger it would wait, and without a release that is due it would sound.
    apply Decidable.byContradiction
    intro hnone
    have hlater : ∀ release ∈ due, now < release := by
      intro release hrelease
      exact Nat.not_le.mp fun hle => hnone ⟨release, hrelease, hle⟩
    by_cases hlt : now < trigger
    · rcases hfalling with hstage | hstage <;> simp [hwaits hlt] at hstage
    · exact (hsounds (Nat.not_lt.mp hlt) hlater).not_falling hfalling
  · rintro rfl
    exact h.tick_of_due

theorem Scheduled.exists_of_falling (h : Scheduled d trigger now due g)
    (hfalling : g.progress.Falling) : ∃ release, due = some release ∧ release < now := by
  apply Decidable.byContradiction
  intro hnone
  have hlater : ∀ release ∈ due, now ≤ release := by
    intro release hrelease
    exact Nat.not_lt.mp fun hlt => hnone ⟨release, hrelease, hlt⟩
  by_cases hbegun : trigger < now
  · exact (h.sounding hbegun hlater).sounding.not_falling hfalling
  · have hstage := (h.waiting (Nat.not_lt.mp hbegun)).1
    rcases hfalling with hstage' | hstage' <;> simp [hstage] at hstage'

/-- Releases that aim at later frames do not change what a frame is like. -/
theorem OnSchedule.of_later {frame : Nat} (h : OnSchedule d trigger due frame g)
    {aims : List Nat} (hlater : ∀ aim ∈ aims, frame < aim) :
    OnSchedule d trigger (sooner due aims.min?) frame g := by
  obtain ⟨hbefore, hequal⟩ := sooner_of_later due hlater
  have hreached (due : Option Nat) :
      (∃ release ∈ due, release ≤ frame) ↔ ¬ ∀ release ∈ due, frame < release := by
    simp
  refine ⟨h.silent, ?_, ?_, fun hentering => h.entering (hequal.mp hentering)⟩
  · rw [hbefore]
    exact h.sounding
  · rw [hreached, hbefore, ← hreached]
    exact h.falling

/-- Every frame of a run is as its number says, with the release at the earliest
frame aimed at. -/
theorem Scheduled.onSchedule_frames (h : Scheduled d trigger now due g)
    (hsustain : d.sustain < d.points.size) (htrigger : trigger < maxDelay.toNat)
    {ops : List Operation} {i : Nat} {producer : Generator}
    (hproducer : (frames ops g)[i]? = some producer) :
    OnSchedule d trigger (sooner due (targets trigger now ops g).min?) (now + i) producer := by
  induction ops generalizing now due g i with
  | nil => simp [frames] at hproducer
  | cons op rest ih =>
      cases op with
      | process n =>
          have hticked : (g.process n).2 = g.ticked n := by rw [process_eq]
          simp only [frames, Operation.frames, Operation.run, List.getElem?_append,
            length_upcoming] at hproducer
          by_cases hi : i < n
          · rw [if_pos hi, getElem?_upcoming hi] at hproducer
            obtain rfl := Option.some.inj hproducer
            refine ((h.ticked hsustain i).onSchedule hsustain).of_later fun aim haim => ?_
            have := le_of_mem_targets (show aim ∈ targets trigger (now + n) rest _ from haim)
            omega
          · rw [if_neg hi, hticked] at hproducer
            have hrest := ih (h.ticked hsustain n) hproducer
            rw [show now + n + (i - n) = now + i by omega, ← hticked] at hrest
            exact hrest
      | setSampleRate rate => exact ih (h.setSampleRate rate) hproducer
      | release ahead =>
          rw [targets_release]
          by_cases hfalling : g.progress.Falling
          · rw [if_pos hfalling]
            rw [release_of_falling hfalling]
            simp only [frames, Operation.frames, Operation.run, List.nil_append,
              release_of_falling hfalling] at hproducer
            exact ih h hproducer
          · rw [if_neg hfalling, min?_cons_eq_sooner, ← sooner_assoc]
            exact ih (h.release htrigger hfalling ahead) hproducer

/-- The releases that are not heeded would have been too late. -/
theorem Scheduled.min?_targets (h : Scheduled d trigger now due g)
    (hsustain : d.sustain < d.points.size) (htrigger : trigger < maxDelay.toNat)
    (ops : List Operation) :
    sooner due (targets trigger now ops g).min? = sooner due (allTargets trigger now ops).min? := by
  induction ops generalizing now due g with
  | nil => rfl
  | cons op rest ih =>
      cases op with
      | process n =>
          have hticked : (g.process n).2 = g.ticked n := by rw [process_eq]
          have hrest := ih (h.ticked hsustain n)
          rw [← hticked] at hrest
          exact hrest
      | setSampleRate rate => exact ih (h.setSampleRate rate)
      | release ahead =>
          have hall : allTargets trigger now (.release ahead :: rest) =
              target trigger now ahead :: allTargets trigger now rest := rfl
          by_cases hfalling : g.progress.Falling
          · obtain ⟨release, rfl, hlt⟩ := h.exists_of_falling hfalling
            have hlater : ∀ aim ∈ allTargets trigger now (.release ahead :: rest),
                release < aim := by
              intro aim haim
              exact Nat.lt_of_lt_of_le hlt (le_of_mem_allTargets haim)
            rw [targets_of_falling hfalling, (sooner_of_later (some release) hlater).2.mpr rfl]
            rfl
          · rw [targets_release, if_neg hfalling, hall, min?_cons_eq_sooner, min?_cons_eq_sooner,
              ← sooner_assoc, ← sooner_assoc]
            exact ih (h.release htrigger hfalling ahead)

end Operations

/-- The timeline of a note whose description has the point that is held. Whatever is
asked for in between, frames are silent before the frame of the trigger, the
envelope is in its attack or held from there up to the frame of the release, and
that frame is the first of the release. The frame of the release is the earliest
one aimed at before a release begins, and just as well the earliest one aimed at
at all, so that neither later releases nor changes of the sample rate move it. -/
theorem frames_on_schedule {g : Generator} {d : Description} (hbound : g.description = some d)
    (hsustain : d.sustain < d.points.size) (delay : UInt32) (hdelay : delay < maxDelay)
    (ops : List Operation) :
    let started := g.start delay
    let due := (targets delay.toNat 0 ops started).min?
    levels ops started = (frames ops started).map (·.tick.1) ∧
    due = (allTargets delay.toNat 0 ops).min? ∧
    ∀ frame producer, (frames ops started)[frame]? = some producer →
      (frame < delay.toNat → producer.tick.1 = 0) ∧
      (producer.tick.2.progress.Sounding ↔
        delay.toNat ≤ frame ∧ ∀ release ∈ due, frame < release) ∧
      (due = some frame →
        producer.progress.Sounding ∧
        (producer.tick.1, producer.tick.2.progress) =
          producer.progress.releaseFrame d producer.sampleRate ∧
        (d.points.size ≤ d.releaseStart →
          producer.tick.1 = 0 ∧ producer.tick.2.phase = .released)) := by
  intro started due
  have htrigger : delay.toNat < maxDelay.toNat := UInt32.lt_iff_toNat_lt.mp hdelay
  have hstart : Scheduled d delay.toNat 0 none started := Scheduled.start hbound delay
  have hnone (aims : List Nat) : sooner none aims.min? = aims.min? := Option.merge_none_left
  refine ⟨levels_eq_map_frames ops started, ?_, ?_⟩
  · have hsame := hstart.min?_targets hsustain htrigger ops
    rwa [hnone, hnone] at hsame
  · intro frame producer hproducer
    have honSchedule := hstart.onSchedule_frames hsustain htrigger hproducer
    rw [hnone, Nat.zero_add] at honSchedule
    refine ⟨fun hlt => (honSchedule.silent hlt).1, honSchedule.sounding, fun hentering => ?_⟩
    obtain ⟨hsounding, htick⟩ := honSchedule.entering hentering
    refine ⟨hsounding, by rw [htick], fun hempty => ?_⟩
    obtain ⟨hlevel, hdone⟩ :=
      releaseFrame_of_no_points d producer.sampleRate producer.progress hempty
    rw [htick]
    exact ⟨hlevel, by simp only [phase, hdone]⟩

/-- A release that is asked for with the trigger of frame 1 is that of frame 2. -/
theorem release_moved_behind_trigger :
    let g := (Generator.new 1000).configure default
    let ops := [.release 0, .setSampleRate 2000, .process 3]
    g.description = some default ∧
      (default : Description).sustain < (default : Description).points.size ∧
      (1 : UInt32) < maxDelay ∧
      (targets 1 0 ops (g.start 1)).min? = some 2 ∧
      ∃ silent attack release, frames ops (g.start 1) = [silent, attack, release] ∧
        silent.tick.1 = 0 ∧ attack.tick.2.progress.Sounding ∧ release.progress.Sounding ∧
        ¬ release.tick.2.progress.Sounding := by
  intro g ops
  have hbound : g.description = some default := rfl
  have hsustain : (default : Description).sustain < (default : Description).points.size := by
    decide
  have hdue : (targets 1 0 ops (g.start 1)).min? = some 2 := by decide
  obtain ⟨-, -, hframes⟩ := frames_on_schedule hbound hsustain 1 (by decide) ops
  refine ⟨hbound, hsustain, by decide, hdue, _, _, _, rfl, ?_, ?_, ?_, ?_⟩
  · exact (hframes 0 _ rfl).1 (by decide)
  · exact (hframes 1 _ rfl).2.1.mpr ⟨Nat.le_refl 1, by rintro release ⟨⟩; decide⟩
  · exact ((hframes 2 _ rfl).2.2 hdue).1
  · intro hsounding
    exact Nat.lt_irrefl 2 (((hframes 2 _ rfl).2.1.mp hsounding).2 2 hdue)

end PolySampler.Envelope.Generator
