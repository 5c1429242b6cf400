import PolySampler.Proofs.Synth.Controllers
import PolySampler.Proofs.Synth.Reachable
import PolySampler.Proofs.Synth.Schedule

/-!
What is in force after a block, and where the controllers stand. Calls move the
controllers at once, and what is in force follows frame by frame. If the changes of a
block find room in the queue, both stand at the same values when the block is over.

Of the calls of a longer list, the last changes find no room. They take effect before
those that wait, although they were asked for after them, and the values that waited
are in force in the end. So the two come apart exactly where the last change of a kind
that found no room differs from the last one that waited.
-/

namespace PolySampler.Synth

open Signal Midi

/-- Of the values that the controllers stand at, those that the sound depends on. -/
def Controllers.performance (c : Controllers) : Performance where
  volume := c.value volumeController
  expression := c.value expressionController
  pitchBend := c.pitchBend

/-- What is in force is what the controllers stand at. -/
structure InStep (s : Synth) : Prop where
  volume : s.performance.volume = s.controllers.value volumeController
  expression : s.performance.expression = s.controllers.value expressionController
  pitchBend : s.performance.pitchBend = s.controllers.pitchBend

theorem InStep.performance_eq {s : Synth} (h : s.InStep) :
    s.performance = s.controllers.performance := by
  rw [Controllers.performance, ← h.volume, ← h.expression, ← h.pitchBend]

theorem inStep_new {memory : Memory} {settings : Settings} {s : Synth}
    (h : Synth.new memory settings = .ok s) : s.InStep := by
  obtain ⟨scratch, -, -, rfl⟩ := new_eq_ok h
  exact ⟨rfl, rfl, rfl⟩

theorem pending_new {memory : Memory} {settings : Settings} {s : Synth}
    (h : Synth.new memory settings = .ok s) : s.pending = [] := by
  obtain ⟨scratch, -, -, rfl⟩ := new_eq_ok h
  rfl

/-! ### The controllers -/

/-- A call moves the controllers to where the changes lead that it schedules. -/
theorem performance_controllers_perform (call : Call) (s : Synth) :
    (call.perform s).controllers.performance =
      s.controllers.performance.applyAll ((scheduled call).map (·.2)) := by
  cases call with
  | noteOn delay key velocity =>
      show (noteOn delay key velocity s).controllers.performance = s.controllers.performance
      rw [controllers_noteOn]
  | noteOff delay key velocity => rfl
  | polyAftertouch delay key value => rfl
  | channelAftertouch delay value => rfl
  | pitchWheel delay value =>
      show (pitchWheel delay value s).controllers.performance =
        s.controllers.performance.apply (.pitchBend value)
      rw [pitchWheel, controllers_schedule]
      rfl
  | controlChange delay controller value =>
      show (controlChange delay controller value s).controllers.performance = _
      rw [controllers_controlChange]
      by_cases hreset : controller &&& 0x7F = resetControllers
      · rw [if_pos hreset, scheduled]
        simp only [hreset]
        rfl
      · rw [if_neg hreset, Controllers.performance,
          s.controllers.value_setValue controller value (by decide),
          s.controllers.value_setValue controller value (by decide), scheduled]
        simp only [if_neg hreset]
        by_cases hvolume : controller &&& 0x7F = volumeController
        · simp only [hvolume]
          rfl
        · by_cases hexpression : controller &&& 0x7F = expressionController
          · simp only [hexpression]
            rfl
          · simp only [if_neg hvolume, if_neg hexpression]
            rfl

theorem performance_controllers_performAll (calls : List Call) (s : Synth) :
    (performAll calls s).controllers.performance =
      s.controllers.performance.applyAll ((calls.flatMap scheduled).map (·.2)) := by
  induction calls generalizing s with
  | nil => rfl
  | cons call calls ih =>
      rw [List.flatMap_cons, List.map_append, applyAll_append,
        ← performance_controllers_perform call s]
      exact ih (call.perform s)

/-! ### The queue, when changes come in the order of their frames -/

theorem insertPending_of_forall_le {delay : UInt32} {pending : List Pending}
    (h : ∀ p ∈ pending, p.1 ≤ delay) (change : Change) :
    insertPending delay change pending = pending ++ [(delay, change)] := by
  induction pending with
  | nil => rfl
  | cons p rest ih =>
      obtain ⟨due, other⟩ := p
      rw [insertPending, if_pos (h _ List.mem_cons_self),
        ih fun p hp => h p (List.mem_cons_of_mem _ hp), List.cons_append]

/-- What has found no room so far has taken effect, and what has waits. -/
structure Filled (s : Synth) (changes : List Pending) (t : Synth) : Prop where
  pending : t.pending = s.pending ++ changes.take (maxPending - s.pending.length)
  performance : t.performance =
    s.performance.applyAll ((changes.drop (maxPending - s.pending.length)).map (·.2))

theorem Filled.trans {s t u : Synth} {changes more : List Pending} (h : Filled s changes t)
    (h' : Filled t more u) : Filled s (changes ++ more) u := by
  have hroom : maxPending - t.pending.length =
      maxPending - s.pending.length - changes.length := by
    rw [h.pending, List.length_append, List.length_take]
    omega
  obtain ⟨hpending, hperformance⟩ := h'
  rw [hroom] at hpending hperformance
  constructor
  · rw [hpending, h.pending, List.append_assoc, List.take_append]
  · rw [hperformance, h.performance, List.drop_append, List.map_append, applyAll_append]

theorem filled_schedule {s : Synth} {delay : UInt32} (h : ∀ p ∈ s.pending, p.1 ≤ delay)
    (change : Change) : Filled s [(delay, change)] (s.schedule delay change) := by
  rw [schedule]
  split
  · next hroom =>
      have hone : [(delay, change)].length ≤ maxPending - s.pending.length := by
        rw [List.length_singleton]
        omega
      constructor
      · rw [List.take_of_length_le hone]
        exact insertPending_of_forall_le h change
      · rw [List.drop_eq_nil_of_le hone]
        rfl
  · next hfull =>
      have hroom : maxPending - s.pending.length = 0 := by omega
      constructor
      · rw [hroom]
        exact (List.append_nil _).symm
      · rw [hroom]
        rfl

theorem filled_scheduleAll {s : Synth} {changes : List Pending}
    (h : (s.pending ++ changes).Pairwise fun a b => a.1 ≤ b.1) :
    Filled s changes (s.scheduleAll changes) := by
  induction changes generalizing s with
  | nil => exact ⟨by rw [List.take_nil, List.append_nil]; rfl, by rw [List.drop_nil]; rfl⟩
  | cons change changes ih =>
      obtain ⟨-, -, hle⟩ := List.pairwise_append.mp h
      have hfirst : Filled s [change] (s.schedule change.1 change.2) :=
        filled_schedule (fun p hp => hle p hp change List.mem_cons_self) change.2
      refine hfirst.trans (ih (h.sublist ?_))
      rw [hfirst.pending, List.append_assoc, ← List.singleton_append]
      exact ((List.take_sublist _ _).append_right changes).append_left s.pending

theorem filled_performAll {s : Synth} {calls : List Call}
    (h : (s.pending ++ calls.flatMap scheduled).Pairwise fun a b => a.1 ≤ b.1) :
    Filled s (calls.flatMap scheduled) (performAll calls s) := by
  induction calls generalizing s with
  | nil => exact filled_scheduleAll h
  | cons call calls ih =>
      rw [List.flatMap_cons] at h ⊢
      obtain ⟨voices, controllers, -, hperform⟩ := perform_eq call s
      have hcall : Filled s (scheduled call) (call.perform s) := by
        have hfilled : Filled { s with voices, controllers } (scheduled call)
            (scheduleAll (scheduled call) { s with voices, controllers }) :=
          filled_scheduleAll
            (h.sublist ((List.sublist_append_left _ _).append_left s.pending))
        rw [hperform]
        exact ⟨hfilled.pending, hfilled.performance⟩
      refine hcall.trans (ih (h.sublist ?_))
      rw [hcall.pending, List.append_assoc]
      exact ((List.take_sublist _ _).append_right _).append_left s.pending

/-- Calls in the order of their frames schedule changes in the order of theirs. -/
theorem sorted_scheduled {calls : List Call}
    (h : calls.Pairwise fun a b => a.delay ≤ b.delay) :
    (calls.flatMap scheduled).Pairwise fun a b => a.1 ≤ b.1 := by
  refine List.pairwise_flatMap.mpr ⟨fun call _ => ?_, h.imp fun {first second} hle => ?_⟩
  · refine List.pairwise_of_forall_mem_list fun a ha b hb => ?_
    rw [delay_of_mem_scheduled ha, delay_of_mem_scheduled hb]
    exact UInt32.le_refl _
  · intro a ha b hb
    rwa [delay_of_mem_scheduled ha, delay_of_mem_scheduled hb]

/-! ### After the block -/

namespace Aspect

variable {α : Type} (aspect : Aspect α)

def last? (changes : List Pending) : Option α :=
  (changes.filterMap fun change => aspect.read change.2).getLast?

theorem last?_append (changes more : List Pending) :
    aspect.last? (changes ++ more) = (aspect.last? more).or (aspect.last? changes) := by
  rw [last?, List.filterMap_append, List.getLast?_append]
  rfl

theorem value_applyAll (changes : List Pending) (p : Performance) :
    aspect.value (p.applyAll (changes.map (·.2))) =
      (aspect.last? changes).getD (aspect.value p) := by
  induction changes generalizing p with
  | nil => rfl
  | cons change changes ih =>
      have hfirst : aspect.last? [change] = aspect.read change.2 := by
        rw [last?, List.filterMap_cons]
        split
        · next hread => rw [hread]; rfl
        · next hread => rw [hread]; rfl
      rw [← List.singleton_append, last?_append, hfirst]
      show aspect.value ((p.apply change.2).applyAll (changes.map (·.2))) = _
      rw [ih, aspect.value_apply, Option.getD_or]

/-- The last change that finds no room differs from the last that waits, which takes
effect after it. -/
def Overtaken (changes : List Pending) : Prop :=
  ∃ waiting late, aspect.last? (changes.take maxPending) = some waiting ∧
    aspect.last? (changes.drop maxPending) = some late ∧ waiting ≠ late

theorem not_overtaken_of_length_le {changes : List Pending} (h : changes.length ≤ maxPending) :
    ¬ aspect.Overtaken changes := by
  rintro ⟨waiting, late, -, hlate, -⟩
  rw [List.drop_eq_nil_of_le h] at hlate
  cases hlate

/-- Whether the value in force is in the end that of the controllers. -/
theorem value_renderBlock_eq_iff {s : Synth} (hpending : s.pending = []) (hstep : s.InStep)
    {calls : List Call} (hsorted : calls.Pairwise fun a b => a.delay ≤ b.delay)
    (outputs : List (Array Float32)) :
    aspect.value ((performAll calls s).renderBlock outputs).1.performance =
        aspect.value ((performAll calls s).renderBlock outputs).1.controllers.performance ↔
      ¬ aspect.Overtaken (calls.flatMap scheduled) := by
  have hfilled : Filled s (calls.flatMap scheduled) (performAll calls s) :=
    filled_performAll (by
      rw [hpending]
      exact sorted_scheduled hsorted)
  obtain ⟨hwaiting, hlate⟩ := hfilled
  rw [hpending, List.length_nil, Nat.sub_zero, List.nil_append] at hwaiting
  rw [hpending, List.length_nil, Nat.sub_zero] at hlate
  rw [controllers_renderBlock, performance_controllers_performAll, renderBlock_fst,
    performance_applyRest_afterChunks, applyRest, hwaiting, hlate, hstep.performance_eq]
  simp only [value_applyAll]
  -- The controllers take the changes in the order in which they were asked for.
  rw [← List.take_append_drop maxPending (calls.flatMap scheduled), last?_append,
    List.take_append_drop, Overtaken]
  cases aspect.last? ((calls.flatMap scheduled).take maxPending) with
  | none => simp
  | some waiting =>
      cases aspect.last? ((calls.flatMap scheduled).drop maxPending) with
      | none => simp
      | some late => simp

end Aspect

/-- If what is in force is what the controllers stand at, then so it is after any calls
in the order of their frames and a block, unless a change of some kind found no room and
one that waited undid it. With room for all changes nothing is undone. -/
theorem inStep_renderBlock_performAll_iff {s : Synth} (hpending : s.pending = [])
    (hstep : s.InStep) {calls : List Call}
    (hsorted : calls.Pairwise fun a b => a.delay ≤ b.delay)
    (outputs : List (Array Float32)) :
    let changes := calls.flatMap scheduled
    let t := ((performAll calls s).renderBlock outputs).1
    (t.InStep ↔ ¬ Aspect.volume.Overtaken changes ∧ ¬ Aspect.expression.Overtaken changes ∧
      ¬ Aspect.pitchBend.Overtaken changes) ∧
    (changes.length ≤ maxPending → t.InStep) := by
  intro changes t
  have hiff {α : Type} (aspect : Aspect α) : aspect.value t.performance =
      aspect.value t.controllers.performance ↔ ¬ aspect.Overtaken changes :=
    aspect.value_renderBlock_eq_iff hpending hstep hsorted outputs
  have hagree : t.InStep ↔ ¬ Aspect.volume.Overtaken changes ∧
      ¬ Aspect.expression.Overtaken changes ∧ ¬ Aspect.pitchBend.Overtaken changes := by
    rw [← hiff, ← hiff, ← hiff]
    constructor
    · exact fun h => ⟨h.volume, h.expression, h.pitchBend⟩
    · exact fun ⟨hvolume, hexpression, hbend⟩ => ⟨hvolume, hexpression, hbend⟩
  refine ⟨hagree, fun hroom => hagree.mpr ?_⟩
  exact ⟨Aspect.volume.not_overtaken_of_length_le hroom,
    Aspect.expression.not_overtaken_of_length_le hroom,
    Aspect.pitchBend.not_overtaken_of_length_le hroom⟩

/-- A volume, a reset and a bend that is due behind the block. -/
theorem inStep_after_reset :
    ∃ s, Synth.new .machine { numVoices := 2 } = .ok s ∧ s.pending = [] ∧ s.InStep ∧
      let calls : List Call := [.controlChange 0 7 100, .controlChange 1 121 0,
        .pitchWheel 9 4096]
      (calls.Pairwise fun a b => a.delay ≤ b.delay) ∧
      ((performAll calls s).renderBlock [Array.replicate 4 0]).1.InStep := by
  obtain ⟨s, hnew⟩ := exists_duet
  have hstep := inStep_new hnew
  have hpending := pending_new hnew
  have hsorted : ([.controlChange 0 7 100, .controlChange 1 121 0,
      .pitchWheel 9 4096] : List Call).Pairwise fun a b => a.delay ≤ b.delay := by
    decide
  exact ⟨s, hnew, hpending, hstep, hsorted,
    (inStep_renderBlock_performAll_iff hpending hstep hsorted _).2 (by decide)⟩

/-- As many volumes as there is room for, the last of them 127, and then silence: the
controller stands at 0, and 127 is in force. -/
theorem volume_not_inStep_after_overflow :
    ∃ s, Synth.new .machine { numVoices := 2 } = .ok s ∧ Reachable s ∧ s.pending = [] ∧
      s.InStep ∧
      let calls := (List.range maxPending).map (fun i =>
        Call.controlChange 0 7 (UInt8.ofNat (i % 128))) ++ [.controlChange 0 7 0]
      (calls.Pairwise fun a b => a.delay ≤ b.delay) ∧
      ¬ ((performAll calls s).renderBlock [Array.replicate 2 0]).1.InStep := by
  obtain ⟨s, hnew⟩ := exists_duet
  have hstep := inStep_new hnew
  have hpending := pending_new hnew
  refine ⟨s, hnew, .new hnew, hpending, hstep, ?_⟩
  intro calls
  have hsorted : calls.Pairwise fun a b => a.delay ≤ b.delay := by
    have hdelay : ∀ call ∈ calls, call.delay = 0 := by
      intro call hcall
      rcases List.mem_append.mp hcall with hcall | hcall
      · obtain ⟨i, -, rfl⟩ := List.mem_map.mp hcall
        rfl
      · rw [List.mem_singleton.mp hcall]
        rfl
    refine List.pairwise_of_forall_mem_list fun a ha b hb => ?_
    rw [hdelay a ha, hdelay b hb]
    exact UInt32.le_refl 0
  refine ⟨hsorted, fun hagree => ?_⟩
  refine (Aspect.volume.value_renderBlock_eq_iff hpending hstep hsorted _).mp hagree.volume ?_
  let waiting : Nat → Pending := fun i => (0, .volume (UInt8.ofNat (i % 128)))
  have hchanges : calls.flatMap scheduled =
      (List.range maxPending).map waiting ++ [(0, .volume 0)] := by
    rw [List.flatMap_append, List.flatMap_map, List.map_eq_flatMap]
    rfl
  have hlength : ((List.range maxPending).map waiting).length = maxPending := by
    rw [List.length_map, List.length_range]
  refine ⟨127, 0, ?_, ?_, by decide⟩
  · rw [hchanges, List.take_left' hlength]
    show Aspect.volume.last? ((List.range (511 + 1)).map waiting) = some 127
    rw [List.range_succ, List.map_append, Aspect.last?_append]
    rfl
  · rw [hchanges, List.drop_left' hlength]
    rfl

end PolySampler.Synth
