import PolySampler.Synth.Events

/-!
What the calls of a block do to the synth. Of the synth a call moves the
controllers, the changes that wait and the voices, and nothing else. What it
schedules is read off the call alone, and so is what it can do to a voice.
-/

namespace PolySampler

namespace Midi.Call

def delay : Call → UInt32
  | .noteOn delay _ _ | .noteOff delay _ _ | .polyAftertouch delay _ _
  | .channelAftertouch delay _ | .controlChange delay _ _ | .pitchWheel delay _ => delay

/-- The call asks for silence at once, whatever its frame. -/
def silencesAll : Call → Bool
  | .controlChange _ controller _ => controller &&& 0x7F = Synth.allSoundOff
  | _ => false

end Midi.Call

namespace Synth

open Midi

def performAll (calls : List Call) (s : Synth) : Synth :=
  calls.foldl (fun s call => call.perform s) s

def scheduled : Call → List Pending
  | .controlChange delay controller value =>
    let controller := controller &&& 0x7F
    if controller = volumeController then [(delay, .volume value)]
    else if controller = expressionController then [(delay, .expression value)]
    else if controller = resetControllers then
      [(delay, .volume 127), (delay, .expression 127), (delay, .pitchBend 0)]
    else []
  | .pitchWheel delay value => [(delay, .pitchBend value)]
  | .noteOn .. | .noteOff .. | .polyAftertouch .. | .channelAftertouch .. => []

def insertAll (changes pending : List Pending) : List Pending :=
  changes.foldl (fun pending change => insertPending change.1 change.2 pending) pending

theorem insertAll_append (changes more pending : List Pending) :
    insertAll (changes ++ more) pending = insertAll more (insertAll changes pending) :=
  List.foldl_append

@[simp] theorem length_insertAll (changes pending : List Pending) :
    (insertAll changes pending).length = pending.length + changes.length := by
  induction changes generalizing pending with
  | nil => rfl
  | cons change changes ih =>
      rw [insertAll, List.foldl_cons]
      have := ih (insertPending change.1 change.2 pending)
      rw [insertAll, length_insertPending] at this
      rw [this, List.length_cons]
      omega

theorem delay_of_mem_scheduled {call : Call} {change : Pending} (h : change ∈ scheduled call) :
    change.1 = call.delay := by
  cases call with
  | controlChange delay controller value =>
      simp only [scheduled] at h
      split at h
      · rw [List.mem_singleton.mp h]; rfl
      · split at h
        · rw [List.mem_singleton.mp h]; rfl
        · split at h
          · simp only [List.mem_cons, List.not_mem_nil, or_false] at h
            rcases h with rfl | rfl | rfl <;> rfl
          · exact absurd h List.not_mem_nil
  | pitchWheel delay value => rw [List.mem_singleton.mp h]; rfl
  | noteOn delay key velocity => exact absurd h List.not_mem_nil
  | noteOff delay key velocity => exact absurd h List.not_mem_nil
  | polyAftertouch delay key value => exact absurd h List.not_mem_nil
  | channelAftertouch delay value => exact absurd h List.not_mem_nil

/-! ### Scheduling -/

/-- Everything but the voices, the controllers and the changes is the same. -/
structure SameRig (s t : Synth) : Prop where
  settings : s.settings = t.settings
  masterGain : s.masterGain = t.masterGain
  instrument : s.instrument = t.instrument
  scratch : s.scratch = t.scratch
  frameCounter : s.frameCounter = t.frameCounter

theorem SameRig.refl (s : Synth) : SameRig s s := ⟨rfl, rfl, rfl, rfl, rfl⟩

theorem SameRig.trans {s t u : Synth} (h : SameRig s t) (h' : SameRig t u) : SameRig s u :=
  ⟨h.settings.trans h'.settings, h.masterGain.trans h'.masterGain,
    h.instrument.trans h'.instrument, h.scratch.trans h'.scratch,
    h.frameCounter.trans h'.frameCounter⟩

def scheduleAll (changes : List Pending) (s : Synth) : Synth :=
  changes.foldl (fun s change => s.schedule change.1 change.2) s

theorem sameRig_schedule (s : Synth) (delay : UInt32) (change : Change) :
    SameRig (s.schedule delay change) s ∧ (s.schedule delay change).voices = s.voices := by
  rw [schedule]
  split <;> exact ⟨⟨rfl, rfl, rfl, rfl, rfl⟩, rfl⟩

/-- Scheduling does not reach the voices, nor anything else that is not a
change. -/
theorem sameRig_scheduleAll (changes : List Pending) (s : Synth) :
    SameRig (s.scheduleAll changes) s ∧ (s.scheduleAll changes).voices = s.voices := by
  induction changes generalizing s with
  | nil => exact ⟨.refl s, rfl⟩
  | cons change changes ih =>
      obtain ⟨hrig, hvoices⟩ := ih (s.schedule change.1 change.2)
      obtain ⟨hrig', hvoices'⟩ := s.sameRig_schedule change.1 change.2
      exact ⟨hrig.trans hrig', hvoices.trans hvoices'⟩

/-- As long as there is room, all that is scheduled waits for its frame. -/
theorem scheduleAll_of_le {changes : List Pending} {s : Synth}
    (h : s.pending.length + changes.length ≤ maxPending) :
    s.scheduleAll changes = { s with pending := insertAll changes s.pending } := by
  induction changes generalizing s with
  | nil => rfl
  | cons change changes ih =>
      rw [List.length_cons] at h
      have hroom : s.schedule change.1 change.2 =
          { s with pending := insertPending change.1 change.2 s.pending } := by
        rw [schedule, if_pos (by omega)]
      have hrest := ih (s := s.schedule change.1 change.2) (by
        rw [hroom, length_insertPending]
        omega)
      rw [scheduleAll, List.foldl_cons]
      rw [scheduleAll] at hrest
      rw [hrest, hroom]
      rfl

/-! ### What a call does to the voices -/

/-- What becomes of a voice when a key comes up or a controller moves. -/
inductive Touched (call : Call) (v : Voice) : Voice → Prop where
  | kept : Touched call v v
  | held : Touched call v v.hold
  | released : Touched call v (v.release call.delay)
  | silenced (h : call.silencesAll) : Touched call v v.free

/-- What becomes of the pool: a key that goes down starts its regions one after
the other, and all other calls go through the voices. -/
inductive Moved (s : Synth) : Call → List Voice → Prop where
  | touched {call : Call} (f : Voice → Voice) (h : ∀ v, Touched call v (f v)) :
      Moved s call (s.voices.map f)
  | started {instrument : Instrument} (h : s.instrument = some instrument) (delay : UInt32)
      (key velocity : UInt8) :
      Moved s (.noteOn delay key velocity)
        ((instrument.regionsFor key velocity).foldl
          (startRegion instrument.regions key velocity delay (s.frameCounter + delay.toNat))
          s.voices)

theorem Moved.kept (s : Synth) (call : Call) : Moved s call s.voices := by
  have h := Moved.touched (s := s) id fun v => (.kept : Touched call v v)
  rwa [List.map_id] at h

/-- Touching the voices that satisfy a condition touches all of them. -/
theorem Moved.of_updateVoices {s : Synth} {call : Call} (p : Voice → Bool) {f : Voice → Voice}
    (h : ∀ v, Touched call v (f v)) : Moved s call (s.updateVoices p f).voices := by
  refine .touched (fun v => if p v then f v else v) fun v => ?_
  split
  · exact h v
  · exact .kept

theorem perform_controlChange (delay : UInt32) (controller value : UInt8) (s : Synth) :
    ∃ voices controllers, Moved s (.controlChange delay controller value) voices ∧
      controlChange delay controller value s =
        scheduleAll (scheduled (.controlChange delay controller value))
          { s with voices, controllers } := by
  simp only [controlChange, scheduled]
  by_cases hvolume : controller &&& 0x7F = volumeController
  · simp only [if_pos hvolume]
    exact ⟨_, _, .kept s _, rfl⟩
  simp only [if_neg hvolume]
  by_cases hexpression : controller &&& 0x7F = expressionController
  · simp only [if_pos hexpression]
    exact ⟨_, _, .kept s _, rfl⟩
  simp only [if_neg hexpression]
  -- The pedal and silence schedule nothing, for neither has the number of the reset.
  by_cases hsustain : controller &&& 0x7F = sustainController
  · have hreset : controller &&& 0x7F ≠ resetControllers := by
      rw [hsustain]
      decide
    simp only [if_pos hsustain, if_neg hreset]
    by_cases hup : value < 64
    · simp only [if_pos hup]
      exact ⟨_, _, .of_updateVoices Voice.sustained fun _ => .released, rfl⟩
    · simp only [if_neg hup]
      exact ⟨_, _, .kept s _, rfl⟩
  simp only [if_neg hsustain]
  by_cases hsilence : controller &&& 0x7F = allSoundOff
  · have hreset : controller &&& 0x7F ≠ resetControllers := by
      rw [hsilence]
      decide
    simp only [if_pos hsilence, if_neg hreset]
    exact ⟨_, _, .of_updateVoices (fun _ => true) fun _ =>
      .silenced (by simpa [Call.silencesAll] using hsilence), rfl⟩
  simp only [if_neg hsilence]
  by_cases hreset : controller &&& 0x7F = resetControllers
  · simp only [if_pos hreset, reset]
    by_cases hpedal : (s.controllers.setValue (controller &&& 0x7F) value).sustainDown
    · simp only [if_pos hpedal]
      exact ⟨_, _, .of_updateVoices Voice.sustained fun _ => .released, rfl⟩
    · simp only [if_neg hpedal]
      exact ⟨_, _, .kept s _, rfl⟩
  simp only [if_neg hreset]
  by_cases hnotes : controller &&& 0x7F = allNotesOff
  · simp only [if_pos hnotes]
    exact ⟨_, _, .of_updateVoices (fun _ => true) fun _ => .released, rfl⟩
  · simp only [if_neg hnotes]
    exact ⟨_, _, .kept s _, rfl⟩

/-- A call moves the voices and the controllers, and then schedules the changes
it asks for. -/
theorem perform_eq (call : Call) (s : Synth) :
    ∃ voices controllers, Moved s call voices ∧
      call.perform s = scheduleAll (scheduled call) { s with voices, controllers } := by
  cases call with
  | noteOn delay key velocity =>
      have hperform : (Call.noteOn delay key velocity).perform s = noteOn delay key velocity s :=
        rfl
      rw [hperform]
      rcases Option.eq_none_or_eq_some s.instrument with hnone | ⟨instrument, hsome⟩
      · have hkept : noteOn delay key velocity s = s := by simp only [noteOn, hnone]
        exact ⟨s.voices, s.controllers, .kept s _, hkept⟩
      · refine ⟨_, s.controllers, .started hsome delay key velocity, ?_⟩
        simp only [noteOn, hsome]
        rfl
  | noteOff delay key velocity =>
      refine ⟨_, s.controllers, .of_updateVoices
        (fun v => v.state = .active && v.note = key)
        (f := fun v => if s.controllers.sustainDown then v.hold else v.release delay) ?_, rfl⟩
      intro v
      split
      · exact .held
      · exact .released
  | polyAftertouch delay key value => exact ⟨_, _, .kept s _, rfl⟩
  | channelAftertouch delay value => exact ⟨_, _, .kept s _, rfl⟩
  | pitchWheel delay value => exact ⟨_, _, .kept s _, rfl⟩
  | controlChange delay controller value => exact perform_controlChange delay controller value s

theorem sameRig_perform (call : Call) (s : Synth) : SameRig (call.perform s) s := by
  obtain ⟨voices, controllers, -, heq⟩ := perform_eq call s
  rw [heq]
  obtain ⟨hrig, -⟩ := sameRig_scheduleAll (scheduled call) { s with voices, controllers }
  exact hrig.trans ⟨rfl, rfl, rfl, rfl, rfl⟩

theorem moved_perform (call : Call) (s : Synth) : Moved s call (call.perform s).voices := by
  obtain ⟨voices, controllers, hmoved, heq⟩ := perform_eq call s
  rw [heq, (sameRig_scheduleAll _ _).2]
  exact hmoved

theorem pending_perform (call : Call) {s : Synth}
    (h : s.pending.length + (scheduled call).length ≤ maxPending) :
    (call.perform s).performance = s.performance ∧
      (call.perform s).pending = insertAll (scheduled call) s.pending := by
  obtain ⟨voices, controllers, -, heq⟩ := perform_eq call s
  have hall := scheduleAll_of_le (s := { s with voices, controllers }) h
  rw [heq, hall]
  exact ⟨rfl, rfl⟩

/-! ### Lists of calls -/

theorem pending_performAll (calls : List Call) {s : Synth}
    (h : s.pending.length + (calls.flatMap scheduled).length ≤ maxPending) :
    (performAll calls s).performance = s.performance ∧
      (performAll calls s).pending = insertAll (calls.flatMap scheduled) s.pending := by
  induction calls generalizing s with
  | nil => exact ⟨rfl, rfl⟩
  | cons call calls ih =>
      rw [List.flatMap_cons, List.length_append] at h
      obtain ⟨hperformance, hpending⟩ := pending_perform call (s := s) (by omega)
      obtain ⟨hperformance', hpending'⟩ := ih (s := call.perform s) (by
        rw [hpending, length_insertAll]
        omega)
      rw [List.flatMap_cons, insertAll_append, ← hpending]
      exact ⟨hperformance'.trans hperformance, hpending'⟩

/-! ### Starting regions -/

theorem allocate?_of_free {voices : List Voice} (h : 0 < voices.countP Voice.isFree) :
    ∃ slot v, allocate? voices = some slot ∧ voices[slot]? = some v ∧ v.isFree := by
  obtain ⟨free, hmem, hfree⟩ := List.countP_pos_iff.mp h
  cases hfind : voices.findIdx? Voice.isFree with
  | none => exact absurd hfree (by simp [List.findIdx?_eq_none_iff.mp hfind free hmem])
  | some slot =>
      obtain ⟨hlt, hslot, -⟩ := List.findIdx?_eq_some_iff_getElem.mp hfind
      exact ⟨slot, voices[slot], by simp only [allocate?, hfind], List.getElem?_eq_getElem hlt,
        hslot⟩

theorem startRegion_cases (regions : Array Region) (key velocity : UInt8) (delay : UInt32)
    (age : Nat) (voices : List Voice) (index : Nat) :
    startRegion regions key velocity delay age voices index = voices ∨
      ∃ before v behind region, voices = before ++ v :: behind ∧
        (0 < voices.countP Voice.isFree → v.isFree) ∧
        startRegion regions key velocity delay age voices index =
          before ++ v.start index region key velocity delay age :: behind := by
  rw [startRegion]
  split
  · next region slot hregion hslot =>
      by_cases hlt : slot < voices.length
      · obtain ⟨before, v, behind, hvoices, hbefore, hmodify⟩ :=
          List.exists_of_modify
            (fun v : Voice => v.start index region key velocity delay age) hlt
        refine .inr ⟨before, v, behind, region, hvoices, ?_, hmodify⟩
        intro hfree
        obtain ⟨slot', v', hslot', hv', hfree'⟩ := allocate?_of_free hfree
        obtain rfl : slot = slot' := Option.some.inj (hslot.symm.trans hslot')
        have hv : voices[slot]? = some v := by
          rw [hvoices, ← hbefore]
          simp
        rwa [Option.some.inj (hv.symm.trans hv')]
      · exact .inl (List.modify_eq_self (Nat.not_lt.mp hlt))
  · exact .inl rfl

theorem mem_startRegion {regions : Array Region} {key velocity : UInt8} {delay : UInt32}
    {age : Nat} {voices : List Voice} {index : Nat} {w : Voice}
    (hw : w ∈ startRegion regions key velocity delay age voices index) :
    w ∈ voices ∨ ∃ v ∈ voices, ∃ region, regions[index]? = some region ∧
      w = v.start index region key velocity delay age := by
  rw [startRegion] at hw
  split at hw
  · next region slot hregion _ =>
      obtain ⟨i, hi⟩ := List.getElem?_of_mem hw
      rw [List.getElem?_modify] at hi
      obtain ⟨v, hv, rfl⟩ := Option.map_eq_some_iff.mp hi
      have hmem := List.mem_of_getElem? hv
      split
      · exact .inr ⟨v, hmem, region, hregion, rfl⟩
      · exact .inl hmem
  · exact .inl hw

end Synth

end PolySampler
