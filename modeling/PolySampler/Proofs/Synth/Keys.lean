import PolySampler.Proofs.Synth.Controllers
import PolySampler.Proofs.Synth.Voices

/-!
Keys and the sustain pedal. Which keys are down is a matter of the past: a key is
up once it has come up since its note began. No voice remembers that; what it
remembers is whether the pedal holds it. The two are tied together here for all
runs: an active voice that the pedal does not hold is one whose key is still down,
and without the pedal there is no other, so that no note sounds on after its key
came up.
-/

namespace PolySampler.Synth

open Signal Midi

/-! ### Runs and what happened since a note began -/

/-- The synth after a run, which is listed from its last request back. -/
def afterRun (s : Synth) : List Request → Synth
  | [] => s
  | request :: earlier => request.run (s.afterRun earlier)

theorem Reachable.afterRun {s : Synth} (h : Reachable s) (run : List Request) :
    Reachable (s.afterRun run) := by
  induction run with
  | nil => exact h
  | cons request earlier ih => exact ih.run request

/-- The slot of the pool in which a region starts, if it does. -/
def slotFor? (regions : Array Region) (voices : List Voice) (index : Nat) : Option Nat :=
  match regions[index]?, allocate? voices with
  | some _, some slot => some slot
  | _, _ => none

def startsIn (regions : Array Region) (key velocity : UInt8) (delay : UInt32) (age slot : Nat) :
    List Nat → List Voice → Bool
  | [], _ => false
  | index :: indices, voices =>
    slotFor? regions voices index = some slot ||
      startsIn regions key velocity delay age slot indices
        (startRegion regions key velocity delay age voices index)

/-- The key of the note that a request starts in the slot, if it does. -/
def Request.startedKey? (s : Synth) (slot : Nat) : Request → Option UInt8
  | .perform (.noteOn delay key velocity) =>
    match s.instrument with
    | none => none
    | some instrument =>
      if startsIn instrument.regions key velocity delay (s.frameCounter + delay.toNat) slot
        (instrument.regionsFor key velocity) s.voices then some key
      else none
  | _ => none

/-- The key of the note started last in the slot, and what has been asked for since
then; nothing if no note has been started there. -/
def sinceStart (s : Synth) (slot : Nat) : List Request → Option (UInt8 × List Request)
  | [] => none
  | request :: earlier =>
    match request.startedKey? (s.afterRun earlier) slot with
    | some key => some (key, [])
    | none => (sinceStart s slot earlier).map fun (key, since) => (key, request :: since)

/-- The request is the coming up of the key. -/
def Request.Lifts (key : UInt8) (request : Request) : Prop :=
  ∃ delay velocity, request = .perform (.noteOff delay key velocity)

/-- The key has come up in a stretch of a run. -/
def CameUp (key : UInt8) (since : List Request) : Prop :=
  ∃ request ∈ since, request.Lifts key

theorem cameUp_cons (key : UInt8) (request : Request) (since : List Request) :
    CameUp key (request :: since) ↔ request.Lifts key ∨ CameUp key since := by
  simp [CameUp]

/-! ### What a request does to a slot -/

/-- The two have the same key, in the same state and held or not alike. -/
structure SameKey (v w : Voice) : Prop where
  state : v.state = w.state
  note : v.note = w.note
  sustained : v.sustained = w.sustained

theorem SameKey.refl (v : Voice) : SameKey v v :=
  ⟨rfl, rfl, rfl⟩

theorem SameKey.trans {u v w : Voice} (h : SameKey u v) (h' : SameKey v w) : SameKey u w :=
  ⟨h.state.trans h'.state, h.note.trans h'.note, h.sustained.trans h'.sustained⟩

/-- What becomes of a slot of the pool: a note is started in it, what is in it is
not active or no longer so, its key comes up and the pedal holds it, or its key, its
state and the hold of the pedal stay. -/
inductive SlotStep (s : Synth) (request : Request) (slot : Nat) (w : Voice) : Prop where
  | started (hstarted : request.startedKey? s slot = some w.note) (hstate : w.state = .active)
      (hsustained : w.sustained = false)
  | ceased (hstate : w.state ≠ .active)
  | held {v : Voice} (hstarted : request.startedKey? s slot = none) (hv : s.voices[slot]? = some v)
      (hstate : v.state = .active) (hnote : w.note = v.note) (hsustained : w.sustained)
      (hpedal : (request.run s).controllers.sustainDown) (hlifts : request.Lifts v.note)
  | kept {v : Voice} (hstarted : request.startedKey? s slot = none) (hv : s.voices[slot]? = some v)
      (hsame : SameKey w v)
      (hpedal : v.sustained → s.controllers.sustainDown →
        (request.run s).controllers.sustainDown)
      (hlifts : v.state = .active → ¬ request.Lifts v.note)

section SlotSteps

variable {s : Synth} {request : Request} {slot : Nat} {v w : Voice}

theorem SlotStep.same (hstarted : request.startedKey? s slot = none)
    (hv : s.voices[slot]? = some v)
    (hpedal : v.sustained → s.controllers.sustainDown → (request.run s).controllers.sustainDown)
    (hlifts : v.state = .active → ¬ request.Lifts v.note) : SlotStep s request slot v :=
  .kept hstarted hv (.refl v) hpedal hlifts

theorem getElem?_startRegion (regions : Array Region) (key velocity : UInt8) (delay : UInt32)
    (age : Nat) (voices : List Voice) (index : Nat)
    (hw : (startRegion regions key velocity delay age voices index)[slot]? = some w) :
    slotFor? regions voices index = some slot ∧
        w.state = .active ∧ w.note = key ∧ w.sustained = false ∨
      slotFor? regions voices index ≠ some slot ∧ voices[slot]? = some w := by
  rw [startRegion] at hw
  rw [slotFor?]
  cases hregion : regions[index]? with
  | none =>
      simp only [hregion] at hw
      exact .inr ⟨(Option.some_ne_none slot).symm, hw⟩
  | some region =>
      cases hallocated : allocate? voices with
      | none =>
          simp only [hregion, hallocated] at hw
          exact .inr ⟨(Option.some_ne_none slot).symm, hw⟩
      | some chosen =>
          simp only [hregion, hallocated, List.getElem?_modify] at hw
          obtain ⟨v, hv, hw⟩ := Option.map_eq_some_iff.mp hw
          by_cases hslot : chosen = slot
          · rw [if_pos hslot] at hw
            subst hw
            exact .inl ⟨by rw [hslot], rfl, rfl, rfl⟩
          · rw [if_neg hslot] at hw
            subst hw
            exact .inr ⟨fun heq => hslot (Option.some.inj heq), hv⟩

theorem getElem?_startRegions (regions : Array Region) (key velocity : UInt8) (delay : UInt32)
    (age : Nat) (indices : List Nat) (voices : List Voice)
    (hw : (indices.foldl (startRegion regions key velocity delay age) voices)[slot]? = some w) :
    startsIn regions key velocity delay age slot indices voices ∧
        w.state = .active ∧ w.note = key ∧ w.sustained = false ∨
      startsIn regions key velocity delay age slot indices voices = false ∧
        voices[slot]? = some w := by
  induction indices generalizing voices with
  | nil => exact .inr ⟨rfl, hw⟩
  | cons index indices ih =>
      simp only [startsIn, Bool.or_eq_true, decide_eq_true_eq, Bool.or_eq_false_iff,
        decide_eq_false_iff_not]
      rcases ih _ hw with ⟨hlater, hnew⟩ | ⟨hlater, hw⟩
      · exact .inl ⟨.inr hlater, hnew⟩
      · rcases getElem?_startRegion regions key velocity delay age voices index hw with
          ⟨hslot, hnew⟩ | ⟨hslot, hv⟩
        · exact .inl ⟨.inl hslot, hnew⟩
        · exact .inr ⟨⟨hslot, hlater⟩, hv⟩

theorem slotStep_noteOn (delay : UInt32) (key velocity : UInt8)
    (hw : ((Request.perform (.noteOn delay key velocity)).run s).voices[slot]? = some w) :
    SlotStep s (.perform (.noteOn delay key velocity)) slot w := by
  have hlifts (note : UInt8) : ¬ (Request.perform (.noteOn delay key velocity)).Lifts note := by
    rintro ⟨delay, velocity, h⟩
    cases h
  have hcontrollers :
      ((Request.perform (.noteOn delay key velocity)).run s).controllers = s.controllers :=
    controllers_noteOn delay key velocity s
  have hpedal : w.sustained → s.controllers.sustainDown →
      ((Request.perform (.noteOn delay key velocity)).run s).controllers.sustainDown := by
    rw [hcontrollers]
    exact fun _ h => h
  replace hw : (noteOn delay key velocity s).voices[slot]? = some w := hw
  rw [noteOn] at hw
  cases hinstrument : s.instrument with
  | none =>
      rw [hinstrument] at hw
      refine .same ?_ hw hpedal fun _ => hlifts w.note
      simp only [Request.startedKey?, hinstrument]
  | some instrument =>
      rw [hinstrument] at hw
      rcases getElem?_startRegions _ key velocity delay _ _ _ hw with
        ⟨hslot, hstate, hnote, hsustained⟩ | ⟨hslot, hv⟩
      · refine .started ?_ hstate hsustained
        simp only [Request.startedKey?, hinstrument, hslot, if_true, hnote]
      · refine .same ?_ hv hpedal fun _ => hlifts w.note
        simp only [Request.startedKey?, hinstrument, hslot, Bool.false_eq_true, if_false]

theorem slotStep_noteOff (delay : UInt32) (key velocity : UInt8)
    (hw : ((Request.perform (.noteOff delay key velocity)).run s).voices[slot]? = some w) :
    SlotStep s (.perform (.noteOff delay key velocity)) slot w := by
  replace hw : (s.voices.map fun v => if v.state = .active && v.note = key then
      if s.controllers.sustainDown then v.hold else v.release delay else v)[slot]? = some w := hw
  rw [List.getElem?_map] at hw
  obtain ⟨v, hv, rfl⟩ := Option.map_eq_some_iff.mp hw
  by_cases hconcerned : v.state = .active ∧ v.note = key
  · obtain ⟨hactive, rfl⟩ := hconcerned
    simp only [hactive, decide_true, Bool.and_self, if_true]
    split
    · next hpedal =>
        have hhold : v.hold = { v with sustained := true } := if_pos hactive
        rw [hhold]
        exact .held rfl hv hactive rfl rfl hpedal ⟨delay, velocity, rfl⟩
    · refine .ceased ?_
      rw [Voice.release, if_pos hactive]
      exact VoiceState.noConfusion
  · rw [if_neg (by simpa using hconcerned)]
    refine .same rfl hv (fun _ h => h) ?_
    rintro hactive ⟨delay', velocity', heq⟩
    cases heq
    exact hconcerned ⟨hactive, rfl⟩

/-- What a control change does to a voice: it leaves it, and then the pedal as well
if it holds the voice, or releases it, or silences it. -/
inductive Treated (down down' : Bool) (v : Voice) : Voice → Prop where
  | left (h : v.sustained → down → down') : Treated down down' v v
  | released (delay : UInt32) : Treated down down' v (v.release delay)
  | silenced : Treated down down' v v.free

theorem Treated.releaseSustained (down down' : Bool) (v : Voice) (delay : UInt32) :
    Treated down down' v (if v.sustained then v.release delay else v) := by
  split
  · exact .released delay
  · next hfree => exact .left fun hsustained => absurd hsustained hfree

theorem reset_treated {controller : UInt8} (hother : controller &&& 0x7F ≠ sustainController)
    (delay : UInt32) {value : UInt8} :
    let t : Synth := { s with
      controllers := s.controllers.setValue (controller &&& 0x7F) value }
    ∃ f, (reset delay t).voices = s.voices.map f ∧
      ∀ v, Treated s.controllers.sustainDown (reset delay t).controllers.sustainDown v (f v) := by
  intro t
  have hpedal : t.controllers.sustainDown = s.controllers.sustainDown :=
    (s.controllers.sustainDown_setValue controller value).trans (if_neg hother)
  simp only [reset, voices_schedule, controllers_schedule, hpedal]
  by_cases hdown : s.controllers.sustainDown
  · simp only [hdown, if_true]
    exact ⟨_, rfl, fun v => .releaseSustained _ _ v delay⟩
  · simp only [hdown, Bool.false_eq_true, if_false]
    exact ⟨id, (List.map_id _).symm, fun v => .left fun _ h => absurd h Bool.false_ne_true⟩

theorem controlChange_treated (delay : UInt32) (controller value : UInt8) (s : Synth) :
    ∃ f, (controlChange delay controller value s).voices = s.voices.map f ∧
      ∀ v, Treated s.controllers.sustainDown
        (controlChange delay controller value s).controllers.sustainDown v (f v) := by
  have hset := s.controllers.sustainDown_setValue controller value
  have hleft {t : Synth} (hvoices : t.voices = s.voices)
      (hcontrollers : t.controllers = s.controllers.setValue (controller &&& 0x7F) value)
      (hother : controller &&& 0x7F ≠ sustainController) :
      ∃ f, t.voices = s.voices.map f ∧
        ∀ v, Treated s.controllers.sustainDown t.controllers.sustainDown v (f v) := by
    refine ⟨id, by rw [List.map_id, hvoices], fun v => .left fun _ hdown => ?_⟩
    rw [hcontrollers, hset, if_neg hother]
    exact hdown
  rw [controlChange]
  split
  · next hvolume =>
      refine hleft (voices_schedule _ _ _) (controllers_schedule _ _ _) ?_
      rw [hvolume]
      decide
  split
  · next hexpression =>
      refine hleft (voices_schedule _ _ _) (controllers_schedule _ _ _) ?_
      rw [hexpression]
      decide
  split
  · next hsustain =>
      split
      · exact ⟨_, rfl, fun v => .releaseSustained _ _ v delay⟩
      · next hdown =>
          -- The pedal goes down.
          refine ⟨id, (List.map_id _).symm, fun v => .left fun _ _ => ?_⟩
          rw [hset, if_pos hsustain]
          exact decide_eq_true (UInt8.not_lt.mp hdown)
  next hother =>
  split
  · exact ⟨_, rfl, fun v => .silenced⟩
  split
  · exact reset_treated hother delay
  split
  · exact ⟨_, rfl, fun v => .released delay⟩
  · exact hleft rfl rfl hother

theorem Treated.slotStep (hstarted : request.startedKey? s slot = none)
    (hlifts : ∀ key, ¬ request.Lifts key) (hv : s.voices[slot]? = some v)
    (h : Treated s.controllers.sustainDown (request.run s).controllers.sustainDown v w) :
    SlotStep s request slot w := by
  cases h with
  | left hpedal => exact .same hstarted hv hpedal fun _ => hlifts v.note
  | released delay =>
      refine .ceased ?_
      rw [Voice.release]
      split
      · exact VoiceState.noConfusion
      · assumption
  | silenced => exact .ceased VoiceState.noConfusion

theorem SlotStep.sameKey (hstarted : request.startedKey? s slot = none)
    (hlifts : ∀ key, ¬ request.Lifts key)
    (hcontrollers : (request.run s).controllers = s.controllers)
    (hv : s.voices[slot]? = some v) (h : SameKey w v) : SlotStep s request slot w :=
  .kept hstarted hv h
    (fun _ hdown => by rwa [hcontrollers]) fun _ => hlifts v.note

theorem played_cases (v : Voice) (instrument : Instrument) (pitchRatio : Float32) (n : Nat) :
    (v.played instrument pitchRatio n).state ≠ .active ∨
      SameKey (v.played instrument pitchRatio n) v := by
  rw [Voice.played]
  split
  · split
    · exact .inl VoiceState.noConfusion
    · dsimp only
      split
      · exact .inl VoiceState.noConfusion
      · next region _ _ =>
          have hsame := v.sameNote_after (v.drive region pitchRatio) (v.gain region) n
          exact .inr ⟨hsame.state, hsame.note, hsame.sustained⟩
  · exact .inr (.refl v)

theorem getElem?_afterChunks (frames offset : Nat)
    (hw : (s.afterChunks frames offset).voices[slot]? = some w) :
    w.state ≠ .active ∨ ∃ v, s.voices[slot]? = some v ∧ SameKey w v := by
  induction offset, s using chunk_induction frames with
  | done offset s hle =>
      rw [afterChunks_of_le hle] at hw
      exact .inr ⟨w, hw, .refl w⟩
  | chunk offset s hlt ih =>
      rw [afterChunks_of_lt hlt] at hw
      rcases ih hw with hsilent | ⟨u, hu, hsame⟩
      · exact .inl hsilent
      rw [voices_afterChunk, List.getElem?_map] at hu
      obtain ⟨v, hv, rfl⟩ := Option.map_eq_some_iff.mp hu
      have hplay : ((s.applyDue offset).play (s.nextLength frames offset) v).state ≠ .active ∨
          SameKey ((s.applyDue offset).play (s.nextLength frames offset) v) v := by
        rw [play]
        split
        · exact .inr (.refl v)
        · split
          · exact .inr (.refl v)
          · exact played_cases v _ _ _
      rcases hplay with hsilent | hkept
      · exact .inl fun hactive => hsilent (hsame.state.symm.trans hactive)
      · exact .inr ⟨v, hv, hsame.trans hkept⟩

/-- A request that is refused, or changes no voice and no controller. -/
theorem slotStep_ifGranted {asked : Except ConfigError Synth}
    (hrun : request.run s = s.ifGranted asked) (hstarted : request.startedKey? s slot = none)
    (hlifts : ∀ key, ¬ request.Lifts key)
    (hgranted : ∀ s', asked = .ok s' → s'.controllers = s.controllers ∧
      (s'.voices[slot]? = some w →
        w.state ≠ .active ∨ ∃ v, s.voices[slot]? = some v ∧ SameKey w v))
    (hw : (request.run s).voices[slot]? = some w) : SlotStep s request slot w := by
  have hcontrollers : (request.run s).controllers = s.controllers := by
    rw [hrun]
    cases asked with
    | error refusal => rfl
    | ok s' => exact (hgranted s' rfl).1
  rw [hrun] at hw
  cases asked with
  | error refusal => exact .sameKey hstarted hlifts hcontrollers hw (.refl w)
  | ok s' =>
      rcases (hgranted s' rfl).2 hw with hsilent | ⟨v, hv, hsame⟩
      · exact .ceased hsilent
      · exact .sameKey hstarted hlifts hcontrollers hv hsame

end SlotSteps

/-- What any request does to any slot. -/
theorem slotStep {s : Synth} (request : Request) {slot : Nat} {w : Voice}
    (hw : (request.run s).voices[slot]? = some w) : SlotStep s request slot w := by
  cases request with
  | perform call =>
      cases call with
      | noteOn delay key velocity => exact slotStep_noteOn delay key velocity hw
      | noteOff delay key velocity => exact slotStep_noteOff delay key velocity hw
      | controlChange delay controller value =>
          obtain ⟨f, hvoices, htreated⟩ := s.controlChange_treated delay controller value
          replace hw : (controlChange delay controller value s).voices[slot]? = some w := hw
          rw [hvoices, List.getElem?_map] at hw
          obtain ⟨v, hv, rfl⟩ := Option.map_eq_some_iff.mp hw
          exact (htreated v).slotStep rfl nofun hv
      | polyAftertouch delay key value => exact .same rfl hw (fun _ hdown => hdown) nofun
      | channelAftertouch delay value => exact .same rfl hw (fun _ hdown => hdown) nofun
      | pitchWheel delay value =>
          replace hw : (pitchWheel delay value s).voices[slot]? = some w := hw
          rw [pitchWheel, voices_schedule] at hw
          refine .same rfl hw (fun _ hdown => ?_) nofun
          show (pitchWheel delay value s).controllers.sustainDown
          rw [pitchWheel, controllers_schedule]
          exact hdown
  | silenceAll =>
      replace hw : (s.voices.map Voice.free)[slot]? = some w := hw
      rw [List.getElem?_map] at hw
      obtain ⟨v, -, rfl⟩ := Option.map_eq_some_iff.mp hw
      exact .ceased VoiceState.noConfusion
  | setInstrument instrument =>
      replace hw : (s.voices.map Voice.unbind)[slot]? = some w := hw
      rw [List.getElem?_map] at hw
      obtain ⟨v, -, rfl⟩ := Option.map_eq_some_iff.mp hw
      exact .ceased VoiceState.noConfusion
  | setSampleRate rate =>
      refine slotStep_ifGranted rfl rfl nofun (fun s' hok => ?_) hw
      obtain ⟨-, rfl⟩ := setSampleRate_eq_ok hok
      refine ⟨rfl, fun hw => ?_⟩
      rw [List.getElem?_map] at hw
      obtain ⟨v, hv, rfl⟩ := Option.map_eq_some_iff.mp hw
      exact .inr ⟨v, hv, rfl, rfl, rfl⟩
  | setSamplesPerBlock memory frames =>
      refine slotStep_ifGranted rfl rfl nofun (fun s' hok => ?_) hw
      obtain ⟨-, scratch, -, rfl⟩ := setSamplesPerBlock_eq_ok hok
      exact ⟨rfl, fun hw => .inr ⟨w, hw, .refl w⟩⟩
  | setNumVoices memory count =>
      refine slotStep_ifGranted rfl rfl nofun (fun s' hok => ?_) hw
      obtain ⟨-, rfl⟩ := setNumVoices_eq_ok hok
      refine ⟨rfl, fun hw => ?_⟩
      rw [List.getElem?_append] at hw
      split at hw
      · rw [List.getElem?_take] at hw
        split at hw
        · exact .inr ⟨w, hw, .refl w⟩
        · cases hw
      · rw [(List.mem_replicate.mp (List.mem_of_getElem? hw)).2]
        exact .inl VoiceState.noConfusion
  | setOversampling oversampling => exact .same rfl hw (fun _ hdown => hdown) nofun
  | setPreloadSize frames =>
      refine slotStep_ifGranted rfl rfl nofun (fun s' hok => ?_) hw
      obtain ⟨-, rfl⟩ := setPreloadSize_eq_ok hok
      exact ⟨rfl, fun hw => .inr ⟨w, hw, .refl w⟩⟩
  | setVolume level =>
      refine slotStep_ifGranted rfl rfl nofun (fun s' hok => ?_) hw
      obtain ⟨-, rfl⟩ := setVolume_eq_ok hok
      exact ⟨rfl, fun hw => .inr ⟨w, hw, .refl w⟩⟩
  | renderBlock outputs =>
      have hvoices : (Request.run s (.renderBlock outputs)).voices =
          (s.afterChunks (sharedFrames outputs) 0).voices := by
        show (s.renderBlock outputs).1.voices = _
        rw [renderBlock_fst]
        rfl
      rw [hvoices] at hw
      rcases getElem?_afterChunks _ _ hw with hsilent | ⟨v, hv, hsame⟩
      · exact .ceased hsilent
      · exact .sameKey rfl nofun (controllers_renderBlock s outputs) hv hsame

/-! ### Whole runs -/

/-- What a voice remembers of its key is what the run has made of it, and nothing is
held but by the pedal. -/
structure Remembers (s : Synth) (run : List Request) (slot : Nat) (v : Voice) : Prop where
  pedal : v.sustained → (s.afterRun run).controllers.sustainDown
  key : v.state = .active → ∃ since, sinceStart s slot run = some (v.note, since) ∧
    (v.sustained = false ↔ ¬ CameUp v.note since)

/-- Every request keeps the memory of its slots right. -/
theorem Remembers.step {s : Synth} (hs : Reachable s) {run : List Request} {request : Request}
    {slot : Nat} (ih : ∀ v, (s.afterRun run).voices[slot]? = some v → Remembers s run slot v)
    {w : Voice} (hw : (s.afterRun (request :: run)).voices[slot]? = some w) :
    Remembers s (request :: run) slot w := by
  have hcoherent : w.Coherent :=
    voiceInvariant_coherent.reachable (hs.afterRun (request :: run)) w (List.mem_of_getElem? hw)
  have hsince (hstarted : request.startedKey? (s.afterRun run) slot = none) :
      sinceStart s slot (request :: run) =
        (sinceStart s slot run).map fun (key, since) => (key, request :: since) := by
    simp only [sinceStart, hstarted]
  cases slotStep request hw with
  | started hstarted hstate hsustained =>
      refine ⟨fun h => absurd h (by simp [hsustained]), fun _ => ⟨[], ?_, ?_⟩⟩
      · simp only [sinceStart, hstarted]
      · simp [hsustained, CameUp]
  | ceased hstate =>
      exact ⟨fun h => absurd (hcoherent.sustained h) hstate, fun h => absurd h hstate⟩
  | held hstarted hv hstate hnote hsustained hpedal hlifts =>
      obtain ⟨since, hkey, -⟩ := (ih _ hv).key hstate
      refine ⟨fun _ => hpedal, fun _ => ⟨request :: since, ?_, ?_⟩⟩
      · rw [hsince hstarted, hkey, hnote]
        rfl
      · rw [hnote, cameUp_cons]
        simp [hsustained, hlifts]
  | kept hstarted hv hsame hpedal hlifts =>
      have hremembers := ih _ hv
      refine ⟨fun h => ?_, fun hactive => ?_⟩
      · rw [hsame.sustained] at h
        exact hpedal h (hremembers.pedal h)
      · rw [hsame.state] at hactive
        obtain ⟨since, hkey, hheld⟩ := hremembers.key hactive
        refine ⟨request :: since, ?_, ?_⟩
        · rw [hsince hstarted, hkey, hsame.note]
          rfl
        · rw [hsame.sustained, hheld, hsame.note, cameUp_cons, or_iff_right (hlifts hactive)]

theorem remembers_afterRun {memory : Memory} {settings : Settings} {s : Synth}
    (hnew : Synth.new memory settings = .ok s) (run : List Request) {slot : Nat} {v : Voice}
    (hv : (s.afterRun run).voices[slot]? = some v) : Remembers s run slot v := by
  induction run generalizing v with
  | nil =>
      obtain ⟨scratch, -, -, rfl⟩ := new_eq_ok hnew
      rw [(List.mem_replicate.mp (List.mem_of_getElem? hv)).2]
      exact ⟨fun h => absurd h Bool.false_ne_true, fun h => absurd h VoiceState.noConfusion⟩
  | cons request earlier ih =>
      exact Remembers.step (.new hnew) (fun v hv => ih hv) hv

/-- After any run the pedal is down if it holds a voice, and a voice is active and not
held exactly if it is active and its key has not come up since its note began. With
the pedal up every active voice is one whose key is still down. -/
theorem active_unheld_iff_not_cameUp {memory : Memory} {settings : Settings} {s : Synth}
    (hnew : Synth.new memory settings = .ok s) (run : List Request) :
    (∀ v ∈ (s.afterRun run).voices, v.sustained → (s.afterRun run).controllers.sustainDown) ∧
    ∀ slot v, (s.afterRun run).voices[slot]? = some v →
      (v.state = .active ∧ v.sustained = false ↔
        v.state = .active ∧
          ∃ since, sinceStart s slot run = some (v.note, since) ∧ ¬ CameUp v.note since) ∧
      ((s.afterRun run).controllers.sustainDown = false → v.state = .active →
        ∃ since, sinceStart s slot run = some (v.note, since) ∧ ¬ CameUp v.note since) := by
  refine ⟨fun v hv hsustained => ?_, fun slot v hv => ?_⟩
  · obtain ⟨slot, hslot⟩ := List.getElem?_of_mem hv
    exact (remembers_afterRun hnew run hslot).pedal hsustained
  · have hremembers := remembers_afterRun hnew run hv
    refine ⟨and_congr_right fun hactive => ?_, fun hup hactive => ?_⟩
    · obtain ⟨since, hkey, hheld⟩ := hremembers.key hactive
      rw [hheld]
      constructor
      · exact fun hdown => ⟨since, hkey, hdown⟩
      · rintro ⟨since', hkey', hdown⟩
        rw [hkey] at hkey'
        cases hkey'
        exact hdown
    · obtain ⟨since, hkey, hheld⟩ := hremembers.key hactive
      refine ⟨since, hkey, hheld.mp ?_⟩
      have hunheld : ¬ v.sustained := fun hsustained =>
        absurd (hremembers.pedal hsustained) (by simp [hup])
      simpa using hunheld

/-- Of two keys that went down one comes up while the pedal is down. -/
theorem one_key_held_by_pedal :
    ∃ fresh, Synth.new .machine { numVoices := 2 } = .ok fresh ∧
      let run : List Request := [.perform (.noteOff 0 60 0), .perform (.controlChange 0 64 127),
        .perform (.noteOn 0 62 100), .perform (.noteOn 0 60 100), .setInstrument (some organ)]
      ∃ v w, (fresh.afterRun run).voices = [v, w] ∧ v.sustained ∧
        (fresh.afterRun run).controllers.sustainDown ∧
        w.state = .active ∧ ∃ since, sinceStart fresh 1 run = some (w.note, since) ∧
          ¬ CameUp w.note since := by
  obtain ⟨fresh, hnew⟩ := exists_duet
  obtain ⟨hpedal, hkeys⟩ := active_unheld_iff_not_cameUp hnew [.perform (.noteOff 0 60 0),
    .perform (.controlChange 0 64 127), .perform (.noteOn 0 62 100),
    .perform (.noteOn 0 60 100), .setInstrument (some organ)]
  obtain ⟨scratch, -, -, rfl⟩ := new_eq_ok hnew
  refine ⟨_, hnew, _, _, rfl, rfl, hpedal _ List.mem_cons_self rfl, ?_⟩
  exact (hkeys 1 _ rfl).1.mp ⟨rfl, rfl⟩

end PolySampler.Synth
