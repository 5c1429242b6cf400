import PolySampler.Proofs.Synth.Reachable
import PolySampler.Proofs.Voice.Coherent

/-!
What holds of every voice. Whatever is asked of a synth, each voice of the pool is
new or has been started, held, released, silenced, let go of, given another sample
rate, or played. What all of these keep holds of every voice in every state, and
above all that voices and their envelopes agree.
-/

namespace PolySampler.Synth

open Signal Midi

/-- A property that calls, chunks and other instruments do not take from a voice. It may
depend on the instrument that is loaded. -/
structure PlayInvariant (P : Option Instrument → Voice → Prop) : Prop where
  start {instrument : Instrument} {v : Voice} {index : Nat} {region : Region}
    (h : P (some instrument) v) (hregion : instrument.regions[index]? = some region)
    (note velocity : UInt8) (delay : UInt32) (age : Nat) :
    P (some instrument) (v.start index region note velocity delay age)
  hold {loaded : Option Instrument} {v : Voice} (h : P loaded v) : P loaded v.hold
  release {loaded : Option Instrument} {v : Voice} (h : P loaded v) (delay : UInt32) :
    P loaded (v.release delay)
  free {loaded : Option Instrument} {v : Voice} (h : P loaded v) : P loaded v.free
  unbind {loaded : Option Instrument} {v : Voice} (h : P loaded v)
    (next : Option Instrument) : P next v.unbind
  played {instrument : Instrument} {v : Voice} (h : P (some instrument) v)
    (pitchRatio : Float32) (frames : Nat) :
    P (some instrument) (v.played instrument pitchRatio frames)

/-- A property that a new voice has and that nothing takes from a voice. -/
structure VoiceInvariant (P : Option Instrument → Voice → Prop) : Prop
    extends PlayInvariant P where
  new (loaded : Option Instrument) (sampleRate : Float32) : P loaded (.new sampleRate)
  setSampleRate {loaded : Option Instrument} {v : Voice} (h : P loaded v)
    (sampleRate : Float32) : P loaded (v.setSampleRate sampleRate)

namespace PlayInvariant

variable {P : Option Instrument → Voice → Prop} (hP : PlayInvariant P)
include hP

theorem startRegions (instrument : Instrument) (key velocity : UInt8) (delay : UInt32) (age : Nat)
    (indices : List Nat) {voices : List Voice} (h : ∀ v ∈ voices, P (some instrument) v) :
    ∀ v ∈ indices.foldl (startRegion instrument.regions key velocity delay age) voices,
      P (some instrument) v := by
  induction indices generalizing voices with
  | nil => exact h
  | cons index indices ih =>
      refine ih fun w hw => ?_
      rcases mem_startRegion hw with hw | ⟨v, hv, region, hregion, rfl⟩
      · exact h w hw
      · exact hP.start (h v hv) hregion key velocity delay age

theorem perform (call : Call) {s : Synth} (h : ∀ v ∈ s.voices, P s.instrument v) :
    ∀ v ∈ (call.perform s).voices, P (call.perform s).instrument v := by
  rw [(sameRig_perform call s).instrument]
  have hmoved := moved_perform call s
  generalize (call.perform s).voices = voices at hmoved ⊢
  cases hmoved with
  | touched f htouched =>
      intro w hw
      obtain ⟨v, hv, rfl⟩ := List.mem_map.mp hw
      have htouch := htouched v
      generalize f v = w at htouch ⊢
      cases htouch with
      | kept => exact h v hv
      | held => exact hP.hold (h v hv)
      | released => exact hP.release (h v hv) call.delay
      | silenced => exact hP.free (h v hv)
  | started hsome delay key velocity =>
      rw [hsome] at h ⊢
      exact hP.startRegions _ key velocity delay _ _ h

theorem afterChunk {s : Synth} (h : ∀ v ∈ s.voices, P s.instrument v) (length : Nat) :
    ∀ v ∈ (s.afterChunk length).voices, P (s.afterChunk length).instrument v := by
  rw [instrument_afterChunk, voices_afterChunk]
  intro w hw
  obtain ⟨v, hv, rfl⟩ := List.mem_map.mp hw
  have hv := h v hv
  rw [play]
  split
  · exact hv
  · cases hinstrument : s.instrument with
    | none => rwa [hinstrument] at hv
    | some instrument =>
        rw [hinstrument] at hv
        exact hP.played hv _ length

theorem afterChunks {s : Synth} (h : ∀ v ∈ s.voices, P s.instrument v) (frames offset : Nat) :
    ∀ v ∈ (s.afterChunks frames offset).voices, P (s.afterChunks frames offset).instrument v :=
  afterChunks_of_kept (P := fun t => ∀ v ∈ t.voices, P t.instrument v) (fun _ _ h => h)
    (fun _ length h => hP.afterChunk h length) h frames offset

theorem renderBlock {s : Synth} (h : ∀ v ∈ s.voices, P s.instrument v)
    (outputs : List (Array Float32)) :
    ∀ v ∈ (s.renderBlock outputs).1.voices, P (s.renderBlock outputs).1.instrument v := by
  rw [renderBlock_fst]
  exact hP.afterChunks h (sharedFrames outputs) 0

theorem of_mem_chunks {s : Synth} (h : ∀ v ∈ s.voices, P s.instrument v) {frames offset : Nat}
    {k : Chunk} (hk : k ∈ s.chunks frames offset) :
    ∀ v ∈ k.synth.voices, P k.synth.instrument v := by
  refine mem_chunks_induction
    (motive := fun _ s => (∀ v ∈ s.voices, P s.instrument v) →
      ∀ v ∈ k.synth.voices, P k.synth.instrument v) ?_ ?_ hk h
  · rintro offset s - rfl h
    exact h
  · intro offset s _ _ ih h
    exact ih (hP.afterChunk (s := s.applyDue offset) h _)

end PlayInvariant

namespace VoiceInvariant

variable {P : Option Instrument → Voice → Prop} (hP : VoiceInvariant P)
include hP

theorem run {s : Synth} (h : ∀ v ∈ s.voices, P s.instrument v) (request : Request) :
    ∀ v ∈ (request.run s).voices, P (request.run s).instrument v := by
  have hgranted {asked : Except ConfigError Synth}
      (hvoices : ∀ s', asked = .ok s' → ∀ v ∈ s'.voices, P s'.instrument v) :
      ∀ v ∈ (s.ifGranted asked).voices, P (s.ifGranted asked).instrument v := by
    cases asked with
    | error refusal => exact h
    | ok s' => exact hvoices s' rfl
  cases request with
  | perform call => exact hP.perform call h
  | silenceAll =>
      intro w hw
      obtain ⟨v, hv, rfl⟩ := List.mem_map.mp hw
      exact hP.free (h v hv)
  | setInstrument instrument =>
      intro w hw
      obtain ⟨v, hv, rfl⟩ := List.mem_map.mp hw
      exact hP.unbind (h v hv) instrument
  | setSampleRate rate =>
      refine hgranted fun s' hok => ?_
      obtain ⟨-, rfl⟩ := setSampleRate_eq_ok hok
      intro w hw
      obtain ⟨v, hv, rfl⟩ := List.mem_map.mp hw
      exact hP.setSampleRate (h v hv) rate
  | setSamplesPerBlock memory frames =>
      refine hgranted fun s' hok => ?_
      obtain ⟨-, scratch, -, rfl⟩ := setSamplesPerBlock_eq_ok hok
      exact h
  | setNumVoices memory count =>
      refine hgranted fun s' hok => ?_
      obtain ⟨-, rfl⟩ := setNumVoices_eq_ok hok
      intro w hw
      rcases List.mem_append.mp hw with hw | hw
      · exact h w (List.mem_of_mem_take hw)
      · rw [(List.mem_replicate.mp hw).2]
        exact hP.new _ _
  | setOversampling oversampling => exact h
  | setPreloadSize frames =>
      refine hgranted fun s' hok => ?_
      obtain ⟨-, rfl⟩ := setPreloadSize_eq_ok hok
      exact h
  | setVolume level =>
      refine hgranted fun s' hok => ?_
      obtain ⟨-, rfl⟩ := setVolume_eq_ok hok
      exact h
  | renderBlock outputs => exact hP.renderBlock h outputs

/-- What nothing takes from a voice holds of every voice in every state. -/
theorem reachable {s : Synth} (h : Reachable s) : ∀ v ∈ s.voices, P s.instrument v := by
  induction h with
  | new hnew =>
      obtain ⟨scratch, -, -, rfl⟩ := new_eq_ok hnew
      intro v hv
      rw [(List.mem_replicate.mp hv).2]
      exact hP.new _ _
  | run _ request ih => exact hP.run ih request

end VoiceInvariant

theorem voiceInvariant_coherent : VoiceInvariant fun _ => Voice.Coherent where
  new _ _ := Voice.coherent_of_silent rfl rfl rfl rfl
  start _ _ := Voice.coherent_start _ _ _
  hold h := h.hold
  release h := h.release
  free _ := Voice.coherent_free _
  unbind _ _ := Voice.coherent_of_silent rfl rfl rfl rfl
  setSampleRate h := h.setSampleRate
  played h := h.played _

/-- In every state that is reached voices and envelopes agree. A voice whose key is
down has an envelope that waits, is in its attack or is held, with no release in
wait; one whose key came up has a release in wait or under way, so that no key that
comes up is forgotten; only a voice whose key counts as down is held by the pedal; a
free voice has no note; and no block leaves a note whose envelope is over. -/
theorem voices_agree_with_envelopes {s : Synth} (h : Reachable s) :
    (∀ v ∈ s.voices,
      let p := v.envelope.progress
      (v.state = .active → p.Unreleased ∧ p.releaseCountdown = none) ∧
      (v.state = .releasing → p.Unreleased ∧ p.releaseCountdown.isSome ∨ p.stage = .release) ∧
      (v.sustained → v.state = .active) ∧
      (v.state = .free → v.note = 0 ∧ v.velocity = 0 ∧ v.sustained = false)) ∧
    ∀ outputs, ∀ v ∈ (s.renderBlock outputs).1.voices, v.envelope.isFinished → v.isFree := by
  refine ⟨fun v hv => ?_, fun outputs v hv => ?_⟩
  · have hcoherent := voiceInvariant_coherent.reachable h v hv
    have henvelope := hcoherent.envelope
    refine ⟨fun hactive => ?_, fun hreleasing => ?_, hcoherent.sustained, hcoherent.free⟩
    · rwa [hactive] at henvelope
    · rwa [hreleasing] at henvelope
  · have hblock := h.run (.renderBlock outputs)
    exact (voiceInvariant_coherent.reachable hblock v hv).isFree_of_isFinished

/-- A note whose key comes up before it has begun has its release in wait. -/
theorem early_release_in_wait :
    ∃ fresh, Synth.new .machine { numVoices := 2 } = .ok fresh ∧
      let s := [.setInstrument (some organ), .perform (.noteOn 9 60 100),
        .perform (.noteOff 3 60 0)].foldl Request.run fresh
      Reachable s ∧ ∃ v ∈ s.voices, v.state = .releasing ∧
        (v.envelope.progress.Unreleased ∧ v.envelope.progress.releaseCountdown.isSome ∨
          v.envelope.progress.stage = .release) := by
  obtain ⟨fresh, hnew⟩ := exists_duet
  have hreachable := (((Reachable.new hnew).run (.setInstrument (some organ))).run
    (.perform (.noteOn 9 60 100))).run (.perform (.noteOff 3 60 0))
  obtain ⟨hvoices, -⟩ := voices_agree_with_envelopes hreachable
  obtain ⟨scratch, -, -, rfl⟩ := new_eq_ok hnew
  exact ⟨_, hnew, hreachable, _, List.mem_cons_self, rfl, (hvoices _ List.mem_cons_self).2.1 rfl⟩

end PolySampler.Synth
