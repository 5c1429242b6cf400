import PolySampler.Proofs.Synth.InPlace
import PolySampler.Proofs.Synth.Schedule
import PolySampler.Proofs.Synth.Voices

/-!
Settings against what they configure. The pool, the storage, the sample rates of the
voices and of their envelopes and the gain all repeat a setting, and the queue of
changes has bounds of its own. In whatever order a synth is configured, played and
rendered, and whatever is refused on the way, all of these agree with the settings,
and the settings are within their limits.
-/

namespace PolySampler

open Signal Midi

/-! ### Sample rates -/

namespace Envelope.Generator

variable (g : Generator)

@[simp] theorem sampleRate_start (delay : UInt32) : (g.start delay).sampleRate = g.sampleRate := by
  rw [start]
  split <;> rfl

@[simp] theorem sampleRate_release (delay : UInt32) :
    (g.release delay).sampleRate = g.sampleRate := by
  simp only [release]
  split <;> rfl

@[simp] theorem sampleRate_tick : g.tick.2.sampleRate = g.sampleRate := by
  rw [tick]
  split <;> rfl

@[simp] theorem sampleRate_setSampleRate (sampleRate : Float32) :
    (g.setSampleRate sampleRate).sampleRate = sampleRate := by
  obtain ⟨step, heq⟩ := g.setSampleRate_eq sampleRate
  rw [heq]

end Envelope.Generator

namespace Voice

structure RunsAt (sampleRate : Float32) (v : Voice) : Prop where
  voice : v.sampleRate = sampleRate
  envelope : v.envelope.sampleRate = sampleRate

variable {sampleRate : Float32} {v : Voice}

theorem runsAt_new (sampleRate : Float32) : (Voice.new sampleRate).RunsAt sampleRate :=
  ⟨rfl, rfl⟩

theorem runsAt_setSampleRate (v : Voice) (sampleRate : Float32) :
    (v.setSampleRate sampleRate).RunsAt sampleRate :=
  ⟨rfl, v.envelope.sampleRate_setSampleRate sampleRate⟩

theorem RunsAt.tick (h : v.RunsAt sampleRate) (drive : Drive) (gain : Float32) :
    (v.tick drive gain).2.2.RunsAt sampleRate := by
  refine ⟨(v.sameNote_tick drive gain).sampleRate.trans h.voice, ?_⟩
  rw [envelope_tick, Envelope.Generator.sampleRate_tick]
  exact h.envelope

theorem RunsAt.after (h : v.RunsAt sampleRate) (drive : Drive) (gain : Float32) (n : Nat) :
    (v.after drive gain n).RunsAt sampleRate := by
  induction n generalizing v with
  | zero => exact h
  | succ n ih => exact ih (h.tick drive gain)

theorem RunsAt.release (h : v.RunsAt sampleRate) (delay : UInt32) :
    (v.release delay).RunsAt sampleRate := by
  rw [Voice.release]
  split
  · exact ⟨h.voice, (v.envelope.sampleRate_release delay).trans h.envelope⟩
  · exact h

theorem RunsAt.hold (h : v.RunsAt sampleRate) : v.hold.RunsAt sampleRate := by
  rw [Voice.hold]
  split
  · exact ⟨h.voice, h.envelope⟩
  · exact h

theorem RunsAt.played (h : v.RunsAt sampleRate) (instrument : Instrument) (pitchRatio : Float32)
    (frames : Nat) : (v.played instrument pitchRatio frames).RunsAt sampleRate := by
  rw [Voice.played]
  split
  · split
    · exact ⟨h.voice, h.envelope⟩
    · next region _ =>
        have hafter := h.after (v.drive region pitchRatio) (v.gain region) frames
        dsimp only
        split
        · exact ⟨hafter.voice, hafter.envelope⟩
        · exact hafter
  · exact h

theorem playInvariant_runsAt (sampleRate : Float32) :
    Synth.PlayInvariant fun _ => RunsAt sampleRate where
  start h _ _ _ delay _ :=
    ⟨h.voice, (Envelope.Generator.sampleRate_start _ delay).trans h.envelope⟩
  hold h := h.hold
  release h := h.release
  free h := ⟨h.voice, h.envelope⟩
  unbind h _ := ⟨h.voice, h.envelope⟩
  played h := h.played _

end Voice

namespace Synth

/-! ### The number of voices -/

@[simp] theorem length_startRegions (regions : Array Region) (key velocity : UInt8)
    (delay : UInt32) (age : Nat) (indices : List Nat) (voices : List Voice) :
    (indices.foldl (startRegion regions key velocity delay age) voices).length =
      voices.length := by
  induction indices generalizing voices with
  | nil => rfl
  | cons index indices ih =>
      rw [List.foldl_cons, ih, startRegion]
      split
      · exact List.length_modify ..
      · rfl

theorem Moved.length {s : Synth} {call : Call} {voices : List Voice} (h : Moved s call voices) :
    voices.length = s.voices.length := by
  cases h with
  | touched f _ => exact List.length_map f
  | started _ delay key velocity => exact length_startRegions ..

/-! ### The queue -/

/-- Changes in the order of their frames, and no more than there is room for. -/
structure Queued (pending : List Pending) : Prop where
  sorted : pending.Pairwise fun a b => a.1 ≤ b.1
  length_le : pending.length ≤ maxPending

theorem Queued.schedule {s : Synth} (h : Queued s.pending) (delay : UInt32) (change : Change) :
    Queued (s.schedule delay change).pending := by
  rw [Synth.schedule]
  split
  next hroom =>
    refine ⟨sorted_insertPending h.sorted delay change, ?_⟩
    rw [length_insertPending]
    exact hroom
  next => exact h

theorem Queued.scheduleAll {s : Synth} (h : Queued s.pending) (changes : List Pending) :
    Queued (s.scheduleAll changes).pending := by
  induction changes generalizing s with
  | nil => exact h
  | cons change changes ih => exact ih (h.schedule change.1 change.2)

theorem Queued.sublist {pending rest : List Pending} (h : Queued pending)
    (hrest : rest.Sublist pending) : Queued rest :=
  ⟨h.sorted.sublist hrest, Nat.le_trans hrest.length_le h.length_le⟩

/-! ### The storage -/

theorem Mixes.write {scratch : AudioBuffer scratchChannels} {frames : Nat}
    (h : Mixes scratch frames) (channel : Nat) (samples : Array Float32) :
    Mixes (scratch.write channel samples) frames :=
  ⟨h.wellFormed.write channel samples,
    (AudioBuffer.numChannels_modifyChannel _ _ _).trans h.numChannels,
    (AudioBuffer.numFrames_modifyChannel _ _ _).trans h.numFrames⟩

theorem Mixes.afterChunk {s : Synth} {frames : Nat} (h : Mixes s.scratch frames) (length : Nat) :
    Mixes (s.afterChunk length).scratch frames := by
  rw [Synth.afterChunk, renderChunk]
  split
  · exact h
  · exact ((h.write 0 _).write 1 _).write 2 _

/-! ### Everything that is configured -/

/-- What the settings are repeated in agrees with them. -/
structure Configured (s : Synth) : Prop where
  settings : s.settings.Valid
  pool : s.voices.length = s.settings.numVoices
  rates : ∀ v ∈ s.voices, v.RunsAt s.settings.sampleRate
  storage : Mixes s.scratch s.settings.samplesPerBlock
  gain : s.masterGain = s.settings.linearGain
  queue : Queued s.pending

theorem configured_new {memory : Memory} {settings : Settings} {s : Synth}
    (h : Synth.new memory settings = .ok s) : Configured s := by
  obtain ⟨scratch, hvalid, hmixes, rfl⟩ := new_eq_ok h
  refine ⟨hvalid, List.length_replicate, fun v hv => ?_, hmixes, rfl, .nil, Nat.zero_le _⟩
  rw [(List.mem_replicate.mp hv).2]
  exact Voice.runsAt_new _

namespace Configured

variable {s s' : Synth}

theorem perform (h : Configured s) (call : Call) : Configured (call.perform s) := by
  have hrig := sameRig_perform call s
  have hlength := (moved_perform call s).length
  have hrates := (Voice.playInvariant_runsAt s.settings.sampleRate).perform call h.rates
  have hqueue : Queued (call.perform s).pending := by
    obtain ⟨voices, controllers, -, heq⟩ := perform_eq call s
    rw [heq]
    exact Queued.scheduleAll (s := { s with voices, controllers }) h.queue _
  refine ⟨?_, ?_, ?_, ?_, ?_, hqueue⟩
  · rw [hrig.settings]
    exact h.settings
  · rw [hrig.settings, hlength]
    exact h.pool
  · rwa [hrig.settings]
  · rw [hrig.settings, hrig.scratch]
    exact h.storage
  · rw [hrig.settings, hrig.masterGain]
    exact h.gain

theorem mapVoices (h : Configured s) {f : Voice → Voice}
    (hf : ∀ {v}, v.RunsAt s.settings.sampleRate → (f v).RunsAt s.settings.sampleRate)
    (instrument : Option Instrument) :
    Configured { s with voices := s.voices.map f, instrument } := by
  refine ⟨h.settings, (List.length_map f).trans h.pool, fun w hw => ?_, h.storage, h.gain,
    h.queue⟩
  obtain ⟨v, hv, rfl⟩ := List.mem_map.mp hw
  exact hf (h.rates v hv)

theorem setSampleRate {rate : Float32} (h : Configured s)
    (hgranted : s.setSampleRate rate = .ok s') : Configured s' := by
  obtain ⟨hlimits, rfl⟩ := setSampleRate_eq_ok hgranted
  refine ⟨{ h.settings with sampleRate := hlimits }, (List.length_map _).trans h.pool,
    fun w hw => ?_, h.storage, h.gain, h.queue⟩
  obtain ⟨v, -, rfl⟩ := List.mem_map.mp hw
  exact v.runsAt_setSampleRate rate

theorem setSamplesPerBlock {memory : Memory} {frames : Nat} (h : Configured s)
    (hgranted : s.setSamplesPerBlock memory frames = .ok s') : Configured s' := by
  obtain ⟨hlimits, scratch, hresized, rfl⟩ := setSamplesPerBlock_eq_ok hgranted
  exact ⟨{ h.settings with samplesPerBlock := hlimits }, h.pool, h.rates,
    mixes_of_resize h.storage.wellFormed h.storage.numChannels hresized, h.gain, h.queue⟩

theorem setNumVoices {memory : Memory} {count : Nat} (h : Configured s)
    (hgranted : s.setNumVoices memory count = .ok s') : Configured s' := by
  obtain ⟨hlimits, rfl⟩ := setNumVoices_eq_ok hgranted
  refine ⟨{ h.settings with numVoices := hlimits }, ?_, fun w hw => ?_, h.storage, h.gain,
    h.queue⟩
  · -- Either voices are cut off or new ones are added, so the count comes out in both cases.
    rw [List.length_append, List.length_take, List.length_replicate]
    dsimp only
    omega
  · rcases List.mem_append.mp hw with hw | hw
    · exact h.rates w (List.mem_of_mem_take hw)
    · rw [(List.mem_replicate.mp hw).2]
      exact Voice.runsAt_new _

theorem setPreloadSize {frames : Nat} (h : Configured s)
    (hgranted : s.setPreloadSize frames = .ok s') : Configured s' := by
  obtain ⟨hlimit, rfl⟩ := setPreloadSize_eq_ok hgranted
  exact ⟨{ h.settings with preloadSize := hlimit }, h.pool, h.rates, h.storage, h.gain, h.queue⟩

theorem setVolume {level : Float32} (h : Configured s)
    (hgranted : s.setVolume level = .ok s') : Configured s' := by
  obtain ⟨hlimits, rfl⟩ := setVolume_eq_ok hgranted
  exact ⟨{ h.settings with volume := hlimits }, h.pool, h.rates, h.storage, rfl, h.queue⟩

theorem ifGranted (h : Configured s) {asked : Except ConfigError Synth}
    (hgranted : ∀ s', asked = .ok s' → Configured s') : Configured (s.ifGranted asked) := by
  cases asked with
  | error refusal => exact h
  | ok s' => exact hgranted s' rfl

theorem applyDue (h : Configured s) (frame : Nat) : Configured (s.applyDue frame) :=
  ⟨h.settings, h.pool, h.rates, h.storage, h.gain, h.queue.sublist (List.dropWhile_sublist _)⟩

theorem afterChunk (h : Configured s) (length : Nat) : Configured (s.afterChunk length) := by
  have hrates := (Voice.playInvariant_runsAt s.settings.sampleRate).afterChunk h.rates length
  refine ⟨?_, ?_, ?_, ?_, ?_, ?_⟩
  · rw [settings_afterChunk]
    exact h.settings
  · rw [settings_afterChunk, voices_afterChunk, List.length_map]
    exact h.pool
  · rwa [settings_afterChunk]
  · rw [settings_afterChunk]
    exact h.storage.afterChunk length
  · rw [settings_afterChunk, masterGain_afterChunk]
    exact h.gain
  · rw [pending_afterChunk]
    exact h.queue

theorem renderBlock (h : Configured s) (outputs : List (Array Float32)) :
    Configured (s.renderBlock outputs).1 := by
  have hchunks := afterChunks_of_kept (P := Configured) (fun _ frame h => h.applyDue frame)
    (fun _ length h => h.afterChunk length) h (sharedFrames outputs) 0
  rw [renderBlock_fst]
  exact ⟨hchunks.settings, hchunks.pool, hchunks.rates, hchunks.storage, hchunks.gain,
    .nil, Nat.zero_le _⟩

theorem run (h : Configured s) (request : Request) : Configured (request.run s) := by
  cases request with
  | perform call => exact h.perform call
  | silenceAll =>
      exact h.mapVoices (f := Voice.free) (fun hv => ⟨hv.voice, hv.envelope⟩) s.instrument
  | setInstrument instrument =>
      exact h.mapVoices (f := Voice.unbind) (fun hv => ⟨hv.voice, hv.envelope⟩) instrument
  | setSampleRate rate => exact h.ifGranted fun _ hgranted => h.setSampleRate hgranted
  | setSamplesPerBlock memory frames =>
      exact h.ifGranted fun _ hgranted => h.setSamplesPerBlock hgranted
  | setNumVoices memory count => exact h.ifGranted fun _ hgranted => h.setNumVoices hgranted
  | setOversampling oversampling =>
      exact ⟨{ h.settings with }, h.pool, h.rates, h.storage, h.gain, h.queue⟩
  | setPreloadSize frames => exact h.ifGranted fun _ hgranted => h.setPreloadSize hgranted
  | setVolume level => exact h.ifGranted fun _ hgranted => h.setVolume hgranted
  | renderBlock outputs => exact h.renderBlock outputs

end Configured

theorem Reachable.configured {s : Synth} (h : Reachable s) : Configured s := by
  induction h with
  | new hnew => exact configured_new hnew
  | run _ request ih => exact ih.run request

/-! ### Requests in place -/

def Request.work : Request → InPlace ConfigError Synth Unit
  | .perform call => modify fun s => call.perform s
  | .silenceAll => modify Synth.silenceAll
  | .setInstrument instrument => modify fun s => (s.setInstrument instrument).2
  | .setSampleRate rate => changeSampleRate rate
  | .setSamplesPerBlock memory frames => changeSamplesPerBlock memory frames
  | .setNumVoices memory count => changeNumVoices memory count
  | .setOversampling oversampling => modify fun s => s.setOversampling oversampling
  | .setPreloadSize frames => changePreloadSize frames
  | .setVolume level => changeVolume level
  | .renderBlock outputs => modify fun s => (s.renderBlock outputs).1

/-- The synth after requests, each in place and broken off where it is refused. -/
def afterRequests (requests : List Request) (s : Synth) : Synth :=
  requests.foldl (fun s request => (request.work.perform s).2) s

/-- A change as a whole leaves the synth that was asked for, or the one there was. -/
theorem perform_wholly_snd (s : Synth) (f : Synth → Except ConfigError Synth) :
    ((InPlace.wholly f).perform s).2 = s.ifGranted (f s) := by
  rw [InPlace.perform_wholly]
  cases f s <;> rfl

theorem Request.perform_work (request : Request) (s : Synth) :
    (request.work.perform s).2 = request.run s := by
  cases request with
  | setSampleRate rate => rw [work, changeSampleRate_eq, perform_wholly_snd, run]
  | setSamplesPerBlock memory frames =>
      rw [work, changeSamplesPerBlock_eq, perform_wholly_snd, run]
  | setNumVoices memory count => rw [work, changeNumVoices_eq, perform_wholly_snd, run]
  | setPreloadSize frames => rw [work, changePreloadSize_eq, perform_wholly_snd, run]
  | setVolume level => rw [work, changeVolume_eq, perform_wholly_snd, run]
  | perform _ | silenceAll | setInstrument _ | setOversampling _ | renderBlock _ => rfl

theorem Reachable.afterRequests {s : Synth} (h : Reachable s) (requests : List Request) :
    Reachable (s.afterRequests requests) := by
  induction requests generalizing s with
  | nil => exact h
  | cons request requests ih =>
      have hnext := ih (h.run request)
      rw [← request.perform_work s] at hnext
      exact hnext

/-- Whatever is asked of a synth after it has been made, in whatever order and with
whatever memory, its parts agree with its settings and these are within their limits:
the voices are as many as set, at most 256, the storage has three channels of the
length of a block, at most 8192, every voice and its envelope run at the sample rate
set, which is finite and at least 1, something is preloaded, the gain is that of the
volume, and the changes that wait are in the order of their frames and no more than
512. -/
theorem configured_after {memory : Memory} {settings : Settings} {fresh : Synth}
    (h : Synth.new memory settings = .ok fresh) (requests : List Request) :
    let s := fresh.afterRequests requests
    (s.voices.length = s.settings.numVoices ∧
      1 ≤ s.settings.numVoices ∧ s.settings.numVoices ≤ 256) ∧
    (s.scratch.numChannels = 3 ∧ s.scratch.numFrames = s.settings.samplesPerBlock ∧
      (∀ channel < 3, (s.scratch.samples channel).size = s.settings.samplesPerBlock) ∧
      1 ≤ s.settings.samplesPerBlock ∧ s.settings.samplesPerBlock ≤ 8192) ∧
    ((∀ v ∈ s.voices, v.sampleRate = s.settings.sampleRate ∧
        v.envelope.sampleRate = s.settings.sampleRate) ∧
      s.settings.sampleRate.isFinite ∧ 1 ≤ s.settings.sampleRate) ∧
    0 < s.settings.preloadSize ∧
    (-144 ≤ s.settings.volume ∧ s.settings.volume ≤ 48 ∧
      s.masterGain = s.settings.linearGain) ∧
    (s.pending.Pairwise fun a b => a.1 ≤ b.1) ∧ s.pending.length ≤ 512 := by
  intro s
  have hconfigured : Configured s := ((Reachable.new h).afterRequests requests).configured
  have hvalid := hconfigured.settings
  have hstorage := hconfigured.storage
  refine ⟨⟨hconfigured.pool, hvalid.numVoices⟩,
    ⟨hstorage.numChannels, hstorage.numFrames, fun channel hlt => ?_, hvalid.samplesPerBlock⟩,
    ⟨fun v hv => ?_, hvalid.sampleRate⟩, hvalid.preloadSize,
    ⟨hvalid.volume.2.1, hvalid.volume.2.2, hconfigured.gain⟩,
    hconfigured.queue.sorted, hconfigured.queue.length_le⟩
  · have hcounted : channel < s.scratch.numChannels := by
      rw [hstorage.numChannels]
      exact hlt
    rw [hstorage.wellFormed.size_samples hcounted, hstorage.numFrames]
  · exact ⟨(hconfigured.rates v hv).voice, (hconfigured.rates v hv).envelope⟩

/-- A synth whose pool has grown to three voices at another sample rate, after a
request for none. -/
theorem three_voices_configured :
    ∃ fresh, Synth.new .machine { numVoices := 2 } = .ok fresh ∧
      let s := fresh.afterRequests [.setNumVoices .machine 0, .setSampleRate 44100,
        .setNumVoices .machine 3, .perform (.controlChange 5 7 90)]
      s.settings.numVoices = 3 ∧ s.voices.length = s.settings.numVoices ∧
        ∀ v ∈ s.voices, v.sampleRate = s.settings.sampleRate := by
  obtain ⟨fresh, hnew⟩ := exists_duet
  obtain ⟨⟨hlength, -⟩, -, ⟨hrates, -⟩, -⟩ := configured_after hnew
    [.setNumVoices .machine 0, .setSampleRate 44100, .setNumVoices .machine 3,
      .perform (.controlChange 5 7 90)]
  refine ⟨fresh, hnew, ?_, hlength, fun v hv => (hrates v hv).1⟩
  obtain ⟨scratch, -, -, rfl⟩ := new_eq_ok hnew
  rfl

end Synth

end PolySampler
