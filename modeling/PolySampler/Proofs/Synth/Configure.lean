import PolySampler.Proofs.Signal.Shape
import PolySampler.Synth.Basic

/-!
What changes of configuration do, when they are granted, to the parts that
sound. A new synth is silent, with storage for three channels; no change takes
a channel away, and none but that of the instrument reaches into a note.
-/

namespace PolySampler

structure Settings.Valid (settings : Settings) : Prop where
  sampleRate : settings.sampleRate.isFinite ∧ 1 ≤ settings.sampleRate
  samplesPerBlock : 1 ≤ settings.samplesPerBlock ∧ settings.samplesPerBlock ≤ maxBlockSize
  numVoices : 1 ≤ settings.numVoices ∧ settings.numVoices ≤ maxVoices
  preloadSize : 0 < settings.preloadSize
  volume : settings.volume.isFinite ∧ minVolume ≤ settings.volume ∧ settings.volume ≤ maxVolume

namespace Synth

open Signal

theorem bind_eq_ok {α β : Type} {x : Except ConfigError α} {f : α → Except ConfigError β} {b : β}
    (h : x >>= f = .ok b) : ∃ a, x = .ok a ∧ f a = .ok b := by
  cases x with
  | error refusal => cases h
  | ok a => exact ⟨a, rfl, h⟩

/-! ### Storage -/

theorem addChannel_of_no_frames (memory : Memory) {b : AudioBuffer scratchChannels}
    (hframes : b.numFrames = 0) (hroom : b.numChannels < scratchChannels) :
    (b.addChannel memory).2.numFrames = 0 ∧
      (b.addChannel memory).2.numChannels = b.numChannels + 1 := by
  have hgranted : ({} : Channel).canHold memory b.numChannels b.numFrames = true := by
    rw [hframes]
    rfl
  rw [AudioBuffer.addChannel, if_neg (Nat.not_le.mpr hroom), if_pos hgranted]
  exact ⟨hframes, rfl⟩

theorem addChannels_of_no_frames (memory : Memory) (n : Nat) {b : AudioBuffer scratchChannels}
    (hframes : b.numFrames = 0) (hroom : b.numChannels + n ≤ scratchChannels) :
    (b.addChannels memory n).numChannels = b.numChannels + n := by
  induction n generalizing b with
  | zero => rfl
  | succ n ih =>
      obtain ⟨hframes', hchannels⟩ := addChannel_of_no_frames memory hframes (by omega)
      rw [AudioBuffer.addChannels, ih hframes' (by omega), hchannels]
      omega

theorem numChannels_ofShape (memory : Memory) :
    (AudioBuffer.ofShape memory scratchChannels 0 : AudioBuffer scratchChannels).numChannels =
      scratchChannels := by
  rw [AudioBuffer.ofShape, Nat.min_self, addChannels_of_no_frames memory _ rfl (by decide)]
  rfl

theorem resizeScratch_eq_ok {memory : Memory} {scratch scratch' : AudioBuffer scratchChannels}
    {frames : Nat} (h : resizeScratch memory scratch frames = .ok scratch') :
    scratch.resize memory frames = .ok scratch' := by
  rw [resizeScratch] at h
  generalize scratch.resize memory frames = resized at h ⊢
  cases resized with
  | error refusal => cases h
  | ok granted => rw [Except.ok.inj h]

theorem resizePool_eq_ok {memory : Memory} {voices voices' : List Voice} {count : Nat}
    {sampleRate : Float32} (h : resizePool memory voices count sampleRate = .ok voices') :
    voices' = voices.take count ++
      List.replicate (count - voices.length) (Voice.new sampleRate) := by
  rw [resizePool] at h
  split at h
  · cases h
  · exact (Except.ok.inj h).symm

/-- The storage that blocks of so many frames are mixed in. -/
structure Mixes (scratch : AudioBuffer scratchChannels) (frames : Nat) : Prop where
  wellFormed : scratch.WellFormed
  numChannels : scratch.numChannels = scratchChannels
  numFrames : scratch.numFrames = frames

theorem mixes_of_resize {memory : Memory} {scratch scratch' : AudioBuffer scratchChannels}
    {frames : Nat} (hformed : scratch.WellFormed)
    (hchannels : scratch.numChannels = scratchChannels)
    (h : scratch.resize memory frames = .ok scratch') : Mixes scratch' frames := by
  have hformed' := hformed.resize h
  obtain rfl := AudioBuffer.resize_eq_ok h
  exact ⟨hformed', hchannels, rfl⟩

/-! ### Requests -/

theorem check_eq_ok {α : Type} {p : Prop} [Decidable p] {a b : α} {refusal : ConfigError}
    (h : (if p then .ok a else .error refusal) = Except.ok b) : p ∧ a = b := by
  split at h
  next hp => exact ⟨hp, Except.ok.inj h⟩
  next => cases h

theorem new_eq_ok {memory : Memory} {settings : Settings} {s : Synth}
    (h : Synth.new memory settings = .ok s) :
    ∃ scratch : AudioBuffer scratchChannels,
      settings.Valid ∧ Mixes scratch settings.samplesPerBlock ∧
      s = { settings, masterGain := settings.linearGain, instrument := none
            voices := List.replicate settings.numVoices (Voice.new settings.sampleRate)
            scratch, controllers := .initial, performance := {}, pending := []
            frameCounter := 0 } := by
  rw [Synth.new] at h
  obtain ⟨rate, hrate, h⟩ := bind_eq_ok h
  obtain ⟨block, hblock, h⟩ := bind_eq_ok h
  obtain ⟨count, hcount, h⟩ := bind_eq_ok h
  obtain ⟨preload, hpreload, h⟩ := bind_eq_ok h
  obtain ⟨volume, hvolume, h⟩ := bind_eq_ok h
  obtain ⟨scratch, hscratch, h⟩ := bind_eq_ok h
  obtain ⟨voices, hvoices, h⟩ := bind_eq_ok h
  refine ⟨scratch, ⟨(check_eq_ok hrate).1, (check_eq_ok hblock).1, (check_eq_ok hcount).1,
    (check_eq_ok hpreload).1, (check_eq_ok hvolume).1⟩,
    mixes_of_resize (AudioBuffer.wellFormed_ofShape memory _ _) (numChannels_ofShape memory)
      (resizeScratch_eq_ok hscratch), ?_⟩
  rw [← Except.ok.inj h, resizePool_eq_ok hvoices]
  simp

theorem setSampleRate_eq_ok {s s' : Synth} {rate : Float32} (h : s.setSampleRate rate = .ok s') :
    (rate.isFinite ∧ 1 ≤ rate) ∧ s' = { s with
      settings := { s.settings with sampleRate := rate }
      voices := s.voices.map fun v => v.setSampleRate rate } := by
  rw [setSampleRate] at h
  obtain ⟨rate', hchecked, hrest⟩ := bind_eq_ok h
  obtain ⟨hlimits, rfl⟩ := check_eq_ok hchecked
  exact ⟨hlimits, (Except.ok.inj hrest).symm⟩

theorem setSamplesPerBlock_eq_ok {memory : Memory} {s s' : Synth} {frames : Nat}
    (h : s.setSamplesPerBlock memory frames = .ok s') :
    (1 ≤ frames ∧ frames ≤ maxBlockSize) ∧
      ∃ scratch : AudioBuffer scratchChannels, s.scratch.resize memory frames = .ok scratch ∧
        s' = { s with scratch, settings := { s.settings with samplesPerBlock := frames } } := by
  rw [setSamplesPerBlock] at h
  obtain ⟨frames', hchecked, hrest⟩ := bind_eq_ok h
  obtain ⟨hlimits, rfl⟩ := check_eq_ok hchecked
  obtain ⟨scratch, hscratch, hlast⟩ := bind_eq_ok hrest
  exact ⟨hlimits, scratch, resizeScratch_eq_ok hscratch, (Except.ok.inj hlast).symm⟩

theorem setNumVoices_eq_ok {memory : Memory} {s s' : Synth} {count : Nat}
    (h : s.setNumVoices memory count = .ok s') :
    (1 ≤ count ∧ count ≤ maxVoices) ∧ s' = { s with
      voices := s.voices.take count ++
        List.replicate (count - s.voices.length) (Voice.new s.settings.sampleRate)
      settings := { s.settings with numVoices := count } } := by
  rw [setNumVoices] at h
  obtain ⟨count', hchecked, hrest⟩ := bind_eq_ok h
  obtain ⟨hlimits, rfl⟩ := check_eq_ok hchecked
  obtain ⟨voices, hvoices, hlast⟩ := bind_eq_ok hrest
  obtain rfl := resizePool_eq_ok hvoices
  exact ⟨hlimits, (Except.ok.inj hlast).symm⟩

theorem setPreloadSize_eq_ok {s s' : Synth} {frames : Nat}
    (h : s.setPreloadSize frames = .ok s') :
    0 < frames ∧ s' = { s with settings := { s.settings with preloadSize := frames } } := by
  rw [setPreloadSize] at h
  obtain ⟨frames', hchecked, hrest⟩ := bind_eq_ok h
  obtain ⟨hlimit, rfl⟩ := check_eq_ok hchecked
  exact ⟨hlimit, (Except.ok.inj hrest).symm⟩

/-- A change of the volume takes the gain with it. -/
theorem setVolume_eq_ok {s s' : Synth} {level : Float32} (h : s.setVolume level = .ok s') :
    (level.isFinite ∧ minVolume ≤ level ∧ level ≤ maxVolume) ∧ s' = { s with
      settings := { s.settings with volume := level }
      masterGain := ({ s.settings with volume := level } : Settings).linearGain } := by
  rw [setVolume] at h
  obtain ⟨level', hchecked, hrest⟩ := bind_eq_ok h
  obtain ⟨hlimits, rfl⟩ := check_eq_ok hchecked
  exact ⟨hlimits, (Except.ok.inj hrest).symm⟩

/-- The synth after a request: the one that was asked for, or if that is refused
the one there was. -/
def ifGranted (s : Synth) : Except ConfigError Synth → Synth
  | .ok s' => s'
  | .error _ => s

/-! ### A small synth -/

/-- One plain sound for all keys. -/
def organ : Instrument where
  name := "organ"
  regions := #[{
    keys := ⟨0, 127⟩, velocities := ⟨0, 127⟩, keycenter := 60, gain := 1
    source := .oscillator .sine, envelope := default }]
  curves := []

theorem exists_duet : ∃ s, Synth.new .machine { numVoices := 2 } = .ok s := by
  have hgranted : (Synth.new .machine { numVoices := 2 }).isOk := rfl
  cases hnew : Synth.new .machine { numVoices := 2 } with
  | error refusal =>
      rw [hnew] at hgranted
      exact absurd hgranted Bool.noConfusion
  | ok s => exact ⟨s, rfl⟩

end Synth

end PolySampler
