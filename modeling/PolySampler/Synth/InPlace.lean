import PolySampler.Synth.Basic

/-!
Changes of configuration in place, in the order in which a synth goes through them:
a setting is checked, storage is asked for, and only then is anything written.
-/

namespace PolySampler.Synth

open Signal

/-- Cuts the pool down or adds free voices. Storage for those is asked for first. -/
def growPool (memory : Memory) (count : Nat) (sampleRate : Float32) :
    InPlace ConfigError (List Voice) Unit := do
  let voices ← get
  if voices.length < count ∧ ¬ memory.voices (count - voices.length) then
    throw (.voiceAllocation count)
  modify fun voices =>
    voices.take count ++ List.replicate (count - voices.length) (Voice.new sampleRate)

def changeSampleRate (rate : Float32) : InPlace ConfigError Synth Unit := do
  let rate ← InPlace.check (Settings.checkSampleRate rate)
  modify fun s => { s with settings := { s.settings with sampleRate := rate } }
  modify fun s => { s with voices := s.voices.map fun v => v.setSampleRate rate }

def changeSamplesPerBlock (memory : Memory) (frames : Nat) : InPlace ConfigError Synth Unit := do
  let frames ← InPlace.check (Settings.checkBlockSize frames)
  InPlace.onPart Synth.scratch (fun scratch s => { s with scratch })
    (fun refusal => .allocation refusal.frames) (AudioBuffer.changeLength memory frames)
  modify fun s => { s with settings := { s.settings with samplesPerBlock := frames } }

def changeNumVoices (memory : Memory) (count : Nat) : InPlace ConfigError Synth Unit := do
  let count ← InPlace.check (Settings.checkNumVoices count)
  let s ← get
  InPlace.onPart Synth.voices (fun voices s => { s with voices }) id
    (growPool memory count s.settings.sampleRate)
  modify fun s => { s with settings := { s.settings with numVoices := count } }

def changePreloadSize (frames : Nat) : InPlace ConfigError Synth Unit := do
  let frames ← InPlace.check (Settings.checkPreloadSize frames)
  modify fun s => { s with settings := { s.settings with preloadSize := frames } }

/-- Changes the volume, and the gain after it. -/
def changeVolume (level : Float32) : InPlace ConfigError Synth Unit := do
  let level ← InPlace.check (Settings.checkVolume level)
  modify fun s => { s with settings := { s.settings with volume := level } }
  modify fun s => { s with masterGain := s.settings.linearGain }

end PolySampler.Synth
