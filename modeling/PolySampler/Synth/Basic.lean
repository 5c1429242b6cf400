import PolySampler.Settings
import PolySampler.Signal.Buffer
import PolySampler.Synth.Controllers
import PolySampler.Voice

/-!
The synth: settings, the instrument, the pool of voices and the storage that
blocks are mixed in. A change of configuration is checked before anything
moves, so a refused one leaves no trace.
-/

namespace PolySampler

open Signal

/-- Channels that blocks are mixed in: left, right, and the envelope of one
voice. -/
def scratchChannels : Nat := 3

structure Synth where
  settings : Settings
  /-- The linear gain of the volume setting. -/
  masterGain : Float32
  instrument : Option Instrument
  voices : List Voice
  scratch : AudioBuffer scratchChannels
  controllers : Synth.Controllers
  performance : Synth.Performance
  /-- Changes that wait for their frame of the coming block, the earliest first. -/
  pending : List Synth.Pending
  /-- Frames rendered so far. -/
  frameCounter : Nat

namespace Synth

/-- Cuts the pool down or adds free voices; refused if those are not granted. -/
def resizePool (memory : Memory) (voices : List Voice) (count : Nat) (sampleRate : Float32) :
    Except ConfigError (List Voice) :=
  if voices.length < count ∧ ¬ memory.voices (count - voices.length) then
    .error (.voiceAllocation count)
  else
    .ok (voices.take count ++ List.replicate (count - voices.length) (Voice.new sampleRate))

/-- Storage of the given length for mixing; refused if it is not granted. -/
def resizeScratch (memory : Memory) (scratch : AudioBuffer scratchChannels) (frames : Nat) :
    Except ConfigError (AudioBuffer scratchChannels) :=
  (scratch.resize memory frames).mapError fun refusal => .allocation refusal.frames

def new (memory : Memory) (settings : Settings) : Except ConfigError Synth := do
  let _ ← Settings.checkSampleRate settings.sampleRate
  let _ ← Settings.checkBlockSize settings.samplesPerBlock
  let _ ← Settings.checkNumVoices settings.numVoices
  let _ ← Settings.checkPreloadSize settings.preloadSize
  let _ ← Settings.checkVolume settings.volume
  let scratch ← resizeScratch memory (AudioBuffer.ofShape memory scratchChannels 0)
    settings.samplesPerBlock
  let voices ← resizePool memory [] settings.numVoices settings.sampleRate
  return {
    settings, masterGain := settings.linearGain, instrument := none, voices, scratch,
    controllers := .initial, performance := {}, pending := [], frameCounter := 0 }

def activeVoices (s : Synth) : Nat :=
  s.voices.countP Voice.isActive

/-- Replaces the instrument. No voice keeps anything of the one before, which
is handed back. -/
def setInstrument (s : Synth) (instrument : Option Instrument) : Option Instrument × Synth :=
  (s.instrument, { s with voices := s.voices.map Voice.unbind, instrument })

def setSampleRate (s : Synth) (rate : Float32) : Except ConfigError Synth := do
  let rate ← Settings.checkSampleRate rate
  return { s with
    settings := { s.settings with sampleRate := rate }
    voices := s.voices.map fun v => v.setSampleRate rate }

def setSamplesPerBlock (memory : Memory) (s : Synth) (frames : Nat) :
    Except ConfigError Synth := do
  let frames ← Settings.checkBlockSize frames
  let scratch ← resizeScratch memory s.scratch frames
  return { s with scratch, settings := { s.settings with samplesPerBlock := frames } }

def setNumVoices (memory : Memory) (s : Synth) (count : Nat) : Except ConfigError Synth := do
  let count ← Settings.checkNumVoices count
  let voices ← resizePool memory s.voices count s.settings.sampleRate
  return { s with voices, settings := { s.settings with numVoices := count } }

def setOversampling (s : Synth) (oversampling : Oversampling) : Synth :=
  { s with settings := { s.settings with oversampling } }

def setPreloadSize (s : Synth) (frames : Nat) : Except ConfigError Synth := do
  let frames ← Settings.checkPreloadSize frames
  return { s with settings := { s.settings with preloadSize := frames } }

def setVolume (s : Synth) (level : Float32) : Except ConfigError Synth := do
  let level ← Settings.checkVolume level
  let settings := { s.settings with volume := level }
  return { s with settings, masterGain := settings.linearGain }

end Synth

end PolySampler
