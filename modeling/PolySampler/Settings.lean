import PolySampler.Instrument.LoadError
import PolySampler.Json.Reader
import PolySampler.Text.Blank

/-!
What can be configured while the sampler runs, the limits of each setting, and
why a change is refused.
-/

namespace PolySampler

def maxBlockSize : Nat := 8192

def maxVoices : Nat := 256

def minVolume : Float32 := -144

def maxVolume : Float32 := 48

inductive ConfigError where
  | sampleRate (rate : Float32)
  | blockSize (frames : Nat)
  | numVoices (voices : Nat)
  | oversampling (factor : Nat)
  | preloadSize (frames : Nat)
  | volume (level : Float32)
  | notANumber (text : String)
  | instrument (path : String) (cause : LoadError)
  | allocation (frames : Nat)
  | voiceAllocation (voices : Nat)

def ConfigError.message : ConfigError → String
  | .sampleRate rate => s!"invalid sample rate: {Decimal.plain rate}"
  | .blockSize frames => s!"invalid block size: {frames} (expected 1..={maxBlockSize})"
  | .numVoices voices => s!"invalid number of voices: {voices} (expected 1..={maxVoices})"
  | .oversampling factor =>
    s!"invalid oversampling factor: {factor} (expected 1, 2, 4 or 8)"
  | .preloadSize frames => s!"invalid preload size: {frames}"
  | .volume level => s!"invalid volume: {Decimal.plain level} dB"
  | .notANumber text => s!"could not parse value '{text}'"
  | .instrument path cause => s!"could not load the instrument file {path}: {cause.message}"
  | .allocation frames => s!"could not allocate {frames} frames of render storage"
  | .voiceAllocation voices => s!"could not allocate a pool of {voices} voices"

inductive Oversampling where
  | x1
  | x2
  | x4
  | x8
  deriving DecidableEq, Repr, Inhabited

namespace Oversampling

def factor : Oversampling → Nat
  | .x1 => 1
  | .x2 => 2
  | .x4 => 4
  | .x8 => 8

def ofFactor : Nat → Except ConfigError Oversampling
  | 1 => .ok .x1
  | 2 => .ok .x2
  | 4 => .ok .x4
  | 8 => .ok .x8
  | other => .error (.oversampling other)

/-- A factor with an `x` before it, or else one behind it, taken off. -/
def stripMark (text : List Char) : List Char :=
  let isMark (c : Char) : Bool := c = 'x' || c = 'X'
  match text with
  | [] => []
  | c :: rest =>
    if isMark c then rest
    else if isMark ((c :: rest).getLast (by simp)) then (c :: rest).dropLast
    else c :: rest

/-- Reads `4`, `x4` or `4x` with white space around it. -/
def parse (text : String) : Except ConfigError Oversampling :=
  match Text.readNatural Text.maxWord32 (stripMark (Text.trim text.toList)) with
  | .ok factor => ofFactor factor
  | .error _ => .error (.notANumber text)

def label (o : Oversampling) : String :=
  s!"x{o.factor}"

def fileName (o : Oversampling) : String :=
  s!"X{o.factor}"

/-- The factor of a name in settings files: the name itself, or an object with
the name as its only key and nothing behind it. -/
def ofJson? : Json → Option Oversampling
  | .text (some name) => named name
  | .object [(some name, .null)] => named name
  | _ => none
where
  named (name : String) : Option Oversampling :=
    [.x1, .x2, .x4, .x8].find? fun o => o.fileName = name

end Oversampling

structure Settings where
  sampleRate : Float32 := 48000
  samplesPerBlock : Nat := 1024
  numVoices : Nat := 64
  oversampling : Oversampling := .x1
  preloadSize : Nat := 8192
  /-- Volume in decibels. -/
  volume : Float32 := 0

namespace Settings

def checkSampleRate (rate : Float32) : Except ConfigError Float32 :=
  if rate.isFinite ∧ 1 ≤ rate then .ok rate else .error (.sampleRate rate)

def checkBlockSize (frames : Nat) : Except ConfigError Nat :=
  if 1 ≤ frames ∧ frames ≤ maxBlockSize then .ok frames else .error (.blockSize frames)

def checkNumVoices (voices : Nat) : Except ConfigError Nat :=
  if 1 ≤ voices ∧ voices ≤ maxVoices then .ok voices else .error (.numVoices voices)

def checkPreloadSize (frames : Nat) : Except ConfigError Nat :=
  if 0 < frames then .ok frames else .error (.preloadSize frames)

def checkVolume (level : Float32) : Except ConfigError Float32 :=
  if level.isFinite ∧ minVolume ≤ level ∧ level ≤ maxVolume then .ok level
  else .error (.volume level)

def linearGain (s : Settings) : Float32 :=
  Signal.gainOfDecibels s.volume

/-- Reads settings from a data file; every field must be there. -/
def ofJson? (value : Json) : Option Settings := do
  match ← value.fields? ["sample_rate", "samples_per_block", "num_voices", "oversampling",
      "preload_size", "volume_db"] with
  | [rate, block, voices, oversampling, preload, volume] =>
    return {
      sampleRate := ← Json.required Json.single? rate
      samplesPerBlock := ← Json.required (Json.natural? Text.maxWord64) block
      numVoices := ← Json.required (Json.natural? Text.maxWord64) voices
      oversampling := ← Json.required Oversampling.ofJson? oversampling
      preloadSize := ← Json.required (Json.natural? Text.maxWord32) preload
      volume := ← Json.required Json.single? volume }
  | _ => none

def render (s : Settings) : String :=
  let field (name value : String) : String := "\"" ++ name ++ "\":" ++ value
  "\x7b" ++ ",".intercalate
    [field "sample_rate" (Decimal.dataNumber s.sampleRate),
      field "samples_per_block" (toString s.samplesPerBlock),
      field "num_voices" (toString s.numVoices),
      field "oversampling" ("\"" ++ s.oversampling.fileName ++ "\""),
      field "preload_size" (toString s.preloadSize),
      field "volume_db" (Decimal.dataNumber s.volume)] ++ "\x7d"

end Settings

end PolySampler
