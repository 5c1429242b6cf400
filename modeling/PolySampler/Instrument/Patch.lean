import PolySampler.Instrument.Basic
import PolySampler.Json.Reader

/-!
Instrument files: what stands in them, and how it is read. Nothing is checked
here beyond the form of the file.
-/

namespace PolySampler

/-- The envelope of a region as written: four numbers for the classic shape, in
milliseconds but for the level, or a full description. -/
inductive EnvelopeText where
  | adsr (attack decay sustain release : Float32)
  | flex (description : Envelope.Description)

namespace EnvelopeText

/-- The envelope of a region that does not have one written. -/
def default : EnvelopeText :=
  .adsr 1 0 1 50

def description : EnvelopeText → Envelope.Description
  | .adsr attack decay sustain release =>
    Envelope.Description.adsr (attack / 1000) (decay / 1000) sustain (release / 1000)
  | .flex description => description

def pointOfJson? (value : Json) : Option Envelope.Point := do
  match ← value.fields? ["time", "level", "shape"] with
  | [time, level, shape] =>
    return {
      time := ← Json.required Json.single? time
      level := ← Json.required Json.single? level
      shape := ← Json.withDefault 0 Json.single? shape }
  | _ => none

def flexOfJson? (value : Json) : Option Envelope.Description := do
  match ← value.fields? ["points", "sustain"] with
  | [points, sustain] =>
    let points ← Json.required Json.items? points
    return {
      points := (← points.mapM pointOfJson?).toArray
      sustain := ← Json.required (Json.natural? Text.maxWord64) sustain }
  | _ => none

/-- Reads the four numbers of the classic shape, which must have their names. -/
def adsrOfJson? (value : Json) : Option EnvelopeText := do
  match value with
  | .object _ =>
    match ← value.fields? ["attack_ms", "decay_ms", "sustain_level", "release_ms"] with
    | [attack, decay, sustain, release] =>
      return .adsr (← Json.required Json.single? attack) (← Json.required Json.single? decay)
        (← Json.required Json.single? sustain) (← Json.required Json.single? release)
    | _ => none
  | _ => none

/-- Reads an envelope inside `enclosing` arrays and objects. The classic shape
is tried first. -/
def ofJson? (enclosing : Nat) (value : Json) : Option EnvelopeText :=
  if value.canBuffer enclosing then
    (adsrOfJson? value).or ((flexOfJson? value).map .flex)
  else none

end EnvelopeText

inductive SourceText where
  | oscillator (waveform : Signal.Waveform)
  | sample (path : String)

namespace SourceText

/-- Reads a waveform: its name, or an object with the name as its only key and
nothing behind it. -/
def waveformOfJson? : Json → Option Signal.Waveform
  | .text (some name) => Signal.Waveform.ofName? name
  | .object [(some name, .null)] => Signal.Waveform.ofName? name
  | .object [(some name, .object [])] => Signal.Waveform.ofName? name
  | _ => none

/-- Reads the fields that belong to a type of source. -/
def ofType? (type : Json) (rest : Json) : Option SourceText := do
  match ← type.text? with
  | "oscillator" =>
    match ← rest.fields? ["waveform"] with
    | [waveform] => (Json.required waveformOfJson? waveform).map .oscillator
    | _ => none
  | "sample" =>
    match ← rest.fields? ["path"] with
    | [path] => (Json.required Json.text? path).map .sample
    | _ => none
  | _ => none

/-- Reads a source inside `enclosing` arrays and objects. Its type is the member
`type` of an object, wherever it stands, or the first item of an array. -/
def ofJson? (enclosing : Nat) (value : Json) : Option SourceText :=
  if value.canBuffer enclosing then
    match value with
    | .object members =>
      let isType (m : Option String × Json) : Bool := m.1 = some "type"
      match members.filter isType with
      | [(_, type)] => ofType? type (.object (members.filter fun m => ¬ isType m))
      | _ => none
    | .array (type :: rest) => ofType? type (.array rest)
    | _ => none
  else none

end SourceText

structure RegionText where
  lowKey : Nat
  highKey : Nat
  lowVelocity : Nat
  highVelocity : Nat
  keycenter : Nat
  /-- Gain in decibels. -/
  volume : Float32
  source : SourceText
  envelope : EnvelopeText

def maxByte : Nat := 255

def RegionText.ofJson? (value : Json) : Option RegionText := do
  match ← value.fields? ["lokey", "hikey", "lovel", "hivel", "pitch_keycenter", "volume_db",
      "source", "amplitude_envelope"] with
  | [lowKey, highKey, lowVelocity, highVelocity, keycenter, volume, source, envelope] =>
    let byte (default : Nat) : Option Json → Option Nat :=
      Json.withDefault default (Json.natural? maxByte)
    return {
      lowKey := ← byte 0 lowKey
      highKey := ← byte 127 highKey
      lowVelocity := ← byte 1 lowVelocity
      highVelocity := ← byte 127 highVelocity
      keycenter := ← byte 60 keycenter
      volume := ← Json.withDefault 0 Json.single? volume
      source := ← Json.required (SourceText.ofJson? 3) source
      envelope := ← Json.withDefault EnvelopeText.default (EnvelopeText.ofJson? 3) envelope }
  | _ => none

def Curve.pointOfJson? : Json → Option (UInt8 × Float32)
  | .array [input, output] => do
    return (UInt8.ofNat (← input.natural? maxByte), ← output.single?)
  | _ => none

def Curve.ofJson? (value : Json) : Option Curve := do
  match ← value.fields? ["points"] with
  | [points] =>
    let points ← Json.required Json.items? points
    return { points := ← points.mapM Curve.pointOfJson? }
  | _ => none

structure Patch where
  name : String
  description : Option String
  regions : List RegionText
  curves : List Curve

namespace Patch

def optionalText? : Option Json → Option (Option String)
  | none | some .null => some none
  | some value => value.text?.map some

def ofJson? (value : Json) : Option Patch := do
  match ← value.fields? ["name", "description", "regions", "curves"] with
  | [name, description, regions, curves] =>
    let regions ← Json.required Json.items? regions
    let curves ← Json.withDefault [] Json.items? curves
    return {
      name := ← Json.required Json.text? name
      description := ← optionalText? description
      regions := ← regions.mapM RegionText.ofJson?
      curves := ← curves.mapM Curve.ofJson? }
  | _ => none

def parse? (text : String) : Option Patch :=
  (Json.read? text).bind ofJson?

end Patch

end PolySampler
