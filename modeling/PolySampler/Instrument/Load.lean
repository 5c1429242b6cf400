import PolySampler.FileTree
import PolySampler.Instrument.Build
import PolySampler.Instrument.Wave

/-!
Loading instruments from files. A `.json` file describes an instrument; a bare
`.wav` file is imported as one region over the whole keyboard.
-/

namespace PolySampler

structure LoadReport where
  path : String
  name : String
  regions : Nat
  curves : Nat
  preloadedSamples : Nat
  /-- The format the instrument was imported from, if it was. -/
  importFormat : Option String

def LoadReport.text (r : LoadReport) : String :=
  let always :=
    [s!"Instrument loaded: {r.path}",
      "===========================",
      s!"Name: {r.name}",
      s!"Regions: {r.regions}",
      s!"Curves: {r.curves}",
      s!"Preloaded samples: {r.preloadedSamples}"]
  let imported := match r.importFormat with
    | some format => [s!"Import format: {format}"]
    | none => []
  "\n".intercalate (always ++ imported)

/-- Decodes a file: its format and the samples as they are interleaved. -/
abbrev Decoder := ByteArray → Option (Wave.Format × Array Float32)

/-- Reads the sample file at a path and reports how much there is of it. -/
def Files.readSampleBy (decode : Decoder) (files : Files) : SampleReader := fun path =>
  match (files path).bind decode with
  | none => .error (.undecodable path)
  | some (format, samples) =>
    let data := Wave.toSample format samples
    .ok (data, {
      level := .debug
      message := s!"read {path} ({data.numFrames} frames, {max format.channels 1} channels, " ++
        s!"{format.sampleRate} Hz)" })

def Files.readSample (files : Files) : SampleReader :=
  files.readSampleBy Wave.decode?

/-- What is left to others in loading: a text is read as data, a sample file is decoded. -/
structure Readers where
  data? : String → Option Json := Json.read?
  decode? : Decoder := Wave.decode?

def Instrument.ofSample (path : String) (data : SampleData) : Instrument where
  name := (FilePath.stem? path).getD ""
  regions := #[{
    keys := ⟨0, 127⟩
    velocities := ⟨1, 127⟩
    keycenter := 60
    gain := 1
    source := .sample data
    envelope := EnvelopeText.default.description }]
  curves := []

/-- The directory that the sample files of an instrument file are looked for
in. -/
def sampleBase (path : String) : String :=
  (FilePath.parent? path).getD "."

/-- The sample files that an instrument file names, given its path and
contents. -/
def samplePaths (path : String) (contents : ByteArray) : List String :=
  match (String.fromUTF8? contents).bind Patch.parse? with
  | none => []
  | some patch => patch.regions.filterMap fun region =>
    match region.source with
    | .oscillator _ => none
    | .sample file => some (FilePath.join (sampleBase path) file)

/-- Loads the instrument that an extension in lower case promises at a path. -/
def loadAs (readers : Readers) (files : Files) (path ext : String) :
    Building (Instrument × Nat) :=
  match ext with
  | "json" =>
    match (files path).bind String.fromUTF8? with
    | none => ⟨[], [], .error (.unreadable path)⟩
    | some text =>
      match (readers.data? text).bind Patch.ofJson? with
      | none => ⟨[], [], .error .malformed⟩
      | some patch =>
        buildInstrument (files.readSampleBy readers.decode?) patch (sampleBase path)
  | "wav" =>
    match files.readSampleBy readers.decode? path with
    | .error fault => ⟨[], [], .error fault⟩
    | .ok (data, record) =>
      ⟨[(path, data)], [record], .ok (Instrument.ofSample path data, 1)⟩
  | other => ⟨[], [], .error (.unsupported other)⟩

def loadInstrument (files : Files) (path : String) (readers : Readers := {}) :
    Building (Instrument × LoadReport) :=
  let ext := Text.lowerAscii ((FilePath.extension? path).getD "")
  let loaded := loadAs readers files path ext
  { cache := loaded.cache
    records := loaded.records
    result := loaded.result.map fun (instrument, samples) =>
      (instrument, {
        path
        name := instrument.name
        regions := instrument.regions.size
        curves := instrument.curves.length
        preloadedSamples := samples
        importFormat := if ext = "wav" then some "wav" else none }) }

end PolySampler
