import PolySampler.FilePath
import PolySampler.Instrument.LoadError
import PolySampler.Instrument.Patch
import PolySampler.Log

/-!
Building an instrument from its file. Regions are checked and their samples
read in order, so the first fault in the file is the one reported. A sample
file that several regions share is read once.
-/

namespace PolySampler

abbrev SampleReader := String → Except LoadError (SampleData × Log.Record)

/-- Samples already read, with their paths, the first read first. -/
abbrev SampleCache := List (String × SampleData)

def SampleCache.find? (cache : SampleCache) (path : String) : Option SampleData :=
  (List.find? (fun entry => FilePath.same entry.1 path) cache).map (·.2)

namespace RegionText

def fault? (r : RegionText) : Option RegionFault :=
  if 127 < r.highKey ∨ 127 < r.highVelocity ∨ 127 < r.keycenter then some .notMidi
  else if r.highKey < r.lowKey then some (.emptyKeys r.lowKey r.highKey)
  else if r.highVelocity < r.lowVelocity then
    some (.emptyVelocities r.lowVelocity r.highVelocity)
  else if ¬ r.volume.isFinite then some .volume
  else r.envelope.description.fault?.map .envelope

def toRegion (r : RegionText) (source : Source) : Region where
  keys := ⟨UInt8.ofNat r.lowKey, UInt8.ofNat r.highKey⟩
  velocities := ⟨UInt8.ofNat r.lowVelocity, UInt8.ofNat r.highVelocity⟩
  keycenter := UInt8.ofNat r.keycenter
  gain := Signal.gainOfDecibels r.volume
  source
  envelope := r.envelope.description

end RegionText

/-- What building has come to: the samples read so far, the reports on them, and
the result or the first fault. -/
structure Building (α : Type) where
  cache : SampleCache
  records : List Log.Record
  result : Except LoadError α

/-- Finds the sound of a region, reading its sample file unless it is already in
the cache. -/
def resolveSource (read : SampleReader) (base : String) (cache : SampleCache) :
    SourceText → Building Source
  | .oscillator waveform => ⟨cache, [], .ok (.oscillator waveform)⟩
  | .sample path =>
    let full := FilePath.join base path
    match cache.find? full with
    | some data => ⟨cache, [], .ok (.sample data)⟩
    | none =>
      match read full with
      | .error fault => ⟨cache, [], .error fault⟩
      | .ok (data, record) => ⟨cache ++ [(full, data)], [record], .ok (.sample data)⟩

def buildRegions (read : SampleReader) (base : String) :
    Nat → SampleCache → List RegionText → Building (List Region)
  | _, cache, [] => ⟨cache, [], .ok []⟩
  | index, cache, region :: rest =>
    match region.fault? with
    | some fault => ⟨cache, [], .error (.invalidRegion index fault)⟩
    | none =>
      let here := resolveSource read base cache region.source
      match here.result with
      | .error fault => ⟨here.cache, here.records, .error fault⟩
      | .ok source =>
        let others := buildRegions read base (index + 1) here.cache rest
        { cache := others.cache
          records := here.records ++ others.records
          result := others.result.map (region.toRegion source :: ·) }

/-- Builds an instrument whose sample files are looked for in `base`. Gives the
instrument and the number of files read. -/
def buildInstrument (read : SampleReader) (patch : Patch) (base : String) :
    Building (Instrument × Nat) :=
  if patch.regions.isEmpty then ⟨[], [], .error .noRegions⟩
  else
    let built := buildRegions read base 0 [] patch.regions
    { cache := built.cache
      records := built.records
      result := built.result.map fun regions =>
        ({ name := patch.name, regions := regions.toArray, curves := patch.curves },
          built.cache.length) }

end PolySampler
