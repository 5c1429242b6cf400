import Mathlib.Data.Finset.Card
import PolySampler.Proofs.Instrument.Faults

/-!
What building an instrument comes to. The samples that are kept make no
difference to the outcome: it is that of a build which reads the file of every
region anew (`Kept.build`), each file under the first of its names if the
instrument file spells its path in several ways. Of such a build it is known
when it succeeds, what it gives and which fault it stops at.
-/

namespace PolySampler

/-! ### Files under several names -/

namespace FilePath

theorem same_iff {a b : String} : same a b ↔ components a = components b := by
  simp [same]

/-- The first of some paths that leads to the same file as the given one; the
given one itself if there is none. -/
def firstNamed (named : List String) (path : String) : String :=
  (named.find? (same · path)).getD path

theorem same_firstNamed (named : List String) (path : String) :
    same (firstNamed named path) path := by
  cases hfind : named.find? (same · path) with
  | none => simp [firstNamed, hfind, same_iff]
  | some first => simpa [firstNamed, hfind] using List.find?_some hfind

theorem firstNamed_append_of_find? {named : List String} {path first : String}
    (h : named.find? (same · path) = some first) (more : List String) :
    firstNamed (named ++ more) path = first := by
  simp [firstNamed, List.find?_append, h]

theorem firstNamed_append_of_new {named : List String} {path : String}
    (h : ∀ other ∈ named, ¬ same other path) (more : List String) :
    firstNamed (named ++ path :: more) path = path := by
  have hnone : named.find? (same · path) = none := by simpa using h
  have hself : same path path := same_iff.2 rfl
  simp [firstNamed, List.find?_append, hnone, hself]

end FilePath

open FilePath (same components firstNamed)

/-- The reader that goes to every file by the first name that it has among the
given ones. -/
def SampleReader.reading (read : SampleReader) (named : List String) : SampleReader :=
  fun path => read (firstNamed named path)

/-- Whatever depends on the file alone, and not on the spelling of its path, is
the same under the first name. -/
theorem SampleReader.reading_answers {α : Type} {read : SampleReader}
    {answer : Except LoadError (SampleData × Log.Record) → α}
    (h : ∀ a b, same a b → answer (read a) = answer (read b)) (named : List String)
    (path : String) : answer (read.reading named path) = answer (read path) :=
  h _ _ (FilePath.same_firstNamed named path)

/-! ### The samples that are kept -/

/-- What is kept and reported stands for the files named so far: each entry comes
from one read, by the first name of its file, and no file has two. -/
structure Kept (read : SampleReader) (named : List String) (cache : SampleCache)
    (records : List Log.Record) : Prop where
  reports : List.Forall₂ (fun entry record => read entry.1 = .ok (entry.2, record)) cache records
  distinct : (cache.map fun entry => components entry.1).Nodup
  first : ∀ entry ∈ cache, named.find? (same · entry.1) = some entry.1
  all : ∀ path ∈ named, ∃ entry ∈ cache, same entry.1 path

namespace Kept

variable {read : SampleReader} {named : List String} {cache : SampleCache}
  {records : List Log.Record} {path : String}

theorem empty (read : SampleReader) : Kept read [] [] [] where
  reports := .nil
  distinct := List.nodup_nil
  first := by simp
  all := by simp

theorem read_of_mem (h : Kept read named cache records) {entry : String × SampleData}
    (hentry : entry ∈ cache) : ∃ record, read entry.1 = .ok (entry.2, record) := by
  obtain ⟨hlength, hreports⟩ := List.forall₂_iff_get.1 h.reports
  obtain ⟨i, hi, rfl⟩ := List.getElem_of_mem hentry
  exact ⟨_, hreports i hi (hlength ▸ hi)⟩

theorem mem_named (h : Kept read named cache records) {entry : String × SampleData}
    (hentry : entry ∈ cache) : entry.1 ∈ named :=
  List.mem_of_find?_eq_some (h.first entry hentry)

theorem find?_eq_some (h : Kept read named cache records) {data : SampleData}
    (hfind : cache.find? path = some data) :
    ∃ first record, named.find? (same · path) = some first ∧ read first = .ok (data, record) := by
  obtain ⟨entry, hentry, rfl⟩ := Option.map_eq_some_iff.1 hfind
  have hmem : entry ∈ cache := List.mem_of_find?_eq_some hentry
  have hsame : components entry.1 = components path := by
    simpa [same] using List.find?_some hentry
  obtain ⟨record, hread⟩ := h.read_of_mem hmem
  have hfirst : named.find? (same · path) = some entry.1 := by
    simpa [same, hsame] using h.first entry hmem
  exact ⟨entry.1, record, hfirst, hread⟩

theorem find?_eq_none (h : Kept read named cache records) (hfind : cache.find? path = none) :
    ∀ other ∈ named, ¬ same other path := by
  intro other hother hsame
  obtain ⟨entry, hentry, hsame'⟩ := h.all other hother
  have hdiffer : ¬ same entry.1 path :=
    List.find?_eq_none.1 (Option.map_eq_none_iff.1 hfind) entry hentry
  exact hdiffer (FilePath.same_iff.2
    ((FilePath.same_iff.1 hsame').trans (FilePath.same_iff.1 hsame)))

theorem again (h : Kept read named cache records) {first : String}
    (hfind : named.find? (same · path) = some first) :
    Kept read (named ++ [path]) cache records where
  reports := h.reports
  distinct := h.distinct
  first entry hentry := by simp [List.find?_append, h.first entry hentry]
  all other hother := by
    rcases List.mem_append.1 hother with hother | hother
    · exact h.all other hother
    · obtain rfl := List.mem_singleton.1 hother
      obtain ⟨entry, hentry, hsame⟩ := h.all first (List.mem_of_find?_eq_some hfind)
      have hfirst : components first = components other := by
        simpa [same] using List.find?_some hfind
      exact ⟨entry, hentry, FilePath.same_iff.2 ((FilePath.same_iff.1 hsame).trans hfirst)⟩

theorem add (h : Kept read named cache records) (hnew : ∀ other ∈ named, ¬ same other path)
    {data : SampleData} {record : Log.Record} (hread : read path = .ok (data, record)) :
    Kept read (named ++ [path]) (cache ++ [(path, data)]) (records ++ [record]) where
  reports := List.rel_append h.reports (.cons hread .nil)
  distinct := by
    have hdiffer : components path ∉ cache.map fun entry => components entry.1 := by
      intro hmem
      obtain ⟨entry, hentry, hsame⟩ := List.mem_map.1 hmem
      exact hnew entry.1 (h.mem_named hentry) (FilePath.same_iff.2 hsame)
    rw [List.map_append, List.map_singleton, ← List.concat_eq_append]
    exact h.distinct.concat hdiffer
  first entry hentry := by
    rcases List.mem_append.1 hentry with hentry | hentry
    · simp [List.find?_append, h.first entry hentry]
    · obtain rfl := List.mem_singleton.1 hentry
      have hnone : named.find? (same · path) = none := by simpa using hnew
      simp [List.find?_append, hnone, FilePath.same_iff]
  all other hother := by
    rcases List.mem_append.1 hother with hother | hother
    · obtain ⟨entry, hentry, hsame⟩ := h.all other hother
      exact ⟨entry, List.mem_append_left _ hentry, hsame⟩
    · obtain rfl := List.mem_singleton.1 hother
      exact ⟨(other, data), by simp, FilePath.same_iff.2 rfl⟩

/-- There are as many samples as files. -/
theorem length_eq (h : Kept read named cache records) :
    cache.length = (named.map components).toFinset.card := by
  have hfiles : (cache.map fun entry => components entry.1).toFinset =
      (named.map components).toFinset := by
    ext file
    simp only [List.mem_toFinset, List.mem_map]
    constructor
    · rintro ⟨entry, hentry, rfl⟩
      exact ⟨entry.1, h.mem_named hentry, rfl⟩
    · rintro ⟨path, hpath, rfl⟩
      obtain ⟨entry, hentry, hsame⟩ := h.all path hpath
      exact ⟨entry, hentry, FilePath.same_iff.1 hsame⟩
  rw [← hfiles, List.toFinset_card_of_nodup h.distinct, List.length_map]

theorem resolve (h : Kept read named cache records) (base : String) (source : SourceText)
    (more : List String) :
    let here := resolveSource read base cache source
    let now := named ++ (source.file? base).toList
    here.result = source.sound (read.reading (now ++ more)) base ∧
      ∀ sound, here.result = .ok sound → Kept read now here.cache (records ++ here.records) := by
  cases source with
  | oscillator waveform => simpa [resolveSource, SourceText.sound, SourceText.file?] using h
  | sample path =>
    simp only [SourceText.file?, Option.toList_some, SourceText.sound, SampleReader.reading,
      resolveSource, List.append_assoc, List.singleton_append]
    cases hfind : cache.find? (FilePath.join base path) with
    | some data =>
      obtain ⟨first, record, hfirst, hread⟩ := h.find?_eq_some hfind
      rw [FilePath.firstNamed_append_of_find? hfirst, hread]
      exact ⟨rfl, fun _ _ => by simpa using h.again hfirst⟩
    | none =>
      have hnew := h.find?_eq_none hfind
      rw [FilePath.firstNamed_append_of_new hnew]
      cases hread : read (FilePath.join base path) with
      | error fault => exact ⟨rfl, by simp⟩
      | ok answer => exact ⟨rfl, fun _ _ => h.add hnew hread⟩

/-- The regions are built as if no sample were kept, and what is kept are the
samples of the regions. -/
theorem build (h : Kept read named cache records) (base : String) (index : Nat)
    (regions : List RegionText) :
    let built := buildRegions read base index cache regions
    let now := named ++ RegionText.files base regions
    built.result = RegionText.buildAll (read.reading now) base index regions ∧
      ∀ made, built.result = .ok made → Kept read now built.cache (records ++ built.records) := by
  induction regions generalizing index named cache records with
  | nil => simpa [buildRegions, RegionText.buildAll, RegionText.files] using h
  | cons r rest ih =>
    obtain ⟨hresult, hkept⟩ := h.resolve base r.source (RegionText.files base rest)
    rw [RegionText.files_cons, ← List.append_assoc]
    simp only [buildRegions, RegionText.buildAll, RegionText.build, ← hresult]
    cases r.fault? with
    | some fault => exact ⟨rfl, by simp⟩
    | none =>
      cases hsound : (resolveSource read base cache r.source).result with
      | error fault => exact ⟨rfl, by simp⟩
      | ok sound =>
        obtain ⟨hrest, hall⟩ := ih (hkept sound hsound) (index + 1)
        refine ⟨by rw [← hrest]; rfl, fun made hmade => ?_⟩
        rw [← List.append_assoc]
        cases hothers : (buildRegions read base (index + 1)
          (resolveSource read base cache r.source).cache rest).result with
        | error fault => simp [hothers, Except.map] at hmade
        | ok others => exact hall others hothers

end Kept

section Patches

variable {read : SampleReader} {patch : Patch} {base : String}

theorem buildInstrument_of_empty (h : patch.regions = []) :
    (buildInstrument read patch base).result = .error .noRegions := by
  simp [buildInstrument, h]

theorem buildInstrument_of_firstFault {error : LoadError}
    (h : RegionText.FirstFault (read.reading (RegionText.files base patch.regions)) base 0
      patch.regions error) :
    (buildInstrument read patch base).result = .error error := by
  have hregions : patch.regions ≠ [] := by
    obtain ⟨before, r, after, hsplit, -⟩ := h
    simp [hsplit]
  obtain ⟨hresult, -⟩ := (Kept.empty read).build base 0 patch.regions
  simp only [List.nil_append] at hresult
  simp [buildInstrument, hregions, hresult, h.buildAll, Except.map]

/-- The instrument of a patch in order, with the samples of its regions. -/
theorem buildInstrument_of_faultless (hregions : patch.regions ≠ [])
    (h : ∀ r ∈ patch.regions,
      r.Faultless (read.reading (RegionText.files base patch.regions)) base) :
    let built := buildInstrument read patch base
    let files := RegionText.files base patch.regions
    ∃ made, built.result =
        .ok (⟨patch.name, made.toArray, patch.curves⟩, built.cache.length) ∧
      List.Forall₂ (RegionText.Becomes (read.reading files) base) patch.regions made ∧
      (∀ region ∈ made, region.Playable) ∧ Kept read files built.cache built.records := by
  obtain ⟨made, hall, hmade, hplayable⟩ := RegionText.buildAll_of_faultless h 0
  obtain ⟨hresult, hkept⟩ := (Kept.empty read).build base 0 patch.regions
  simp only [List.nil_append, hall] at hresult hkept
  refine ⟨made, ?_, hmade, hplayable, ?_⟩
  · simp [buildInstrument, hregions, hresult, Except.map]
  · simpa [buildInstrument, hregions] using hkept made hresult

theorem faultless_of_buildInstrument {made : Instrument × Nat}
    (h : (buildInstrument read patch base).result = .ok made) :
    patch.regions ≠ [] ∧ ∀ r ∈ patch.regions,
      r.Faultless (read.reading (RegionText.files base patch.regions)) base := by
  by_cases hregions : patch.regions = []
  · cases h.symm.trans (buildInstrument_of_empty hregions)
  · rcases RegionText.faultless_or_firstFault (read.reading (RegionText.files base patch.regions))
      base 0 patch.regions with hall | ⟨error, hfirst⟩
    · exact ⟨hregions, hall⟩
    · cases h.symm.trans (buildInstrument_of_firstFault hfirst)

theorem firstFault_of_buildInstrument {error : LoadError}
    (h : (buildInstrument read patch base).result = .error error) :
    patch.regions = [] ∧ error = .noRegions ∨
      RegionText.FirstFault (read.reading (RegionText.files base patch.regions)) base 0
        patch.regions error := by
  by_cases hregions : patch.regions = []
  · obtain rfl : error = .noRegions := by
      simpa using h.symm.trans (buildInstrument_of_empty hregions)
    exact .inl ⟨hregions, rfl⟩
  · rcases RegionText.faultless_or_firstFault (read.reading (RegionText.files base patch.regions))
      base 0 patch.regions with hall | ⟨other, hfirst⟩
    · obtain ⟨made, hbuilt, -⟩ := buildInstrument_of_faultless hregions hall
      cases h.symm.trans hbuilt
    · obtain rfl : error = other := by
        simpa using h.symm.trans (buildInstrument_of_firstFault hfirst)
      exact .inr hfirst

/-- Building gives an instrument exactly if the patch has regions and nothing is
wrong with any of them; else it stops at the first thing that is wrong. The regions
of the instrument are those of the patch, and fit to be played. Every read leaves an
entry and a report, and no two entries are of one file. A file that goes by several
paths is read by the first of them, which makes no difference to what depends on the
file alone. -/
theorem buildInstrument_stops_at_first_fault (read : SampleReader) (patch : Patch)
    (base : String) :
    let built := buildInstrument read patch base
    let files := RegionText.files base patch.regions
    let reading := read.reading files
    ((∃ made, built.result = .ok made) ↔
      patch.regions ≠ [] ∧ ∀ r ∈ patch.regions, r.Faultless reading base) ∧
    (∀ error, built.result = .error error ↔
      patch.regions = [] ∧ error = .noRegions ∨
        RegionText.FirstFault reading base 0 patch.regions error) ∧
    (∀ instrument count, built.result = .ok (instrument, count) →
      instrument.name = patch.name ∧ instrument.curves = patch.curves ∧
      List.Forall₂ (RegionText.Becomes reading base) patch.regions instrument.regions.toList ∧
      (∀ region ∈ instrument.regions, region.Playable) ∧
      List.Forall₂ (fun entry record => read entry.1 = .ok (entry.2, record))
        built.cache built.records ∧
      (built.cache.map fun entry => components entry.1).Nodup ∧
      (∀ entry ∈ built.cache, entry.1 ∈ files) ∧
      count = built.cache.length ∧ count = (files.map components).toFinset.card) ∧
    ∀ (α : Type) (answer : Except LoadError (SampleData × Log.Record) → α),
      (∀ a b, same a b → answer (read a) = answer (read b)) →
      ∀ path, answer (reading path) = answer (read path) := by
  intro built files reading
  refine ⟨⟨?_, ?_⟩, fun error => ⟨firstFault_of_buildInstrument, ?_⟩, ?_,
    fun α answer h path => read.reading_answers h files path⟩
  · rintro ⟨made, hbuilt⟩
    exact faultless_of_buildInstrument hbuilt
  · rintro ⟨hregions, hall⟩
    obtain ⟨made, hbuilt, -⟩ := buildInstrument_of_faultless hregions hall
    exact ⟨_, hbuilt⟩
  · rintro (⟨hregions, rfl⟩ | hfirst)
    · exact buildInstrument_of_empty hregions
    · exact buildInstrument_of_firstFault hfirst
  · intro instrument count hbuilt
    obtain ⟨hregions, hall⟩ := faultless_of_buildInstrument hbuilt
    obtain ⟨made, hresult, hmade, hplayable, hkept⟩ :=
      buildInstrument_of_faultless hregions hall
    obtain ⟨rfl, rfl⟩ : instrument = ⟨patch.name, made.toArray, patch.curves⟩ ∧
        count = built.cache.length := by
      simpa using hbuilt.symm.trans hresult
    exact ⟨rfl, rfl, hmade, by simpa using hplayable, hkept.reports, hkept.distinct,
      fun _ => hkept.mem_named, rfl, hkept.length_eq⟩

end Patches

/-- Two paths to one file are read once, by the first of them. -/
example :
    let read : SampleReader := fun path => .ok (⟨#[], 48000⟩, ⟨.debug, path⟩)
    let patch : Patch := ⟨"", none, ["a.wav", ".//a.wav", "b.wav"].map fun path =>
      ⟨0, 127, 1, 127, 60, 0, .sample path, .default⟩, []⟩
    (buildInstrument read patch "drums").records.map (·.message) =
      ["drums/a.wav", "drums/b.wav"] := by
  decide +kernel

end PolySampler
