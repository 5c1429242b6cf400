import Mathlib.Data.List.Forall2
import PolySampler.Instrument.Build

/-!
What is wrong with the regions of an instrument file, and what they become if
nothing is. The regions are built here without keeping any samples, each for
itself, so that the first fault is found by going through them in order.
-/

namespace PolySampler

def SourceText.file? (base : String) : SourceText → Option String
  | .oscillator _ => none
  | .sample path => some (FilePath.join base path)

def RegionText.files (base : String) (regions : List RegionText) : List String :=
  regions.filterMap (·.source.file? base)

theorem RegionText.files_cons (base : String) (r : RegionText) (rest : List RegionText) :
    files base (r :: rest) = (r.source.file? base).toList ++ files base rest := by
  cases hfile : r.source.file? base <;> simp [files, hfile]

def SourceText.sound (read : SampleReader) (base : String) : SourceText → Except LoadError Source
  | .oscillator waveform => .ok (.oscillator waveform)
  | .sample path => (read (FilePath.join base path)).map fun answer => .sample answer.1

/-- Builds one region: its description is checked before its sample is read. -/
def RegionText.build (read : SampleReader) (base : String) (index : Nat) (r : RegionText) :
    Except LoadError Region :=
  match r.fault? with
  | some fault => .error (.invalidRegion index fault)
  | none => (r.source.sound read base).map r.toRegion

/-- Builds the regions from the given index on, each for itself. -/
def RegionText.buildAll (read : SampleReader) (base : String) :
    Nat → List RegionText → Except LoadError (List Region)
  | _, [] => .ok []
  | index, r :: rest =>
    (r.build read base index).bind fun region =>
      (buildAll read base (index + 1) rest).map (region :: ·)

namespace RegionText

/-- Nothing is wrong with a region: not with its description, and not with its
sample file if it has one. -/
def Faultless (read : SampleReader) (base : String) (r : RegionText) : Prop :=
  r.fault? = none ∧ ∀ path ∈ r.source.file? base, ∃ data record, read path = .ok (data, record)

/-- What is wrong with a region. Its sample counts only if its description is in
order. -/
inductive Faulty (read : SampleReader) (base : String) (index : Nat) (r : RegionText) :
    LoadError → Prop
  | description {fault : RegionFault} (hfault : r.fault? = some fault) :
    Faulty read base index r (.invalidRegion index fault)
  | sample {path : String} {error : LoadError} (hfault : r.fault? = none)
    (hfile : r.source.file? base = some path) (hread : read path = .error error) :
    Faulty read base index r error

/-- A region is what its text says. -/
structure Becomes (read : SampleReader) (base : String) (r : RegionText) (region : Region) :
    Prop where
  keys : region.keys.low.toNat = r.lowKey ∧ region.keys.high.toNat = r.highKey
  velocities : region.velocities.low.toNat = r.lowVelocity ∧
    region.velocities.high.toNat = r.highVelocity
  keycenter : region.keycenter.toNat = r.keycenter
  gain : region.gain = Signal.gainOfDecibels r.volume
  sound : r.source.sound read base = .ok region.source
  envelope : region.envelope = r.envelope.description

end RegionText

/-- What voices rely on in a region without looking. -/
structure Region.Playable (region : Region) : Prop where
  keys : region.keys.low ≤ region.keys.high ∧ region.keys.high ≤ 127
  velocities : region.velocities.low ≤ region.velocities.high ∧ region.velocities.high ≤ 127
  keycenter : region.keycenter ≤ 127
  envelope : region.envelope.fault? = none

namespace RegionText

variable {read : SampleReader} {base : String} {index : Nat} {r : RegionText}

theorem fault?_eq_none_iff : r.fault? = none ↔
    r.highKey ≤ 127 ∧ r.highVelocity ≤ 127 ∧ r.keycenter ≤ 127 ∧ r.lowKey ≤ r.highKey ∧
      r.lowVelocity ≤ r.highVelocity ∧ r.volume.isFinite ∧
      r.envelope.description.fault? = none := by
  unfold fault?
  split_ifs with hmidi hkeys hvelocities hvolume
  · simp only [false_iff]
    omega
  · simp only [false_iff]
    omega
  · simp only [false_iff]
    omega
  · have hnumbers : r.highKey ≤ 127 ∧ r.highVelocity ≤ 127 ∧ r.keycenter ≤ 127 ∧
        r.lowKey ≤ r.highKey ∧ r.lowVelocity ≤ r.highVelocity := by omega
    simp [hvolume, hnumbers]
  · simp [hvolume]

theorem toRegion_becomes (hfault : r.fault? = none) {sound : Source}
    (hsound : r.source.sound read base = .ok sound) : r.Becomes read base (r.toRegion sound) := by
  obtain ⟨hkey, hvelocity, hcenter, hkeys, hvelocities, -, -⟩ := fault?_eq_none_iff.1 hfault
  have hbyte {n : Nat} (hn : n ≤ 127) : (UInt8.ofNat n).toNat = n :=
    UInt8.toNat_ofNat_of_lt' (by rw [UInt8.size]; omega)
  exact {
    keys := ⟨hbyte (Nat.le_trans hkeys hkey), hbyte hkey⟩
    velocities := ⟨hbyte (Nat.le_trans hvelocities hvelocity), hbyte hvelocity⟩
    keycenter := hbyte hcenter
    gain := rfl
    sound := hsound
    envelope := rfl }

theorem Becomes.playable {region : Region} (h : r.Becomes read base region)
    (hfault : r.fault? = none) : region.Playable := by
  obtain ⟨hkey, hvelocity, hcenter, hkeys, hvelocities, -, henvelope⟩ :=
    fault?_eq_none_iff.1 hfault
  constructor
  · simpa [UInt8.le_iff_toNat_le, h.keys] using ⟨hkeys, hkey⟩
  · simpa [UInt8.le_iff_toNat_le, h.velocities] using ⟨hvelocities, hvelocity⟩
  · simpa [UInt8.le_iff_toNat_le, h.keycenter] using hcenter
  · rw [h.envelope, henvelope]

theorem faultless_or_faulty (read : SampleReader) (base : String) (index : Nat)
    (r : RegionText) : r.Faultless read base ∨ ∃ error, r.Faulty read base index error := by
  cases hfault : r.fault? with
  | some fault => exact .inr ⟨_, .description hfault⟩
  | none =>
    cases hfile : r.source.file? base with
    | none => exact .inl ⟨hfault, by simp [hfile]⟩
    | some path =>
      cases hread : read path with
      | error error => exact .inr ⟨error, .sample hfault hfile hread⟩
      | ok answer => exact .inl ⟨hfault, by simpa [hfile] using ⟨answer.1, answer.2, hread⟩⟩

theorem Faultless.build (h : r.Faultless read base) (index : Nat) :
    ∃ region, r.build read base index = .ok region ∧ r.Becomes read base region ∧
      region.Playable := by
  obtain ⟨hfault, hfile⟩ := h
  obtain ⟨sound, hsound⟩ : ∃ sound, r.source.sound read base = .ok sound := by
    cases hsource : r.source with
    | oscillator waveform => exact ⟨_, rfl⟩
    | sample path =>
      obtain ⟨data, record, hread⟩ :=
        hfile (FilePath.join base path) (by simp [hsource, SourceText.file?])
      exact ⟨.sample data, by simp [SourceText.sound, hread, Except.map]⟩
  have hbecomes := toRegion_becomes hfault hsound
  exact ⟨_, by simp [RegionText.build, hfault, hsound, Except.map], hbecomes,
    hbecomes.playable hfault⟩

theorem Faulty.build {error : LoadError} (h : r.Faulty read base index error) :
    r.build read base index = .error error := by
  cases h with
  | description hfault => simp [RegionText.build, hfault]
  | sample hfault hfile hread =>
    cases hsource : r.source with
    | oscillator waveform => simp [hsource, SourceText.file?] at hfile
    | sample path =>
      obtain rfl : FilePath.join base path = _ := by
        simpa [hsource, SourceText.file?] using hfile
      simp [RegionText.build, hfault, hsource, SourceText.sound, hread, Except.map]

def FirstFault (read : SampleReader) (base : String) (index : Nat) (regions : List RegionText)
    (error : LoadError) : Prop :=
  ∃ before r after, regions = before ++ r :: after ∧
    (∀ other ∈ before, other.Faultless read base) ∧
    r.Faulty read base (index + before.length) error

theorem faultless_or_firstFault (read : SampleReader) (base : String) (index : Nat)
    (regions : List RegionText) :
    (∀ r ∈ regions, r.Faultless read base) ∨ ∃ error, FirstFault read base index regions error := by
  induction regions generalizing index with
  | nil => simp
  | cons r rest ih =>
    rcases faultless_or_faulty read base index r with hr | ⟨error, hr⟩
    · rcases ih (index + 1) with hrest | ⟨error, before, other, after, rfl, hbefore, hother⟩
      · exact .inl (List.forall_mem_cons.2 ⟨hr, hrest⟩)
      · refine .inr ⟨error, r :: before, other, after, rfl,
          List.forall_mem_cons.2 ⟨hr, hbefore⟩, ?_⟩
        simpa [Nat.add_assoc, Nat.add_comm 1] using hother
    · exact .inr ⟨error, [], r, rest, rfl, by simp, hr⟩

theorem buildAll_of_faultless {regions : List RegionText}
    (h : ∀ r ∈ regions, r.Faultless read base) (index : Nat) :
    ∃ made, buildAll read base index regions = .ok made ∧
      List.Forall₂ (Becomes read base) regions made ∧ ∀ region ∈ made, region.Playable := by
  induction regions generalizing index with
  | nil => exact ⟨[], rfl, .nil, by simp⟩
  | cons r rest ih =>
    obtain ⟨hr, hrest⟩ := List.forall_mem_cons.1 h
    obtain ⟨region, hbuild, hbecomes, hplayable⟩ := hr.build index
    obtain ⟨made, hall, hmade, hplayables⟩ := ih hrest (index + 1)
    exact ⟨region :: made, by simp [buildAll, hbuild, hall, Except.bind, Except.map],
      .cons hbecomes hmade, List.forall_mem_cons.2 ⟨hplayable, hplayables⟩⟩

theorem FirstFault.buildAll {regions : List RegionText} {error : LoadError}
    (h : FirstFault read base index regions error) :
    buildAll read base index regions = .error error := by
  obtain ⟨before, r, after, rfl, hbefore, hr⟩ := h
  induction before generalizing index with
  | nil =>
    have hhere : r.Faulty read base index error := by simpa using hr
    simp [RegionText.buildAll, hhere.build, Except.bind]
  | cons other before ih =>
    obtain ⟨hother, hbefore⟩ := List.forall_mem_cons.1 hbefore
    obtain ⟨region, hbuild, -, -⟩ := hother.build index
    have hthere : r.Faulty read base (index + 1 + before.length) error := by
      simpa [Nat.add_assoc, Nat.add_comm 1] using hr
    simp [RegionText.buildAll, hbuild, ih hbefore hthere, Except.bind, Except.map]

end RegionText

end PolySampler
