import Mathlib.Data.List.Basic
import PolySampler.Proofs.Synth.Configured

/-!
Which voice a note takes. Each region of a note asks for a voice of its own, in the
pool as the regions before it have left it: the first free voice, else the oldest that
is releasing, else the oldest of all, the first of them among voices of one age. So a
note takes what is free before it silences anything, and what is releasing before it
silences a note whose key is still down.
-/

namespace PolySampler.Synth

open Signal

/-! ### The oldest voice -/

/-- The voice of the slot satisfies the condition, and of those that do none is older
and no earlier one is as old. -/
structure FirstOldest (p : Voice → Bool) (voices : List Voice) (slot : Nat) (v : Voice) :
    Prop where
  at_slot : voices[slot]? = some v
  holds : p v
  least (other : Nat) (u : Voice) (h : voices[other]? = some u) (hu : p u) :
    v.age < u.age ∨ v.age = u.age ∧ slot ≤ other

/-- What is carried along is the first of the oldest voices met so far. -/
def Carries (p : Voice → Bool) (met : List Voice) : Option (Nat × Nat) → Prop
  | none => ∀ v ∈ met, p v = false
  | some (slot, age) => ∃ v, FirstOldest p met slot v ∧ v.age = age

theorem getElem?_concat_eq_some_iff {met : List Voice} {v u : Voice} {slot : Nat} :
    (met ++ [v])[slot]? = some u ↔ met[slot]? = some u ∨ slot = met.length ∧ v = u := by
  rw [List.getElem?_append]
  split
  · next hlt => simp [Nat.ne_of_lt hlt]
  · next hle =>
      rw [List.getElem?_eq_none (Nat.not_lt.mp hle), List.getElem?_singleton]
      have hplace : slot - met.length = 0 ↔ slot = met.length := by omega
      simp [hplace]

section Oldest

variable {p : Voice → Bool} {met : List Voice} {v : Voice}

theorem carries_nil : Carries p [] none := fun _ hv => absurd hv List.not_mem_nil

theorem Carries.skip {best : Option (Nat × Nat)} (h : Carries p met best) (hv : p v = false) :
    Carries p (met ++ [v]) best := by
  cases best with
  | none =>
      intro u hu
      rcases List.mem_append.mp hu with hu | hu
      · exact h u hu
      · rwa [List.mem_singleton.mp hu]
  | some pair =>
      obtain ⟨w, hw, hage⟩ := h
      refine ⟨w, ⟨getElem?_concat_eq_some_iff.mpr (.inl hw.at_slot), hw.holds, ?_⟩, hage⟩
      intro other u hother hu
      rcases getElem?_concat_eq_some_iff.mp hother with hother | ⟨-, rfl⟩
      · exact hw.least other u hother hu
      · rw [hv] at hu
        exact absurd hu (by decide)

theorem Carries.begin (h : Carries p met none) (hv : p v) :
    Carries p (met ++ [v]) (some (met.length, v.age)) := by
  refine ⟨v, ⟨getElem?_concat_eq_some_iff.mpr (.inr ⟨rfl, rfl⟩), hv, ?_⟩, rfl⟩
  intro other u hother hu
  rcases getElem?_concat_eq_some_iff.mp hother with hother | ⟨rfl, rfl⟩
  · rw [h u (List.mem_of_getElem? hother)] at hu
    exact absurd hu (by decide)
  · exact .inr ⟨rfl, Nat.le_refl _⟩

theorem Carries.keep {slot age : Nat} (h : Carries p met (some (slot, age)))
    (hv : ¬ v.age < age) : Carries p (met ++ [v]) (some (slot, age)) := by
  obtain ⟨w, hw, rfl⟩ := h
  refine ⟨w, ⟨getElem?_concat_eq_some_iff.mpr (.inl hw.at_slot), hw.holds, ?_⟩, rfl⟩
  intro other u hother hu
  rcases getElem?_concat_eq_some_iff.mp hother with hother | ⟨rfl, rfl⟩
  · exact hw.least other u hother hu
  · obtain ⟨hlt, -⟩ := List.getElem?_eq_some_iff.mp hw.at_slot
    omega

theorem Carries.replace {slot age : Nat} (h : Carries p met (some (slot, age))) (hv : p v)
    (hage : v.age < age) : Carries p (met ++ [v]) (some (met.length, v.age)) := by
  obtain ⟨w, hw, rfl⟩ := h
  refine ⟨v, ⟨getElem?_concat_eq_some_iff.mpr (.inr ⟨rfl, rfl⟩), hv, ?_⟩, rfl⟩
  intro other u hother hu
  rcases getElem?_concat_eq_some_iff.mp hother with hother | ⟨rfl, rfl⟩
  · have := hw.least other u hother hu
    omega
  · exact .inr ⟨rfl, Nat.le_refl _⟩

theorem carries_oldestFrom (rest : List Voice) {best : Option (Nat × Nat)}
    (h : Carries p met best) :
    Carries p (met ++ rest) (oldestFrom p met.length best rest) := by
  induction rest generalizing met best with
  | nil => simpa [oldestFrom] using h
  | cons v rest ih =>
      have hnext {best' : Option (Nat × Nat)} (h' : Carries p (met ++ [v]) best') :
          Carries p (met ++ v :: rest) (oldestFrom p (met.length + 1) best' rest) := by
        have hrest := ih h'
        rwa [List.append_assoc, List.length_append] at hrest
      simp only [oldestFrom]
      by_cases hv : p v
      · rw [if_pos hv]
        cases best with
        | none => exact hnext (h.begin hv)
        | some pair =>
            obtain ⟨slot, age⟩ := pair
            by_cases hage : v.age < age
            · simp only [if_pos hage]
              exact hnext (h.replace hv hage)
            · simp only [if_neg hage]
              exact hnext (h.keep hage)
      · rw [if_neg hv]
        exact hnext (h.skip (by simpa using hv))

theorem firstOldest_of_oldest? {voices : List Voice} {slot : Nat}
    (h : oldest? p voices = some slot) : ∃ v, FirstOldest p voices slot v := by
  have hcarries := carries_oldestFrom voices (carries_nil (p := p))
  obtain ⟨pair, hpair, rfl⟩ := Option.map_eq_some_iff.mp h
  rw [List.length_nil, hpair] at hcarries
  obtain ⟨v, hv, -⟩ := hcarries
  exact ⟨v, hv⟩

theorem not_of_oldest?_eq_none {voices : List Voice} (h : oldest? p voices = none) :
    ∀ v ∈ voices, p v = false := by
  have hcarries := carries_oldestFrom voices (carries_nil (p := p))
  rw [List.length_nil, Option.map_eq_none_iff.mp h] at hcarries
  exact hcarries

end Oldest

/-! ### The voice that is taken -/

/-- The voice of the slot is the one to be taken next: the first that is free; with
none free the oldest that is releasing; with none of these either the oldest. -/
inductive Takes (voices : List Voice) (slot : Nat) (v : Voice) : Prop where
  | free (hv : voices[slot]? = some v) (hfree : v.isFree)
      (hfirst : ∀ other u, voices[other]? = some u → u.isFree → slot ≤ other)
  | releasing (hnone : ∀ u ∈ voices, u.state ≠ .free)
      (holdest : FirstOldest (fun u => u.state = .releasing) voices slot v)
  | oldest (hnone : ∀ u ∈ voices, u.state ≠ .free ∧ u.state ≠ .releasing)
      (holdest : FirstOldest (fun _ => true) voices slot v)

theorem Takes.at_slot {voices : List Voice} {slot : Nat} {v : Voice} (h : Takes voices slot v) :
    voices[slot]? = some v := by
  cases h with
  | free hv => exact hv
  | releasing _ holdest => exact holdest.at_slot
  | oldest _ holdest => exact holdest.at_slot

theorem Takes.isFree {voices : List Voice} {slot : Nat} {v : Voice} (h : Takes voices slot v)
    (hfree : 0 < voices.countP Voice.isFree) : v.isFree := by
  obtain ⟨u, hu, hufree⟩ := List.countP_pos_iff.mp hfree
  have hstate : u.state = .free := by simpa [Voice.isFree] using hufree
  cases h with
  | free _ hv => exact hv
  | releasing hnone _ => exact absurd hstate (hnone u hu)
  | oldest hnone _ => exact absurd hstate (hnone u hu).1

/-- There is a voice to be taken in every pool that has voices at all. -/
theorem exists_takes {voices : List Voice} (h : voices ≠ []) :
    ∃ slot v, allocate? voices = some slot ∧ Takes voices slot v := by
  rw [allocate?]
  cases hfind : voices.findIdx? Voice.isFree with
  | some slot =>
      obtain ⟨hlt, hfree, hfirst⟩ := List.findIdx?_eq_some_iff_getElem.mp hfind
      refine ⟨slot, voices[slot], rfl, .free (List.getElem?_eq_getElem hlt) hfree ?_⟩
      intro other u hother hu
      obtain ⟨_, heq⟩ := List.getElem?_eq_some_iff.mp hother
      exact Nat.not_lt.mp fun hbefore => hfirst other hbefore (heq ▸ hu)
  | none =>
      have hnone (u : Voice) (hu : u ∈ voices) : u.state ≠ .free := by
        simpa [Voice.isFree] using List.findIdx?_eq_none_iff.mp hfind u hu
      cases hreleasing : oldest? (fun v => v.state = .releasing) voices with
      | some slot =>
          obtain ⟨v, hv⟩ := firstOldest_of_oldest? hreleasing
          exact ⟨slot, v, rfl, .releasing hnone hv⟩
      | none =>
          have hneither (u : Voice) (hu : u ∈ voices) :
              u.state ≠ .free ∧ u.state ≠ .releasing :=
            ⟨hnone u hu, by simpa using not_of_oldest?_eq_none hreleasing u hu⟩
          cases holdest : oldest? (fun _ => true) voices with
          | some slot =>
              obtain ⟨v, hv⟩ := firstOldest_of_oldest? holdest
              exact ⟨slot, v, rfl, .oldest hneither hv⟩
          | none =>
              obtain ⟨u, hu⟩ := List.exists_mem_of_ne_nil voices h
              exact absurd (not_of_oldest?_eq_none holdest u hu) (by decide)

/-! ### One region after the other -/

section Regions

variable {regions : Array Region} {key velocity : UInt8} {delay : UInt32} {age : Nat}
  {voices : List Voice} {index : Nat}

theorem startRegion_eq_set {region : Region} {slot : Nat} {v : Voice}
    (hregion : regions[index]? = some region) (hslot : allocate? voices = some slot)
    (hv : voices[slot]? = some v) :
    startRegion regions key velocity delay age voices index =
      voices.set slot (v.start index region key velocity delay age) := by
  simp only [startRegion, hregion, hslot, List.modify_eq_set_getElem?, hv]
  rfl

theorem exists_startRegion {region : Region} (key velocity : UInt8) (delay : UInt32)
    (age : Nat) (hregion : regions[index]? = some region) (h : voices ≠ []) :
    ∃ slot v, allocate? voices = some slot ∧ Takes voices slot v ∧
      startRegion regions key velocity delay age voices index =
        voices.set slot (v.start index region key velocity delay age) := by
  obtain ⟨slot, v, hslot, htakes⟩ := exists_takes h
  exact ⟨slot, v, hslot, htakes, startRegion_eq_set hregion hslot htakes.at_slot⟩

/-- Starting a region does nothing, or it overwrites the voice that is to be taken next. -/
theorem startRegion_takes (regions : Array Region) (key velocity : UInt8) (delay : UInt32)
    (age : Nat) (voices : List Voice) (index : Nat) :
    startRegion regions key velocity delay age voices index = voices ∨
      ∃ slot v region, Takes voices slot v ∧
        startRegion regions key velocity delay age voices index =
          voices.set slot (v.start index region key velocity delay age) := by
  cases hregion : regions[index]? with
  | none => exact .inl (by simp only [startRegion, hregion])
  | some region =>
      by_cases hvoices : voices = []
      · subst hvoices
        have hnone : allocate? [] = none := rfl
        exact .inl (by simp only [startRegion, hregion, hnone])
      · obtain ⟨slot, v, -, htakes, hset⟩ :=
          exists_startRegion key velocity delay age hregion hvoices
        exact .inr ⟨slot, v, region, htakes, hset⟩

theorem getElem?_startRegion_of_active {slot : Nat}
    (h : ∃ v, voices[slot]? = some v ∧ v.state = .active) :
    ∃ w, (startRegion regions key velocity delay age voices index)[slot]? = some w ∧
      w.state = .active := by
  rcases startRegion_takes regions key velocity delay age voices index with
    heq | ⟨taken, v, region, htakes, heq⟩
  · rw [heq]
    exact h
  · rw [heq]
    obtain ⟨hlt, -⟩ := List.getElem?_eq_some_iff.mp htakes.at_slot
    by_cases htaken : taken = slot
    · subst htaken
      exact ⟨_, List.getElem?_set_self hlt, rfl⟩
    · rwa [List.getElem?_set_ne htaken]

theorem getElem?_startRegions_of_active {slot : Nat} (regions : Array Region)
    (key velocity : UInt8) (delay : UInt32) (age : Nat) (indices : List Nat)
    (h : ∃ v, voices[slot]? = some v ∧ v.state = .active) :
    ∃ w, (indices.foldl (startRegion regions key velocity delay age) voices)[slot]? = some w ∧
      w.state = .active := by
  induction indices generalizing voices with
  | nil => exact h
  | cons index indices ih => exact ih (getElem?_startRegion_of_active h)

/-- As long as there are free voices for all regions, none that sounds is touched. -/
theorem getElem?_startRegions_of_free {slot : Nat} {v : Voice} {indices : List Nat}
    (hfree : indices.length ≤ voices.countP Voice.isFree) (hv : voices[slot]? = some v)
    (hsounds : v.isFree = false) :
    (indices.foldl (startRegion regions key velocity delay age) voices)[slot]? = some v := by
  induction indices generalizing voices with
  | nil => exact hv
  | cons index indices ih =>
      rw [List.length_cons] at hfree
      rcases startRegion_takes regions key velocity delay age voices index with
        heq | ⟨taken, u, region, htakes, heq⟩
      · rw [List.foldl_cons, heq]
        exact ih (by omega) hv
      · -- The voice taken is free, so it is not the one of the slot, and one less is free.
        have hu := htakes.isFree (by omega)
        obtain ⟨hlt, hget⟩ := List.getElem?_eq_some_iff.mp htakes.at_slot
        have hother : taken ≠ slot := by
          rintro rfl
          rw [Option.some.inj (hv.symm.trans htakes.at_slot), hu] at hsounds
          exact absurd hsounds (by decide)
        rw [List.foldl_cons, heq]
        refine ih ?_ (by rwa [List.getElem?_set_ne hother])
        rw [List.countP_set hlt, hget, if_pos hu]
        omega

end Regions

/-! ### A whole note -/

theorem mem_regionsFor (instrument : Instrument) (key velocity : UInt8) (index : Nat) :
    index ∈ instrument.regionsFor key velocity ↔
      ∃ region, instrument.regions[index]? = some region ∧ region.matches key velocity := by
  rw [Instrument.regionsFor, List.mem_filter, List.mem_range]
  cases hregion : instrument.regions[index]? with
  | none => simp
  | some region =>
      obtain ⟨hlt, -⟩ := Array.getElem?_eq_some_iff.mp hregion
      simp [hlt]

theorem regionsFor_increasing (instrument : Instrument) (key velocity : UInt8) :
    (instrument.regionsFor key velocity).Pairwise (· < ·) :=
  List.pairwise_lt_range.sublist List.filter_sublist

theorem voices_noteOn {s : Synth} {instrument : Instrument}
    (h : s.instrument = some instrument) (delay : UInt32) (key velocity : UInt8) :
    (s.noteOn delay key velocity).voices =
      (instrument.regionsFor key velocity).foldl
        (startRegion instrument.regions key velocity delay (s.frameCounter + delay.toNat))
        s.voices := by
  simp only [noteOn, h]

/-- A note starts the regions that answer to it in the order of their declaration. Each
takes the first free voice, with none free the oldest that is releasing, with none of
these the oldest of all, the first one among equal ages, and changes no other voice. So
with a free voice for every region nothing that sounds is changed, and a voice that was
active before the note is only taken once none is free and none is releasing. -/
theorem noteOn_takes_voices {s : Synth} {instrument : Instrument}
    (h : s.instrument = some instrument) (delay : UInt32) (key velocity : UInt8) :
    let age := s.frameCounter + delay.toNat
    let indices := instrument.regionsFor key velocity
    let pool (count : Nat) :=
      (indices.take count).foldl (startRegion instrument.regions key velocity delay age) s.voices
    (indices.Pairwise (· < ·) ∧ ∀ index, index ∈ indices ↔
      ∃ region, instrument.regions[index]? = some region ∧ region.matches key velocity) ∧
    pool 0 = s.voices ∧ (s.noteOn delay key velocity).voices = pool indices.length ∧
    (s.voices = [] → (s.noteOn delay key velocity).voices = []) ∧
    (∀ count, (hcount : count < indices.length) → s.voices ≠ [] →
      ∃ slot v region, instrument.regions[indices[count]]? = some region ∧
        Takes (pool count) slot v ∧
        pool (count + 1) =
          (pool count).set slot (v.start indices[count] region key velocity delay age) ∧
        ((∃ u, s.voices[slot]? = some u ∧ u.state = .active) →
          ∀ w ∈ pool count, w.state ≠ .free ∧ w.state ≠ .releasing)) ∧
    (indices.length ≤ s.voices.countP Voice.isFree →
      ∀ (slot : Nat) (v : Voice), s.voices[slot]? = some v → v.isFree = false →
        (s.noteOn delay key velocity).voices[slot]? = some v) := by
  intro age indices pool
  have hresult : (s.noteOn delay key velocity).voices = pool indices.length := by
    rw [voices_noteOn h]
    simp only [pool, List.take_length]
    rfl
  refine ⟨⟨regionsFor_increasing instrument key velocity, mem_regionsFor instrument key velocity⟩,
    rfl, hresult, fun hvoices => ?_, fun count hcount hvoices => ?_,
    fun hfree slot v hv hsounds => ?_⟩
  · rw [voices_noteOn h, ← List.length_eq_zero_iff, length_startRegions, hvoices, List.length_nil]
  · obtain ⟨region, hregion, -⟩ :=
      (mem_regionsFor instrument key velocity indices[count]).mp (List.getElem_mem hcount)
    have hpool : pool count ≠ [] := by
      rw [ne_eq, ← List.length_eq_zero_iff]
      simp only [pool, length_startRegions]
      rwa [List.length_eq_zero_iff]
    obtain ⟨slot, v, -, htakes, hset⟩ :=
      exists_startRegion key velocity delay age hregion hpool
    refine ⟨slot, v, region, hregion, htakes, ?_, fun hactive => ?_⟩
    · simp only [pool]
      rw [List.take_succ_eq_append_getElem hcount, List.foldl_concat]
      exact hset
    · -- The voice of the slot is still active, so it is only taken for want of others.
      obtain ⟨w, hw, hstate⟩ := getElem?_startRegions_of_active instrument.regions key velocity
        delay age (indices.take count) hactive
      obtain rfl : v = w := Option.some.inj (htakes.at_slot.symm.trans hw)
      cases htakes with
      | free _ hfree => simp [Voice.isFree, hstate] at hfree
      | releasing _ holdest => simpa [hstate] using holdest.holds
      | oldest hnone _ => exact hnone
  · rw [voices_noteOn h]
    exact getElem?_startRegions_of_free hfree hv hsounds

/-- Both voices play, the first of them only its release: the next note takes that one. -/
theorem next_note_takes_releasing :
    ∃ fresh, Synth.new .machine { numVoices := 2 } = .ok fresh ∧
      let s := ((({ fresh with instrument := some organ }.noteOn 0 60 100).noteOn 1 62 100).noteOff
        2 60 0)
      s.instrument = some organ ∧ s.voices.map Voice.state = [.releasing, .active] ∧
      (∃ slot v region, Takes s.voices slot v ∧
        (s.noteOn 3 64 100).voices = s.voices.set slot (v.start 0 region 64 100 3 3)) ∧
      (s.noteOn 3 64 100).voices.map Voice.note = [64, 62] := by
  obtain ⟨fresh, hnew⟩ := exists_duet
  obtain ⟨scratch, -, -, rfl⟩ := new_eq_ok hnew
  refine ⟨_, hnew, ?_⟩
  intro s
  have hloaded : s.instrument = some organ := rfl
  refine ⟨hloaded, rfl, ?_, rfl⟩
  obtain ⟨-, -, hresult, -, hsteps, -⟩ := noteOn_takes_voices hloaded 3 64 100
  have hvoices : s.voices ≠ [] := List.cons_ne_nil _ _
  obtain ⟨slot, v, region, -, htakes, hset, -⟩ := hsteps 0 (by decide) hvoices
  exact ⟨slot, v, region, htakes, hresult.trans hset⟩

end PolySampler.Synth
