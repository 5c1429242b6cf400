import Mathlib.Data.List.Nodup
import PolySampler.Proofs.Synth.Allocation
import PolySampler.Proofs.Synth.Reachable

/-!
The layers of one note, and the voices they end up in. A layer that has just been
started is as old as every other note of its frame, so in a full pool the next layer of
the same note may take its voice. How many layers a note can keep is counted beforehand:
as many as there are voices that give way to it, and one more if each of these stands
behind another note of the same frame.
-/

namespace PolySampler

namespace Voice

/-- The voice is taken for a note of this age before one that was started for it: it is
not active, or older. -/
def givesWay (age : Nat) (v : Voice) : Bool :=
  v.state ≠ .active || v.age < age

variable {age : Nat} {v : Voice}

theorem givesWay_eq_false_iff : v.givesWay age = false ↔ v.state = .active ∧ age ≤ v.age := by
  simp [givesWay]

@[simp] theorem givesWay_start (v : Voice) (index : Nat) (region : Region) (key velocity : UInt8)
    (delay : UInt32) (age : Nat) :
    (v.start index region key velocity delay age).givesWay age = false :=
  givesWay_eq_false_iff.mpr ⟨rfl, Nat.le_refl age⟩

end Voice

namespace Synth

/-- Every voice that gives way stands behind an active one of the age itself. -/
def Preceded (age : Nat) (voices : List Voice) : Prop :=
  ∀ (slot : Nat) (v : Voice), voices[slot]? = some v → v.givesWay age →
    ∃ earlier < slot, ∃ u, voices[earlier]? = some u ∧ u.state = .active ∧ u.age = age

/-- The regions of these indices are started one after the other, each in the voice that
is to be taken next; the slots of these voices are listed. -/
inductive Layered (regions : Array Region) (key velocity : UInt8) (delay : UInt32)
    (age : Nat) : (voices : List Voice) → (indices slots : List Nat) →
      (after : List Voice) → Prop where
  | nil (voices : List Voice) : Layered regions key velocity delay age voices [] [] voices
  | cons {voices after : List Voice} {index slot : Nat} {indices slots : List Nat}
      {region : Region} {v : Voice} (hregion : regions[index]? = some region)
      (htakes : Takes voices slot v)
      (hrest : Layered regions key velocity delay age
        (voices.set slot (v.start index region key velocity delay age)) indices slots after) :
      Layered regions key velocity delay age voices (index :: indices) (slot :: slots) after

section Layered

variable {regions : Array Region} {key velocity : UInt8} {delay : UInt32} {age : Nat}
  {voices after : List Voice} {indices slots : List Nat} {slot : Nat} {v : Voice}

/-! ### The run of a note -/

theorem exists_layered (key velocity : UInt8) (delay : UInt32) (age : Nat)
    (hregions : ∀ index ∈ indices, ∃ region, regions[index]? = some region)
    (hfits : indices.length ≤ voices.length) :
    ∃ slots, Layered regions key velocity delay age voices indices slots
      (indices.foldl (startRegion regions key velocity delay age) voices) := by
  induction indices generalizing voices with
  | nil => exact ⟨[], .nil voices⟩
  | cons index indices ih =>
      obtain ⟨region, hregion⟩ := hregions index List.mem_cons_self
      have hvoices : voices ≠ [] := by
        rintro rfl
        simp at hfits
      obtain ⟨slot, v, -, htakes, hset⟩ :=
        exists_startRegion key velocity delay age hregion hvoices
      rw [List.foldl_cons, hset]
      have hrest : indices.length ≤
          (voices.set slot (v.start index region key velocity delay age)).length := by
        rw [List.length_set]
        exact Nat.le_of_succ_le hfits
      obtain ⟨slots, hslots⟩ := ih (fun index hindex => hregions index (.tail _ hindex)) hrest
      exact ⟨slot :: slots, .cons hregion htakes hslots⟩

namespace Layered

theorem length_slots (h : Layered regions key velocity delay age voices indices slots after) :
    slots.length = indices.length := by
  induction h with
  | nil => rfl
  | cons _ _ _ ih => rw [List.length_cons, List.length_cons, ih]

theorem kept (h : Layered regions key velocity delay age voices indices slots after)
    (hslot : slot ∉ slots) : after[slot]? = voices[slot]? := by
  induction h with
  | nil => rfl
  | cons _ _ _ ih =>
      rw [List.mem_cons, not_or] at hslot
      rw [ih hslot.2, List.getElem?_set_ne (Ne.symm hslot.1)]

theorem started (h : Layered regions key velocity delay age voices indices slots after)
    (hnodup : slots.Nodup) {index : Nat} (hlayer : (index, slot) ∈ indices.zip slots) :
    ∃ region v, regions[index]? = some region ∧ voices[slot]? = some v ∧
      after[slot]? = some (v.start index region key velocity delay age) := by
  induction h with
  | nil => simp at hlayer
  | @cons voices _ _ taken _ _ region v hregion htakes hrest ih =>
      rw [List.nodup_cons] at hnodup
      have htaken := htakes.at_slot
      rw [List.zip_cons_cons, List.mem_cons] at hlayer
      rcases hlayer with hlayer | hlayer
      · obtain ⟨rfl, rfl⟩ := Prod.mk.inj hlayer
        refine ⟨region, v, hregion, htaken, ?_⟩
        rw [hrest.kept hnodup.1,
          List.getElem?_set_self (List.getElem?_eq_some_iff.mp htaken).1]
      · obtain ⟨region, v, hregion, hv, hafter⟩ := ih hnodup.2 hlayer
        have hother : taken ≠ slot := by
          rintro rfl
          exact hnodup.1 (List.of_mem_zip hlayer).2
        rw [List.getElem?_set_ne hother] at hv
        exact ⟨region, v, hregion, hv, hafter⟩

theorem age_of_mem (h : Layered regions key velocity delay age voices indices slots after)
    (hnodup : slots.Nodup) (hslot : slot ∈ slots) : ∃ w, after[slot]? = some w ∧ w.age = age := by
  rw [← List.map_snd_zip (Nat.le_of_eq h.length_slots)] at hslot
  obtain ⟨⟨index, slot⟩, hlayer, rfl⟩ := List.mem_map.mp hslot
  obtain ⟨_, _, -, -, hafter⟩ := h.started hnodup hlayer
  exact ⟨_, hafter, rfl⟩

theorem split {first rest : List Nat}
    (h : Layered regions key velocity delay age voices (first ++ rest) slots after) :
    ∃ slots₁ slots₂ middle, slots = slots₁ ++ slots₂ ∧
      Layered regions key velocity delay age voices first slots₁ middle ∧
      Layered regions key velocity delay age middle rest slots₂ after := by
  induction first generalizing voices slots with
  | nil => exact ⟨[], slots, voices, rfl, .nil voices, h⟩
  | cons index first ih =>
      cases h with
      | cons hregion htakes hrest =>
          obtain ⟨slots₁, slots₂, middle, rfl, hfirst, hsecond⟩ := ih hrest
          exact ⟨_ :: slots₁, slots₂, middle, rfl, .cons hregion htakes hfirst, hsecond⟩

end Layered

/-! ### As long as voices give way -/

theorem Takes.givesWay (h : Takes voices slot v)
    (hroom : 0 < voices.countP (Voice.givesWay age)) : v.givesWay age := by
  cases h with
  | free _ hfree => simp_all [Voice.givesWay, Voice.isFree]
  | releasing _ holdest =>
      have := holdest.holds
      simp_all [Voice.givesWay]
  | oldest hnone holdest =>
      -- All are active, so the one that gives way is older, and the oldest of all is too.
      obtain ⟨u, hu, hgives⟩ := List.countP_pos_iff.mp hroom
      obtain ⟨other, hother⟩ := List.getElem?_of_mem hu
      have hactive : u.state = .active := by
        obtain ⟨hfree, hreleasing⟩ := hnone u hu
        cases hstate : u.state <;> simp_all
      have hage : u.age < age := by simpa [Voice.givesWay, hactive] using hgives
      have := holdest.least other u hother rfl
      simp only [Voice.givesWay, Bool.or_eq_true, decide_eq_true_eq]
      omega

theorem Takes.countP_set (h : Takes voices slot v) (index : Nat) (region : Region)
    (key velocity : UInt8) (delay : UInt32) :
    (voices.set slot (v.start index region key velocity delay age)).countP (Voice.givesWay age) =
      voices.countP (Voice.givesWay age) - 1 := by
  obtain ⟨hlt, heq⟩ := List.getElem?_eq_some_iff.mp h.at_slot
  rw [List.countP_set hlt, heq, Voice.givesWay_start]
  by_cases hroom : 0 < voices.countP (Voice.givesWay age)
  · simp [h.givesWay hroom]
  · simp [Nat.eq_zero_of_not_pos hroom]

namespace Layered

theorem countP_after (h : Layered regions key velocity delay age voices indices slots after) :
    after.countP (Voice.givesWay age) =
      voices.countP (Voice.givesWay age) - indices.length := by
  induction h with
  | nil => rfl
  | cons _ htakes _ ih =>
      rw [ih, htakes.countP_set, List.length_cons]
      omega

/-- As long as there are voices that give way, only they are taken, and none twice. -/
theorem nodup_of_le (h : Layered regions key velocity delay age voices indices slots after)
    (hroom : indices.length ≤ voices.countP (Voice.givesWay age)) :
    slots.Nodup ∧ ∀ slot ∈ slots, ∃ v, voices[slot]? = some v ∧ v.givesWay age := by
  induction h with
  | nil => exact ⟨List.nodup_nil, nofun⟩
  | @cons voices _ _ taken _ slots region v _ htakes _ ih =>
      rw [List.length_cons] at hroom
      obtain ⟨hnodup, hgives⟩ := ih (by rw [htakes.countP_set]; omega)
      have hlt := (List.getElem?_eq_some_iff.mp htakes.at_slot).1
      have hfresh : taken ∉ slots := by
        intro hmem
        obtain ⟨w, hw, hway⟩ := hgives taken hmem
        rw [List.getElem?_set_self hlt] at hw
        rw [← Option.some.inj hw, Voice.givesWay_start] at hway
        exact absurd hway (by decide)
      refine ⟨List.nodup_cons.mpr ⟨hfresh, hnodup⟩, fun other hother => ?_⟩
      rcases List.mem_cons.mp hother with rfl | hother
      · exact ⟨v, htakes.at_slot, htakes.givesWay (by omega)⟩
      · obtain ⟨w, hw, hway⟩ := hgives other hother
        have hne : taken ≠ other := by
          rintro rfl
          exact hfresh hother
        rw [List.getElem?_set_ne hne] at hw
        exact ⟨w, hw, hway⟩

end Layered

/-! ### In a pool in which no voice gives way -/

theorem active_of_full (hfull : voices.countP (Voice.givesWay age) = 0)
    (hv : voices[slot]? = some v) : v.state = .active ∧ age ≤ v.age := by
  have := List.countP_eq_zero.mp hfull v (List.mem_of_getElem? hv)
  rwa [Bool.not_eq_true, Voice.givesWay_eq_false_iff] at this

theorem Layered.mem_of_givesWay
    (h : Layered regions key velocity delay age voices indices slots after)
    (hfull : after.countP (Voice.givesWay age) = 0) (hv : voices[slot]? = some v)
    (hway : v.givesWay age) : slot ∈ slots := by
  by_contra hnot
  have hkept := (h.kept hnot).trans hv
  have := Voice.givesWay_eq_false_iff.mpr (active_of_full hfull hkept)
  rw [hway] at this
  exact absurd this (by decide)

/-- Where no voice gives way, the oldest of all is taken. -/
theorem Takes.firstOldest (h : Takes voices slot v)
    (hfull : voices.countP (Voice.givesWay age) = 0) :
    FirstOldest (fun _ => true) voices slot v := by
  have hactive := (active_of_full hfull h.at_slot).1
  cases h with
  | free _ hfree => simp [Voice.isFree, hactive] at hfree
  | releasing _ holdest => simpa [hactive] using holdest.holds
  | oldest _ holdest => exact holdest

/-- Where no voice gives way, a second layer takes the voice of the first. -/
theorem Takes.again {w : Voice} {index : Nat} {region : Region} {next : Nat}
    (h : Takes voices slot v) (hfull : voices.countP (Voice.givesWay age) = 0)
    (hnext : Takes (voices.set slot (v.start index region key velocity delay age)) next w) :
    next = slot := by
  have hfull' : (voices.set slot (v.start index region key velocity delay age)).countP
      (Voice.givesWay age) = 0 := by rw [h.countP_set, hfull]
  have hlt := (List.getElem?_eq_some_iff.mp h.at_slot).1
  have hfirst := (hnext.firstOldest hfull').least slot _ (List.getElem?_set_self hlt) rfl
  have hw := (active_of_full hfull' hnext.at_slot).2
  change w.age < age ∨ w.age = age ∧ next ≤ slot at hfirst
  by_contra hne
  -- An earlier voice of this age would have been taken for the first layer already.
  have hold := hnext.at_slot
  rw [List.getElem?_set_ne (Ne.symm hne)] at hold
  have := (h.firstOldest hfull).least next w hold rfl
  have := (active_of_full hfull h.at_slot).2
  omega

/-- Once the voices that give way are all taken, the next layer takes another voice than
these if they stand behind one of the age itself, and only then. -/
theorem Layered.next_not_mem_iff
    (h : Layered regions key velocity delay age voices indices slots after)
    (hroom : indices.length = voices.countP (Voice.givesWay age)) (hnext : Takes after slot v) :
    slot ∉ slots ↔ Preceded age voices := by
  obtain ⟨hnodup, hgives⟩ := h.nodup_of_le (Nat.le_of_eq hroom)
  have hfull : after.countP (Voice.givesWay age) = 0 := by rw [h.countP_after, hroom, Nat.sub_self]
  have holdest := hnext.firstOldest hfull
  have hage := (active_of_full hfull hnext.at_slot).2
  constructor
  · intro hfresh other u hu hway
    have htaken := h.mem_of_givesWay hfull hu hway
    obtain ⟨w, hw, hwage⟩ := h.age_of_mem hnodup htaken
    have hbefore := holdest.least other w hw rfl
    have hne : slot ≠ other := by
      rintro rfl
      exact hfresh htaken
    have hv := hnext.at_slot
    rw [h.kept hfresh] at hv
    exact ⟨slot, by omega, v, hv, (active_of_full hfull hnext.at_slot).1, by omega⟩
  · intro hpreceded htaken
    obtain ⟨u, hu, hway⟩ := hgives slot htaken
    obtain ⟨earlier, hearlier, w, hw, hactive, hwage⟩ := hpreceded slot u hu hway
    have hfresh : earlier ∉ slots := by
      intro hmem
      obtain ⟨w', hw', hway'⟩ := hgives earlier hmem
      obtain rfl := Option.some.inj (hw.symm.trans hw')
      simp [Voice.givesWay, hactive, hwage] at hway'
    have hbefore := holdest.least earlier w ((h.kept hfresh).trans hw) rfl
    obtain ⟨v', hv', hage'⟩ := h.age_of_mem hnodup htaken
    obtain rfl := Option.some.inj (hv'.symm.trans hnext.at_slot)
    omega

/-- No slot is taken twice if there are as many voices that give way as there are layers,
or one less and each of them stands behind one of the age itself. -/
theorem Layered.nodup_iff
    (h : Layered regions key velocity delay age voices indices slots after) :
    slots.Nodup ↔ indices.length ≤ voices.countP (Voice.givesWay age) ∨
      indices.length = voices.countP (Voice.givesWay age) + 1 ∧ Preceded age voices := by
  by_cases hroom : indices.length ≤ voices.countP (Voice.givesWay age)
  · exact iff_of_true (h.nodup_of_le hroom).1 (.inl hroom)
  · -- The first layers take the voices that give way; the run goes on in a full pool.
    rw [← List.take_append_drop (voices.countP (Voice.givesWay age)) indices] at h
    obtain ⟨slots₁, slots₂, middle, rfl, hfirst, hrest⟩ := h.split
    have htake : (indices.take (voices.countP (Voice.givesWay age))).length =
        voices.countP (Voice.givesWay age) := by
      rw [List.length_take]
      omega
    have hfull : middle.countP (Voice.givesWay age) = 0 := by
      rw [hfirst.countP_after, htake, Nat.sub_self]
    have hdrop : (indices.drop (voices.countP (Voice.givesWay age))).length =
        indices.length - voices.countP (Voice.givesWay age) := List.length_drop
    generalize indices.drop (voices.countP (Voice.givesWay age)) = more at hrest hdrop
    cases hrest with
    | nil => simp at hdrop; omega
    | @cons _ _ _ slot _ slots₂ _ _ _ htakes hrest =>
        cases hrest with
        | nil =>
            have hlength : indices.length = voices.countP (Voice.givesWay age) + 1 := by
              rw [List.length_singleton] at hdrop
              omega
            rw [← List.concat_eq_append, List.nodup_concat, hfirst.next_not_mem_iff htake htakes,
              and_iff_left (hfirst.nodup_of_le (Nat.le_of_eq htake)).1, or_iff_right hroom,
              and_iff_right hlength]
        | cons _ htakes' _ =>
            obtain rfl := htakes.again hfull htakes'
            have hlength : indices.length ≠ voices.countP (Voice.givesWay age) + 1 := by
              rw [List.length_cons, List.length_cons] at hdrop
              omega
            exact iff_of_false (by simp [List.nodup_append]) (by simp [hroom, hlength])

end Layered

/-! ### The layers of a note -/

/-- A note with no more regions than there are voices keeps them all, each in a voice of
its own, if and only if as many voices give way to it as it has regions, or one less and
each of these stands behind an active one of the same frame. -/
theorem layers_kept_iff {s : Synth} {instrument : Instrument}
    (h : s.instrument = some instrument) (delay : UInt32) (key velocity : UInt8)
    (hfits : (instrument.regionsFor key velocity).length ≤ s.voices.length) :
    let age := s.frameCounter + delay.toNat
    let layers := instrument.regionsFor key velocity
    let after := (s.noteOn delay key velocity).voices
    let room := s.voices.countP (Voice.givesWay age)
    ∃ slots, Layered instrument.regions key velocity delay age s.voices layers slots after ∧
      slots.length = layers.length ∧
      ((slots.Nodup ∧ ∀ index slot, (index, slot) ∈ layers.zip slots →
          ∃ region v w, instrument.regions[index]? = some region ∧ s.voices[slot]? = some v ∧
            after[slot]? = some w ∧ w = v.start index region key velocity delay age ∧
            w.state = .active ∧ w.note = key ∧ w.region = index) ↔
        layers.length ≤ room ∨ layers.length = room + 1 ∧ Preceded age s.voices) := by
  intro age layers after room
  have hregions (index : Nat) (hindex : index ∈ layers) :
      ∃ region, instrument.regions[index]? = some region := by
    obtain ⟨region, hregion, -⟩ := (mem_regionsFor instrument key velocity index).mp hindex
    exact ⟨region, hregion⟩
  obtain ⟨slots, hslots⟩ := exists_layered key velocity delay age hregions hfits
  rw [← voices_noteOn h] at hslots
  refine ⟨slots, hslots, hslots.length_slots, ?_⟩
  rw [← hslots.nodup_iff]
  refine ⟨And.left, fun hnodup => ⟨hnodup, fun index slot hlayer => ?_⟩⟩
  obtain ⟨region, v, hregion, hv, hafter⟩ := hslots.started hnodup hlayer
  exact ⟨region, v, _, hregion, hv, hafter, rfl, rfl, rfl, rfl⟩

/-- An organ with a second sound from key 61 on. -/
def doubled : Instrument :=
  let sound (lowest : UInt8) : Region := {
    keys := ⟨lowest, 127⟩, velocities := ⟨0, 127⟩, keycenter := 60, gain := 1
    source := .oscillator .sine, envelope := default }
  { organ with regions := #[sound 0, sound 61] }

/-- Behind a note of the same frame there is one free voice; both layers of the next note
are kept, the second of them in the voice of the other note. -/
theorem layers_kept_behind_note :
    ∃ fresh, Synth.new .machine { numVoices := 2 } = .ok fresh ∧
      let s := { fresh with instrument := some doubled }.noteOn 0 60 100
      let after := (s.noteOn 0 62 100).voices
      s.instrument = some doubled ∧ (doubled.regionsFor 62 100).length ≤ s.voices.length ∧
      (∃ slots, Layered doubled.regions 62 100 0 0 s.voices [0, 1] slots after ∧ slots.Nodup) ∧
      after.map (fun v => (v.note, v.region)) = [(62, 1), (62, 0)] := by
  obtain ⟨fresh, hnew⟩ := exists_duet
  obtain ⟨scratch, -, -, rfl⟩ := new_eq_ok hnew
  refine ⟨_, hnew, ?_⟩
  intro s after
  have hloaded : s.instrument = some doubled := rfl
  have hlayers : doubled.regionsFor 62 100 = [0, 1] := by decide
  have hfits : (doubled.regionsFor 62 100).length ≤ s.voices.length := by
    rw [hlayers]
    exact Nat.le_refl 2
  refine ⟨hloaded, hfits, ?_, rfl⟩
  obtain ⟨slots, hslots, -, hkept⟩ := layers_kept_iff hloaded 0 62 100 hfits
  have hpreceded : Preceded 0 s.voices := by
    intro slot v hv hway
    match slot, hv with
    | 0, hv =>
        obtain rfl := Option.some.inj hv
        exact (Bool.false_ne_true hway).elim
    | 1, _ => exact ⟨0, Nat.one_pos, _, rfl, rfl, rfl⟩
  refine ⟨slots, hslots, (hkept.mpr (.inr ⟨?_, hpreceded⟩)).1⟩
  rw [hlayers]
  rfl

/-- With two notes of one frame in a full pool, the second layer of the next takes the
voice of the first. -/
theorem layer_takes_layer :
    ∃ fresh, Synth.new .machine { numVoices := 2 } = .ok fresh ∧
      let s := Request.run (Request.run fresh (.setInstrument (some doubled)))
        (.perform (.noteOn 0 62 100))
      let after := (Request.run s (.perform (.noteOn 0 64 100))).voices
      Reachable s ∧ s.instrument = some doubled ∧ doubled.regionsFor 64 100 = [0, 1] ∧
      s.voices.length = 2 ∧
      after.map (fun v => (v.note, v.region)) = [(64, 1), (62, 1)] ∧
      ¬ ∃ v ∈ after, v.state = .active ∧ v.note = 64 ∧ v.region = 0 := by
  obtain ⟨fresh, hnew⟩ := exists_duet
  have hreachable := ((Reachable.new hnew).run (.setInstrument (some doubled))).run
    (.perform (.noteOn 0 62 100))
  obtain ⟨scratch, -, -, rfl⟩ := new_eq_ok hnew
  refine ⟨_, hnew, ?_⟩
  intro s after
  have hafter : after.map (fun v => (v.note, v.region)) = [(64, 1), (62, 1)] := rfl
  refine ⟨hreachable, rfl, by decide, rfl, hafter, ?_⟩
  rintro ⟨v, hv, -, hnote, hregion⟩
  have hmem := List.mem_map_of_mem (f := fun v => (v.note, v.region)) hv
  rw [hafter, hnote, hregion] at hmem
  exact absurd hmem (by decide)

end Synth

end PolySampler
