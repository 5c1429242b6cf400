import PolySampler.Proofs.Synth.Voices

/-!
Voices and the instrument that is loaded. A voice knows its region by a number and has
the envelope of that region bound to it, also after it has fallen silent. Both would
point into another instrument once the instrument is replaced, were not every voice
made to let go of it: so whatever is bound to a voice is the envelope of its region in
the instrument that is loaded, and a note always finds its region there.
-/

namespace PolySampler

def Voice.regionIn? (loaded : Option Instrument) (v : Voice) : Option Region :=
  loaded.bind fun instrument => instrument.regions[v.region]?

namespace Voice

/-- What is bound to the voice is the envelope of its region in the instrument that is
loaded, and a note has something bound to it. -/
structure Belongs (loaded : Option Instrument) (v : Voice) : Prop where
  bound {d : Envelope.Description} (h : v.envelope.description = some d) :
    ∃ region, v.regionIn? loaded = some region ∧ region.envelope = d
  playing (h : v.isFree = false) : v.envelope.description.isSome

variable {loaded : Option Instrument} {v w : Voice}

theorem belongs_of_unbound (hbound : v.envelope.description = none) (hfree : v.isFree)
    (loaded : Option Instrument) : v.Belongs loaded := by
  refine ⟨fun h => ?_, fun h => ?_⟩
  · simp [hbound] at h
  · simp [hfree] at h

theorem Belongs.of_same (h : v.Belongs loaded) (hregion : w.region = v.region)
    (hbound : w.envelope.description = v.envelope.description)
    (hfree : w.isFree = false → v.isFree = false) : w.Belongs loaded := by
  refine ⟨fun hd => ?_, fun hplays => ?_⟩
  · rw [regionIn?, hregion]
    exact h.bound (hbound ▸ hd)
  · rw [hbound]
    exact h.playing (hfree hplays)

theorem belongs_start {instrument : Instrument} {index : Nat} {region : Region}
    (hregion : instrument.regions[index]? = some region) (v : Voice) (note velocity : UInt8)
    (delay : UInt32) (age : Nat) :
    (v.start index region note velocity delay age).Belongs (some instrument) := by
  have hbound : (v.start index region note velocity delay age).envelope.description =
      some region.envelope := rfl
  refine ⟨fun h => ⟨region, hregion, ?_⟩, fun _ => ?_⟩
  · exact Option.some.inj (hbound.symm.trans h)
  · rw [hbound]
    rfl

theorem Belongs.hold (h : v.Belongs loaded) : v.hold.Belongs loaded := by
  apply h.of_same
  · rw [Voice.hold]
    split <;> rfl
  · rw [Voice.hold]
    split <;> rfl
  · simp

theorem Belongs.release (h : v.Belongs loaded) (delay : UInt32) :
    (v.release delay).Belongs loaded := by
  apply h.of_same
  · rw [Voice.release]
    split <;> rfl
  · rw [Voice.release]
    split
    · exact (v.envelope.release_trigger delay).1
    · rfl
  · simp

theorem Belongs.free (h : v.Belongs loaded) : v.free.Belongs loaded := by
  refine h.of_same rfl rfl fun hplays => ?_
  simp at hplays

theorem Belongs.setSampleRate (h : v.Belongs loaded) (sampleRate : Float32) :
    (v.setSampleRate sampleRate).Belongs loaded := by
  refine h.of_same rfl ?_ id
  exact (v.envelope.setSampleRate_trigger sampleRate).1

theorem description_after (drive : Drive) (gain : Float32) (n : Nat) (v : Voice) :
    (v.after drive gain n).envelope.description = v.envelope.description := by
  induction n generalizing v with
  | zero => rfl
  | succ n ih =>
      rw [after_succ, ih, envelope_tick]
      exact v.envelope.description_tick

theorem Belongs.after (h : v.Belongs loaded) (drive : Drive) (gain : Float32) (n : Nat) :
    (v.after drive gain n).Belongs loaded := by
  have hsame := v.sameNote_after drive gain n
  apply h.of_same
  · exact hsame.region
  · exact description_after drive gain n v
  · simp only [isFree, hsame.state]
    exact id

theorem Belongs.played (h : v.Belongs loaded) (instrument : Instrument) (pitchRatio : Float32)
    (frames : Nat) : (v.played instrument pitchRatio frames).Belongs loaded := by
  rw [Voice.played]
  split
  · split
    · exact h.free
    · next region _ =>
        have hafter := h.after (v.drive region pitchRatio) (v.gain region) frames
        dsimp only
        split
        · exact hafter.free
        · exact hafter
  · exact h

/-- The region of a note is in the instrument, under the number that the voice knows. -/
theorem Belongs.exists_region (h : v.Belongs loaded) (hplays : v.isFree = false) :
    ∃ instrument region, loaded = some instrument ∧
      instrument.regions[v.region]? = some region ∧
      v.envelope.description = some region.envelope := by
  obtain ⟨d, hd⟩ := Option.isSome_iff_exists.mp (h.playing hplays)
  obtain ⟨region, hregion, rfl⟩ := h.bound hd
  obtain ⟨instrument, hloaded, hregion⟩ := Option.bind_eq_some_iff.mp hregion
  exact ⟨instrument, region, hloaded, hregion, hd⟩

end Voice

namespace Synth

open Signal Midi

theorem voiceInvariant_belongs : VoiceInvariant Voice.Belongs where
  new loaded _ := Voice.belongs_of_unbound rfl rfl loaded
  start _ hregion := Voice.belongs_start hregion _
  hold h := h.hold
  release h := h.release
  free h := h.free
  unbind _ loaded := Voice.belongs_of_unbound rfl rfl loaded
  setSampleRate h := h.setSampleRate
  played h := h.played _

/-- In every state that is reached, a note is played by a region of the instrument that
is loaded, and has the envelope of that very region bound to it; what is bound to a
voice, be it free or not, belongs to the instrument that is loaded. When the instrument
is replaced no note is left, and nothing is bound to any voice. So whichever way a block
is cut into chunks, every voice that is to be played in one finds its region. -/
theorem voices_belong_to_instrument {s : Synth} (h : Reachable s) :
    (∀ v ∈ s.voices,
      (v.isFree = false → ∃ instrument region, s.instrument = some instrument ∧
        v.region < instrument.regions.size ∧ instrument.regions[v.region]? = some region ∧
        v.envelope.description = some region.envelope) ∧
      ∀ d, v.envelope.description = some d → ∃ instrument, s.instrument = some instrument ∧
        ∃ region ∈ instrument.regions, region.envelope = d) ∧
    (∀ instrument, ∀ v ∈ (s.setInstrument instrument).2.voices,
      v.isActive = false ∧ v.envelope.description = none) ∧
    ∀ outputs, ∀ k ∈ s.chunks (sharedFrames outputs) 0, ∀ v ∈ k.synth.voices, v.isActive →
      ∃ instrument region, k.synth.instrument = some instrument ∧
        instrument.regions[v.region]? = some region := by
  have hbelongs := voiceInvariant_belongs.reachable h
  refine ⟨fun v hv => ⟨fun hplays => ?_, fun d hd => ?_⟩, fun instrument w hw => ?_,
    fun outputs k hk v hv hactive => ?_⟩
  · obtain ⟨instrument, region, hloaded, hregion, hbound⟩ := (hbelongs v hv).exists_region hplays
    obtain ⟨hlt, -⟩ := Array.getElem?_eq_some_iff.mp hregion
    exact ⟨instrument, region, hloaded, hlt, hregion, hbound⟩
  · obtain ⟨region, hregion, henvelope⟩ := (hbelongs v hv).bound hd
    obtain ⟨instrument, hloaded, hregion⟩ := Option.bind_eq_some_iff.mp hregion
    exact ⟨instrument, hloaded, region, Array.mem_of_getElem? hregion, henvelope⟩
  · obtain ⟨v, -, rfl⟩ := List.mem_map.mp hw
    exact ⟨rfl, rfl⟩
  · have hchunk := voiceInvariant_belongs.of_mem_chunks hbelongs hk v hv
    have hplays : v.isFree = false := by
      simpa [Voice.isActive_eq_not_isFree] using hactive
    obtain ⟨instrument, region, hloaded, hregion, -⟩ := hchunk.exists_region hplays
    exact ⟨instrument, region, hloaded, hregion⟩

/-- A note whose key has come up is still bound to the one region of its instrument. -/
theorem released_note_keeps_region :
    ∃ fresh, Synth.new .machine { numVoices := 2 } = .ok fresh ∧
      let s := [.setInstrument (some organ), .perform (.noteOn 9 60 100),
        .perform (.noteOff 3 60 0)].foldl Request.run fresh
      Reachable s ∧ ∃ v ∈ s.voices, v.isFree = false ∧
        ∃ instrument region, s.instrument = some instrument ∧
          v.region < instrument.regions.size ∧
          instrument.regions[v.region]? = some region ∧
          v.envelope.description = some region.envelope := by
  obtain ⟨fresh, hnew⟩ := exists_duet
  have hreachable := (((Reachable.new hnew).run (.setInstrument (some organ))).run
    (.perform (.noteOn 9 60 100))).run (.perform (.noteOff 3 60 0))
  obtain ⟨hvoices, -⟩ := voices_belong_to_instrument hreachable
  obtain ⟨scratch, -, -, rfl⟩ := new_eq_ok hnew
  exact ⟨_, hnew, hreachable, _, List.mem_cons_self, rfl, (hvoices _ List.mem_cons_self).1 rfl⟩

end Synth

end PolySampler
