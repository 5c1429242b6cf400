import Mathlib.Data.List.Basic
import Mathlib.Data.List.Forall2
import PolySampler.Proofs.Synth.Block

/-!
A block one frame at a time. `afterFrames` lets each frame be a chunk of its own,
and whatever chunks a block is cut into, the same voices outlast it, in the same
state. If all of them do, every frame gets the sample that it gets as a chunk of
its own.
-/

namespace PolySampler

/-- The voices are the same, or none of the two sounds. -/
def Voice.SameOrSilent (v w : Voice) : Prop :=
  v = w ∨ v.isActive = false ∧ w.isActive = false

theorem Voice.SameOrSilent.isActive_eq {v w : Voice} (h : v.SameOrSilent w) :
    v.isActive = w.isActive := by
  rcases h with rfl | ⟨hv, hw⟩
  · rfl
  · rw [hv, hw]

theorem Voice.SameOrSilent.trans {u v w : Voice} (h : u.SameOrSilent v) (h' : v.SameOrSilent w) :
    u.SameOrSilent w := by
  rcases h with rfl | ⟨hu, hv⟩
  · exact h'
  · exact .inr ⟨hu, h'.isActive_eq.symm.trans hv⟩

namespace Synth

open Signal

/-- The synths sound the same from now on. They may differ in the block size, in
what the storage holds and in voices that are silent. -/
structure SameSound (s t : Synth) : Prop where
  masterGain : s.masterGain = t.masterGain
  instrument : s.instrument = t.instrument
  numChannels : s.scratch.numChannels = t.scratch.numChannels
  controllers : s.controllers = t.controllers
  performance : s.performance = t.performance
  pending : s.pending = t.pending
  frameCounter : s.frameCounter = t.frameCounter
  voices : List.Forall₂ Voice.SameOrSilent s.voices t.voices

theorem SameSound.refl (s : Synth) : SameSound s s :=
  ⟨rfl, rfl, rfl, rfl, rfl, rfl, rfl, List.forall₂_same.mpr fun _ _ => .inl rfl⟩

theorem SameSound.symm {s t : Synth} (h : SameSound s t) : SameSound t s := by
  refine ⟨h.masterGain.symm, h.instrument.symm, h.numChannels.symm, h.controllers.symm,
    h.performance.symm, h.pending.symm, h.frameCounter.symm, ?_⟩
  refine List.Forall₂.flip (h.voices.imp fun v w hvw => ?_)
  rcases hvw with rfl | ⟨hv, hw⟩
  · exact .inl rfl
  · exact .inr ⟨hw, hv⟩

theorem forall₂_trans {us vs ws : List Voice} (h : List.Forall₂ Voice.SameOrSilent us vs)
    (h' : List.Forall₂ Voice.SameOrSilent vs ws) : List.Forall₂ Voice.SameOrSilent us ws := by
  induction h generalizing ws with
  | nil => exact h'
  | cons huv _ ih =>
      cases h' with
      | cons hvw hrest => exact .cons (huv.trans hvw) (ih hrest)

theorem SameSound.trans {s t u : Synth} (h : SameSound s t) (h' : SameSound t u) :
    SameSound s u :=
  ⟨h.masterGain.trans h'.masterGain, h.instrument.trans h'.instrument,
    h.numChannels.trans h'.numChannels, h.controllers.trans h'.controllers,
    h.performance.trans h'.performance, h.pending.trans h'.pending,
    h.frameCounter.trans h'.frameCounter, forall₂_trans h.voices h'.voices⟩

/-! ### Rendering does not tell them apart -/

section Congruence

variable {s t : Synth}

theorem SameSound.applyDue (h : SameSound s t) (frame : Nat) :
    SameSound (s.applyDue frame) (t.applyDue frame) :=
  ⟨h.masterGain, h.instrument, h.numChannels, h.controllers,
    by simp only [Synth.applyDue, h.performance, h.pending],
    by simp only [Synth.applyDue, h.pending], h.frameCounter, h.voices⟩

theorem SameSound.applyRest (h : SameSound s t) : SameSound s.applyRest t.applyRest :=
  ⟨h.masterGain, h.instrument, h.numChannels, h.controllers,
    by simp only [Synth.applyRest, h.performance, h.pending], rfl, h.frameCounter, h.voices⟩

theorem play_of_not_isActive (s : Synth) (length : Nat) {v : Voice} (h : v.isActive = false) :
    s.play length v = v := by
  rw [play]
  split
  · rfl
  · cases s.instrument with
    | none => rfl
    | some instrument => exact Voice.played_of_not_isActive h _ _ _

theorem SameSound.play_eq (h : SameSound s t) (length : Nat) : s.play length = t.play length := by
  funext v
  simp only [play, h.numChannels, h.instrument, h.performance]

theorem SameSound.afterChunk (h : SameSound s t) (length : Nat) :
    SameSound (s.afterChunk length) (t.afterChunk length) := by
  refine ⟨by simp [h.masterGain], by simp [h.instrument], by simp [h.numChannels],
    by simp [h.controllers], by simp [h.performance], by simp [h.pending],
    by simp [frameCounter_afterChunk, h.numChannels, h.frameCounter], ?_⟩
  rw [voices_afterChunk, voices_afterChunk, h.play_eq, List.forall₂_map_left_iff,
    List.forall₂_map_right_iff]
  refine h.voices.imp fun v w hvw => ?_
  rcases hvw with rfl | ⟨hv, hw⟩
  · exact .inl rfl
  · rw [play_of_not_isActive _ _ hv, play_of_not_isActive _ _ hw]
    exact .inr ⟨hv, hw⟩

theorem SameSound.sampleAt_eq (h : SameSound s t) (channels channel frame : Nat) :
    s.sampleAt channels channel frame = t.sampleAt channels channel frame := by
  have hsides : s.sidesAt frame = t.sidesAt frame := by
    unfold sidesAt
    rw [h.instrument, h.performance]
    cases t.instrument with
    | none => rfl
    | some instrument =>
        refine List.rel_foldl (P := Eq) ?_ rfl h.voices
        rintro sides _ rfl v w (rfl | ⟨hv, hw⟩)
        · rfl
        · simp [Voice.addSoundAt, hv, hw]
  unfold sampleAt
  rw [h.numChannels, h.masterGain, h.performance, hsides]

end Congruence

/-! ### Which voices sound -/

def sounds (s : Synth) (i : Nat) : Bool :=
  s.voices[i]?.any Voice.isActive

theorem SameSound.getElem? {s t : Synth} (h : SameSound s t) (i : Nat) :
    s.sounds i = t.sounds i ∧ (s.sounds i → s.voices[i]? = t.voices[i]?) := by
  unfold sounds
  have hvoices := h.voices
  generalize s.voices = voices, t.voices = others at hvoices ⊢
  induction hvoices generalizing i with
  | nil => exact ⟨rfl, fun _ => rfl⟩
  | cons hvw _ ih =>
      cases i with
      | succ i => exact ih i
      | zero =>
          refine ⟨hvw.isActive_eq, fun hsounds => ?_⟩
          rcases hvw with rfl | ⟨hv, -⟩
          · rfl
          · exact Bool.noConfusion (hv.symm.trans hsounds)

/-- What is silent stays as it is, so nothing begins to sound. -/
structure Quieter (s t : Synth) : Prop where
  silent : ∀ i, s.sounds i = false → t.voices[i]? = s.voices[i]?

theorem Quieter.sounds {s t : Synth} (h : Quieter s t) {i : Nat} (ht : t.sounds i) :
    s.sounds i := by
  cases hs : s.sounds i with
  | true => rfl
  | false =>
      rw [Synth.sounds] at ht hs
      rw [h.silent i hs, hs] at ht
      exact ht

theorem Quieter.trans {s t u : Synth} (h : Quieter s t) (h' : Quieter t u) : Quieter s u := by
  refine ⟨fun i hi => ?_⟩
  have ht : t.sounds i = false := by
    rw [Synth.sounds] at hi ⊢
    rw [h.silent i hi, hi]
  rw [h'.silent i ht, h.silent i hi]

theorem quieter_afterChunk (s : Synth) (length : Nat) : Quieter s (s.afterChunk length) := by
  refine ⟨fun i hi => ?_⟩
  rw [sounds] at hi
  rw [voices_afterChunk, List.getElem?_map]
  cases hv : s.voices[i]? with
  | none => rfl
  | some v =>
      rw [hv] at hi
      have hsilent : v.isActive = false := hi
      rw [Option.map_some, s.play_of_not_isActive length hsilent]

theorem quieter_afterChunks (frames offset : Nat) (s : Synth) :
    Quieter s (s.afterChunks frames offset) := by
  induction offset, s using chunk_induction frames with
  | done offset s h =>
      rw [afterChunks_of_le h]
      exact ⟨fun _ _ => rfl⟩
  | chunk offset s h ih =>
      rw [afterChunks_of_lt h]
      have hdue : Quieter s (s.applyDue offset) := ⟨fun _ _ => rfl⟩
      exact (hdue.trans (quieter_afterChunk _ _)).trans ih

/-! ### Cutting a chunk -/

theorem sameOrSilent_play_add (s : Synth) (m n : Nat) (v : Voice) :
    (s.play (m + n) v).SameOrSilent (s.play n (s.play m v)) := by
  unfold play
  split
  · exact .inl rfl
  · cases s.instrument with
    | none => exact .inl rfl
    | some instrument => exact v.played_add_cases instrument s.performance.pitchRatio m n

/-- A chunk that is cut in two leaves the same voices. -/
theorem sameSound_afterChunk_add (s : Synth) (m n : Nat) :
    SameSound (s.afterChunk (m + n)) ((s.afterChunk m).afterChunk n) := by
  have hplay : (s.afterChunk m).play n = s.play n := by
    funext v
    simp [play]
  refine ⟨by simp, by simp, by simp, by simp, by simp, by simp, ?_, ?_⟩
  · simp only [frameCounter_afterChunk, numChannels_afterChunk]
    split
    · rfl
    · omega
  · rw [voices_afterChunk, voices_afterChunk, voices_afterChunk, hplay, List.map_map,
      List.forall₂_map_left_iff, List.forall₂_map_right_iff]
    exact List.forall₂_same.mpr fun v _ => s.sameOrSilent_play_add m n v

/-- If all voices outlast the first frames of a chunk, the rest of it sounds as
if it were cut off. -/
theorem sampleAt_add {s : Synth} {m : Nat} (h : ∀ i, s.sounds i → (s.afterChunk m).sounds i)
    (channels channel n : Nat) :
    s.sampleAt channels channel (m + n) = (s.afterChunk m).sampleAt channels channel n := by
  have hplay {v : Voice} (hv : v ∈ s.voices) (hactive : v.isActive) : (s.play m v).isActive := by
    obtain ⟨i, hi⟩ := List.getElem?_of_mem hv
    have hsounds := h i (by rw [sounds, hi]; exact hactive)
    rw [sounds, voices_afterChunk, List.getElem?_map, hi] at hsounds
    exact hsounds
  unfold sampleAt
  rw [numChannels_afterChunk, masterGain_afterChunk, performance_afterChunk]
  split
  · rfl
  · next hchannels =>
      congr 1
      unfold sidesAt
      rw [instrument_afterChunk, performance_afterChunk, voices_afterChunk]
      cases hinstrument : s.instrument with
      | none => rfl
      | some instrument =>
          have hplayed : s.play m = Voice.played instrument s.performance.pitchRatio m := by
            funext v
            simp [play, hchannels, hinstrument]
          rw [hplayed] at hplay ⊢
          dsimp only
          rw [List.foldl_map]
          exact List.foldl_ext _ _ _ fun sides v hv => Voice.addSoundAt_add (hplay hv) n sides

/-! ### Frame by frame -/

/-- The synth after `count` frames from `offset` on, each of them a chunk of its
own. -/
def afterFrames (offset : Nat) : (count : Nat) → Synth → Synth
  | 0, s => s
  | n + 1, s => ((afterFrames offset n s).applyDue (offset + n)).afterChunk 1

theorem afterFrames_succ (offset n : Nat) (s : Synth) :
    s.afterFrames offset (n + 1) =
      ((s.afterFrames offset n).applyDue (offset + n)).afterChunk 1 := rfl

theorem afterFrames_add (offset m n : Nat) (s : Synth) :
    s.afterFrames offset (m + n) = (s.afterFrames offset m).afterFrames (offset + m) n := by
  induction n with
  | zero => rfl
  | succ n ih =>
      rw [← Nat.add_assoc, afterFrames_succ, afterFrames_succ, ih, Nat.add_assoc]

theorem SameSound.afterFrames {s t : Synth} (h : SameSound s t) (offset n : Nat) :
    SameSound (s.afterFrames offset n) (t.afterFrames offset n) := by
  induction n with
  | zero => exact h
  | succ n ih => exact (ih.applyDue (offset + n)).afterChunk 1

theorem applyDue_afterChunk_of_eq {s : Synth} {frame : Nat} (h : s.applyDue frame = s)
    (length : Nat) : (s.afterChunk length).applyDue frame = s.afterChunk length := by
  obtain ⟨hperformance, hpending⟩ := applyDue_afterChunk s length frame
  rw [h] at hperformance hpending
  rw [← performance_afterChunk s length] at hperformance
  rw [← pending_afterChunk s length] at hpending
  generalize s.afterChunk length = t at hperformance hpending ⊢
  rw [applyDue] at hperformance hpending ⊢
  dsimp only at hperformance hpending
  rw [hperformance, hpending]

theorem sameSound_afterFrames {s : Synth} {offset n : Nat}
    (h : ∀ frame, offset ≤ frame → frame < offset + (n + 1) →
      s.applyDue frame = s.applyDue offset) :
    SameSound ((s.applyDue offset).afterChunk (n + 1)) (s.afterFrames offset (n + 1)) := by
  induction n with
  | zero => exact .refl _
  | succ n ih =>
      -- The last frame is cut off. Nothing falls due there, so it goes on from the rest.
      have hfirst := ih fun frame hle hlt => h frame hle (by omega)
      have hkept : (s.applyDue offset).applyDue (offset + (n + 1)) = s.applyDue offset := by
        rw [applyDue_applyDue (Nat.le_add_right _ _)]
        exact h _ (Nat.le_add_right _ _) (by omega)
      have hsame := hfirst.applyDue (offset + (n + 1))
      rw [applyDue_afterChunk_of_eq hkept] at hsame
      exact (sameSound_afterChunk_add _ (n + 1) 1).trans (hsame.afterChunk 1)

theorem sameSound_nextChunk {frames offset : Nat} (h : offset < frames) (s : Synth) :
    SameSound ((s.applyDue offset).afterChunk (s.nextLength frames offset))
      (s.afterFrames offset (s.nextLength frames offset)) := by
  obtain ⟨n, hn⟩ : ∃ n, s.nextLength frames offset = n + 1 :=
    ⟨s.nextLength frames offset - 1, by have := nextLength_pos h s; omega⟩
  have hwithin (frame : Nat) (hle : offset ≤ frame) (hlt : frame < offset + (n + 1)) :
      s.applyDue frame = s.applyDue offset :=
    applyDue_within hle (by rwa [hn])
  rw [hn]
  exact sameSound_afterFrames hwithin

/-- However a block is cut into chunks, the synth comes out of it as out of its
frames. -/
theorem sameSound_afterChunks (frames offset : Nat) (s : Synth) :
    SameSound (s.afterChunks frames offset) (s.afterFrames offset (frames - offset)) := by
  induction offset, s using chunk_induction frames with
  | done offset s h =>
      rw [afterChunks_of_le h, Nat.sub_eq_zero_of_le h]
      exact .refl s
  | chunk offset s h ih =>
      have hle := (nextLength_le frames offset s).1
      have hrest := (sameSound_nextChunk h s).afterFrames (offset + s.nextLength frames offset)
        (frames - (offset + s.nextLength frames offset))
      have hcount : frames - offset = s.nextLength frames offset +
          (frames - (offset + s.nextLength frames offset)) := by omega
      rw [afterChunks_of_lt h, hcount, afterFrames_add]
      exact ih.trans hrest

/-- The sample of a frame when all frames from `offset` on are chunks of their
own. -/
def frameSample (s : Synth) (offset frame channels channel : Nat) : Float32 :=
  ((s.afterFrames offset (frame - offset)).applyDue frame).sampleAt channels channel 0

theorem sampleAt_nextChunk {frames offset frame : Nat} {s : Synth} (hle : offset ≤ frame)
    (hlt : frame < offset + s.nextLength frames offset)
    (h : ∀ i, s.sounds i →
      ((s.applyDue offset).afterChunk (s.nextLength frames offset)).sounds i)
    (channels channel : Nat) :
    (s.applyDue offset).sampleAt channels channel (frame - offset) =
      s.frameSample offset frame channels channel := by
  obtain ⟨m, rfl⟩ : ∃ m, frame = offset + m := ⟨frame - offset, by omega⟩
  rw [frameSample]
  rw [Nat.add_sub_cancel_left]
  cases m with
  | zero => rfl
  | succ m =>
      have hkept : (s.applyDue offset).applyDue (offset + (m + 1)) = s.applyDue offset := by
        rw [applyDue_applyDue (Nat.le_add_right _ _), applyDue_within hle hlt]
      -- The part of the chunk up to this frame is made up of its frames.
      have hsame := (sameSound_afterFrames (n := m) fun frame hle' hlt' =>
        applyDue_within hle' (by omega : frame < offset + s.nextLength frames offset)).applyDue
          (offset + (m + 1))
      rw [applyDue_afterChunk_of_eq hkept] at hsame
      have houtlast (i : Nat) (hi : (s.applyDue offset).sounds i) :
          ((s.applyDue offset).afterChunk (m + 1)).sounds i := by
        obtain ⟨rest, hrest⟩ : ∃ rest, s.nextLength frames offset = m + 1 + rest :=
          ⟨s.nextLength frames offset - (m + 1), by omega⟩
        have hend := h i hi
        rw [hrest, ((sameSound_afterChunk_add _ (m + 1) rest).getElem? i).1] at hend
        exact (quieter_afterChunk _ rest).sounds hend
      rw [← hsame.sampleAt_eq]
      exact sampleAt_add houtlast channels channel 0

/-- If all voices outlast a block, its chunks give every frame the sample that it
gets as a chunk of its own. -/
theorem sampleAt_of_mem_chunks {frames offset : Nat} {s : Synth}
    (h : ∀ i, s.sounds i → (s.afterChunks frames offset).sounds i) {k : Chunk}
    (hk : k ∈ s.chunks frames offset) {frame : Nat} (hframe : k.Covers frame)
    (channels channel : Nat) :
    k.synth.sampleAt channels channel (frame - k.offset) =
      s.frameSample offset frame channels channel := by
  refine mem_chunks_induction
    (motive := fun offset s => (∀ i, s.sounds i → (s.afterChunks frames offset).sounds i) →
      k.synth.sampleAt channels channel (frame - k.offset) =
        s.frameSample offset frame channels channel) ?_ ?_ hk h
  · rintro offset s hlt rfl h
    rw [afterChunks_of_lt hlt] at h
    refine sampleAt_nextChunk hframe.1 hframe.2 (fun i hi => ?_) channels channel
    exact (quieter_afterChunks _ _ _).sounds (h i hi)
  · intro offset s hlt hk ih h
    rw [afterChunks_of_lt hlt] at h
    have hstart := (chunk_bounds hk).1
    have hfirst := hframe.1
    have hquieter : Quieter s ((s.applyDue offset).afterChunk (s.nextLength frames offset)) :=
      (⟨fun _ _ => rfl⟩ : Quieter s (s.applyDue offset)).trans (quieter_afterChunk _ _)
    rw [ih fun i hi => h i (hquieter.sounds hi)]
    -- The frames of the next chunk and those behind it add up to those before `frame`.
    have hsame := (sameSound_nextChunk hlt s).afterFrames
      (offset + s.nextLength frames offset) (frame - (offset + s.nextLength frames offset))
    rw [← afterFrames_add] at hsame
    have hcount : s.nextLength frames offset +
        (frame - (offset + s.nextLength frames offset)) = frame - offset := by omega
    rw [hcount] at hsame
    exact (hsame.applyDue frame).sampleAt_eq channels channel 0

/-- The samples of a block all of whose voices outlast it. -/
theorem sample?_renderBlock_of_outlasting {s : Synth} {outputs : List (Array Float32)}
    (h : ∀ i, s.sounds i → (s.renderBlock outputs).1.sounds i) (channel frame : Nat) :
    sample? (s.renderBlock outputs).2 channel frame =
      (sample? outputs channel frame).map fun _ =>
        if frame < sharedFrames outputs then s.frameSample 0 frame outputs.length channel
        else 0 := by
  rw [renderBlock_fst] at h
  rw [sample?_renderBlock]
  split
  · next hframe =>
      obtain ⟨k, hk, hcovers⟩ := s.exists_chunk (Nat.zero_le frame) hframe
      rw [sample?_renderChunks hk outputs channel hcovers, sampleAt_of_mem_chunks h hk hcovers]
  · rfl

end Synth

end PolySampler
