import PolySampler.Proofs.Signal.Shape
import PolySampler.Proofs.Voice.Frames
import PolySampler.Synth.Render

/-!
What rendering a chunk does, frame by frame: `sampleAt` is the sample of one
channel in one frame, `play` what becomes of one voice. The scratch storage that
a chunk is mixed in does not show in either, nor do the samples that the outputs
held before.
-/

namespace PolySampler.Synth

open Signal

/-! ### Samples of the outputs -/

def sample? (outputs : List (Array Float32)) (channel frame : Nat) : Option Float32 :=
  outputs[channel]?.bind fun output => output[frame]?

def lengths (outputs : List (Array Float32)) : List Nat :=
  outputs.map Array.size

theorem length_eq_of_lengths {outputs others : List (Array Float32)}
    (h : lengths outputs = lengths others) : outputs.length = others.length := by
  simpa [lengths] using congrArg List.length h

theorem outputs_ext {outputs others : List (Array Float32)}
    (hlen : lengths outputs = lengths others)
    (h : ∀ channel frame, sample? outputs channel frame = sample? others channel frame) :
    outputs = others := by
  have hcount := length_eq_of_lengths hlen
  apply List.ext_getElem hcount
  intro c hc hc'
  apply Array.ext_getElem?
  intro j
  simpa [sample?, hc, hc'] using h c j

theorem sharedFrames_cons_cons (output next : Array Float32) (rest : List (Array Float32)) :
    sharedFrames (output :: next :: rest) = min output.size (sharedFrames (next :: rest)) := rfl

theorem sharedFrames_of_lengths {outputs others : List (Array Float32)}
    (h : lengths outputs = lengths others) : sharedFrames outputs = sharedFrames others := by
  induction outputs generalizing others with
  | nil =>
      cases others with
      | nil => rfl
      | cons other others => simp [lengths] at h
  | cons output outputs ih =>
      cases others with
      | nil => simp [lengths] at h
      | cons other others =>
          simp only [lengths, List.map_cons, List.cons.injEq] at h
          have hrest := ih h.2
          cases outputs with
          | nil =>
              cases others with
              | nil => simpa [sharedFrames] using h.1
              | cons other' others => simp at h
          | cons output' outputs =>
              cases others with
              | nil => simp at h
              | cons other' others =>
                  rw [sharedFrames_cons_cons, sharedFrames_cons_cons, h.1, hrest]

theorem sharedFrames_le {outputs : List (Array Float32)} {channel : Nat}
    (h : channel < outputs.length) : sharedFrames outputs ≤ outputs[channel].size := by
  induction outputs generalizing channel with
  | nil => simp at h
  | cons output outputs ih =>
      cases outputs with
      | nil =>
          obtain rfl : channel = 0 := by simpa using h
          exact Nat.le_refl _
      | cons output' outputs =>
          rw [sharedFrames_cons_cons]
          cases channel with
          | zero => exact Nat.min_le_left _ _
          | succ channel =>
              exact Nat.le_trans (Nat.min_le_right _ _) (ih (by simpa using h))

@[simp] theorem size_writeSamples (sample : Nat → Float32) (offset count index : Nat)
    (output : Array Float32) :
    (writeSamples sample offset count index output).size = output.size := by
  induction count generalizing index output with
  | zero => rfl
  | succ n ih => rw [writeSamples, ih, Array.size_setIfInBounds]

theorem getElem?_writeSamples (sample : Nat → Float32) (offset count index : Nat)
    (output : Array Float32) (frame : Nat) :
    (writeSamples sample offset count index output)[frame]? =
      if offset + index ≤ frame ∧ frame < offset + index + count then
        output[frame]?.map fun _ => sample (frame - offset)
      else output[frame]? := by
  induction count generalizing index output with
  | zero => rw [if_neg (by omega)]; rfl
  | succ n ih =>
      rw [writeSamples, ih, Array.getElem?_setIfInBounds]
      by_cases heq : offset + index = frame
      · subst heq
        rw [if_neg (by omega : ¬ (offset + (index + 1) ≤ offset + index ∧
          offset + index < offset + (index + 1) + n))]
        by_cases hsize : offset + index < output.size
        · simp [hsize]
        · simp [hsize]
      · rw [if_neg heq]
        by_cases hin : offset + index ≤ frame ∧ frame < offset + index + (n + 1)
        · rw [if_pos (by omega), if_pos hin]
        · rw [if_neg (by omega), if_neg hin]

/-- What a channel plays of the two sides of a frame: both in the middle if it
is the only channel, silence from the third channel on. -/
def channelSample (channels : Nat) (gain : Float32) (sides : Sides) (channel : Nat) : Float32 :=
  if channels = 1 then (sides.1 + sides.2) * 0.5 * gain
  else
    match channel with
    | 0 => sides.1 * gain
    | 1 => sides.2 * gain
    | _ => 0

@[simp] theorem lengths_writeChunk (mix : Mix) (gain : Float32) (offset length : Nat)
    (outputs : List (Array Float32)) :
    lengths (writeChunk mix gain offset length outputs) = lengths outputs := by
  match outputs with
  | [] => rfl
  | [mono] => simp [writeChunk, lengths]
  | left :: right :: rest => simp [writeChunk, lengths, Function.comp_def]

theorem sample?_writeChunk (mix : Mix) (gain : Float32) (offset length : Nat)
    (outputs : List (Array Float32)) (channel frame : Nat) :
    sample? (writeChunk mix gain offset length outputs) channel frame =
      if offset ≤ frame ∧ frame < offset + length then
        (sample? outputs channel frame).map fun _ =>
          channelSample outputs.length gain (mix.sidesAt (frame - offset)) channel
      else sample? outputs channel frame := by
  match outputs, channel with
  | [], _ => simp [writeChunk, sample?]
  | [mono], 0 =>
      simp [writeChunk, sample?, getElem?_writeSamples, channelSample, Mix.sidesAt]
  | [mono], channel + 1 => simp [writeChunk, sample?]
  | left :: right :: rest, 0 =>
      simp [writeChunk, sample?, getElem?_writeSamples, channelSample, Mix.sidesAt]
  | left :: right :: rest, 1 =>
      simp [writeChunk, sample?, getElem?_writeSamples, channelSample, Mix.sidesAt]
  | left :: right :: rest, channel + 2 =>
      simp only [writeChunk, sample?, List.getElem?_cons_succ, List.getElem?_map,
        List.length_cons, channelSample]
      cases rest[channel]? with
      | none => simp
      | some output => simp [getElem?_writeSamples]

/-! ### Mixing -/

/-- What becomes of a voice of the pool in a chunk. -/
def play (s : Synth) (frames : Nat) (v : Voice) : Voice :=
  if s.scratch.numChannels < scratchChannels then v
  else
    match s.instrument with
    | none => v
    | some instrument => v.played instrument s.performance.pitchRatio frames

/-- The two sides of a frame of a chunk, before the gain. -/
def sidesAt (s : Synth) (frame : Nat) : Sides :=
  match s.instrument with
  | none => (0, 0)
  | some instrument =>
    s.voices.foldl (Voice.addSoundAt instrument s.performance.pitchRatio frame) (0, 0)

def sampleAt (s : Synth) (channels channel frame : Nat) : Float32 :=
  if s.scratch.numChannels < scratchChannels then 0
  else channelSample channels (s.masterGain * s.performance.gain) (s.sidesAt frame) channel

theorem mixVoices_eq (instrument : Instrument) (pitchRatio : Float32) {frames : Nat}
    (voices : List Voice) {mix : Mix} (h : mix.Holds frames) :
    (mixVoices instrument pitchRatio frames voices mix).2 =
        voices.map (Voice.played instrument pitchRatio frames) ∧
      ∀ i < frames, (mixVoices instrument pitchRatio frames voices mix).1.sidesAt i =
        voices.foldl (Voice.addSoundAt instrument pitchRatio i) (mix.sidesAt i) := by
  -- Every voice finds the mix of those before it, so the mix is not fixed.
  induction voices generalizing mix with
  | nil => exact ⟨rfl, fun _ _ => rfl⟩
  | cons v rest ih =>
      cases hv : v.isActive with
      | true =>
          obtain ⟨hvoice, hholds, hsides⟩ := v.renderFrames_eq hv instrument pitchRatio h
          obtain ⟨hrest, hmix⟩ := ih hholds
          simp only [mixVoices, if_pos hv, List.map_cons, List.foldl_cons]
          refine ⟨by rw [hvoice, hrest], ?_⟩
          intro i hi
          rw [hmix i hi, hsides i hi]
      | false =>
          obtain ⟨hrest, hmix⟩ := ih h
          have hsilent (i : Nat) (sides : Sides) :
              v.addSoundAt instrument pitchRatio i sides = sides := by
            simp [Voice.addSoundAt, hv]
          simp only [mixVoices, hv, Bool.false_eq_true, if_false, List.map_cons, List.foldl_cons,
            Voice.played_of_not_isActive hv, hrest]
          refine ⟨trivial, ?_⟩
          intro i hi
          rw [hmix i hi, hsilent]

theorem silent_holds (length : Nat) (envelope : Array Float32) :
    Mix.Holds ⟨Array.replicate length 0, Array.replicate length 0, envelope⟩ length :=
  ⟨by simp, by simp⟩

theorem mixChunk_eq (s : Synth) (length : Nat)
    (h : ¬ s.scratch.numChannels < scratchChannels) :
    (s.mixChunk length).2 = s.voices.map (s.play length) ∧
      ∀ i < length, (s.mixChunk length).1.sidesAt i = s.sidesAt i := by
  have hsilence (i : Nat) (hi : i < length) (envelope : Array Float32) :
      Mix.sidesAt ⟨Array.replicate length 0, Array.replicate length 0, envelope⟩ i = (0, 0) := by
    simp [Mix.sidesAt, hi]
  simp only [mixChunk, sidesAt]
  cases hinstrument : s.instrument with
  | none =>
      have hplay : s.play length = id := by
        funext v
        simp [play, h, hinstrument]
      exact ⟨by simp [hplay], fun i hi => hsilence i hi _⟩
  | some instrument =>
      have hplay : s.play length = Voice.played instrument s.performance.pitchRatio length := by
        funext v
        simp [play, h, hinstrument]
      obtain ⟨hvoices, hsides⟩ := mixVoices_eq instrument s.performance.pitchRatio s.voices
        (silent_holds length ((s.scratch.samples 2).extract 0 length))
      refine ⟨by rw [hplay]; exact hvoices, ?_⟩
      intro i hi
      rw [hsides i hi, hsilence i hi]

/-! ### Rendering a chunk -/

def afterChunk (s : Synth) (length : Nat) : Synth :=
  (s.renderChunk 0 length []).1

/-- Where a chunk is written to makes no difference to the synth. -/
theorem renderChunk_fst (s : Synth) (offset length : Nat) (outputs : List (Array Float32)) :
    (s.renderChunk offset length outputs).1 = s.afterChunk length := by
  simp only [afterChunk, renderChunk]
  split <;> rfl

@[simp] theorem lengths_renderChunk (s : Synth) (offset length : Nat)
    (outputs : List (Array Float32)) :
    lengths (s.renderChunk offset length outputs).2 = lengths outputs := by
  rw [renderChunk]
  split
  · simp [lengths, Function.comp_def]
  · exact lengths_writeChunk _ _ _ _ _

/-- A chunk sets the samples of its frames and leaves all others alone. -/
theorem sample?_renderChunk (s : Synth) (offset length : Nat) (outputs : List (Array Float32))
    (channel frame : Nat) :
    sample? (s.renderChunk offset length outputs).2 channel frame =
      if offset ≤ frame ∧ frame < offset + length then
        (sample? outputs channel frame).map fun _ =>
          s.sampleAt outputs.length channel (frame - offset)
      else sample? outputs channel frame := by
  rw [renderChunk, sampleAt]
  split
  · simp only [sample?, List.getElem?_map]
    cases outputs[channel]? with
    | none => simp
    | some output => simp [getElem?_writeSamples]
  · next h =>
      rw [sample?_writeChunk]
      by_cases hin : offset ≤ frame ∧ frame < offset + length
      · rw [if_pos hin, if_pos hin, (s.mixChunk_eq length h).2 _ (by omega)]
      · rw [if_neg hin, if_neg hin]

/-! ### The synth after a chunk -/

theorem afterChunk_eq (s : Synth) (length : Nat) :
    ∃ scratch : AudioBuffer scratchChannels,
      scratch.numChannels = s.scratch.numChannels ∧ scratch.numFrames = s.scratch.numFrames ∧
      s.afterChunk length = { s with
        voices := s.voices.map (s.play length)
        scratch
        frameCounter :=
          if s.scratch.numChannels < scratchChannels then s.frameCounter
          else s.frameCounter + length } := by
  rw [afterChunk, renderChunk]
  by_cases h : s.scratch.numChannels < scratchChannels
  · have hplay : s.play length = id := by
      funext v
      simp [play, h]
    refine ⟨s.scratch, rfl, rfl, ?_⟩
    rw [if_pos h, if_pos h, hplay, List.map_id]
  · rw [if_neg h, if_neg h, ← (s.mixChunk_eq length h).1]
    refine ⟨_, ?_, ?_, rfl⟩
    · simp only [AudioBuffer.write, AudioBuffer.numChannels_modifyChannel]
    · simp only [AudioBuffer.write, AudioBuffer.numFrames_modifyChannel]

section Fields

variable (s : Synth) (length : Nat)

@[simp] theorem settings_afterChunk : (s.afterChunk length).settings = s.settings := by
  obtain ⟨scratch, -, -, h⟩ := s.afterChunk_eq length
  rw [h]

@[simp] theorem masterGain_afterChunk : (s.afterChunk length).masterGain = s.masterGain := by
  obtain ⟨scratch, -, -, h⟩ := s.afterChunk_eq length
  rw [h]

@[simp] theorem instrument_afterChunk : (s.afterChunk length).instrument = s.instrument := by
  obtain ⟨scratch, -, -, h⟩ := s.afterChunk_eq length
  rw [h]

@[simp] theorem controllers_afterChunk : (s.afterChunk length).controllers = s.controllers := by
  obtain ⟨scratch, -, -, h⟩ := s.afterChunk_eq length
  rw [h]

@[simp] theorem performance_afterChunk : (s.afterChunk length).performance = s.performance := by
  obtain ⟨scratch, -, -, h⟩ := s.afterChunk_eq length
  rw [h]

@[simp] theorem pending_afterChunk : (s.afterChunk length).pending = s.pending := by
  obtain ⟨scratch, -, -, h⟩ := s.afterChunk_eq length
  rw [h]

@[simp] theorem voices_afterChunk :
    (s.afterChunk length).voices = s.voices.map (s.play length) := by
  obtain ⟨scratch, -, -, h⟩ := s.afterChunk_eq length
  rw [h]

theorem frameCounter_afterChunk :
    (s.afterChunk length).frameCounter =
      if s.scratch.numChannels < scratchChannels then s.frameCounter
      else s.frameCounter + length := by
  obtain ⟨scratch, -, -, h⟩ := s.afterChunk_eq length
  rw [h]

@[simp] theorem numChannels_afterChunk :
    (s.afterChunk length).scratch.numChannels = s.scratch.numChannels := by
  obtain ⟨scratch, hchannels, -, h⟩ := s.afterChunk_eq length
  rw [h]
  exact hchannels

@[simp] theorem numFrames_afterChunk :
    (s.afterChunk length).scratch.numFrames = s.scratch.numFrames := by
  obtain ⟨scratch, -, hframes, h⟩ := s.afterChunk_eq length
  rw [h]
  exact hframes

end Fields

end PolySampler.Synth
