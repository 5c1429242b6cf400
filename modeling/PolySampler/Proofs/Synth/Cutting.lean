import Mathlib.Algebra.GroupWithZero.Nat
import PolySampler.Proofs.Synth.Calls
import PolySampler.Proofs.Synth.Configure
import PolySampler.Proofs.Synth.Frames

/-!
Where sound is cut makes no difference to it. As long as no voice ends within a
block, the block size leaves no trace in it, and neither does it show whether the
block was asked for as a whole or in pieces.
-/

namespace PolySampler.Synth

open Signal Midi

/-- What can be seen of a synth after it has rendered is the same. -/
structure SameResult (s t : Synth) : Prop where
  voices : s.voices = t.voices
  performance : s.performance = t.performance
  controllers : s.controllers = t.controllers
  frameCounter : s.frameCounter = t.frameCounter

/-- A part of a block: the block sizes that are asked for before it, and the
outputs it is rendered into. -/
structure Piece where
  blockSizes : List (Memory × Nat)
  outputs : List (Array Float32)

def Piece.frames (piece : Piece) : Nat :=
  sharedFrames piece.outputs

/-- Asks for block sizes one after the other. Those that are refused change
nothing. -/
def askBlockSizes (sizes : List (Memory × Nat)) (s : Synth) : Synth :=
  sizes.foldl (fun s size => s.ifGranted (s.setSamplesPerBlock size.1 size.2)) s

def renderPieces : List Piece → Synth → Synth × List (List (Array Float32))
  | [], s => (s, [])
  | piece :: rest, s =>
    let (s, rendered) := (s.askBlockSizes piece.blockSizes).renderBlock piece.outputs
    let (s, more) := renderPieces rest s
    (s, rendered :: more)

/-- The samples of a channel in the frames that all outputs have. -/
def heard (outputs : List (Array Float32)) (channel : Nat) : List Float32 :=
  (List.range (sharedFrames outputs)).filterMap (sample? outputs channel)

/-! ### The block size -/

theorem sameSound_of_setSamplesPerBlock {memory : Memory} {s s' : Synth} {frames : Nat}
    (h : s.setSamplesPerBlock memory frames = .ok s') :
    SameSound s' s ∧ s'.voices = s.voices := by
  obtain ⟨-, scratch, hresized, rfl⟩ := setSamplesPerBlock_eq_ok h
  obtain rfl := AudioBuffer.resize_eq_ok hresized
  exact ⟨⟨rfl, rfl, rfl, rfl, rfl, rfl, rfl, (SameSound.refl s).voices⟩, rfl⟩

theorem sameSound_askBlockSizes (sizes : List (Memory × Nat)) (s : Synth) :
    SameSound (s.askBlockSizes sizes) s ∧ (s.askBlockSizes sizes).voices = s.voices := by
  induction sizes generalizing s with
  | nil => exact ⟨.refl s, rfl⟩
  | cons size sizes ih =>
      have hrest := ih (s.ifGranted (s.setSamplesPerBlock size.1 size.2))
      rw [askBlockSizes, List.foldl_cons]
      rw [askBlockSizes] at hrest
      cases hasked : s.setSamplesPerBlock size.1 size.2 with
      | error refusal =>
          rw [hasked] at hrest
          exact hrest
      | ok s' =>
          rw [hasked] at hrest
          obtain ⟨hsame, hvoices⟩ := sameSound_of_setSamplesPerBlock hasked
          exact ⟨hrest.1.trans hsame, hrest.2.trans hvoices⟩

/-! ### A block -/

theorem quieter_renderBlock (s : Synth) (outputs : List (Array Float32)) :
    Quieter s (s.renderBlock outputs).1 := by
  rw [renderBlock_fst]
  exact ⟨(quieter_afterChunks (sharedFrames outputs) 0 s).silent⟩

theorem sameSound_renderBlock (s : Synth) (outputs : List (Array Float32)) :
    SameSound (s.renderBlock outputs).1 (s.afterFrames 0 (sharedFrames outputs)).applyRest := by
  rw [renderBlock_fst]
  exact (sameSound_afterChunks (sharedFrames outputs) 0 s).applyRest

theorem SameSound.frameSample_eq {s t : Synth} (h : SameSound s t)
    (offset frame channels channel : Nat) :
    s.frameSample offset frame channels channel = t.frameSample offset frame channels channel :=
  ((h.afterFrames offset (frame - offset)).applyDue frame).sampleAt_eq channels channel 0

theorem SameSound.result {s t u : Synth} (h : SameSound t u) (ht : Quieter s t)
    (hu : Quieter s u) (houtlast : ∀ i, s.sounds i → t.sounds i) : SameResult t u := by
  refine ⟨List.ext_getElem? fun i => ?_, h.performance, h.controllers, h.frameCounter⟩
  cases hs : s.sounds i with
  | true => exact (h.getElem? i).2 (houtlast i hs)
  | false => rw [ht.silent i hs, hu.silent i hs]

theorem heard_renderBlock {s : Synth} {outputs : List (Array Float32)}
    (h : ∀ i, s.sounds i → (s.renderBlock outputs).1.sounds i) {channel : Nat}
    (hchannel : channel < outputs.length) :
    heard (s.renderBlock outputs).2 channel =
      (List.range (sharedFrames outputs)).map fun frame =>
        s.frameSample 0 frame outputs.length channel := by
  rw [heard]
  rw [sharedFrames_of_lengths (lengths_renderBlock s outputs), ← List.filterMap_eq_map]
  refine List.filterMap_congr fun frame hframe => ?_
  have hlt : frame < sharedFrames outputs := List.mem_range.mp hframe
  have hsize := sharedFrames_le hchannel
  have hsample : sample? outputs channel frame = some outputs[channel][frame] := by
    rw [sample?, List.getElem?_eq_getElem hchannel, Option.bind_some,
      Array.getElem?_eq_getElem (by omega)]
  rw [sample?_renderBlock_of_outlasting h, hsample, Option.map_some, if_pos hlt]
  rfl

/-! ### Pieces of a block -/

theorem pending_afterFrames {s : Synth} (h : s.pending = []) (offset n : Nat) :
    (s.afterFrames offset n).pending = [] := by
  induction n with
  | zero => exact h
  | succ n ih => rw [afterFrames_succ, applyDue_of_pending_nil ih, pending_afterChunk, ih]

theorem afterFrames_of_pending_nil {s : Synth} (h : s.pending = []) (offset n : Nat) :
    s.afterFrames offset n = s.afterFrames 0 n := by
  induction n with
  | zero => rfl
  | succ n ih =>
      rw [afterFrames_succ, afterFrames_succ, ih,
        applyDue_of_pending_nil (pending_afterFrames h 0 n),
        applyDue_of_pending_nil (pending_afterFrames h 0 n)]

theorem frameSample_of_pending_nil {s : Synth} (h : s.pending = [])
    (frame channels channel : Nat) :
    s.frameSample 0 frame channels channel =
      (s.afterFrames 0 frame).sampleAt channels channel 0 := by
  rw [frameSample, Nat.sub_zero, applyDue_of_pending_nil (pending_afterFrames h 0 frame)]

theorem sameSound_renderBlock_of_pending_nil {s : Synth} (h : s.pending = [])
    (outputs : List (Array Float32)) :
    SameSound (s.renderBlock outputs).1 (s.afterFrames 0 (sharedFrames outputs)) := by
  have hsame := sameSound_renderBlock s outputs
  rwa [applyRest_of_pending_nil (pending_afterFrames h 0 _)] at hsame

theorem sameSound_piece {s : Synth} (h : s.pending = []) (piece : Piece) :
    SameSound ((s.askBlockSizes piece.blockSizes).renderBlock piece.outputs).1
      (s.afterFrames 0 piece.frames) := by
  have hasked := (sameSound_askBlockSizes piece.blockSizes s).1
  have hpending := hasked.pending.trans h
  exact (sameSound_renderBlock_of_pending_nil hpending piece.outputs).trans
    (hasked.afterFrames 0 _)

theorem sameSound_renderPieces {s : Synth} (h : s.pending = []) (pieces : List Piece) :
    SameSound (renderPieces pieces s).1 (s.afterFrames 0 (pieces.map Piece.frames).sum) := by
  induction pieces generalizing s with
  | nil => exact .refl s
  | cons piece rest ih =>
      have hpiece := sameSound_piece h piece
      have hpending := hpiece.pending.trans (pending_afterFrames h 0 _)
      have hrest := (ih hpending).trans (hpiece.afterFrames 0 (rest.map Piece.frames).sum)
      rw [← afterFrames_of_pending_nil (pending_afterFrames h 0 _) (0 + piece.frames),
        ← afterFrames_add] at hrest
      exact hrest

theorem quieter_renderPieces (pieces : List Piece) (s : Synth) :
    Quieter s (renderPieces pieces s).1 := by
  induction pieces generalizing s with
  | nil => exact ⟨fun _ _ => rfl⟩
  | cons piece rest ih =>
      have hasked : Quieter s (s.askBlockSizes piece.blockSizes) :=
        ⟨fun i _ => by rw [(sameSound_askBlockSizes piece.blockSizes s).2]⟩
      exact (hasked.trans (quieter_renderBlock _ piece.outputs)).trans (ih _)

/-- What is heard of the pieces one after the other is what the frames give. -/
theorem heard_renderPieces {s : Synth} (hpending : s.pending = []) {pieces : List Piece}
    (h : ∀ i, s.sounds i → (renderPieces pieces s).1.sounds i) {channels channel : Nat}
    (hchannels : ∀ piece ∈ pieces, piece.outputs.length = channels)
    (hchannel : channel < channels) :
    ((renderPieces pieces s).2.flatMap fun rendered => heard rendered channel) =
      (List.range (pieces.map Piece.frames).sum).map fun frame =>
        s.frameSample 0 frame channels channel := by
  induction pieces generalizing s with
  | nil => rfl
  | cons piece rest ih =>
      have hlength := hchannels piece List.mem_cons_self
      obtain ⟨hasked, hvoices⟩ := sameSound_askBlockSizes piece.blockSizes s
      have hpiece := sameSound_piece hpending piece
      have hnext := hpiece.pending.trans (pending_afterFrames hpending 0 _)
      -- A voice that outlasts all pieces outlasts the first, and then the others.
      have hfirst (i : Nat) (hi : (s.askBlockSizes piece.blockSizes).sounds i) :
          ((s.askBlockSizes piece.blockSizes).renderBlock piece.outputs).1.sounds i := by
        rw [(hasked.getElem? i).1] at hi
        exact (quieter_renderPieces rest _).sounds (h i hi)
      have hlater (i : Nat)
          (hi : ((s.askBlockSizes piece.blockSizes).renderBlock piece.outputs).1.sounds i) :
          (renderPieces rest
            ((s.askBlockSizes piece.blockSizes).renderBlock piece.outputs).1).1.sounds i := by
        have hstart := (quieter_renderBlock _ piece.outputs).sounds hi
        rw [(hasked.getElem? i).1] at hstart
        exact h i hstart
      have hheard := heard_renderBlock hfirst (by omega : channel < piece.outputs.length)
      have hrest := ih hnext hlater fun other hmem =>
        hchannels other (List.mem_cons_of_mem _ hmem)
      -- The frames of the other pieces are those of the block behind the first one.
      rw [renderPieces, List.flatMap_cons, hheard, hrest, List.map_cons, List.sum_cons,
        List.range_add, List.map_append, List.map_map, hlength]
      congr 1
      · exact List.map_congr_left fun frame _ => hasked.frameSample_eq 0 frame channels channel
      · refine List.map_congr_left fun frame _ => ?_
        have hsame := hpiece.afterFrames 0 frame
        rw [← afterFrames_of_pending_nil (pending_afterFrames hpending 0 _) (0 + piece.frames),
          ← afterFrames_add] at hsame
        rw [frameSample_of_pending_nil hnext, hsame.sampleAt_eq, Function.comp_apply,
          frameSample_of_pending_nil hpending]

/-! ### Cutting a block -/

section Cut

variable {s : Synth} {outputs : List (Array Float32)}

/-- The block size leaves no trace in a block that all voices outlast. -/
theorem renderBlock_of_setSamplesPerBlock
    (hkept : ∀ i, s.sounds i → (s.renderBlock outputs).1.sounds i) {memory : Memory}
    {frames : Nat} {s' : Synth} (hasked : s.setSamplesPerBlock memory frames = .ok s') :
    (s'.renderBlock outputs).2 = (s.renderBlock outputs).2 ∧
      SameResult (s'.renderBlock outputs).1 (s.renderBlock outputs).1 := by
  obtain ⟨hsame, hvoices⟩ := sameSound_of_setSamplesPerBlock hasked
  have hresult : SameSound (s'.renderBlock outputs).1 (s.renderBlock outputs).1 :=
    ((sameSound_renderBlock s' outputs).trans (hsame.afterFrames 0 _).applyRest).trans
      (sameSound_renderBlock s outputs).symm
  -- The voices that outlast the block do so with either block size.
  have hkept' (i : Nat) (hi : s'.sounds i) : (s'.renderBlock outputs).1.sounds i := by
    rw [(hsame.getElem? i).1] at hi
    rw [(hresult.getElem? i).1]
    exact hkept i hi
  refine ⟨outputs_ext (by simp) fun channel frame => ?_, ?_⟩
  · rw [sample?_renderBlock_of_outlasting hkept', sample?_renderBlock_of_outlasting hkept,
      hsame.frameSample_eq]
  · have hquieter : Quieter s' (s.renderBlock outputs).1 :=
      (⟨fun i _ => by rw [hvoices]⟩ : Quieter s' s).trans (quieter_renderBlock s outputs)
    exact hresult.result (quieter_renderBlock s' outputs) hquieter hkept'

theorem renderPieces_of_renderBlock
    (hkept : ∀ i, s.sounds i → (s.renderBlock outputs).1.sounds i) (hpending : s.pending = [])
    {pieces : List Piece} (hlength : ∀ piece ∈ pieces, piece.outputs.length = outputs.length)
    (hsum : (pieces.map Piece.frames).sum = sharedFrames outputs) :
    (∀ channel < outputs.length,
      ((renderPieces pieces s).2.flatMap fun rendered => heard rendered channel) =
        heard (s.renderBlock outputs).2 channel) ∧
      SameResult (renderPieces pieces s).1 (s.renderBlock outputs).1 := by
  have hresult : SameSound (renderPieces pieces s).1 (s.renderBlock outputs).1 := by
    have hpieces := sameSound_renderPieces hpending pieces
    rw [hsum] at hpieces
    exact hpieces.trans (sameSound_renderBlock_of_pending_nil hpending outputs).symm
  have hkept' (i : Nat) (hi : s.sounds i) : (renderPieces pieces s).1.sounds i := by
    rw [(hresult.getElem? i).1]
    exact hkept i hi
  refine ⟨fun channel hchannel => ?_, ?_⟩
  · rw [heard_renderPieces hpending hkept' hlength hchannel, hsum,
      heard_renderBlock hkept hchannel]
  · exact hresult.result (quieter_renderPieces pieces s) (quieter_renderBlock s outputs) hkept'

/-- If every voice that sounds outlasts a block, the block sounds the same with
every block size, whatever changes are pending; and with none pending it sounds
the same in pieces, whatever block sizes are asked for between them. -/
theorem renderBlock_cut (hkept : ∀ i, s.sounds i → (s.renderBlock outputs).1.sounds i) :
    (∀ memory frames s', s.setSamplesPerBlock memory frames = .ok s' →
      (s'.renderBlock outputs).2 = (s.renderBlock outputs).2 ∧
      SameResult (s'.renderBlock outputs).1 (s.renderBlock outputs).1) ∧
    (s.pending = [] → ∀ pieces : List Piece,
      (∀ piece ∈ pieces, piece.outputs.length = outputs.length) →
      (pieces.map Piece.frames).sum = sharedFrames outputs →
      (∀ channel < outputs.length,
        ((renderPieces pieces s).2.flatMap fun rendered => heard rendered channel) =
          heard (s.renderBlock outputs).2 channel) ∧
      SameResult (renderPieces pieces s).1 (s.renderBlock outputs).1) := by
  refine ⟨?_, ?_⟩
  · intro memory frames s' hasked
    exact renderBlock_of_setSamplesPerBlock hkept hasked
  · intro hpending pieces hlength hsum
    exact renderPieces_of_renderBlock hkept hpending hlength hsum

end Cut

/-- A note of which a block of four frames plays three sounds the same in two
pieces, although a block size is refused between them. -/
theorem note_in_two_pieces :
    ∃ fresh, Synth.new .machine { numVoices := 2, samplesPerBlock := 2 } = .ok fresh ∧
      let s := performAll [.noteOn 1 60 100] (fresh.setInstrument (some organ)).2
      let outputs := [Array.replicate 4 0]
      let pieces := [⟨[(.machine, 3)], [#[0]]⟩, ⟨[(.machine, 0)], [#[0, 0, 0]]⟩]
      s.sounds 0 ∧ (∀ i, s.sounds i → (s.renderBlock outputs).1.sounds i) ∧ s.pending = [] ∧
      ((renderPieces pieces s).2.flatMap fun rendered => heard rendered 0) =
        heard (s.renderBlock outputs).2 0 ∧
      SameResult (renderPieces pieces s).1 (s.renderBlock outputs).1 := by
  have hchecked : ((Synth.new .machine { numVoices := 2, samplesPerBlock := 2 }).map fun fresh =>
      let s := performAll [.noteOn 1 60 100] (fresh.setInstrument (some organ)).2
      decide (s.voices.length = 2) && s.sounds 0 && !s.sounds 1 &&
        (s.renderBlock [Array.replicate 4 0]).1.sounds 0 && s.pending.isEmpty).toOption =
          some true := by
    decide +kernel
  cases hnew : Synth.new .machine { numVoices := 2, samplesPerBlock := 2 } with
  | error refusal =>
      rw [hnew] at hchecked
      exact absurd hchecked (by simp [Except.map, Except.toOption])
  | ok fresh =>
      rw [hnew] at hchecked
      simp only [Except.map, Except.toOption, Option.some.injEq, Bool.and_eq_true,
        decide_eq_true_eq, List.isEmpty_iff, Bool.not_eq_true'] at hchecked
      obtain ⟨⟨⟨⟨hlength, hfirst⟩, hsecond⟩, hkept⟩, hpending⟩ := hchecked
      refine ⟨fresh, rfl, ?_⟩
      intro s outputs pieces
      have hall (i : Nat) (hi : s.sounds i) : (s.renderBlock outputs).1.sounds i := by
        match i with
        | 0 => exact hkept
        | 1 => exact absurd hi (by simp [s, hsecond])
        | i + 2 =>
            have hshort : s.voices.length = 2 := hlength
            have hnone : s.voices[i + 2]? = none := List.getElem?_eq_none (by omega)
            rw [sounds, hnone] at hi
            exact absurd hi (by decide)
      obtain ⟨hheard, hresult⟩ := (renderBlock_cut hall).2 hpending pieces (by decide) rfl
      exact ⟨hfirst, hall, hpending, hheard 0 (by decide), hresult⟩

end PolySampler.Synth
