import Mathlib.Data.List.TakeWhile
import PolySampler.Proofs.Synth.Configured

/-!
A block with every access checked. `renderBlock?` goes through a block the way it is
rendered, and gives nothing if a number is to be taken from a smaller one, if a part of
the storage, of the queue or of an output is asked for that is not there, or if there
are more passes than frames. Nothing of the kind happens, whatever waits in the queue and
however long the outputs are: the chunks follow each other from the first frame to the
end of the shortest output, and nothing of what the outputs held is left.
-/

namespace PolySampler.Synth

open Signal

/-! ### The checks -/

/-- What is left of a number, which must not be the smaller one. -/
def minus? (a b : Nat) : Option Nat :=
  if b ≤ a then some (a - b) else none

/-- The samples from `start` up to `stop` are there in every one of these. -/
def within (start stop : Nat) (channels : List (Array Float32)) : Bool :=
  start ≤ stop && channels.all (stop ≤ ·.size)

/-- How many changes are due at a frame. They are counted off from the front of the queue,
on the understanding that they come before all the others. -/
def dueCount? (frame : Nat) (pending : List Pending) : Option Nat :=
  let due := pending.countP (isDue frame)
  if (pending.take due).all (isDue frame) then some due else none

def applyDue? (frame : Nat) (s : Synth) : Option Synth := do
  let due ← dueCount? frame s.pending
  let _ ← minus? s.pending.length due
  return { s with
    performance := s.performance.applyAll ((s.pending.take due).map (·.2))
    pending := s.pending.drop due }

def chunkLength? (block frames offset : Nat) (pending : List Pending) : Option Nat := do
  let length := min (max block 1) (← minus? frames offset)
  match pending with
  | [] => return length
  | (due, _) :: _ => return min length (← minus? due.toNat offset)

/-- A chunk is mixed in the first samples of the three channels of the storage, and what
is written is read off both sides of the mix. -/
def renderChunk? (s : Synth) (offset length : Nat) (outputs : List (Array Float32)) :
    Option (Synth × List (Array Float32)) :=
  let mix := (s.mixChunk length).1
  if s.scratch.numChannels < scratchChannels ∨
      within 0 length [s.scratch.samples 0, s.scratch.samples 1, s.scratch.samples 2,
        mix.left, mix.right] then
    if within offset (offset + length) outputs then some (s.renderChunk offset length outputs)
    else none
  else none

/-- Renders the chunks from `offset` on in no more passes than `budget`. Tells where each
of them begins and how long it is. -/
def renderChunks? (frames budget offset : Nat) (s : Synth) (outputs : List (Array Float32)) :
    Option (List (Nat × Nat) × Synth × List (Array Float32)) :=
  if offset < frames then
    match budget with
    | 0 => none
    | budget + 1 => do
      let s ← s.applyDue? offset
      let length ← chunkLength? s.scratch.numFrames frames offset s.pending
      let (s, outputs) ← s.renderChunk? offset length outputs
      let (passes, s, outputs) ← renderChunks? frames budget (offset + length) s outputs
      return ((offset, length) :: passes, s, outputs)
  else return ([], s, outputs)

/-- Renders one block. At its end everything is due that a delay can tell. -/
def renderBlock? (s : Synth) (outputs : List (Array Float32)) :
    Option (List (Nat × Nat) × Synth × List (Array Float32)) := do
  let frames := (lengths outputs).min?.getD 0
  let (passes, s, outputs) ← renderChunks? frames frames 0 s outputs
  let s ← s.applyDue? (UInt64.size - 1)
  if outputs.all (frames ≤ ·.size) then
    return (passes, s, outputs.map fun output =>
      writeSamples (fun _ => 0) frames (output.size - frames) 0 output)
  else none

theorem minus?_of_le {a b : Nat} (h : b ≤ a) : minus? a b = some (a - b) := if_pos h

theorem within_eq_true_iff {start stop : Nat} {channels : List (Array Float32)} :
    within start stop channels = true ↔ start ≤ stop ∧ ∀ size ∈ lengths channels, stop ≤ size := by
  simp [within, lengths]

/-! ### What rendering relies on -/

/-- There is storage for a block of so many frames, and the changes wait in the order of
their frames. -/
structure Prepared (block : Nat) (s : Synth) : Prop where
  storage : Mixes s.scratch block
  sorted : s.pending.Pairwise fun a b => a.1 ≤ b.1

theorem countP_isDue {pending : List Pending} (h : pending.Pairwise fun a b => a.1 ≤ b.1)
    (frame : Nat) : pending.countP (isDue frame) = (pending.takeWhile (isDue frame)).length := by
  induction pending with
  | nil => rfl
  | cons p rest ih =>
      obtain ⟨hfirst, hrest⟩ := List.pairwise_cons.mp h
      by_cases hp : isDue frame p
      · rw [List.countP_cons_of_pos hp, List.takeWhile_cons_of_pos hp, List.length_cons, ih hrest]
      · have hnone : rest.countP (isDue frame) = 0 := by
          refine List.countP_eq_zero.mpr fun q hq hdue => hp ?_
          have hle := UInt32.le_iff_toNat_le.mp (hfirst q hq)
          simp only [isDue, decide_eq_true_eq] at hdue ⊢
          omega
        rw [List.countP_cons_of_neg hp, List.takeWhile_cons_of_neg hp, hnone, List.length_nil]

theorem take_countP_isDue {pending : List Pending} (h : pending.Pairwise fun a b => a.1 ≤ b.1)
    (frame : Nat) :
    pending.take (pending.countP (isDue frame)) = pending.takeWhile (isDue frame) := by
  rw [countP_isDue h, ← List.prefix_iff_eq_take.mp (List.takeWhile_prefix _)]

theorem drop_countP_isDue {pending : List Pending} (h : pending.Pairwise fun a b => a.1 ≤ b.1)
    (frame : Nat) :
    pending.drop (pending.countP (isDue frame)) = pending.dropWhile (isDue frame) := by
  have hsplit : pending.takeWhile (isDue frame) ++ pending.drop (pending.countP (isDue frame)) =
      pending.takeWhile (isDue frame) ++ pending.dropWhile (isDue frame) := by
    rw [← take_countP_isDue h, List.take_append_drop, take_countP_isDue h,
      List.takeWhile_append_dropWhile]
  exact List.append_cancel_left hsplit

theorem holds_mixVoices (instrument : Instrument) (pitchRatio : Float32) {frames : Nat}
    (voices : List Voice) {mix : Mix} (h : mix.Holds frames) :
    (mixVoices instrument pitchRatio frames voices mix).1.Holds frames := by
  induction voices generalizing mix with
  | nil => exact h
  | cons v rest ih =>
      rw [mixVoices]
      split
      · next hactive => exact ih (v.renderFrames_eq hactive instrument pitchRatio h).2.1
      · exact ih h

theorem holds_mixChunk (s : Synth) (length : Nat) : (s.mixChunk length).1.Holds length := by
  have hsilent := silent_holds length ((s.scratch.samples 2).extract 0 length)
  simp only [mixChunk]
  cases s.instrument with
  | none => exact hsilent
  | some instrument => exact holds_mixVoices instrument _ s.voices hsilent

namespace Prepared

variable {block : Nat} {s : Synth}

theorem applyDue (h : Prepared block s) (frame : Nat) : Prepared block (s.applyDue frame) :=
  ⟨h.storage, h.sorted.sublist (List.dropWhile_suffix _).sublist⟩

theorem afterChunk (h : Prepared block s) (length : Nat) : Prepared block (s.afterChunk length) :=
  ⟨h.storage.afterChunk length, by rw [pending_afterChunk]; exact h.sorted⟩

theorem applyDue?_eq (h : Prepared block s) (frame : Nat) :
    s.applyDue? frame = some (s.applyDue frame) := by
  have hdue : dueCount? frame s.pending = some (s.pending.countP (isDue frame)) := by
    rw [dueCount?, take_countP_isDue h.sorted, if_pos List.all_takeWhile]
  simp only [Synth.applyDue?, hdue, minus?_of_le List.countP_le_length,
    take_countP_isDue h.sorted, drop_countP_isDue h.sorted, Option.bind_eq_bind,
    Option.bind_some, Option.pure_def, Synth.applyDue]

theorem chunkLength?_eq (h : Prepared block s) {frames offset : Nat} (hlt : offset < frames) :
    chunkLength? (s.applyDue offset).scratch.numFrames frames offset (s.applyDue offset).pending =
      some (s.nextLength frames offset) := by
  simp only [nextLength, chunkLength?, chunkLength, minus?_of_le (Nat.le_of_lt hlt)]
  cases hpending : (s.applyDue offset).pending with
  | nil => rfl
  | cons p rest =>
      have hmem : p ∈ s.pending.dropWhile (isDue offset) := by
        change p ∈ (s.applyDue offset).pending
        rw [hpending]
        exact List.mem_cons_self
      have hlater := not_due_of_mem_dropWhile h.sorted hmem
      simp only [minus?_of_le (Nat.le_of_lt hlater), Option.bind_eq_bind, Option.bind_some,
        Option.pure_def]
      rfl

theorem renderChunk?_eq (h : Prepared block s) {offset length : Nat}
    {outputs : List (Array Float32)} (hlength : length ≤ block)
    (houtputs : ∀ size ∈ lengths outputs, offset + length ≤ size) :
    s.renderChunk? offset length outputs = some (s.renderChunk offset length outputs) := by
  have hsize (channel : Nat) (hchannel : channel < scratchChannels) :
      (s.scratch.samples channel).size = block := by
    rw [h.storage.wellFormed.size_samples (by rw [h.storage.numChannels]; exact hchannel),
      h.storage.numFrames]
  obtain ⟨hleft, hright⟩ := s.holds_mixChunk length
  have hstorage : within 0 length [s.scratch.samples 0, s.scratch.samples 1, s.scratch.samples 2,
      (s.mixChunk length).1.left, (s.mixChunk length).1.right] := by
    rw [within_eq_true_iff]
    refine ⟨Nat.zero_le _, fun size hmem => ?_⟩
    simp only [lengths, List.map_cons, List.map_nil, hsize 0 (by decide), hsize 1 (by decide),
      hsize 2 (by decide), List.mem_cons, List.not_mem_nil, or_false] at hmem
    omega
  simp only [renderChunk?]
  rw [if_pos (.inr hstorage), if_pos (within_eq_true_iff.mpr ⟨Nat.le_add_right .., houtputs⟩)]

end Prepared

/-! ### All passes -/

def Chunk.span (k : Chunk) : Nat × Nat :=
  (k.offset, k.length)

theorem renderChunks?_of_le {frames offset : Nat} (h : frames ≤ offset) (budget : Nat) (s : Synth)
    (outputs : List (Array Float32)) :
    renderChunks? frames budget offset s outputs = some ([], s, outputs) := by
  unfold renderChunks?
  rw [if_neg (Nat.not_lt.mpr h)]
  rfl

/-- As many passes as there are frames left are enough, and all checks are passed. -/
theorem Prepared.renderChunks?_eq {block frames : Nat} (hblock : 0 < block) {budget offset : Nat}
    {s : Synth} (h : Prepared block s) (hbudget : frames ≤ offset + budget)
    {outputs : List (Array Float32)} (houtputs : ∀ size ∈ lengths outputs, frames ≤ size) :
    renderChunks? frames budget offset s outputs =
      some ((s.chunks frames offset).map Chunk.span, renderChunks frames offset s outputs) := by
  induction offset, s using chunk_induction frames generalizing budget outputs with
  | done offset s hle =>
      rw [renderChunks?_of_le hle, renderChunks_of_le hle, chunks_of_le hle, List.map_nil]
  | chunk offset s hlt ih =>
      obtain ⟨budget, rfl⟩ : ∃ n, budget = n + 1 := ⟨budget - 1, by omega⟩
      have hpos := nextLength_pos hlt s
      obtain ⟨hleft, hroom⟩ := nextLength_le frames offset s
      rw [h.storage.numFrames, Nat.max_eq_left hblock] at hroom
      have hdue := h.applyDue offset
      have hrendered :
          (s.applyDue offset).renderChunk? offset (s.nextLength frames offset) outputs =
            some ((s.applyDue offset).afterChunk (s.nextLength frames offset),
              ((s.applyDue offset).renderChunk offset (s.nextLength frames offset) outputs).2) := by
        rw [hdue.renderChunk?_eq hroom fun size hsize => ?_, ← renderChunk_fst _ offset _ outputs]
        have := houtputs size hsize
        omega
      have hwritten := lengths_renderChunk (s.applyDue offset) offset (s.nextLength frames offset)
        outputs
      have hrest := ih (hdue.afterChunk _) (by omega : _ ≤ _ + budget)
        (fun size hsize => houtputs size (hwritten ▸ hsize))
      rw [renderChunks_of_lt hlt, chunks_of_lt hlt, List.map_cons]
      unfold renderChunks?
      rw [if_pos hlt]
      simp only [h.applyDue?_eq, h.chunkLength?_eq hlt, hrendered, hrest, Option.bind_eq_bind,
        Option.bind_some, Option.pure_def, Chunk.span]

theorem Prepared.afterChunks {block : Nat} {s : Synth} (h : Prepared block s)
    (frames offset : Nat) : Prepared block (s.afterChunks frames offset) :=
  afterChunks_of_kept (fun _ frame h => h.applyDue frame) (fun _ length h => h.afterChunk length) h
    frames offset

/-! ### A whole block -/

theorem min?_lengths (outputs : List (Array Float32)) :
    (lengths outputs).min?.getD 0 = sharedFrames outputs := by
  induction outputs with
  | nil => rfl
  | cons output rest ih =>
      cases rest with
      | nil => rfl
      | cons next rest =>
          rw [sharedFrames_cons_cons, ← ih]
          simp [lengths, List.min?_cons]

theorem sharedFrames_le_of_mem {outputs : List (Array Float32)} {size : Nat}
    (h : size ∈ lengths outputs) : sharedFrames outputs ≤ size := by
  obtain ⟨channel, hchannel, rfl⟩ := List.mem_iff_getElem.mp h
  simp only [lengths, List.getElem_map]
  exact sharedFrames_le _

theorem applyDue_last (s : Synth) : s.applyDue (UInt64.size - 1) = s.applyRest := by
  have hdue : ∀ p ∈ s.pending, isDue (UInt64.size - 1) p := by
    intro p _
    have := p.1.toNat_lt_size
    simp only [isDue, decide_eq_true_eq, UInt64.size, UInt32.size] at this ⊢
    omega
  simp only [applyDue, applyRest, List.takeWhile_eq_self_iff.mpr hdue,
    List.dropWhile_eq_nil_iff.mpr hdue]

/-- All checks of a block are passed. -/
theorem Prepared.renderBlock?_eq {block : Nat} (hblock : 0 < block) {s : Synth}
    (h : Prepared block s) (outputs : List (Array Float32)) :
    s.renderBlock? outputs =
      some ((s.chunks (sharedFrames outputs) 0).map Chunk.span, s.renderBlock outputs) := by
  have hbudget : sharedFrames outputs ≤ 0 + sharedFrames outputs := Nat.le_add_left _ 0
  have hchunks := h.renderChunks?_eq hblock hbudget fun _ => sharedFrames_le_of_mem
  have hlast := (h.afterChunks (sharedFrames outputs) 0).applyDue?_eq (UInt64.size - 1)
  have htail : (renderChunks (sharedFrames outputs) 0 s outputs).2.all
      (sharedFrames outputs ≤ ·.size) := by
    refine List.all_eq_true.mpr fun output houtput => decide_eq_true ?_
    refine sharedFrames_le_of_mem ?_
    rw [← lengths_renderChunks (sharedFrames outputs) 0 s outputs]
    exact List.mem_map_of_mem houtput
  simp only [renderBlock?, min?_lengths, hchunks, Option.bind_eq_bind, Option.bind_some,
    renderChunks_fst, hlast, htail, if_true, applyDue_last, Option.pure_def, renderBlock]

/-- The chunks from `offset` on are lined up from there to the last frame. -/
theorem flatMap_span_chunks (frames offset : Nat) (s : Synth) :
    ((s.chunks frames offset).map Chunk.span).flatMap (fun span => List.range' span.1 span.2) =
      List.range' offset (frames - offset) := by
  induction offset, s using chunk_induction frames with
  | done offset s hle =>
      rw [chunks_of_le hle, Nat.sub_eq_zero_of_le hle]
      rfl
  | chunk offset s hlt ih =>
      have hle := (nextLength_le frames offset s).1
      rw [chunks_of_lt hlt, List.map_cons, List.flatMap_cons, ih]
      dsimp only [Chunk.span]
      rw [List.range'_append_1]
      congr 1
      omega

theorem length_of_mem_chunks {frames offset : Nat} {s : Synth} {k : Chunk}
    (hk : k ∈ s.chunks frames offset) : 1 ≤ k.length ∧ k.length ≤ max s.scratch.numFrames 1 := by
  refine mem_chunks_induction
    (motive := fun _ s => 1 ≤ k.length ∧ k.length ≤ max s.scratch.numFrames 1) ?_ ?_ hk
  · rintro offset s hlt rfl
    exact ⟨nextLength_pos hlt s, (nextLength_le frames offset s).2⟩
  · intro offset s hlt _ ih
    rwa [numFrames_afterChunk] at ih

theorem frameCounter_afterChunks {frames offset : Nat} {s : Synth}
    (h : ¬ s.scratch.numChannels < scratchChannels) (hle : offset ≤ frames) :
    (s.afterChunks frames offset).frameCounter = s.frameCounter + (frames - offset) := by
  induction offset, s using chunk_induction frames with
  | done offset s hdone =>
      rw [afterChunks_of_le hdone]
      omega
  | chunk offset s hlt ih =>
      have hlength := (nextLength_le frames offset s).1
      have hchannels : ¬ ((s.applyDue offset).afterChunk
          (s.nextLength frames offset)).scratch.numChannels < scratchChannels := by
        rwa [numChannels_afterChunk]
      have hcount : ((s.applyDue offset).afterChunk (s.nextLength frames offset)).frameCounter =
          s.frameCounter + s.nextLength frames offset :=
        (frameCounter_afterChunk _ _).trans (if_neg h)
      rw [afterChunks_of_lt hlt, ih hchannels (by omega), hcount]
      omega

theorem map_sample? (outputs : List (Array Float32)) (channel frame : Nat) (sample : Float32) :
    (sample? outputs channel frame).map (fun _ => sample) =
      (lengths outputs)[channel]?.bind fun size => if frame < size then some sample else none := by
  simp only [sample?, lengths, List.getElem?_map]
  cases outputs[channel]? with
  | none => rfl
  | some output =>
      by_cases hframe : frame < output.size
      · simp [hframe]
      · simp [hframe]

/-- What the outputs held before does not show. -/
theorem renderBlock_snd_of_lengths (s : Synth) {outputs others : List (Array Float32)}
    (h : lengths others = lengths outputs) :
    (s.renderBlock others).2 = (s.renderBlock outputs).2 := by
  refine outputs_ext (by rw [lengths_renderBlock, lengths_renderBlock, h]) ?_
  intro channel frame
  rw [sample?_renderBlock, sample?_renderBlock, sharedFrames_of_lengths h]
  by_cases hframe : frame < sharedFrames outputs
  · obtain ⟨k, hk, hcovers⟩ := exists_chunk s (Nat.zero_le frame) hframe
    rw [if_pos hframe, if_pos hframe, sample?_renderChunks hk others channel hcovers,
      sample?_renderChunks hk outputs channel hcovers, length_eq_of_lengths h, map_sample?, h,
      map_sample?]
  · rw [if_neg hframe, if_neg hframe, map_sample?, h, map_sample?]

theorem sampleAt_of_two_le (s : Synth) {channels channel : Nat} (h : 2 ≤ channel)
    (hchannel : channel < channels) (frame : Nat) : s.sampleAt channels channel frame = 0 := by
  rw [sampleAt]
  split
  · rfl
  · obtain ⟨n, rfl⟩ : ∃ n, channel = n + 2 := ⟨channel - 2, by omega⟩
    exact if_neg (by omega)

/-- Silent are the channels from the third on and the frames behind the shortest output. -/
theorem silent_renderBlock (s : Synth) {outputs : List (Array Float32)} {channel frame : Nat}
    (h : 2 ≤ channel ∨ sharedFrames outputs ≤ frame) {sample : Float32}
    (hsample : sample? (s.renderBlock outputs).2 channel frame = some sample) : sample = 0 := by
  rw [sample?_renderBlock] at hsample
  by_cases hframe : frame < sharedFrames outputs
  · obtain ⟨k, hk, hcovers⟩ := exists_chunk s (Nat.zero_le frame) hframe
    rw [if_pos hframe, sample?_renderChunks hk outputs channel hcovers] at hsample
    obtain ⟨before, hbefore, rfl⟩ := Option.map_eq_some_iff.mp hsample
    obtain ⟨output, houtput, -⟩ := Option.bind_eq_some_iff.mp hbefore
    have hchannel := (List.getElem?_eq_some_iff.mp houtput).1
    exact k.synth.sampleAt_of_two_le (by omega) hchannel _
  · rw [if_neg hframe] at hsample
    obtain ⟨before, -, rfl⟩ := Option.map_eq_some_iff.mp hsample
    rfl

/-- However the changes wait in the queue, each no earlier than the one before, and however
long the outputs are: a block gets by with a pass for each frame, with every access in
range. The passes follow each other from the first frame to the last that all outputs
have, with a frame at least and a block at most in each. Whatever the outputs held is
overwritten, with silence from the third channel on and behind the shortest output, and
the frames are counted. -/
theorem blocks_cover_outputs {s : Synth} (h : Reachable s) {queue : List Pending}
    (hqueue : queue.Pairwise fun a b => a.1 ≤ b.1) (outputs : List (Array Float32)) :
    let t := { s with pending := queue }
    let frames := (lengths outputs).min?.getD 0
    (s.pending.Pairwise fun a b => a.1 ≤ b.1) ∧
    ∃ passes, t.renderBlock? outputs = some (passes, t.renderBlock outputs) ∧
      passes.flatMap (fun pass => List.range' pass.1 pass.2) = List.range frames ∧
      (∀ pass ∈ passes, 1 ≤ pass.2 ∧ pass.2 ≤ s.settings.samplesPerBlock) ∧
      lengths (t.renderBlock outputs).2 = lengths outputs ∧
      (∀ others, lengths others = lengths outputs →
        (t.renderBlock others).2 = (t.renderBlock outputs).2) ∧
      (∀ channel frame, 2 ≤ channel ∨ frames ≤ frame → ∀ sample,
        sample? (t.renderBlock outputs).2 channel frame = some sample → sample = 0) ∧
      (t.renderBlock outputs).1.frameCounter = s.frameCounter + frames := by
  intro t frames
  have hconfigured := h.configured
  have hblock := hconfigured.settings.samplesPerBlock.1
  have hprepared : Prepared s.settings.samplesPerBlock t := ⟨hconfigured.storage, hqueue⟩
  have hframes : frames = sharedFrames outputs := min?_lengths outputs
  refine ⟨hconfigured.queue.sorted, _, hprepared.renderBlock?_eq hblock outputs, ?_,
    fun pass hpass => ?_, lengths_renderBlock t outputs,
    fun others hothers => t.renderBlock_snd_of_lengths hothers,
    fun channel frame hsilent sample hsample => t.silent_renderBlock (hframes ▸ hsilent) hsample,
    ?_⟩
  · rw [flatMap_span_chunks, hframes, List.range_eq_range']
    rfl
  · obtain ⟨k, hk, rfl⟩ := List.mem_map.mp hpass
    have hlength := length_of_mem_chunks hk
    rwa [hprepared.storage.numFrames, Nat.max_eq_left hblock] at hlength
  · have hchannels : ¬ t.scratch.numChannels < scratchChannels :=
      Nat.not_lt.mpr (Nat.le_of_eq hprepared.storage.numChannels.symm)
    rw [renderBlock_fst, hframes]
    exact frameCounter_afterChunks hchannels (Nat.zero_le _)

/-- Two changes wait for one frame and a third for a frame behind the shorter output. -/
theorem two_outputs_covered :
    ∃ fresh, Synth.new .machine { numVoices := 2 } = .ok fresh ∧
      let queue : List Pending := [(3, .volume 10), (3, .volume 20), (9, .pitchBend 0)]
      let outputs : List (Array Float32) := [Array.replicate 8 1, Array.replicate 6 1]
      let t := { fresh with pending := queue }
      Reachable fresh ∧ (queue.Pairwise fun a b => a.1 ≤ b.1) ∧
      ∃ passes, t.renderBlock? outputs = some (passes, t.renderBlock outputs) ∧
        passes.flatMap (fun pass => List.range' pass.1 pass.2) = [0, 1, 2, 3, 4, 5] ∧
        (t.renderBlock outputs).1.frameCounter = fresh.frameCounter + 6 := by
  obtain ⟨fresh, hnew⟩ := exists_duet
  refine ⟨fresh, hnew, ?_⟩
  intro queue outputs t
  have hreachable : Reachable fresh := .new hnew
  have hqueue : queue.Pairwise fun a b => a.1 ≤ b.1 := by decide
  have hframes : (lengths outputs).min?.getD 0 = 6 := rfl
  obtain ⟨-, passes, hpasses, hcover, -, -, -, -, hcounter⟩ :=
    blocks_cover_outputs hreachable hqueue outputs
  rw [hframes] at hcover hcounter
  exact ⟨hreachable, hqueue, passes, hpasses, hcover, hcounter⟩

end PolySampler.Synth
