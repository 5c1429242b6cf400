import PolySampler.Proofs.Synth.Chunk

/-!
The chunks of a block. `chunks` lists them, each with the synth that renders it,
and a block is what these chunks write: every frame lies in one of them, and
its samples are those that the synth of that chunk gives it. Within a chunk no
change is due, so what is in force at its beginning is in force at each of its
frames.
-/

namespace PolySampler.Synth

open Signal

/-! ### Changes that are due -/

theorem takeWhile_isDue {a b : Nat} (h : a ≤ b) (pending : List Pending) :
    pending.takeWhile (isDue a) ++ (pending.dropWhile (isDue a)).takeWhile (isDue b) =
      pending.takeWhile (isDue b) := by
  induction pending with
  | nil => rfl
  | cons p rest ih =>
      by_cases hp : isDue a p
      · have hp' : isDue b p := by
          simp only [isDue, decide_eq_true_eq] at hp ⊢
          omega
        rw [List.takeWhile_cons_of_pos hp, List.dropWhile_cons_of_pos hp, List.cons_append, ih,
          List.takeWhile_cons_of_pos hp']
      · rw [List.takeWhile_cons_of_neg hp, List.dropWhile_cons_of_neg hp, List.nil_append]

theorem dropWhile_isDue {a b : Nat} (h : a ≤ b) (pending : List Pending) :
    (pending.dropWhile (isDue a)).dropWhile (isDue b) = pending.dropWhile (isDue b) := by
  have hsplit : pending.takeWhile (isDue b) ++
      (pending.dropWhile (isDue a)).dropWhile (isDue b) =
        pending.takeWhile (isDue b) ++ pending.dropWhile (isDue b) := by
    rw [List.takeWhile_append_dropWhile, ← takeWhile_isDue h, List.append_assoc,
      List.takeWhile_append_dropWhile, List.takeWhile_append_dropWhile]
  exact List.append_cancel_left hsplit

theorem applyAll_append (p : Performance) (changes more : List Change) :
    p.applyAll (changes ++ more) = (p.applyAll changes).applyAll more :=
  List.foldl_append

theorem applyDue_applyDue {a b : Nat} (h : a ≤ b) (s : Synth) :
    (s.applyDue a).applyDue b = s.applyDue b := by
  simp only [applyDue, dropWhile_isDue h, ← applyAll_append, ← List.map_append, takeWhile_isDue h]

theorem applyRest_applyDue (a : Nat) (s : Synth) : (s.applyDue a).applyRest = s.applyRest := by
  simp only [applyDue, applyRest, ← applyAll_append, ← List.map_append,
    List.takeWhile_append_dropWhile]

theorem applyDue_of_pending_nil {s : Synth} (h : s.pending = []) (a : Nat) : s.applyDue a = s := by
  cases s
  subst h
  rfl

theorem applyRest_of_pending_nil {s : Synth} (h : s.pending = []) : s.applyRest = s := by
  cases s
  subst h
  rfl

/-! ### The next chunk -/

def nextLength (frames offset : Nat) (s : Synth) : Nat :=
  chunkLength s.scratch.numFrames frames offset (s.applyDue offset).pending

theorem nextLength_pos {frames offset : Nat} (h : offset < frames) (s : Synth) :
    0 < s.nextLength frames offset :=
  chunkLength_pos s h

theorem nextLength_le (frames offset : Nat) (s : Synth) :
    s.nextLength frames offset ≤ frames - offset ∧
      s.nextLength frames offset ≤ max s.scratch.numFrames 1 := by
  unfold nextLength chunkLength
  cases (s.applyDue offset).pending with
  | nil => dsimp only; omega
  | cons p rest => dsimp only; omega

theorem applyDue_within {frames offset frame : Nat} {s : Synth} (h : offset ≤ frame)
    (h' : frame < offset + s.nextLength frames offset) :
    s.applyDue frame = s.applyDue offset := by
  rw [← applyDue_applyDue h]
  cases hp : (s.applyDue offset).pending with
  | nil => exact applyDue_of_pending_nil hp frame
  | cons p rest =>
      have hlater : ¬ isDue frame p := by
        simp only [nextLength, chunkLength, hp] at h'
        simp only [isDue, decide_eq_true_eq]
        omega
      unfold applyDue at hp ⊢
      dsimp only at hp ⊢
      rw [hp, List.takeWhile_cons_of_neg hlater, List.dropWhile_cons_of_neg hlater]
      rfl

theorem renderChunks_of_le {frames offset : Nat} (h : frames ≤ offset) (s : Synth)
    (outputs : List (Array Float32)) : renderChunks frames offset s outputs = (s, outputs) := by
  rw [renderChunks, dif_neg (Nat.not_lt.mpr h)]

theorem renderChunks_of_lt {frames offset : Nat} (h : offset < frames) (s : Synth)
    (outputs : List (Array Float32)) :
    renderChunks frames offset s outputs =
      renderChunks frames (offset + s.nextLength frames offset)
        ((s.applyDue offset).afterChunk (s.nextLength frames offset))
        ((s.applyDue offset).renderChunk offset (s.nextLength frames offset) outputs).2 := by
  rw [renderChunks, dif_pos h, ← renderChunk_fst (s.applyDue offset) offset _ outputs]
  rfl

/-- Induction over the chunks that are still to come. -/
theorem chunk_induction (frames : Nat) {motive : Nat → Synth → Prop}
    (done : ∀ offset s, frames ≤ offset → motive offset s)
    (chunk : ∀ offset s, offset < frames →
      motive (offset + s.nextLength frames offset)
        ((s.applyDue offset).afterChunk (s.nextLength frames offset)) → motive offset s)
    (offset : Nat) (s : Synth) : motive offset s := by
  by_cases h : offset < frames
  · have := nextLength_pos h s
    exact chunk offset s h (chunk_induction frames done chunk _ _)
  · exact done offset s (Nat.not_lt.mp h)
termination_by frames - offset

def afterChunks (frames offset : Nat) (s : Synth) : Synth :=
  (renderChunks frames offset s []).1

theorem renderChunks_fst (frames offset : Nat) (s : Synth) (outputs : List (Array Float32)) :
    (renderChunks frames offset s outputs).1 = s.afterChunks frames offset := by
  rw [afterChunks]
  induction offset, s using chunk_induction frames generalizing outputs with
  | done offset s h => rw [renderChunks_of_le h, renderChunks_of_le h]
  | chunk offset s h ih =>
      rw [renderChunks_of_lt h, renderChunks_of_lt h s [], ih, ← ih]

theorem afterChunks_of_le {frames offset : Nat} (h : frames ≤ offset) (s : Synth) :
    s.afterChunks frames offset = s := by
  rw [afterChunks, renderChunks_of_le h]

theorem afterChunks_of_lt {frames offset : Nat} (h : offset < frames) (s : Synth) :
    s.afterChunks frames offset =
      ((s.applyDue offset).afterChunk (s.nextLength frames offset)).afterChunks frames
        (offset + s.nextLength frames offset) := by
  rw [afterChunks, renderChunks_of_lt h, renderChunks_fst]

/-- What neither changes that fall due nor a chunk take from a synth holds of it after
any number of chunks. -/
theorem afterChunks_of_kept {P : Synth → Prop} (hdue : ∀ s frame, P s → P (s.applyDue frame))
    (hchunk : ∀ s length, P s → P (s.afterChunk length)) {s : Synth} (h : P s)
    (frames offset : Nat) : P (s.afterChunks frames offset) := by
  induction offset, s using chunk_induction frames with
  | done offset s hle => rwa [afterChunks_of_le hle]
  | chunk offset s hlt ih =>
      rw [afterChunks_of_lt hlt]
      exact ih (hchunk _ _ (hdue _ _ h))

@[simp] theorem lengths_renderChunks (frames offset : Nat) (s : Synth)
    (outputs : List (Array Float32)) :
    lengths (renderChunks frames offset s outputs).2 = lengths outputs := by
  induction offset, s using chunk_induction frames generalizing outputs with
  | done offset s h => rw [renderChunks_of_le h]
  | chunk offset s h ih => rw [renderChunks_of_lt h, ih, lengths_renderChunk]

theorem sample?_renderChunks_of_lt {frames offset : Nat} (s : Synth)
    (outputs : List (Array Float32)) (channel : Nat) {frame : Nat} (h : frame < offset) :
    sample? (renderChunks frames offset s outputs).2 channel frame =
      sample? outputs channel frame := by
  induction offset, s using chunk_induction frames generalizing outputs with
  | done offset s hle => rw [renderChunks_of_le hle]
  | chunk offset s hlt ih =>
      rw [renderChunks_of_lt hlt, ih _ (by omega), sample?_renderChunk, if_neg (by omega)]

/-! ### The list of chunks -/

/-- A chunk of a block, with the synth that renders it. All changes due by its
first frame are in effect there. -/
structure Chunk where
  offset : Nat
  length : Nat
  synth : Synth

def Chunk.Covers (k : Chunk) (frame : Nat) : Prop :=
  k.offset ≤ frame ∧ frame < k.offset + k.length

def chunks (frames offset : Nat) (s : Synth) : List Chunk :=
  if h : offset < frames then
    have : 0 < s.nextLength frames offset := nextLength_pos h s
    ⟨offset, s.nextLength frames offset, s.applyDue offset⟩ ::
      chunks frames (offset + s.nextLength frames offset)
        ((s.applyDue offset).afterChunk (s.nextLength frames offset))
  else []
termination_by frames - offset

theorem chunks_of_le {frames offset : Nat} (h : frames ≤ offset) (s : Synth) :
    s.chunks frames offset = [] := by
  rw [chunks, dif_neg (Nat.not_lt.mpr h)]

theorem chunks_of_lt {frames offset : Nat} (h : offset < frames) (s : Synth) :
    s.chunks frames offset =
      ⟨offset, s.nextLength frames offset, s.applyDue offset⟩ ::
        ((s.applyDue offset).afterChunk (s.nextLength frames offset)).chunks frames
          (offset + s.nextLength frames offset) := by
  rw [chunks, dif_pos h]

/-- Every frame that is still to be rendered belongs to a chunk. -/
theorem exists_chunk {frames offset frame : Nat} (s : Synth) (h : offset ≤ frame)
    (h' : frame < frames) : ∃ k ∈ s.chunks frames offset, k.Covers frame := by
  induction offset, s using chunk_induction frames with
  | done offset s hle => omega
  | chunk offset s hlt ih =>
      rw [chunks_of_lt hlt]
      by_cases hin : frame < offset + s.nextLength frames offset
      · exact ⟨_, List.mem_cons_self, h, hin⟩
      · obtain ⟨k, hk, hcovers⟩ := ih (by omega)
        exact ⟨k, List.mem_cons_of_mem _ hk, hcovers⟩

/-- Induction on where in the list a chunk is: it comes next, or it is one of the
chunks behind the next. -/
theorem mem_chunks_induction {frames : Nat} {k : Chunk} {motive : Nat → Synth → Prop}
    (next : ∀ offset s, offset < frames →
      k = ⟨offset, s.nextLength frames offset, s.applyDue offset⟩ → motive offset s)
    (later : ∀ offset s, offset < frames →
      k ∈ ((s.applyDue offset).afterChunk (s.nextLength frames offset)).chunks frames
        (offset + s.nextLength frames offset) →
      motive (offset + s.nextLength frames offset)
        ((s.applyDue offset).afterChunk (s.nextLength frames offset)) → motive offset s)
    {offset : Nat} {s : Synth} (hk : k ∈ s.chunks frames offset) : motive offset s := by
  induction offset, s using chunk_induction frames with
  | done offset s hle =>
      rw [chunks_of_le hle] at hk
      exact absurd hk List.not_mem_nil
  | chunk offset s hlt ih =>
      rw [chunks_of_lt hlt] at hk
      rcases List.mem_cons.mp hk with heq | hk
      · exact next offset s hlt heq
      · exact later offset s hlt hk (ih hk)

theorem chunk_bounds {frames offset : Nat} {s : Synth} {k : Chunk}
    (hk : k ∈ s.chunks frames offset) :
    offset ≤ k.offset ∧ k.offset + k.length ≤ frames := by
  refine mem_chunks_induction
    (motive := fun offset _ => offset ≤ k.offset ∧ k.offset + k.length ≤ frames) ?_ ?_ hk
  · intro offset s hlt heq
    have hle := (nextLength_le frames offset s).1
    rw [heq]
    dsimp only
    omega
  · intro offset s hlt _ ih
    omega

theorem applyDue_afterChunk (s : Synth) (length frame : Nat) :
    ((s.afterChunk length).applyDue frame).performance = (s.applyDue frame).performance ∧
      ((s.afterChunk length).applyDue frame).pending = (s.applyDue frame).pending := by
  simp only [applyDue, performance_afterChunk, pending_afterChunk, and_self]

/-- At every frame of a chunk those changes are in effect, and those pending,
that would be if changes were all that happened up to that frame. -/
theorem chunk_changes {frames offset : Nat} {s : Synth} {k : Chunk}
    (hk : k ∈ s.chunks frames offset) {frame : Nat} (hf : k.Covers frame) :
    k.synth.performance = (s.applyDue frame).performance ∧
      k.synth.pending = (s.applyDue frame).pending := by
  refine mem_chunks_induction
    (motive := fun _ s => k.synth.performance = (s.applyDue frame).performance ∧
      k.synth.pending = (s.applyDue frame).pending) ?_ ?_ hk
  · rintro offset s hlt rfl
    rw [applyDue_within hf.1 hf.2]
    exact ⟨rfl, rfl⟩
  · rintro offset s hlt hk ⟨hperformance, hpending⟩
    have hlater : offset ≤ frame := by
      have := chunk_bounds hk
      have := hf.1
      omega
    obtain ⟨hperformance', hpending'⟩ := applyDue_afterChunk (s.applyDue offset)
      (s.nextLength frames offset) frame
    rw [hperformance, hpending, hperformance', hpending', applyDue_applyDue hlater]
    exact ⟨rfl, rfl⟩

/-- The frames of a chunk get the samples that its synth gives them. -/
theorem sample?_renderChunks {frames offset : Nat} {s : Synth} {k : Chunk}
    (hk : k ∈ s.chunks frames offset) (outputs : List (Array Float32)) (channel : Nat)
    {frame : Nat} (hf : k.Covers frame) :
    sample? (renderChunks frames offset s outputs).2 channel frame =
      (sample? outputs channel frame).map fun _ =>
        k.synth.sampleAt outputs.length channel (frame - k.offset) := by
  refine mem_chunks_induction
    (motive := fun offset s => ∀ outputs : List (Array Float32),
      sample? (renderChunks frames offset s outputs).2 channel frame =
        (sample? outputs channel frame).map fun _ =>
          k.synth.sampleAt outputs.length channel (frame - k.offset)) ?_ ?_ hk outputs
  · rintro offset s hlt rfl outputs
    rw [renderChunks_of_lt hlt, sample?_renderChunks_of_lt _ _ _ hf.2, sample?_renderChunk]
    exact if_pos hf
  · -- The next chunk does not reach as far as the frame, so it leaves it alone.
    intro offset s hlt hk ih outputs
    have hlater : ¬ (offset ≤ frame ∧ frame < offset + s.nextLength frames offset) := by
      have := (chunk_bounds hk).1
      have := hf.1
      omega
    rw [renderChunks_of_lt hlt, ih, sample?_renderChunk, if_neg hlater,
      length_eq_of_lengths (lengths_renderChunk _ _ _ _)]

/-! ### A whole block -/

/-- The synth after a block is the one after its chunks, with the changes due
later in effect as well. -/
theorem renderBlock_fst (s : Synth) (outputs : List (Array Float32)) :
    (s.renderBlock outputs).1 = (s.afterChunks (sharedFrames outputs) 0).applyRest := by
  rw [← renderChunks_fst (sharedFrames outputs) 0 s outputs]
  rfl

@[simp] theorem lengths_renderBlock (s : Synth) (outputs : List (Array Float32)) :
    lengths (s.renderBlock outputs).2 = lengths outputs := by
  rw [← lengths_renderChunks (sharedFrames outputs) 0 s outputs]
  simp [renderBlock, lengths, Function.comp_def]

/-- The samples of a block are those of its chunks, and silence behind them. -/
theorem sample?_renderBlock (s : Synth) (outputs : List (Array Float32)) (channel frame : Nat) :
    sample? (s.renderBlock outputs).2 channel frame =
      if frame < sharedFrames outputs then
        sample? (renderChunks (sharedFrames outputs) 0 s outputs).2 channel frame
      else (sample? outputs channel frame).map fun _ => 0 := by
  have hlengths := lengths_renderChunks (sharedFrames outputs) 0 s outputs
  simp only [renderBlock, sample?, List.getElem?_map]
  generalize (renderChunks (sharedFrames outputs) 0 s outputs).2 = rendered at hlengths ⊢
  have hsize : rendered[channel]?.map Array.size = outputs[channel]?.map Array.size := by
    simpa [lengths] using congrArg (fun sizes : List Nat => sizes[channel]?) hlengths
  cases hr : rendered[channel]? with
  | none =>
      rw [hr] at hsize
      have hnone : outputs[channel]? = none := by simpa using hsize.symm
      simp [hnone]
  | some output =>
      rw [hr] at hsize
      obtain ⟨before, hbefore, heq⟩ := Option.map_eq_some_iff.mp hsize.symm
      simp only [Option.map_some, Option.bind_some, hbefore, getElem?_writeSamples, Nat.add_zero]
      by_cases hframe : frame < sharedFrames outputs
      · rw [if_pos hframe, if_neg (by omega)]
      · rw [if_neg hframe]
        by_cases hlong : frame < output.size
        · rw [if_pos (by omega), Array.getElem?_eq_getElem hlong,
            Array.getElem?_eq_getElem (by omega : frame < before.size)]
          rfl
        · rw [if_neg (by omega), Array.getElem?_eq_none (by omega : output.size ≤ frame),
            Array.getElem?_eq_none (by omega : before.size ≤ frame)]
          rfl

end PolySampler.Synth
