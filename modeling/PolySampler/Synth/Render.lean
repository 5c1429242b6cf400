import PolySampler.Synth.Basic

/-!
Rendering. A block is cut into chunks that are no longer than the block size
and end where a pending change takes effect, so that within a chunk nothing
changes but the voices. Each chunk is mixed in the scratch storage and written
to the outputs.
-/

namespace PolySampler.Synth

open Signal

/-- The frames that all outputs have; none if there are no outputs. -/
def sharedFrames : List (Array Float32) → Nat
  | [] => 0
  | [only] => only.size
  | output :: rest => min output.size (sharedFrames rest)

def applyDue (frame : Nat) (s : Synth) : Synth :=
  { s with
    performance := s.performance.applyAll ((s.pending.takeWhile (isDue frame)).map (·.2))
    pending := s.pending.dropWhile (isDue frame) }

def applyRest (s : Synth) : Synth :=
  { s with performance := s.performance.applyAll (s.pending.map (·.2)), pending := [] }

/-- The length of the chunk at `offset`: a block at most, up to the end of the
frames wanted and up to the next change. -/
def chunkLength (block frames offset : Nat) (pending : List Pending) : Nat :=
  -- a block size of zero must not stop the rendering
  let length := min (max block 1) (frames - offset)
  match pending with
  | [] => length
  | (due, _) :: _ => min length (due.toNat - offset)

def mixVoices (instrument : Instrument) (pitchRatio : Float32) (frames : Nat) :
    List Voice → Mix → Mix × List Voice
  | [], mix => (mix, [])
  | v :: rest, mix =>
    if v.isActive then
      let (mix, v) := v.renderFrames instrument pitchRatio frames mix
      let (mix, rest) := mixVoices instrument pitchRatio frames rest mix
      (mix, v :: rest)
    else
      let (mix, rest) := mixVoices instrument pitchRatio frames rest mix
      (mix, v :: rest)

/-- Writes `count` samples from `offset` on; `sample` gives them by their
number. -/
def writeSamples (sample : Nat → Float32) (offset : Nat) :
    (count index : Nat) → Array Float32 → Array Float32
  | 0, _, output => output
  | n + 1, index, output =>
    writeSamples sample offset n (index + 1)
      (output.setIfInBounds (offset + index) (sample index))

/-- Writes a chunk to the outputs: both sides in the middle if there is only
one, silence from the third one on. -/
def writeChunk (mix : Mix) (gain : Float32) (offset length : Nat) :
    List (Array Float32) → List (Array Float32)
  | [] => []
  | [mono] =>
    [writeSamples (fun i => (mix.left.getD i 0 + mix.right.getD i 0) * 0.5 * gain) offset length 0
      mono]
  | left :: right :: rest =>
    writeSamples (fun i => mix.left.getD i 0 * gain) offset length 0 left ::
      writeSamples (fun i => mix.right.getD i 0 * gain) offset length 0 right ::
        rest.map (writeSamples (fun _ => 0) offset length 0)

/-- Mixes one chunk in the scratch storage. Gives the mix and the voices. -/
def mixChunk (s : Synth) (length : Nat) : Mix × List Voice :=
  let silent : Mix := {
    left := Array.replicate length 0
    right := Array.replicate length 0
    envelope := (s.scratch.samples 2).extract 0 length }
  match s.instrument with
  | none => (silent, s.voices)
  | some instrument =>
    mixVoices instrument s.performance.pitchRatio length s.voices silent

def renderChunk (s : Synth) (offset length : Nat) (outputs : List (Array Float32)) :
    Synth × List (Array Float32) :=
  -- without storage to mix in, nothing moves on either
  if s.scratch.numChannels < scratchChannels then
    (s, outputs.map (writeSamples (fun _ => 0) offset length 0))
  else
    let gain := s.masterGain * s.performance.gain
    let (mix, voices) := s.mixChunk length
    ({ s with
        voices
        scratch := ((s.scratch.write 0 mix.left).write 1 mix.right).write 2 mix.envelope
        frameCounter := s.frameCounter + length },
      writeChunk mix gain offset length outputs)

/-- After the due changes have taken effect, the next one is still to come, so
a chunk has a frame at least. -/
theorem chunkLength_pos (s : Synth) {frames offset : Nat} (h : offset < frames) :
    0 < chunkLength s.scratch.numFrames frames offset (s.applyDue offset).pending := by
  have hnext : ∀ pending : List Pending, ∀ p rest,
      pending.dropWhile (isDue offset) = p :: rest → offset < p.1.toNat := by
    intro pending
    induction pending with
    | nil => intro p rest h; simp at h
    | cons q more ih =>
      intro p rest h
      rw [List.dropWhile_cons] at h
      split at h
      · exact ih p rest h
      · next hq =>
        cases h
        simpa [isDue] using hq
  simp only [chunkLength, applyDue]
  cases hp : s.pending.dropWhile (isDue offset) with
  | nil => simp only; omega
  | cons p rest =>
    have := hnext s.pending p rest hp
    simp only
    omega

def renderChunks (frames offset : Nat) (s : Synth) (outputs : List (Array Float32)) :
    Synth × List (Array Float32) :=
  if h : offset < frames then
    let length := chunkLength s.scratch.numFrames frames offset (s.applyDue offset).pending
    have : 0 < length := chunkLength_pos s h
    let (s, outputs) := (s.applyDue offset).renderChunk offset length outputs
    renderChunks frames (offset + length) s outputs
  else (s, outputs)
termination_by frames - offset
decreasing_by omega

/-- Renders one block into the outputs, one per channel. Frames past the
shortest output are silent, and changes that are due later take effect before
the next block. -/
def renderBlock (s : Synth) (outputs : List (Array Float32)) : Synth × List (Array Float32) :=
  let frames := sharedFrames outputs
  let (s, outputs) := s.renderChunks frames 0 outputs
  (s.applyRest,
    outputs.map fun output =>
      writeSamples (fun _ => 0) frames (output.size - frames) 0 output)

end PolySampler.Synth
