import Mathlib.Data.List.Basic
import PolySampler.Proofs.Synth.Block
import PolySampler.Proofs.Synth.Calls
import PolySampler.Proofs.Synth.Configure
import PolySampler.Proofs.Voice.OnTime

/-!
The states that a synth gets into, and what holds in all of them. A synth is made
from settings and then asked for things in any order: calls, changes of its
configuration, other instruments, and blocks. In whatever state that leaves it,
every note is on time, and the chunks of the next block keep it so.
-/

namespace PolySampler.Synth

open Signal Midi

inductive Request where
  | perform (call : Call)
  | silenceAll
  | setInstrument (instrument : Option Instrument)
  | setSampleRate (rate : Float32)
  | setSamplesPerBlock (memory : Memory) (frames : Nat)
  | setNumVoices (memory : Memory) (count : Nat)
  | setOversampling (oversampling : Oversampling)
  | setPreloadSize (frames : Nat)
  | setVolume (level : Float32)
  | renderBlock (outputs : List (Array Float32))

/-- The synth after a request. One that is refused changes nothing. -/
def Request.run (s : Synth) : Request → Synth
  | .perform call => call.perform s
  | .silenceAll => s.silenceAll
  | .setInstrument instrument => (s.setInstrument instrument).2
  | .setSampleRate rate => s.ifGranted (s.setSampleRate rate)
  | .setSamplesPerBlock memory frames => s.ifGranted (s.setSamplesPerBlock memory frames)
  | .setNumVoices memory count => s.ifGranted (s.setNumVoices memory count)
  | .setOversampling oversampling => s.setOversampling oversampling
  | .setPreloadSize frames => s.ifGranted (s.setPreloadSize frames)
  | .setVolume level => s.ifGranted (s.setVolume level)
  | .renderBlock outputs => (s.renderBlock outputs).1

inductive Reachable : Synth → Prop where
  | new {memory : Memory} {settings : Settings} {s : Synth}
      (h : Synth.new memory settings = .ok s) : Reachable s
  | run {s : Synth} (h : Reachable s) (request : Request) : Reachable (request.run s)

/-- Every note is on time, and without an instrument there is none. -/
structure Punctual (s : Synth) : Prop where
  channels : ¬ s.scratch.numChannels < scratchChannels
  silent : s.instrument = none → ∀ v ∈ s.voices, v.isFree
  onTime : ∀ v ∈ s.voices, v.isFree = false → v.OnTime s.frameCounter

/-! ### Calls -/

section Calls

variable {now : Nat}

theorem Touched.isFree {call : Call} {v w : Voice} (h : Touched call v w) (hv : v.isFree) :
    w.isFree := by
  cases h with
  | kept => exact hv
  | held => rwa [Voice.isFree_hold]
  | released => rwa [Voice.isFree_release]
  | silenced => exact v.isFree_free

theorem Touched.onTime {call : Call} {v w : Voice} (h : Touched call v w)
    (hv : v.isFree = false → v.OnTime now) (hw : w.isFree = false) : w.OnTime now := by
  cases h with
  | kept => exact hv hw
  | held => exact (hv (v.isFree_hold.symm.trans hw)).hold
  | released => exact (hv ((v.isFree_release _).symm.trans hw)).release _
  | silenced => exact absurd hw (by simp)

theorem startRegions_onTime (regions : Array Region) (key velocity : UInt8) (delay : UInt32)
    (indices : List Nat) {voices : List Voice}
    (h : ∀ v ∈ voices, v.isFree = false → v.OnTime now) :
    ∀ v ∈ indices.foldl (startRegion regions key velocity delay (now + delay.toNat)) voices,
      v.isFree = false → v.OnTime now := by
  induction indices generalizing voices with
  | nil => exact h
  | cons index indices ih =>
      refine ih ?_
      rcases startRegion_cases regions key velocity delay (now + delay.toNat) voices index with
        heq | ⟨before, v, behind, region, rfl, -, heq⟩
      · rw [heq]
        exact h
      · rw [heq]
        intro w hw hfree
        rcases List.mem_append.mp hw with hw | hw
        · exact h w (List.mem_append_left _ hw) hfree
        · rcases List.mem_cons.mp hw with rfl | hw
          · exact .start v index region key velocity delay now
          · exact h w (List.mem_append_right _ (List.mem_cons_of_mem _ hw)) hfree

end Calls

theorem Punctual.perform {s : Synth} (h : Punctual s) (call : Call) :
    Punctual (call.perform s) := by
  have hrig := sameRig_perform call s
  have hmoved := moved_perform call s
  have hchannels : ¬ (call.perform s).scratch.numChannels < scratchChannels := by
    rw [hrig.scratch]
    exact h.channels
  have hinstrument := hrig.instrument
  have hcounter := hrig.frameCounter
  generalize call.perform s = t at hmoved hchannels hinstrument hcounter ⊢
  generalize hvoices : t.voices = voices at hmoved
  cases hmoved with
  | touched f htouched =>
      refine ⟨hchannels, fun hnone => ?_, ?_⟩
      · rw [hvoices]
        intro w hw
        obtain ⟨v, hv, rfl⟩ := List.mem_map.mp hw
        exact (htouched v).isFree (h.silent (hinstrument.symm.trans hnone) v hv)
      · rw [hvoices, hcounter]
        intro w hw
        obtain ⟨v, hv, rfl⟩ := List.mem_map.mp hw
        exact (htouched v).onTime (h.onTime v hv)
  | started hsome delay key velocity =>
      -- A note needs an instrument, and is given the number of its frame as its age.
      refine ⟨hchannels, fun hnone => ?_, ?_⟩
      · rw [hinstrument, hsome] at hnone
        cases hnone
      · rw [hvoices, hcounter]
        exact startRegions_onTime _ key velocity delay _ h.onTime

/-! ### Changes of configuration -/

theorem punctual_of_free {s : Synth} (hchannels : ¬ s.scratch.numChannels < scratchChannels)
    (hfree : ∀ v ∈ s.voices, v.isFree) : Punctual s := by
  refine ⟨hchannels, fun _ => hfree, fun v hv hv' => ?_⟩
  rw [hfree v hv] at hv'
  exact absurd hv' (by decide)

theorem punctual_new {memory : Memory} {settings : Settings} {s : Synth}
    (h : Synth.new memory settings = .ok s) : Punctual s := by
  obtain ⟨scratch, -, hmixes, rfl⟩ := new_eq_ok h
  refine punctual_of_free (Nat.not_lt.mpr (Nat.le_of_eq hmixes.numChannels.symm)) fun v hv => ?_
  rw [(List.mem_replicate.mp hv).2]
  rfl

theorem Punctual.setInstrument {s : Synth} (h : Punctual s) (instrument : Option Instrument) :
    Punctual (s.setInstrument instrument).2 := by
  refine punctual_of_free h.channels fun w hw => ?_
  obtain ⟨v, -, rfl⟩ := List.mem_map.mp hw
  rfl

theorem Punctual.ifGranted {s : Synth} (h : Punctual s) {asked : Except ConfigError Synth}
    (hgranted : ∀ s', asked = .ok s' → Punctual s') : Punctual (s.ifGranted asked) := by
  cases asked with
  | error refusal => exact h
  | ok s' => exact hgranted s' rfl

theorem Punctual.setSampleRate {s s' : Synth} (h : Punctual s) {rate : Float32}
    (hgranted : s.setSampleRate rate = .ok s') : Punctual s' := by
  obtain ⟨-, rfl⟩ := setSampleRate_eq_ok hgranted
  refine ⟨h.channels, fun hnone w hw => ?_, fun w hw hfree => ?_⟩
  · obtain ⟨v, hv, rfl⟩ := List.mem_map.mp hw
    exact h.silent hnone v hv
  · obtain ⟨v, hv, rfl⟩ := List.mem_map.mp hw
    exact (h.onTime v hv hfree).setSampleRate rate

theorem Punctual.setNumVoices {memory : Memory} {s s' : Synth} (h : Punctual s) {count : Nat}
    (hgranted : s.setNumVoices memory count = .ok s') : Punctual s' := by
  obtain ⟨-, rfl⟩ := setNumVoices_eq_ok hgranted
  have hsplit (w : Voice)
      (hw : w ∈ s.voices.take count ++
        List.replicate (count - s.voices.length) (Voice.new s.settings.sampleRate)) :
      w ∈ s.voices ∨ w.isFree := by
    rcases List.mem_append.mp hw with hw | hw
    · exact .inl (List.mem_of_mem_take hw)
    · rw [(List.mem_replicate.mp hw).2]
      exact .inr rfl
  refine ⟨h.channels, fun hnone w hw => ?_, fun w hw hfree => ?_⟩
  · rcases hsplit w hw with hw | hw
    · exact h.silent hnone w hw
    · exact hw
  · rcases hsplit w hw with hw | hw
    · exact h.onTime w hw hfree
    · rw [hw] at hfree
      exact absurd hfree (by decide)

theorem Punctual.setSamplesPerBlock {memory : Memory} {s s' : Synth} (h : Punctual s)
    {frames : Nat} (hgranted : s.setSamplesPerBlock memory frames = .ok s') : Punctual s' := by
  obtain ⟨-, scratch, hresized, rfl⟩ := setSamplesPerBlock_eq_ok hgranted
  obtain rfl := AudioBuffer.resize_eq_ok hresized
  exact ⟨h.channels, h.silent, h.onTime⟩

/-! ### Blocks -/

theorem Punctual.applyDue {s : Synth} (h : Punctual s) (frame : Nat) :
    Punctual (s.applyDue frame) :=
  ⟨h.channels, h.silent, h.onTime⟩

/-- A chunk moves every note and the count of the frames alike. -/
theorem Punctual.afterChunk {s : Synth} (h : Punctual s) (length : Nat) :
    Punctual (s.afterChunk length) := by
  have hcounter : (s.afterChunk length).frameCounter = s.frameCounter + length := by
    rw [frameCounter_afterChunk, if_neg h.channels]
  refine ⟨by simpa using h.channels, ?_, ?_⟩
  · rw [instrument_afterChunk, voices_afterChunk]
    intro hnone w hw
    obtain ⟨v, hv, rfl⟩ := List.mem_map.mp hw
    simp only [play, if_neg h.channels, hnone]
    exact h.silent hnone v hv
  · rw [hcounter, voices_afterChunk]
    intro w hw hfree
    obtain ⟨v, hv, rfl⟩ := List.mem_map.mp hw
    simp only [play, if_neg h.channels] at hfree ⊢
    cases hinstrument : s.instrument with
    | none =>
        rw [hinstrument] at hfree
        have := h.silent hinstrument v hv
        rw [this] at hfree
        exact absurd hfree (by decide)
    | some instrument =>
        rw [hinstrument] at hfree
        exact Voice.OnTime.played (h.onTime v hv) instrument _ length hfree

theorem Punctual.afterChunks {s : Synth} (h : Punctual s) (frames offset : Nat) :
    Punctual (s.afterChunks frames offset) :=
  afterChunks_of_kept (fun _ frame h => h.applyDue frame) (fun _ length h => h.afterChunk length)
    h frames offset

theorem Punctual.renderBlock {s : Synth} (h : Punctual s) (outputs : List (Array Float32)) :
    Punctual (s.renderBlock outputs).1 := by
  have hchunks := h.afterChunks (sharedFrames outputs) 0
  rw [renderBlock_fst]
  exact ⟨hchunks.channels, hchunks.silent, hchunks.onTime⟩

theorem Punctual.of_mem_chunks {frames offset : Nat} {s : Synth} (h : Punctual s) {k : Chunk}
    (hk : k ∈ s.chunks frames offset) :
    Punctual k.synth ∧ k.synth.frameCounter + offset = s.frameCounter + k.offset := by
  refine mem_chunks_induction
    (motive := fun offset s => Punctual s →
      Punctual k.synth ∧ k.synth.frameCounter + offset = s.frameCounter + k.offset) ?_ ?_ hk h
  · rintro offset s hlt rfl h
    exact ⟨h.applyDue offset, rfl⟩
  · intro offset s hlt hk ih h
    have hdue := h.applyDue offset
    obtain ⟨hpunctual, hcounter⟩ := ih (hdue.afterChunk (s.nextLength frames offset))
    refine ⟨hpunctual, ?_⟩
    rw [frameCounter_afterChunk, if_neg hdue.channels] at hcounter
    have hkept : (s.applyDue offset).frameCounter = s.frameCounter := rfl
    omega

/-! ### Runs -/

theorem Punctual.run {s : Synth} (h : Punctual s) (request : Request) :
    Punctual (request.run s) := by
  cases request with
  | perform call => exact h.perform call
  | silenceAll =>
      refine punctual_of_free h.channels fun w hw => ?_
      obtain ⟨v, -, rfl⟩ := List.mem_map.mp hw
      rfl
  | setInstrument instrument => exact h.setInstrument instrument
  | setSampleRate rate => exact h.ifGranted fun _ hgranted => h.setSampleRate hgranted
  | setSamplesPerBlock memory frames =>
      exact h.ifGranted fun _ hgranted => h.setSamplesPerBlock hgranted
  | setNumVoices memory count => exact h.ifGranted fun _ hgranted => h.setNumVoices hgranted
  | setOversampling oversampling => exact ⟨h.channels, h.silent, h.onTime⟩
  | setPreloadSize frames =>
      refine h.ifGranted fun s' hgranted => ?_
      obtain ⟨-, rfl⟩ := setPreloadSize_eq_ok hgranted
      exact ⟨h.channels, h.silent, h.onTime⟩
  | setVolume level =>
      refine h.ifGranted fun s' hgranted => ?_
      obtain ⟨-, rfl⟩ := setVolume_eq_ok hgranted
      exact ⟨h.channels, h.silent, h.onTime⟩
  | renderBlock outputs => exact h.renderBlock outputs

theorem Reachable.punctual {s : Synth} (h : Reachable s) : Punctual s := by
  induction h with
  | new hnew => exact punctual_new hnew
  | run _ request ih => exact ih.run request

/-! ### What is heard -/

/-- The synth without the notes that begin behind a frame. -/
def begunBy (frame : Nat) (s : Synth) : Synth :=
  { s with voices := s.voices.filter fun v => v.age ≤ frame }

/-- The notes that begin behind a frame are not heard in it. -/
theorem Punctual.sampleAt_begunBy {s : Synth} (h : Punctual s) (channels channel i : Nat) :
    (s.begunBy (s.frameCounter + i)).sampleAt channels channel i =
      s.sampleAt channels channel i := by
  have hsides : (s.begunBy (s.frameCounter + i)).sidesAt i = s.sidesAt i := by
    rw [sidesAt, sidesAt, begunBy]
    cases s.instrument with
    | none => rfl
    | some instrument =>
        dsimp only
        rw [List.foldl_filter]
        refine List.foldl_ext _ _ _ fun sides v hv => ?_
        split
        · rfl
        · next hlater =>
          have hi : s.frameCounter + i < v.age := by simpa using hlater
          exact (Voice.OnTime.addSoundAt_eq (h.onTime v hv) hi _ _ _).symm
  rw [sampleAt, sampleAt, hsides]
  rfl

/-- In every state that is reached, a note that waits has both its countdowns set
to the frame at which it begins, and a note that no longer waits began before the
present frame. In the next block, however it is cut into chunks, the source of
every note and its attack begin in that very frame: the samples of the block are
those of the notes that have begun by their frame. -/
theorem notes_begin_on_time {s : Synth} (h : Reachable s) :
    (∀ v ∈ s.voices, v.isFree = false →
      (v.envelope.progress.stage = .delayed →
        v.sourceDelay = v.envelope.progress.triggerCountdown ∧
          s.frameCounter + v.envelope.progress.triggerCountdown.toNat = v.age) ∧
      (v.envelope.progress.stage ≠ .delayed → v.sourceDelay = 0 ∧ v.age < s.frameCounter)) ∧
    (∀ outputs, ∀ k ∈ s.chunks (sharedFrames outputs) 0,
      k.synth.frameCounter = s.frameCounter + k.offset ∧
      ∀ v ∈ k.synth.voices, v.isFree = false → ∀ drive gain i,
        (v.soundAt drive gain i = .waiting ↔ s.frameCounter + k.offset + i < v.age) ∧
        ((v.after drive gain (i + 1)).envelope.progress.stage = .delayed ↔
          s.frameCounter + k.offset + i < v.age)) ∧
    ∀ outputs, ∀ frame < sharedFrames outputs, ∃ k ∈ s.chunks (sharedFrames outputs) 0,
      k.Covers frame ∧
      ∀ channel, sample? (s.renderBlock outputs).2 channel frame =
        (sample? outputs channel frame).map fun _ =>
          (k.synth.begunBy (s.frameCounter + frame)).sampleAt outputs.length channel
            (frame - k.offset) := by
  have hpunctual := h.punctual
  refine ⟨fun v hv hfree => ?_, fun outputs k hk => ?_, fun outputs frame hframe => ?_⟩
  · have honTime := hpunctual.onTime v hv hfree
    exact ⟨honTime.waiting, honTime.begun⟩
  · obtain ⟨hchunk, hcounter⟩ := hpunctual.of_mem_chunks hk
    rw [Nat.add_zero] at hcounter
    refine ⟨hcounter, fun v hv hfree drive gain i => ?_⟩
    have honTime := hchunk.onTime v hv hfree
    rw [hcounter] at honTime
    exact ⟨honTime.soundAt_eq_waiting_iff drive gain i,
      honTime.stage_after_eq_delayed_iff drive gain i⟩
  · obtain ⟨k, hk, hcovers⟩ := s.exists_chunk (Nat.zero_le frame) hframe
    obtain ⟨hchunk, hcounter⟩ := hpunctual.of_mem_chunks hk
    have hnow : s.frameCounter + frame = k.synth.frameCounter + (frame - k.offset) := by
      have hfirst := hcovers.1
      omega
    refine ⟨k, hk, hcovers, fun channel => ?_⟩
    rw [sample?_renderBlock, if_pos hframe, sample?_renderChunks hk outputs channel hcovers, hnow,
      hchunk.sampleAt_begunBy]

/-- A note that a fresh synth is to begin in frame 9 waits for that frame. -/
theorem note_waits_for_its_frame :
    ∃ fresh, Synth.new .machine { numVoices := 2 } = .ok fresh ∧
      let s := Request.run (Request.run fresh (.setInstrument (some organ)))
        (.perform (.noteOn 9 60 100))
      Reachable s ∧ ∃ v ∈ s.voices, v.isFree = false ∧
        v.envelope.progress.stage = .delayed ∧
        s.frameCounter + v.envelope.progress.triggerCountdown.toNat = v.age := by
  obtain ⟨fresh, hnew⟩ := exists_duet
  have hreachable := ((Reachable.new hnew).run (.setInstrument (some organ))).run
    (.perform (.noteOn 9 60 100))
  obtain ⟨hnotes, -, -⟩ := notes_begin_on_time hreachable
  obtain ⟨scratch, -, -, rfl⟩ := new_eq_ok hnew
  refine ⟨_, hnew, hreachable, _, List.mem_cons_self, rfl, rfl, ?_⟩
  exact ((hnotes _ List.mem_cons_self rfl).1 rfl).2

end PolySampler.Synth
