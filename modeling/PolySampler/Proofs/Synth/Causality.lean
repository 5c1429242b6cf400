import Mathlib.Algebra.GroupWithZero.Nat
import Mathlib.Data.List.Forall2
import Mathlib.Data.List.TakeWhile
import PolySampler.Proofs.Synth.Block
import PolySampler.Proofs.Synth.Calls
import PolySampler.Proofs.Synth.Configure
import PolySampler.Proofs.Voice.Indistinct

/-!
Events do not reach back in time. Two synths that agree up to a frame give it the
same samples, however the block is cut into chunks before and behind it; and
calls that are due later, as long as they take free voices and find room for
their changes, leave a synth that agrees with the one before them.
-/

namespace PolySampler.Synth

open Signal Midi

/-- The synths cannot be told apart from frame `offset` of the block up to frame
`last`. -/
structure Agree (last offset : Nat) (s t : Synth) : Prop where
  masterGain : s.masterGain = t.masterGain
  instrument : s.instrument = t.instrument
  numChannels : s.scratch.numChannels = t.scratch.numChannels
  numFrames : s.scratch.numFrames = t.scratch.numFrames
  performance : s.performance = t.performance
  pending : s.pending.takeWhile (isDue last) = t.pending.takeWhile (isDue last)
  voices : List.Forall₂ (Voice.Indistinct (last + 1 - offset)) s.voices t.voices

theorem Agree.refl (last offset : Nat) (s : Synth) : Agree last offset s s :=
  ⟨rfl, rfl, rfl, rfl, rfl, rfl, List.forall₂_same.mpr fun v _ => .refl _ v⟩

/-! ### Along the chunks -/

theorem chunkLength_of_none_due {last : Nat} {pending : List Pending}
    (h : pending.takeWhile (isDue last) = []) (block frames offset : Nat) :
    chunkLength block frames offset pending = min (max block 1) (frames - offset) ∨
      last < offset + chunkLength block frames offset pending ∧
        last < offset + min (max block 1) (frames - offset) := by
  cases pending with
  | nil => exact .inl rfl
  | cons p rest =>
      have hlater : last < p.1.toNat := by
        simpa [List.takeWhile_cons, isDue] using h
      simp only [chunkLength]
      omega

/-- Changes that agree up to `last` make chunks that are equally long or both
reach past it. -/
theorem chunkLength_agree {last : Nat} {pending others : List Pending}
    (h : pending.takeWhile (isDue last) = others.takeWhile (isDue last))
    (block frames offset : Nat) :
    chunkLength block frames offset pending = chunkLength block frames offset others ∨
      last < offset + chunkLength block frames offset pending ∧
        last < offset + chunkLength block frames offset others := by
  cases hdue : others.takeWhile (isDue last) with
  | nil =>
      have hothers := chunkLength_of_none_due hdue block frames offset
      have hpending := chunkLength_of_none_due (h.trans hdue) block frames offset
      omega
  | cons p rest =>
      -- The first change is due in both, and it alone decides the length.
      left
      have hhead {changes : List Pending} (hchanges : changes.takeWhile (isDue last) = p :: rest) :
          ∃ more, changes = p :: more := by
        cases changes with
        | nil => exact absurd hchanges.symm (List.cons_ne_nil _ _)
        | cons q more =>
            rw [List.takeWhile_cons] at hchanges
            split at hchanges
            · exact ⟨more, by rw [(List.cons.inj hchanges).1]⟩
            · exact absurd hchanges.symm (List.cons_ne_nil _ _)
      obtain ⟨more, rfl⟩ := hhead hdue
      obtain ⟨more', rfl⟩ := hhead (h.trans hdue)
      rfl

section Chunks

variable {last offset : Nat} {s t : Synth}

theorem Agree.applyDue (h : Agree last offset s t) (hlast : offset ≤ last) :
    Agree last offset (s.applyDue offset) (t.applyDue offset) := by
  have hcut (pending : List Pending) :
      pending.takeWhile (isDue offset) =
        (pending.takeWhile (isDue last)).takeWhile (isDue offset) := by
    rw [List.takeWhile_takeWhile]
    congr 1
    funext p
    simp only [isDue, decide_eq_true_eq]
    exact decide_eq_decide.mpr ⟨fun hp => ⟨hp, by omega⟩, fun hp => hp.1⟩
  have hdue : s.pending.takeWhile (isDue offset) = t.pending.takeWhile (isDue offset) := by
    rw [hcut, h.pending, ← hcut]
  refine ⟨h.masterGain, h.instrument, h.numChannels, h.numFrames, ?_, ?_, h.voices⟩
  · simp only [Synth.applyDue, h.performance, hdue]
  · have hsplit := takeWhile_isDue hlast s.pending
    rw [h.pending, hdue, ← takeWhile_isDue hlast t.pending] at hsplit
    exact List.append_cancel_left hsplit

theorem Agree.nextLength (h : Agree last offset s t) (hlast : offset ≤ last) (frames : Nat) :
    s.nextLength frames offset = t.nextLength frames offset ∨
      last < offset + s.nextLength frames offset ∧
        last < offset + t.nextLength frames offset := by
  rw [Synth.nextLength]
  rw [h.numFrames]
  exact chunkLength_agree (h.applyDue hlast).pending _ _ _

theorem Agree.afterChunk (h : Agree last offset s t) (length : Nat)
    (hlength : offset + length ≤ last) :
    Agree last (offset + length) (s.afterChunk length) (t.afterChunk length) := by
  refine ⟨by simp [h.masterGain], by simp [h.instrument], by simp [h.numChannels],
    by simp [h.numFrames], by simp [h.performance], by simp [h.pending], ?_⟩
  rw [voices_afterChunk, voices_afterChunk, List.forall₂_map_left_iff, List.forall₂_map_right_iff]
  refine h.voices.imp fun v w hvw => ?_
  have hkept : Voice.Indistinct (last + 1 - (offset + length)) v w := hvw.mono (by omega)
  unfold play
  rw [h.numChannels, h.instrument, h.performance]
  split
  · exact hkept
  · cases t.instrument with
    | none => exact hkept
    | some instrument =>
        have hsplit : last + 1 - offset = last + 1 - (offset + length) + length := by omega
        rw [hsplit] at hvw
        exact hvw.played instrument _

theorem Agree.sampleAt_eq (h : Agree last offset s t) (hlast : offset ≤ last)
    (channels channel : Nat) :
    s.sampleAt channels channel (last - offset) = t.sampleAt channels channel (last - offset) := by
  have hsides : s.sidesAt (last - offset) = t.sidesAt (last - offset) := by
    unfold sidesAt
    rw [h.instrument, h.performance]
    cases t.instrument with
    | none => rfl
    | some instrument =>
        refine List.rel_foldl (P := Eq) ?_ rfl h.voices
        rintro sides _ rfl v w hvw
        exact hvw.addSoundAt_eq (by omega) instrument _ sides
  unfold sampleAt
  rw [h.numChannels, h.masterGain, h.performance, hsides]

/-- Both have a chunk with frame `last` in it that begins at the same frame, and
they agree there. -/
theorem Agree.exists_chunks (h : Agree last offset s t) (hlast : offset ≤ last) {frames : Nat}
    (hframes : last < frames) :
    ∃ k ∈ s.chunks frames offset, ∃ k' ∈ t.chunks frames offset,
      k.Covers last ∧ k'.Covers last ∧ k.offset = k'.offset ∧
        Agree last k.offset k.synth k'.synth := by
  induction offset, s using chunk_induction frames generalizing t with
  | done offset s hle => omega
  | chunk offset s hlt ih =>
      have hdue := h.applyDue hlast
      rw [chunks_of_lt hlt, chunks_of_lt hlt]
      -- A chunk that does not reach past `last` is the same in both, and behind it they agree.
      by_cases hpast : last < offset + s.nextLength frames offset
      · have hpast' : last < offset + t.nextLength frames offset := by
          rcases h.nextLength hlast frames with heq | ⟨-, hpast'⟩
          · omega
          · exact hpast'
        exact ⟨_, List.mem_cons_self, _, List.mem_cons_self, ⟨hlast, hpast⟩, ⟨hlast, hpast'⟩, rfl,
          hdue⟩
      · have heq : s.nextLength frames offset = t.nextLength frames offset := by
          rcases h.nextLength hlast frames with heq | ⟨hpast', -⟩
          · exact heq
          · exact absurd hpast' hpast
        have hnext := hdue.afterChunk (s.nextLength frames offset) (by omega)
        obtain ⟨k, hk, k', hk', hrest⟩ := ih hnext (by omega)
        rw [← heq]
        exact ⟨k, List.mem_cons_of_mem _ hk, k', List.mem_cons_of_mem _ hk', hrest⟩

end Chunks

/-- Synths that agree up to a frame give it the same samples. -/
theorem Agree.sample?_renderBlock {last : Nat} {s t : Synth} (h : Agree last 0 s t)
    {outputs : List (Array Float32)} (hlast : last < sharedFrames outputs) (channel : Nat) :
    sample? (s.renderBlock outputs).2 channel last =
      sample? (t.renderBlock outputs).2 channel last := by
  obtain ⟨k, hk, k', hk', hcovers, hcovers', hoffset, hagree⟩ :=
    h.exists_chunks (Nat.zero_le last) hlast
  rw [Synth.sample?_renderBlock, Synth.sample?_renderBlock, if_pos hlast, if_pos hlast,
    sample?_renderChunks hk outputs channel hcovers,
    sample?_renderChunks hk' outputs channel hcovers', ← hoffset,
    hagree.sampleAt_eq hcovers.1]

/-! ### Calls that are due later -/

def regionsStarted (instrument : Option Instrument) : Call → Nat
  | .noteOn _ key velocity =>
    match instrument with
    | none => 0
    | some instrument => (instrument.regionsFor key velocity).length
  | .noteOff .. | .polyAftertouch .. | .channelAftertouch .. | .controlChange ..
  | .pitchWheel .. => 0

/-- A later change leaves what is due by `last` as it is. -/
theorem takeWhile_insertPending {last : Nat} {delay : UInt32} (h : last < delay.toNat)
    (change : Change) (pending : List Pending) :
    (insertPending delay change pending).takeWhile (isDue last) =
      pending.takeWhile (isDue last) := by
  have hlater (due : UInt32) (hdue : last < due.toNat) (other : Change) (rest : List Pending) :
      ((due, other) :: rest).takeWhile (isDue last) = [] :=
    List.takeWhile_cons_of_neg (by simpa [isDue] using hdue)
  induction pending with
  | nil => exact hlater delay h change []
  | cons p rest ih =>
      obtain ⟨due, other⟩ := p
      rw [insertPending]
      split
      · rw [List.takeWhile_cons, List.takeWhile_cons, ih]
      · next hdue =>
          have hbehind : last < due.toNat := by
            have := UInt32.not_le.mp hdue
            have := UInt32.lt_iff_toNat_lt.mp this
            omega
          rw [hlater delay h, hlater due hbehind]

theorem takeWhile_insertAll {last : Nat} {changes : List Pending}
    (h : ∀ change ∈ changes, last < change.1.toNat) (pending : List Pending) :
    (insertAll changes pending).takeWhile (isDue last) = pending.takeWhile (isDue last) := by
  induction changes generalizing pending with
  | nil => rfl
  | cons change changes ih =>
      have hrest := ih (fun other hmem => h other (List.mem_cons_of_mem _ hmem))
        (insertPending change.1 change.2 pending)
      rw [takeWhile_insertPending (h change List.mem_cons_self)] at hrest
      exact hrest

section Voices

variable {k : Nat}

theorem Touched.isFree_eq {call : Call} (hsilence : call.silencesAll = false) {v w : Voice}
    (h : Touched call v w) : w.isFree = v.isFree := by
  cases h with
  | kept => rfl
  | held => exact v.isFree_hold
  | released => exact v.isFree_release _
  | silenced h => exact absurd h (by simp [hsilence])

theorem Touched.indistinct {call : Call} (hdelay : k ≤ call.delay.toNat)
    (hsilence : call.silencesAll = false) {v v' w : Voice} (h : Touched call v v')
    (hvw : Voice.Indistinct k v w) : Voice.Indistinct k v' w := by
  cases h with
  | kept => exact hvw
  | held => exact hvw.hold
  | released => exact hvw.release hdelay
  | silenced h => exact absurd h (by simp [hsilence])

/-- One voice can be exchanged for one that is related to the same voices. -/
theorem forall₂_exchange {R : Voice → Voice → Prop} {before behind others : List Voice}
    {v v' : Voice} (h : List.Forall₂ R (before ++ v :: behind) others)
    (hv : ∀ w, R v w → R v' w) : List.Forall₂ R (before ++ v' :: behind) others := by
  induction before generalizing others with
  | nil =>
      cases h with
      | cons hvw hrest => exact .cons (hv _ hvw) hrest
  | cons u before ih =>
      cases h with
      | cons huw hrest => exact .cons huw (ih hrest)

/-- Regions that start later and find free voices are not heard before. Each of
them takes one of the free voices. -/
theorem startRegions_indistinct (regions : Array Region) (key velocity : UInt8)
    {delay : UInt32} (hdelay : k ≤ delay.toNat) (age : Nat) {indices : List Nat}
    {voices others : List Voice} (h : List.Forall₂ (Voice.Indistinct k) voices others)
    (hfree : indices.length ≤ voices.countP Voice.isFree) :
    let started := indices.foldl (startRegion regions key velocity delay age) voices
    List.Forall₂ (Voice.Indistinct k) started others ∧
      voices.countP Voice.isFree ≤ started.countP Voice.isFree + indices.length := by
  induction indices generalizing voices with
  | nil => exact ⟨h, Nat.le_refl _⟩
  | cons index indices ih =>
      rw [List.length_cons] at hfree
      obtain ⟨hnext, hcount⟩ :
          List.Forall₂ (Voice.Indistinct k)
            (startRegion regions key velocity delay age voices index) others ∧
          voices.countP Voice.isFree ≤
            (startRegion regions key velocity delay age voices index).countP Voice.isFree + 1 := by
        rcases startRegion_cases regions key velocity delay age voices index with
          heq | ⟨before, v, behind, region, rfl, htaken, heq⟩
        · rw [heq]
          exact ⟨h, Nat.le_succ _⟩
        · -- As many voices are free as regions are left, so the one that is taken is free.
          have hv := htaken (by omega)
          rw [heq]
          refine ⟨forall₂_exchange h fun w hvw => hvw.start hv hdelay _ _ _ _ _, ?_⟩
          simp only [List.countP_append, List.countP_cons]
          split <;> omega
      obtain ⟨hrest, hcount'⟩ := ih hnext (by omega)
      refine ⟨hrest, ?_⟩
      rw [List.foldl_cons, List.length_cons]
      omega

/-- A later call leaves every voice indistinct from what it was, as long as it
takes free voices only. -/
theorem Moved.indistinct {s : Synth} {call : Call} (hdelay : k ≤ call.delay.toNat)
    (hsilence : call.silencesAll = false) {voices others : List Voice}
    (hmoved : Moved s call voices)
    (h : List.Forall₂ (Voice.Indistinct k) s.voices others)
    (hfree : regionsStarted s.instrument call ≤ s.voices.countP Voice.isFree) :
    List.Forall₂ (Voice.Indistinct k) voices others ∧
      s.voices.countP Voice.isFree ≤
        voices.countP Voice.isFree + regionsStarted s.instrument call := by
  cases hmoved with
  | touched f htouched =>
      have hsame : Voice.isFree ∘ f = Voice.isFree := by
        funext v
        exact (htouched v).isFree_eq hsilence
      rw [List.countP_map, hsame, List.forall₂_map_left_iff]
      exact ⟨h.imp fun v w hvw => (htouched v).indistinct hdelay hsilence hvw,
        Nat.le_add_right _ _⟩
  | started hinstrument delay key velocity =>
      simp only [regionsStarted, hinstrument] at hfree ⊢
      exact startRegions_indistinct _ key velocity hdelay _ h hfree

end Voices

/-- Later calls leave a synth that agrees with the one before them. -/
theorem Agree.performAll {last : Nat} {calls : List Call} {s t : Synth} (h : Agree last 0 s t)
    (hdelay : ∀ call ∈ calls, last < call.delay.toNat)
    (hsilence : ∀ call ∈ calls, call.silencesAll = false)
    (hfree : (calls.map (regionsStarted s.instrument)).sum ≤ s.voices.countP Voice.isFree)
    (hroom : s.pending.length + (calls.flatMap scheduled).length ≤ maxPending) :
    Agree last 0 (performAll calls s) t := by
  -- The synth without the calls stays; free voices and room shrink along the list.
  induction calls generalizing s with
  | nil => exact h
  | cons call calls ih =>
      rw [List.map_cons, List.sum_cons] at hfree
      rw [List.flatMap_cons, List.length_append] at hroom
      have hlate := hdelay call List.mem_cons_self
      have hrig := sameRig_perform call s
      obtain ⟨hperformance, hpending⟩ := pending_perform call (s := s) (by omega)
      obtain ⟨hvoices, hcount⟩ := (moved_perform call s).indistinct hlate
        (hsilence call List.mem_cons_self) h.voices (by omega)
      have hagree : Agree last 0 (call.perform s) t := by
        refine ⟨hrig.masterGain.trans h.masterGain, hrig.instrument.trans h.instrument,
          hrig.scratch ▸ h.numChannels, hrig.scratch ▸ h.numFrames,
          hperformance.trans h.performance, ?_, hvoices⟩
        rw [hpending, takeWhile_insertAll _ _]
        · exact h.pending
        · intro change hchange
          rwa [delay_of_mem_scheduled hchange]
      refine ih (s := call.perform s) hagree
        (fun other hmem => hdelay other (List.mem_cons_of_mem _ hmem))
        (fun other hmem => hsilence other (List.mem_cons_of_mem _ hmem)) ?_ ?_
      · rw [hrig.instrument]
        omega
      · rw [hpending, length_insertAll]
        omega

/-- Calls that are due at frame `limit` or later leave every sample before it as
it is without them. They may start notes as long as voices are free for all
their regions, and schedule changes as long as there is room; only the call for
silence at once does not wait for its frame. -/
theorem sample?_renderBlock_performAll {s : Synth} {calls : List Call} {limit : Nat}
    (hdelay : ∀ call ∈ calls, limit ≤ call.delay.toNat)
    (hsilence : ∀ call ∈ calls, call.silencesAll = false)
    (hfree : (calls.map (regionsStarted s.instrument)).sum ≤ s.voices.countP Voice.isFree)
    (hroom : s.pending.length + (calls.flatMap scheduled).length ≤ maxPending)
    (outputs : List (Array Float32)) (channel : Nat) {frame : Nat}
    (hframe : frame < min limit (sharedFrames outputs)) :
    sample? ((performAll calls s).renderBlock outputs).2 channel frame =
      sample? (s.renderBlock outputs).2 channel frame := by
  have hlate (call : Call) (hmem : call ∈ calls) : frame < call.delay.toNat := by
    have := hdelay call hmem
    omega
  have hagree : Agree frame 0 (performAll calls s) s :=
    (Agree.refl frame 0 s).performAll hlate hsilence hfree hroom
  exact hagree.sample?_renderBlock (by omega) channel

/-- A note and a bend from frame 2 on leave frame 1 of a fresh synth alone. -/
theorem sample?_before_note_and_bend :
    ∃ fresh, Synth.new .machine { numVoices := 2 } = .ok fresh ∧
      let s := (fresh.setInstrument (some organ)).2
      let calls := [.noteOn 2 60 100, .pitchWheel 3 4096]
      let outputs := [Array.replicate 4 0]
      (∀ call ∈ calls, 2 ≤ call.delay.toNat) ∧
      (∀ call ∈ calls, call.silencesAll = false) ∧
      (calls.map (regionsStarted s.instrument)).sum ≤ s.voices.countP Voice.isFree ∧
      s.pending.length + (calls.flatMap scheduled).length ≤ maxPending ∧
      1 < min 2 (sharedFrames outputs) ∧
      sample? ((performAll calls s).renderBlock outputs).2 0 1 =
        sample? (s.renderBlock outputs).2 0 1 := by
  obtain ⟨fresh, hnew⟩ := exists_duet
  obtain ⟨scratch, -, -, rfl⟩ := new_eq_ok hnew
  have hdelay : ∀ call ∈ [Call.noteOn 2 60 100, .pitchWheel 3 4096], 2 ≤ call.delay.toNat := by
    decide
  have hsilence : ∀ call ∈ [Call.noteOn 2 60 100, .pitchWheel 3 4096],
      call.silencesAll = false := by
    decide
  have hfree : 1 ≤ 2 := by decide
  have hroom : 0 + 1 ≤ maxPending := by decide
  have hframe : 1 < min 2 (sharedFrames [Array.replicate 4 (0 : Float32)]) := by decide
  refine ⟨_, hnew, hdelay, hsilence, hfree, hroom, hframe, ?_⟩
  refine sample?_renderBlock_performAll hdelay hsilence ?_ ?_ _ 0 hframe
  · exact hfree
  · exact hroom

end PolySampler.Synth
