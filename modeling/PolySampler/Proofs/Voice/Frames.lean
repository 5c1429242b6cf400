import PolySampler.Proofs.Envelope.PendingRelease
import PolySampler.Voice

/-!
A voice frame by frame. `after` says where a voice stands after a number of
frames and `soundAt` what it plays in one of them, so that what a voice does in
a chunk can be read off one frame at a time. Two stretches of frames add up to
one, which is what makes it possible to cut a chunk anywhere.
-/

namespace PolySampler

open Signal

abbrev Sides := Float32 × Float32

/-- Adds a sound to the two sides of its frame. -/
def Sound.addTo : Sound → Sides → Sides
  | .mixed left right, sides => (sides.1 + left, sides.2 + right)
  | .waiting, sides | .ended, sides => sides

/-! ### Reading a mix at a frame -/

namespace Mix

def sidesAt (m : Mix) (frame : Nat) : Sides :=
  (m.left.getD frame 0, m.right.getD frame 0)

/-- Both sides of a mix have the given number of frames at least. -/
structure Holds (m : Mix) (frames : Nat) : Prop where
  left : frames ≤ m.left.size
  right : frames ≤ m.right.size

@[simp] theorem size_left_add (m : Mix) (frame : Nat) (level : Float32) (sound : Sound) :
    (m.add frame level sound).left.size = m.left.size := by
  cases sound <;> simp [add]

@[simp] theorem size_right_add (m : Mix) (frame : Nat) (level : Float32) (sound : Sound) :
    (m.add frame level sound).right.size = m.right.size := by
  cases sound <;> simp [add]

theorem Holds.add {m : Mix} {frames : Nat} (h : m.Holds frames) (frame : Nat)
    (level : Float32) (sound : Sound) : (m.add frame level sound).Holds frames :=
  ⟨by simpa using h.left, by simpa using h.right⟩

theorem sidesAt_add {m : Mix} {frames : Nat} (h : m.Holds frames) {i : Nat} (hi : i < frames)
    (frame : Nat) (level : Float32) (sound : Sound) :
    (m.add frame level sound).sidesAt i =
      if frame = i then sound.addTo (m.sidesAt i) else m.sidesAt i := by
  have hl : i < m.left.size := Nat.lt_of_lt_of_le hi h.left
  have hr : i < m.right.size := Nat.lt_of_lt_of_le hi h.right
  cases sound with
  | waiting => simp [add, sidesAt, Sound.addTo]
  | ended => simp [add, sidesAt, Sound.addTo]
  | mixed left right =>
      by_cases heq : frame = i
      · subst heq
        simp [add, sidesAt, Sound.addTo, Array.getElem_modify, hl, hr]
      · simp [add, sidesAt, Array.getElem?_modify, heq]

end Mix

namespace Voice

variable (drive : Drive) (gain : Float32)

def after : Nat → Voice → Voice
  | 0, v => v
  | n + 1, v => after n (v.tick drive gain).2.2

def soundAt (frame : Nat) (v : Voice) : Sound :=
  ((v.after drive gain frame).tick drive gain).2.1

def endsWithin : Nat → Voice → Bool
  | 0, _ => false
  | n + 1, v => (v.tick drive gain).2.1 matches .ended || endsWithin n (v.tick drive gain).2.2

@[simp] theorem after_zero (v : Voice) : v.after drive gain 0 = v := rfl

theorem after_succ (n : Nat) (v : Voice) :
    v.after drive gain (n + 1) = (v.tick drive gain).2.2.after drive gain n := rfl

/-! ### Stretches of frames -/

theorem after_add (m n : Nat) (v : Voice) :
    v.after drive gain (m + n) = (v.after drive gain m).after drive gain n := by
  induction m generalizing v with
  | zero => simp
  | succ m ih => rw [Nat.succ_add, after_succ, ih, after_succ]

theorem soundAt_add (m i : Nat) (v : Voice) :
    v.soundAt drive gain (m + i) = (v.after drive gain m).soundAt drive gain i := by
  simp only [soundAt, after_add]

theorem soundAt_succ (i : Nat) (v : Voice) :
    v.soundAt drive gain (i + 1) = (v.tick drive gain).2.2.soundAt drive gain i := rfl

theorem endsWithin_add (m n : Nat) (v : Voice) :
    v.endsWithin drive gain (m + n) =
      (v.endsWithin drive gain m || (v.after drive gain m).endsWithin drive gain n) := by
  induction m generalizing v with
  | zero => simp [endsWithin]
  | succ m ih => simp only [Nat.succ_add, endsWithin, ih, after_succ, Bool.or_assoc]

/-! ### What a frame leaves alone

A frame moves the envelope and the source of sound. All that the note was
started with stays. -/

theorem tick_eq (v : Voice) :
    ∃ oscillator position sourceDelay,
      (v.tick drive gain).2.2 =
        { v with envelope := v.envelope.tick.2, oscillator, position, sourceDelay } := by
  simp only [tick, sound]
  split
  · exact ⟨_, _, _, rfl⟩
  · cases drive with
    | oscillator increment => exact ⟨_, _, _, rfl⟩
    | sample data step finish =>
        dsimp only
        split
        · exact ⟨_, _, _, rfl⟩
        · exact ⟨_, _, _, rfl⟩

/-- What a note is started with and keeps until the voice is free. -/
structure SameNote (v w : Voice) : Prop where
  note : v.note = w.note
  velocity : v.velocity = w.velocity
  state : v.state = w.state
  age : v.age = w.age
  sampleRate : v.sampleRate = w.sampleRate
  region : v.region = w.region
  sustained : v.sustained = w.sustained

theorem SameNote.refl (v : Voice) : SameNote v v :=
  ⟨rfl, rfl, rfl, rfl, rfl, rfl, rfl⟩

theorem SameNote.trans {u v w : Voice} (h : SameNote u v) (h' : SameNote v w) : SameNote u w :=
  ⟨h.note.trans h'.note, h.velocity.trans h'.velocity, h.state.trans h'.state,
    h.age.trans h'.age, h.sampleRate.trans h'.sampleRate, h.region.trans h'.region,
    h.sustained.trans h'.sustained⟩

theorem SameNote.isActive_eq {v w : Voice} (h : SameNote v w) : v.isActive = w.isActive := by
  simp only [Voice.isActive, h.state]

theorem SameNote.drive_eq {v w : Voice} (h : SameNote v w) (region : Region)
    (pitchRatio : Float32) :
    v.drive region pitchRatio = w.drive region pitchRatio := by
  simp only [Voice.drive, h.note, h.sampleRate]

theorem SameNote.gain_eq {v w : Voice} (h : SameNote v w) (region : Region) :
    v.gain region = w.gain region := by
  simp only [Voice.gain, h.velocity]

theorem sameNote_tick (v : Voice) : SameNote (v.tick drive gain).2.2 v := by
  obtain ⟨oscillator, position, sourceDelay, h⟩ := v.tick_eq drive gain
  rw [h]
  exact ⟨rfl, rfl, rfl, rfl, rfl, rfl, rfl⟩

theorem sameNote_after (n : Nat) (v : Voice) : SameNote (v.after drive gain n) v := by
  induction n generalizing v with
  | zero => exact ⟨rfl, rfl, rfl, rfl, rfl, rfl, rfl⟩
  | succ n ih =>
      rw [after_succ]
      exact (ih _).trans (v.sameNote_tick drive gain)

@[simp] theorem envelope_tick (v : Voice) :
    (v.tick drive gain).2.2.envelope = v.envelope.tick.2 := by
  obtain ⟨oscillator, position, sourceDelay, h⟩ := v.tick_eq drive gain
  rw [h]

/-! ### The delay of the source -/

theorem toNat_sourceDelay_tick (v : Voice) :
    (v.tick drive gain).2.2.sourceDelay.toNat = v.sourceDelay.toNat - 1 := by
  by_cases h : v.sourceDelay = 0
  · have hkept : (v.tick drive gain).2.2.sourceDelay = v.sourceDelay := by
      simp only [tick, sound, h, ne_eq, not_true_eq_false, if_false]
      cases drive with
      | oscillator increment => rfl
      | sample data step finish => dsimp only; split <;> rfl
    rw [hkept, h]
    rfl
  · have hcounted : (v.tick drive gain).2.2.sourceDelay = v.sourceDelay - 1 := by
      simp only [tick, sound, ne_eq, h, not_false_eq_true, if_true]
    rw [hcounted, toNat_pred h]

theorem toNat_sourceDelay_after (n : Nat) (v : Voice) :
    (v.after drive gain n).sourceDelay.toNat = v.sourceDelay.toNat - n := by
  induction n generalizing v with
  | zero => rfl
  | succ n ih =>
      rw [after_succ, ih, toNat_sourceDelay_tick]
      omega

theorem sound_tick_eq_waiting_iff (v : Voice) :
    (v.tick drive gain).2.1 = .waiting ↔ v.sourceDelay ≠ 0 := by
  simp only [tick, sound]
  by_cases h : v.sourceDelay = 0
  · simp only [h, ne_eq, not_true_eq_false, if_false, iff_false]
    cases drive with
    | oscillator increment => exact Sound.noConfusion
    | sample data step finish => dsimp only; split <;> exact Sound.noConfusion
  · simp only [ne_eq, h, not_false_eq_true, if_true]

/-- The source waits in the frames of its delay and in no other. -/
theorem soundAt_eq_waiting_iff (frame : Nat) (v : Voice) :
    v.soundAt drive gain frame = .waiting ↔ frame < v.sourceDelay.toNat := by
  rw [soundAt, sound_tick_eq_waiting_iff, ne_eq, ← UInt32.toNat_inj, toNat_sourceDelay_after]
  have hzero : (0 : UInt32).toNat = 0 := rfl
  omega

/-! ### Mixing a chunk -/

/-- Mixing leaves the voice where its frames leave it, and reports that the
source ended if it did in one of them. -/
theorem mixFrom_voice (n start : Nat) (ended : Bool) (mix : Mix) (v : Voice) :
    (mixFrom drive gain n start ended mix v).1 = (ended || v.endsWithin drive gain n) ∧
      (mixFrom drive gain n start ended mix v).2.2 = v.after drive gain n := by
  induction n generalizing start ended mix v with
  | zero => simp [mixFrom, endsWithin]
  | succ n ih =>
      -- What has ended so far is carried along, so it stands before what ends later.
      obtain ⟨hended, hvoice⟩ := ih (start + 1) (ended || (v.tick drive gain).2.1 matches .ended)
        (mix.add start (v.tick drive gain).1 (v.tick drive gain).2.1) (v.tick drive gain).2.2
      refine ⟨?_, hvoice⟩
      simp only [mixFrom, endsWithin]
      rw [← Bool.or_assoc]
      exact hended

theorem holds_mixFrom {frames : Nat} (n start : Nat) (ended : Bool) {mix : Mix} (v : Voice)
    (h : mix.Holds frames) : (mixFrom drive gain n start ended mix v).2.1.Holds frames := by
  induction n generalizing start ended mix v with
  | zero => exact h
  | succ n ih => exact ih _ _ _ (h.add _ _ _)

/-- Mixing adds to every frame the sound the voice makes in it. -/
theorem sidesAt_mixFrom {frames : Nat} (n start : Nat) (ended : Bool) {mix : Mix} (v : Voice)
    (h : mix.Holds frames) {i : Nat} (hi : i < frames) :
    (mixFrom drive gain n start ended mix v).2.1.sidesAt i =
      if start ≤ i ∧ i < start + n then (v.soundAt drive gain (i - start)).addTo (mix.sidesAt i)
      else mix.sidesAt i := by
  induction n generalizing start ended mix v with
  | zero => rw [if_neg (by omega)]; rfl
  | succ n ih =>
      rw [mixFrom, ih _ _ _ (h.add _ _ _), Mix.sidesAt_add h hi]
      by_cases heq : start = i
      · subst heq
        rw [if_neg (by omega), if_pos rfl, if_pos (by omega), Nat.sub_self]
        rfl
      · rw [if_neg heq]
        by_cases hin : start ≤ i ∧ i < start + (n + 1)
        · rw [if_pos (by omega), if_pos hin, ← soundAt_succ,
            show i - (start + 1) + 1 = i - start by omega]
        · rw [if_neg (by omega), if_neg hin]

/-! ### A voice of the pool -/

/-- Adds what the voice plays in a frame of a chunk to the sides of that frame. -/
def addSoundAt (instrument : Instrument) (pitchRatio : Float32) (frame : Nat) (sides : Sides)
    (v : Voice) : Sides :=
  if v.isActive then
    match instrument.regions[v.region]? with
    | none => sides
    | some region => (v.soundAt (v.drive region pitchRatio) (v.gain region) frame).addTo sides
  else sides

def played (instrument : Instrument) (pitchRatio : Float32) (frames : Nat) (v : Voice) : Voice :=
  if v.isActive then
    match instrument.regions[v.region]? with
    | none => v.free
    | some region =>
      let drive := v.drive region pitchRatio
      let gain := v.gain region
      let w := v.after drive gain frames
      if v.endsWithin drive gain frames || w.envelope.isFinished then w.free else w
  else v

theorem played_of_not_isActive {v : Voice} (h : v.isActive = false) (instrument : Instrument)
    (pitchRatio : Float32) (frames : Nat) : v.played instrument pitchRatio frames = v := by
  simp [played, h]

/-- Rendering an active voice plays it and adds its sound to every frame. -/
theorem renderFrames_eq {v : Voice} (hv : v.isActive) (instrument : Instrument)
    (pitchRatio : Float32) {frames : Nat} {mix : Mix} (h : mix.Holds frames) :
    (v.renderFrames instrument pitchRatio frames mix).2 =
        v.played instrument pitchRatio frames ∧
      (v.renderFrames instrument pitchRatio frames mix).1.Holds frames ∧
      ∀ i < frames, (v.renderFrames instrument pitchRatio frames mix).1.sidesAt i =
        v.addSoundAt instrument pitchRatio i (mix.sidesAt i) := by
  simp only [renderFrames, played, addSoundAt, if_pos hv]
  cases instrument.regions[v.region]? with
  | none => exact ⟨rfl, h, fun _ _ => rfl⟩
  | some region =>
      obtain ⟨hended, hvoice⟩ := mixFrom_voice (v.drive region pitchRatio) (v.gain region)
        frames 0 false mix v
      refine ⟨?_, holds_mixFrom _ _ _ _ _ _ h, ?_⟩
      · simp only [hended, hvoice, Bool.false_or]
      · intro i hi
        dsimp only
        rw [sidesAt_mixFrom _ _ _ _ _ _ h hi, if_pos (by omega), Nat.sub_zero]

@[simp] theorem isActive_free (v : Voice) : v.free.isActive = false := rfl

@[simp] theorem isFree_free (v : Voice) : v.free.isFree = true := rfl

@[simp] theorem isFree_hold (v : Voice) : v.hold.isFree = v.isFree := by
  rw [hold]
  split <;> rfl

@[simp] theorem isFree_release (v : Voice) (delay : UInt32) :
    (v.release delay).isFree = v.isFree := by
  rw [release]
  split
  · next hactive => simp [isFree, hactive]
  · rfl

theorem isActive_eq_not_isFree (v : Voice) : v.isActive = !v.isFree := by
  rw [isActive, isFree]
  cases v.state <;> rfl

theorem isActive_of_isActive_played {instrument : Instrument} {pitchRatio : Float32}
    {frames : Nat} {v : Voice} (h : (v.played instrument pitchRatio frames).isActive) :
    v.isActive := by
  by_cases hv : v.isActive
  · exact hv
  · rwa [played_of_not_isActive (by simpa using hv)] at h

theorem isFinished_after {v : Voice} (h : v.envelope.isFinished) (n : Nat) :
    (v.after drive gain n).envelope.isFinished := by
  induction n generalizing v with
  | zero => exact h
  | succ n ih =>
      apply ih
      rw [envelope_tick]
      have hstage : v.envelope.progress.stage = .done := by
        simpa [Envelope.Generator.isFinished] using h
      rw [Envelope.Generator.tick]
      cases v.envelope.description with
      | none => exact h
      | some d => simp [Envelope.Progress.tick, hstage, Envelope.Generator.isFinished]

/-- Cutting a chunk in two frees the voice in neither part or frees it in both
ways, and in the first case changes nothing else either. -/
theorem played_add_cases (instrument : Instrument) (pitchRatio : Float32) (m n : Nat)
    (v : Voice) :
    v.played instrument pitchRatio (m + n) =
        (v.played instrument pitchRatio m).played instrument pitchRatio n ∨
      (v.played instrument pitchRatio (m + n)).isActive = false ∧
        ((v.played instrument pitchRatio m).played instrument pitchRatio n).isActive = false := by
  by_cases hv : v.isActive
  · cases hregion : instrument.regions[v.region]? with
    | none =>
        right
        have hfree (k : Nat) : v.played instrument pitchRatio k = v.free := by
          simp only [played, if_pos hv, hregion]
        rw [hfree, hfree, played_of_not_isActive v.isActive_free]
        exact ⟨rfl, rfl⟩
    | some region =>
        -- The two parts share drive and gain, since both belong to the note.
        have hsame := v.sameNote_after (v.drive region pitchRatio) (v.gain region) m
        by_cases hover : v.endsWithin (v.drive region pitchRatio) (v.gain region) m ||
            (v.after (v.drive region pitchRatio) (v.gain region) m).envelope.isFinished
        · right
          have hfirst : v.played instrument pitchRatio m =
              (v.after (v.drive region pitchRatio) (v.gain region) m).free := by
            simp only [played, if_pos hv, hregion, if_pos hover]
          have hwhole : v.played instrument pitchRatio (m + n) =
              (v.after (v.drive region pitchRatio) (v.gain region) (m + n)).free := by
            simp only [played, if_pos hv, hregion, endsWithin_add]
            rw [if_pos]
            rcases Bool.or_eq_true_iff.mp hover with hended | hfinished
            · simp [hended]
            · rw [after_add, isFinished_after _ _ hfinished, Bool.or_true]
          rw [hfirst, hwhole, played_of_not_isActive (isActive_free _)]
          exact ⟨rfl, rfl⟩
        · left
          have hfirst : v.played instrument pitchRatio m =
              v.after (v.drive region pitchRatio) (v.gain region) m := by
            simp only [played, if_pos hv, hregion, if_neg hover]
          have hended : v.endsWithin (v.drive region pitchRatio) (v.gain region) m = false := by
            simp only [Bool.or_eq_true, not_or, Bool.not_eq_true] at hover
            exact hover.1
          rw [hfirst]
          simp only [played, if_pos hv, hsame.isActive_eq, hsame.region, hregion,
            hsame.drive_eq, hsame.gain_eq, endsWithin_add, after_add, hended, Bool.false_or]
  · have hv : v.isActive = false := by simpa using hv
    left
    simp only [played_of_not_isActive hv]

/-- A voice that outlasts a chunk goes on from its end as if nothing had been cut
there. -/
theorem addSoundAt_add {instrument : Instrument} {pitchRatio : Float32} {m : Nat} {v : Voice}
    (h : v.isActive → (v.played instrument pitchRatio m).isActive) (n : Nat) (sides : Sides) :
    v.addSoundAt instrument pitchRatio (m + n) sides =
      (v.played instrument pitchRatio m).addSoundAt instrument pitchRatio n sides := by
  by_cases hv : v.isActive
  · have hplayed := h hv
    cases hregion : instrument.regions[v.region]? with
    | none => simp [played, hv, hregion] at hplayed
    | some region =>
        have hsame := v.sameNote_after (v.drive region pitchRatio) (v.gain region) m
        have hafter : v.played instrument pitchRatio m =
            v.after (v.drive region pitchRatio) (v.gain region) m := by
          simp only [played, if_pos hv, hregion] at hplayed ⊢
          split at hplayed
          · exact absurd hplayed (by simp)
          · next hgoes => rw [if_neg hgoes]
        rw [hafter]
        simp only [addSoundAt, if_pos hv, hsame.isActive_eq, hsame.region, hregion,
          hsame.drive_eq, hsame.gain_eq, soundAt_add]
  · have hv : v.isActive = false := by simpa using hv
    rw [played_of_not_isActive hv]
    simp [addSoundAt, hv]

end Voice

end PolySampler
