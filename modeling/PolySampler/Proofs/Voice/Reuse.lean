import PolySampler.Proofs.Voice.Frames

/-!
Voices that are used again. Starting a note overwrites all of a voice but its
oscillator: a sample leaves that alone, and the noise register is never reset. Neither
is read by the sources of sound that leave it alone, so a note that is played by a
sample or a tone cannot be told from the same note in a voice with another past, no
matter what is done with the two from then on.
-/

namespace PolySampler

open Signal

/-! ### Oscillators -/

namespace Signal.Oscillator

/-- The oscillators make the same tone from now on; the noise registers may differ,
since no tone reads them. -/
structure SameTone (o p : Oscillator) : Prop where
  waveform : o.waveform = p.waveform
  phase : o.phase = p.phase
  tonal : o.waveform ≠ .noise

theorem SameTone.next {o p : Oscillator} (h : SameTone o p) (increment : Float32) :
    (o.next increment).1 = (p.next increment).1 ∧
      SameTone (o.next increment).2 (p.next increment).2 := by
  obtain ⟨waveform, phase, noiseState⟩ := o
  obtain ⟨waveform', phase', noiseState'⟩ := p
  obtain ⟨hwaveform, hphase, htonal⟩ := h
  dsimp only at hwaveform hphase htonal
  subst hwaveform hphase
  cases waveform with
  | noise => exact absurd rfl htonal
  | sine | saw | square | triangle => exact ⟨rfl, rfl, rfl, htonal⟩

end Signal.Oscillator

namespace Voice

/-- What can be done with a voice once its note has begun. -/
inductive Action where
  | release (delay : UInt32)
  | hold
  | render (pitchRatio : Float32) (mix : Mix)

/-- What the rest of the synth sees of a voice. -/
structure Sight where
  state : VoiceState
  note : UInt8
  age : Nat
  sustained : Bool

def sight (v : Voice) : Sight where
  state := v.state
  note := v.note
  age := v.age
  sustained := v.sustained

def act (instrument : Instrument) (v : Voice) : Action → Option Mix × Voice
  | .release delay => (none, v.release delay)
  | .hold => (none, v.hold)
  | .render pitchRatio mix =>
    let (mix, v) := v.render instrument pitchRatio mix
    (some mix, v)

/-- What comes of actions one after the other: after each of them the mix that it left
behind, if any, and what can be seen of the voice. -/
def course (instrument : Instrument) : List Action → Voice → List (Option Mix × Sight)
  | [], _ => []
  | action :: rest, v =>
    let (mix, v) := v.act instrument action
    (mix, v.sight) :: course instrument rest v

/-! ### Twins -/

/-- The voices are the same but for their oscillators, and these differ at most in what
the source of the region does not read. -/
structure Twins (region : Region) (v w : Voice) : Prop where
  same : { v with oscillator := w.oscillator } = w
  tone {waveform : Waveform} (h : region.source = .oscillator waveform) :
    v.oscillator.SameTone w.oscillator

variable {region : Region} {v w : Voice}

theorem Twins.map (h : Twins region v w) {f : Voice → Voice}
    (hosc : ∀ u, (f u).oscillator = u.oscillator)
    (hf : ∀ u o, f { u with oscillator := o } = { f u with oscillator := o }) :
    Twins region (f v) (f w) := by
  refine ⟨?_, fun hsource => ?_⟩
  · rw [hosc, ← hf, h.same]
  · rw [hosc, hosc]
    exact h.tone hsource

theorem Twins.free (h : Twins region v w) : Twins region v.free w.free :=
  h.map (fun _ => rfl) fun _ _ => rfl

theorem Twins.hold (h : Twins region v w) : Twins region v.hold w.hold := by
  refine h.map (fun u => ?_) fun u o => ?_
  · rw [Voice.hold]
    split <;> rfl
  · simp only [Voice.hold]
    split <;> rfl

theorem Twins.release (h : Twins region v w) (delay : UInt32) :
    Twins region (v.release delay) (w.release delay) := by
  refine h.map (f := fun u => u.release delay) (fun u => ?_) fun u o => ?_
  · rw [Voice.release]
    split <;> rfl
  · simp only [Voice.release]
    split <;> rfl

theorem Twins.sight_eq (h : Twins region v w) : v.sight = w.sight := by
  rw [← h.same]
  rfl

/-! ### Playing -/

/-- In one frame twins have the same level and make the same sound. -/
theorem Twins.tick (h : Twins region v w) (u : Voice) (pitchRatio gain : Float32) :
    let drive := u.drive region pitchRatio
    (v.tick drive gain).1 = (w.tick drive gain).1 ∧
      (v.tick drive gain).2.1 = (w.tick drive gain).2.1 ∧
      Twins region (v.tick drive gain).2.2 (w.tick drive gain).2.2 := by
  intro drive
  obtain ⟨hsame, htone⟩ := h
  generalize w.oscillator = o at hsame htone
  subst hsame
  refine ⟨rfl, ?_⟩
  by_cases hdelay : v.sourceDelay = 0
  · simp only [Voice.tick, sound, hdelay, ne_eq, not_true_eq_false, if_false]
    cases hsource : region.source with
    | oscillator waveform =>
        obtain ⟨hsample, hnext⟩ := (htone hsource).next
          (keyFrequency u.note * pitchRatio / u.sampleRate)
        have hdrive : drive =
            .oscillator (keyFrequency u.note * pitchRatio / u.sampleRate) := by
          simp only [drive, Voice.drive, hsource]
        rw [hdrive]
        dsimp only
        rw [hsample]
        exact ⟨rfl, rfl, fun _ => hnext⟩
    | sample data =>
        -- The end of the sample is met by both or by neither, and no oscillator moves.
        have hunread {waveform : Waveform} (h : region.source = .oscillator waveform) : False := by
          rw [hsource] at h
          exact Source.noConfusion h
        obtain ⟨step, finish, hdrive⟩ : ∃ step finish, drive = .sample data step finish := by
          simp only [drive, Voice.drive, hsource]
          exact ⟨_, _, rfl⟩
        rw [hdrive]
        dsimp only
        split
        · exact ⟨rfl, rfl, fun h => (hunread h).elim⟩
        · exact ⟨rfl, rfl, fun h => (hunread h).elim⟩
  · simp only [Voice.tick, sound, hdelay, ne_eq, not_false_eq_true, if_true]
    exact ⟨trivial, rfl, htone⟩

theorem Twins.mixFrom (h : Twins region v w) (u : Voice) (pitchRatio gain : Float32)
    (n start : Nat) (ended : Bool) (mix : Mix) :
    let played := Voice.mixFrom (u.drive region pitchRatio) gain n start ended mix v
    let played' := Voice.mixFrom (u.drive region pitchRatio) gain n start ended mix w
    played.1 = played'.1 ∧ played.2.1 = played'.2.1 ∧ Twins region played.2.2 played'.2.2 := by
  induction n generalizing v w start ended mix with
  | zero => exact ⟨rfl, rfl, h⟩
  | succ n ih =>
      obtain ⟨hlevel, hsound, htwins⟩ := h.tick u pitchRatio gain
      simp only [Voice.mixFrom, hlevel, hsound]
      exact ih htwins _ _ _

/-- Twins that play their region leave the same mix behind. -/
theorem Twins.render (h : Twins region v w) {instrument : Instrument}
    (hregion : instrument.regions[v.region]? = some region) (pitchRatio : Float32) (mix : Mix) :
    (v.render instrument pitchRatio mix).1 = (w.render instrument pitchRatio mix).1 ∧
      Twins region (v.render instrument pitchRatio mix).2
        (w.render instrument pitchRatio mix).2 := by
  have hregion' : instrument.regions[w.region]? = some region := by
    rw [← h.same]
    exact hregion
  have hdrive : w.drive region pitchRatio = v.drive region pitchRatio := by
    rw [← h.same]
    rfl
  have hgain : w.gain region = v.gain region := by
    rw [← h.same]
    rfl
  obtain ⟨hended, hmix, htwins⟩ :=
    h.mixFrom v pitchRatio (v.gain region) mix.frames 0 false mix
  simp only [Voice.render, renderFrames, hregion, hregion', hdrive, hgain]
  refine ⟨hmix, ?_⟩
  have hover := congrArg Envelope.Generator.isFinished (congrArg Voice.envelope htwins.same)
  rw [← hended, ← hover]
  split
  · exact htwins.free
  · exact htwins

/-! ### Whole courses -/

theorem region_render (v : Voice) (instrument : Instrument) (pitchRatio : Float32) (mix : Mix) :
    (v.render instrument pitchRatio mix).2.region = v.region := by
  simp only [Voice.render, renderFrames]
  split
  · rfl
  · next region _ =>
      obtain ⟨-, hvoice⟩ := mixFrom_voice (v.drive region pitchRatio) (v.gain region)
        mix.frames 0 false mix v
      have hsame := v.sameNote_after (v.drive region pitchRatio) (v.gain region) mix.frames
      dsimp only
      rw [hvoice]
      split
      · exact hsame.region
      · exact hsame.region

theorem region_act (v : Voice) (instrument : Instrument) (action : Action) :
    (v.act instrument action).2.region = v.region := by
  cases action with
  | release delay =>
      show (v.release delay).region = v.region
      rw [Voice.release]
      split <;> rfl
  | hold =>
      show v.hold.region = v.region
      rw [Voice.hold]
      split <;> rfl
  | render pitchRatio mix => exact region_render v instrument pitchRatio mix

theorem Twins.act (h : Twins region v w) {instrument : Instrument}
    (hregion : instrument.regions[v.region]? = some region) (action : Action) :
    (v.act instrument action).1 = (w.act instrument action).1 ∧
      Twins region (v.act instrument action).2 (w.act instrument action).2 := by
  cases action with
  | release delay => exact ⟨rfl, h.release delay⟩
  | hold => exact ⟨rfl, h.hold⟩
  | render pitchRatio mix =>
      obtain ⟨hmix, htwins⟩ := h.render hregion pitchRatio mix
      exact ⟨congrArg some hmix, htwins⟩

/-- Twins take the same course through any actions. -/
theorem Twins.course_eq (h : Twins region v w) {instrument : Instrument}
    (hregion : instrument.regions[v.region]? = some region) (actions : List Action) :
    v.course instrument actions = w.course instrument actions := by
  induction actions generalizing v w with
  | nil => rfl
  | cons action actions ih =>
      obtain ⟨hmix, htwins⟩ := h.act hregion action
      have hrest := ih htwins ((v.region_act instrument action).symm ▸ hregion)
      simp only [course, hmix, htwins.sight_eq, hrest]

theorem twins_start (hrate : v.sampleRate = w.sampleRate)
    (henvelope : v.envelope.sampleRate = w.envelope.sampleRate)
    (htonal : region.source ≠ .oscillator .noise) (index : Nat) (note velocity : UInt8)
    (delay : UInt32) (age : Nat) :
    Twins region (v.start index region note velocity delay age)
      (w.start index region note velocity delay age) := by
  have hgenerator : (v.envelope.reset.configure region.envelope).start delay =
      (w.envelope.reset.configure region.envelope).start delay := by
    simp only [Envelope.Generator.reset, Envelope.Generator.configure, Envelope.Generator.start,
      henvelope]
  refine ⟨?_, fun {waveform} hsource => ?_⟩
  · simp only [Voice.start, hrate, hgenerator]
  · simp only [Voice.start, hsource]
    exact ⟨rfl, rfl, fun hnoise => htonal (hsource.trans (congrArg Source.oscillator hnoise))⟩

/-- A voice carries nothing over into its next note. Whatever two voices of the same
sample rate have played before, and however they were interrupted, once the same note
of a sample or a tone is started in both they look the same, and every sequence of
releases, holds and renderings leaves the same mixes behind and takes them through the
same states, keys, ages and holds of the pedal. The rate is set in a voice and in its
envelope at once, so it is asked of both. -/
theorem course_after_start {v w : Voice} (hrate : v.sampleRate = w.sampleRate)
    (henvelope : v.envelope.sampleRate = w.envelope.sampleRate) {instrument : Instrument}
    {index : Nat} {region : Region} (hregion : instrument.regions[index]? = some region)
    (htonal : region.source ≠ .oscillator .noise) (note velocity : UInt8) (delay : UInt32)
    (age : Nat) (actions : List Action) :
    let v' := v.start index region note velocity delay age
    let w' := w.start index region note velocity delay age
    v'.sight = w'.sight ∧ v'.course instrument actions = w'.course instrument actions := by
  have htwins := twins_start hrate henvelope htonal index note velocity delay age
  exact ⟨htwins.sight_eq, htwins.course_eq hregion actions⟩

/-- A voice that is taken while it waits, held by the pedal and with another tone behind
it, plays the next note like a new voice. -/
theorem taken_voice_plays_like_new :
    let region : Region :=
      { keys := ⟨0, 127⟩, velocities := ⟨0, 127⟩, keycenter := 60, gain := 1,
        source := .oscillator .square, envelope := default }
    let instrument : Instrument := { name := "square", regions := #[region], curves := [] }
    let fresh := Voice.new 48000
    let taken : Voice :=
      { (fresh.start 0 region 72 127 40 9).hold with oscillator := ⟨.noise, 0.5, 7⟩, position := 3 }
    let actions : List Action :=
      [.hold, .render 1 ⟨#[0, 0, 0], #[0, 0, 0], #[0, 0, 0]⟩, .release 2]
    taken.sampleRate = fresh.sampleRate ∧ taken.envelope.sampleRate = fresh.envelope.sampleRate ∧
      instrument.regions[0]? = some region ∧ region.source ≠ .oscillator .noise ∧
      (taken.start 0 region 60 100 1 50).course instrument actions =
        (fresh.start 0 region 60 100 1 50).course instrument actions := by
  intro region instrument fresh taken actions
  have hregion : instrument.regions[0]? = some region := rfl
  have htonal : region.source ≠ .oscillator .noise := nofun
  exact ⟨rfl, rfl, hregion, htonal,
    (course_after_start (v := taken) (w := fresh) rfl rfl hregion htonal 60 100 1 50 actions).2⟩

end Voice

end PolySampler
