import PolySampler.Console.Session
import PolySampler.Proofs.Synth.InPlace

/-!
Refused requests of the control side. A line may fail while it is split into tokens
or its numbers are read, a setting at its check or at a reservation, an instrument
anywhere in its files. Whatever it is that fails, the engine is left as it was.
-/

namespace PolySampler.Engine

open Signal Console

/-- What the control side can ask of an engine. -/
inductive Request where
  | loadInstrument (files : Files) (path : String) (readers : Readers)
  | unloadInstrument
  | setSampleRate (rate : Float32)
  | setSamplesPerBlock (memory : Memory) (frames : Nat)
  | setNumVoices (memory : Memory) (count : Nat)
  | setOversampling (oversampling : Oversampling)
  | setOversamplingFactor (factor : Nat)
  | setPreloadSize (frames : Nat)
  | setVolume (level : Float32)
  | sampleRateChanged (rate : UInt32)
  | blockSizeChanged (memory : Memory) (frames : UInt32)

/-- The answer to a request, without the report of a load, and the engine after it. -/
def Request.run (e : Engine) : Request → Except ConfigError Unit × Engine
  | .loadInstrument files path readers =>
    let response := e.loadInstrument files path readers
    (response.answer.map fun _ => (), response.engine)
  | .unloadInstrument => (.ok (), e.unloadInstrument)
  | .setSampleRate rate => outcome (e.setSampleRate rate)
  | .setSamplesPerBlock memory frames => outcome (e.setSamplesPerBlock memory frames)
  | .setNumVoices memory count => outcome (e.setNumVoices memory count)
  | .setOversampling oversampling => outcome (e.setOversampling oversampling)
  | .setOversamplingFactor factor => outcome (e.setOversamplingFactor factor)
  | .setPreloadSize frames => outcome (e.setPreloadSize frames)
  | .setVolume level => outcome (e.setVolume level)
  | .sampleRateChanged rate => outcome (e.sampleRateChanged rate)
  | .blockSizeChanged memory frames => outcome (e.blockSizeChanged memory frames)
where
  outcome (response : Response Unit) : Except ConfigError Unit × Engine :=
    (response.answer, response.engine)

/-- `e'` has the synth of `e`, and everything else as well unless the gate was held. -/
def Kept (e e' : Engine) : Prop :=
  e'.synth = e.synth ∧ (e.gate.busy = false → e' = e)

def KeptOnError {ε α : Type} (e : Engine) (answer : Except ε α) (e' : Engine) : Prop :=
  ∀ error, answer = .error error → e.Kept e'

variable {e e' : Engine} {ε ε' α β : Type}

theorem Kept.refl (e : Engine) : e.Kept e :=
  ⟨rfl, fun _ => rfl⟩

theorem configure_eq (f : Synth → α × Synth) (e : Engine) :
    e.configure f =
      ((f e.synth).1, { e with gate := { e.gate with state := (f e.synth).2, busy := false } }) :=
  rfl

/-- The gate is passed and released; with a synth that is the same behind it, it is
as if it had never been passed. -/
theorem kept_configure {f : Synth → α × Synth} (h : (f e.synth).2 = e.synth) :
    e.Kept (e.configure f).2 := by
  refine ⟨h, fun hfree => ?_⟩
  rw [configure_eq, h, ← hfree]
  rfl

theorem keptOnError_ok (a : α) : e.KeptOnError (.ok a : Except ε α) e' :=
  fun _ h => nomatch h

theorem keptOnError_refl (answer : Except ε α) : e.KeptOnError answer e :=
  fun _ _ => .refl e

theorem KeptOnError.map {answer : Except ε α} (h : e.KeptOnError answer e') (f : α → β) :
    e.KeptOnError (answer.map f) e' := by
  cases answer with
  | ok a => exact keptOnError_ok _
  | error error => exact fun _ _ => h error rfl

theorem KeptOnError.mapError {answer : Except ε α} (h : e.KeptOnError answer e') (f : ε → ε') :
    e.KeptOnError (answer.mapError f) e' := by
  cases answer with
  | ok a => exact keptOnError_ok _
  | error error => exact fun _ _ => h error rfl

/-! ### The entry points -/

/-- A change that is made as a whole is refused as a whole. -/
theorem keptOnError_apply (e : Engine) (what : String) {change : InPlace ConfigError Synth Unit}
    {f : Synth → Except ConfigError Synth} (hwhole : change = .wholly f) :
    e.KeptOnError (e.apply what change).answer (e.apply what change).engine := by
  subst hwhole
  rw [apply]
  split
  next engine hgranted => exact keptOnError_ok ()
  next refusal engine hconfigured =>
    intro _ _
    obtain ⟨hanswer, hengine⟩ := Prod.mk.inj hconfigured
    have hkept : (InPlace.perform (.wholly f) e.synth).2 = e.synth :=
      InPlace.perform_wholly_of_error hanswer
    exact hengine ▸ kept_configure hkept

theorem keptOnError_loadInstrument (e : Engine) (files : Files) (path : String)
    (readers : Readers) :
    let response := e.loadInstrument files path readers
    e.KeptOnError response.answer response.engine := by
  simp only [loadInstrument]
  split
  next cause _ => exact keptOnError_refl _
  next instrument report _ => exact keptOnError_ok _

theorem keptOnError_setOversamplingFactor (e : Engine) (factor : Nat) :
    e.KeptOnError (e.setOversamplingFactor factor).answer
      (e.setOversamplingFactor factor).engine := by
  rw [setOversamplingFactor]
  split
  next oversampling _ => exact keptOnError_ok ()
  next refusal _ => exact keptOnError_refl _

theorem Request.keptOnError (request : Request) (e : Engine) :
    e.KeptOnError (request.run e).1 (request.run e).2 := by
  cases request with
  | loadInstrument files path readers =>
      exact (e.keptOnError_loadInstrument files path readers).map _
  | unloadInstrument => exact keptOnError_ok ()
  | setSampleRate rate => exact e.keptOnError_apply _ (Synth.changeSampleRate_eq rate)
  | setSamplesPerBlock memory frames =>
      exact e.keptOnError_apply _ (Synth.changeSamplesPerBlock_eq memory frames)
  | setNumVoices memory count =>
      exact e.keptOnError_apply _ (Synth.changeNumVoices_eq memory count)
  | setOversampling oversampling => exact keptOnError_ok ()
  | setOversamplingFactor factor => exact e.keptOnError_setOversamplingFactor factor
  | setPreloadSize frames => exact e.keptOnError_apply _ (Synth.changePreloadSize_eq frames)
  | setVolume level => exact e.keptOnError_apply _ (Synth.changeVolume_eq level)
  | sampleRateChanged rate =>
      exact e.keptOnError_apply _ (Synth.changeSampleRate_eq rate.toFloat32)
  | blockSizeChanged memory frames =>
      exact e.keptOnError_apply _ (Synth.changeSamplesPerBlock_eq memory frames.toNat)

/-! ### Lines -/

theorem keptOnError_execute (around : Surroundings) (e : Engine) (command : Command) :
    e.KeptOnError (execute around e command).answer (execute around e command).engine := by
  cases command with
  | loadInstrument path =>
      exact (e.keptOnError_loadInstrument around.files path around.readers).map _
  | unloadInstrument => exact keptOnError_ok _
  | setOversampling oversampling => exact keptOnError_ok _
  | setPreloadSize frames =>
      exact (e.keptOnError_apply _ (Synth.changePreloadSize_eq frames)).map _
  | setVoices count =>
      exact (e.keptOnError_apply _ (Synth.changeNumVoices_eq around.memory count)).map _
  | gain level => exact (e.keptOnError_apply _ (Synth.changeVolume_eq level)).map _
  | settings | help | quit => exact keptOnError_ok _

theorem keptOnError_executeLine (around : Surroundings) (e : Engine) (line : String) :
    e.KeptOnError (executeLine around e line).answer (executeLine around e line).engine := by
  rw [executeLine]
  split
  next error _ => exact keptOnError_refl _
  next => exact keptOnError_ok _
  next command _ => exact (keptOnError_execute around e command).mapError _

/-- A request that is refused changes nothing, be it made in a line of the console or
of the engine itself, whatever files cannot be read and by whichever readers, and
whatever memory cannot be had: the synth is the same to the last sample of its storage.
With the gate free, so is everything else of the engine. -/
theorem refused_changes_nothing (e : Engine) :
    (∀ around line error, (executeLine around e line).answer = .error error →
      (executeLine around e line).engine.synth = e.synth ∧
        (e.gate.busy = false → (executeLine around e line).engine = e)) ∧
    ∀ request refusal, (Request.run e request).1 = .error refusal →
      (Request.run e request).2.synth = e.synth ∧
        (e.gate.busy = false → (Request.run e request).2 = e) :=
  ⟨fun around line error h => keptOnError_executeLine around e line error h,
    fun request refusal h => request.keptOnError e refusal h⟩

/-- No pool is without voices: the engine refuses one, and so does the console. -/
theorem no_voices_refused :
    ∃ e, Engine.new .machine { numVoices := 2 } = .ok e ∧
      (Request.run e (.setNumVoices .machine 0)).1 = .error (.numVoices 0) ∧
      (Request.run e (.setNumVoices .machine 0)).2 = e ∧
      (executeLine { files := fun _ => none } e "set_voices 0").answer =
        .error (.config (.numVoices 0)) ∧
      (executeLine { files := fun _ => none } e "set_voices 0").engine = e := by
  obtain ⟨s, hnew⟩ := Synth.exists_duet
  obtain ⟨e, he, hfree⟩ : ∃ e, Engine.new .machine { numVoices := 2 } = .ok e ∧
      e.gate.busy = false := by
    refine ⟨{ gate := { state := s } }, ?_, rfl⟩
    rw [Engine.new, hnew]
    rfl
  have hparsed : Command.parse "set_voices 0" = .ok (some (.setVoices 0)) := by rfl
  have hline : (executeLine { files := fun _ => none } e "set_voices 0").answer =
      .error (.config (.numVoices 0)) := by
    rw [executeLine, hparsed]
    rfl
  obtain ⟨hlines, hrequests⟩ := refused_changes_nothing e
  exact ⟨e, he, rfl, (hrequests (.setNumVoices .machine 0) (.numVoices 0) rfl).2 hfree, hline,
    (hlines { files := fun _ => none } "set_voices 0" _ hline).2 hfree⟩

end PolySampler.Engine
