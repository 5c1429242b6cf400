import PolySampler.Proofs.Synth.Configure
import PolySampler.Synth.InPlace

/-!
Changes in place against changes that are granted or refused as a whole. In place,
every check and every reservation comes before the first write, so that a change that
is broken off has written nothing.
-/

namespace PolySampler

open Signal

namespace Signal.AudioBuffer

variable {capacity : Nat} (memory : Memory) (frames : Nat)

/-- Storage is asked for slot by slot, and no slot is written. -/
theorem perform_reserve (indices : List Nat) (b : AudioBuffer capacity) :
    (reserve memory frames indices).perform b =
      (if indices.all (b.canHold memory frames) then .ok () else .error { frames }, b) := by
  induction indices with
  | nil => rfl
  | cons index rest ih =>
      rw [reserve, InPlace.perform_bind, InPlace.perform_get, List.all_cons]
      cases hgranted : b.canHold memory frames index with
      | true =>
          simp only [hgranted, Bool.true_and]
          exact ih
      | false =>
          simp only [hgranted, Bool.false_and]
          rfl

theorem changeLength_eq :
    changeLength memory frames = .wholly fun b : AudioBuffer capacity => b.resize memory frames :=
  InPlace.ext fun b => by
    rw [changeLength, InPlace.perform_bind, perform_reserve, InPlace.perform_wholly, resize,
      ← canResize]
    cases b.canResize memory frames <;> rfl

end Signal.AudioBuffer

namespace Synth

theorem growPool_eq (memory : Memory) (count : Nat) (sampleRate : Float32) :
    growPool memory count sampleRate =
      .wholly fun voices => resizePool memory voices count sampleRate :=
  InPlace.ext fun voices => by
    rw [growPool, InPlace.perform_bind, InPlace.perform_get, InPlace.perform_wholly, resizePool]
    by_cases hrefused : voices.length < count ∧ ¬ memory.voices (count - voices.length)
    · simp only [if_pos hrefused, InPlace.perform_bind, InPlace.perform_throw]
    · simp only [if_neg hrefused, InPlace.perform_modify]

theorem check_bind_eq_wholly {α : Type} {answer : Except ConfigError α}
    {next : α → InPlace ConfigError Synth Unit} {f : α → Synth → Except ConfigError Synth}
    (h : ∀ a, next a = .wholly (f a)) :
    (InPlace.check answer >>= next) = .wholly fun s => answer >>= fun a => f a s :=
  InPlace.ext fun s => by
    rw [InPlace.perform_bind, InPlace.perform_check]
    cases answer with
    | error refusal => rfl
    | ok a =>
        dsimp only
        rw [h]
        rfl

theorem changeSampleRate_eq (rate : Float32) :
    changeSampleRate rate = .wholly fun s => s.setSampleRate rate :=
  check_bind_eq_wholly fun _ => rfl

theorem changeSamplesPerBlock_eq (memory : Memory) (frames : Nat) :
    changeSamplesPerBlock memory frames =
      .wholly fun s => s.setSamplesPerBlock memory frames := by
  refine check_bind_eq_wholly fun frames => InPlace.ext fun s => ?_
  rw [InPlace.perform_bind, InPlace.perform_onPart, AudioBuffer.changeLength_eq,
    InPlace.perform_wholly, InPlace.perform_wholly, resizeScratch]
  cases s.scratch.resize memory frames <;> rfl

theorem changeNumVoices_eq (memory : Memory) (count : Nat) :
    changeNumVoices memory count = .wholly fun s => s.setNumVoices memory count := by
  refine check_bind_eq_wholly fun count => InPlace.ext fun s => ?_
  rw [InPlace.perform_bind, InPlace.perform_get]
  dsimp only
  rw [InPlace.perform_bind, InPlace.perform_onPart, growPool_eq, InPlace.perform_wholly,
    InPlace.perform_wholly]
  cases resizePool memory s.voices count s.settings.sampleRate <;> rfl

theorem changePreloadSize_eq (frames : Nat) :
    changePreloadSize frames = .wholly fun s => s.setPreloadSize frames :=
  check_bind_eq_wholly fun _ => rfl

theorem changeVolume_eq (level : Float32) :
    changeVolume level = .wholly fun s => s.setVolume level :=
  check_bind_eq_wholly fun _ => rfl

end Synth

end PolySampler
