import Mathlib.Data.List.DropRight
import PolySampler.Proofs.Screen.Ring
import PolySampler.Screen.Desk

/-!
The window of the console is never too long or too short. Whatever is handed over, and
whenever the console looks at the output, the window holds the newest of the samples that
have come through the ring, so the analyzer never passes over one.
-/

namespace PolySampler

namespace Signal.Spectrum

theorem size_weights_new {length : Nat} (h : 2 ≤ length) (sampleRate : Float32)
    (transform : Transform) : (new length sampleRate transform).weights.size = length := by
  show ((List.range (max length 2)).map (windowWeight (max length 2))).toArray.size = length
  rw [List.size_toArray, List.length_map, List.length_range]
  omega

theorem size_weights_update (s : Spectrum) (window : Array Float32) :
    (s.update window).weights.size = s.weights.size := by
  rw [update]
  split <;> rfl

end Signal.Spectrum

/-- What is put behind the newest entries of a list is behind the list itself, as far as
its newest entries go. -/
theorem rtake_rtake_append {α : Type} (count : Nat) (entries more : List α) :
    (entries.rtake count ++ more).rtake count = (entries ++ more).rtake count := by
  rw [List.rtake, List.rtake, List.rtake, List.drop_append, List.drop_append, List.drop_drop,
    List.length_append, List.length_append, List.length_drop]
  congr 2 <;> omega

namespace Screen.Scope

variable {ρ : Type} {waiting : ρ → List Float32} {s : Scope ρ} {handed consumed : List Float32}

/-! ### What stands between the output and the console -/

/-- A ring has taken the samples `handed`. Those that are `consumed` have come through it,
the others wait; the window holds the newest that were consumed. -/
structure Keeps (waiting : ρ → List Float32) (handed consumed : List Float32) (s : Scope ρ) :
    Prop where
  handed_eq : handed = consumed ++ waiting s.ring
  window_eq : s.window.toList =
    (List.replicate windowLength 0 ++ consumed).rtake windowLength
  weights_eq : s.spectrum.weights.size = windowLength

theorem keeps_new (waiting : ρ → List Float32) (ring : ρ) (sampleRate : Float32)
    (transform : Signal.Transform) :
    Keeps waiting (waiting ring) [] (new ring sampleRate transform) where
  handed_eq := rfl
  window_eq := by
    show (Array.replicate windowLength (0 : Float32)).toList = _
    rw [Array.toList_replicate, List.append_nil, List.rtake, List.length_replicate, Nat.sub_self,
      List.drop_zero]
  weights_eq := Signal.Spectrum.size_weights_new (by decide) sampleRate transform

theorem Keeps.size_window (h : Keeps waiting handed consumed s) : s.window.size = windowLength := by
  rw [← Array.length_toList, h.window_eq, List.rtake, List.length_drop, List.length_append,
    List.length_replicate]
  omega

/-! ### One look at the output -/

theorem toList_window_hear (s : Scope ρ) (first second : Array Float32) :
    (s.hear first second).window.toList =
      (s.window.toList ++ (first.toList ++ second.toList)).rtake windowLength := by
  dsimp only [hear]
  rw [Array.toList_extract, List.extract_eq_take_drop, Array.toList_append, Array.toList_append,
    List.append_assoc, List.rtake, ← Array.length_toList, Array.toList_append,
    Array.toList_append, List.append_assoc]
  apply List.take_of_length_le
  rw [List.length_drop]

theorem spectrum_hear {first second : Array Float32}
    (h : (s.hear first second).window.size = s.spectrum.weights.size) :
    (s.hear first second).spectrum = s.spectrum.analyze (s.hear first second).window := by
  dsimp only [hear] at h ⊢
  rw [Signal.Spectrum.update, if_pos h]

theorem size_weights_hear (s : Scope ρ) (first second : Array Float32) :
    (s.hear first second).spectrum.weights.size = s.spectrum.weights.size := by
  dsimp only [hear]
  rw [Signal.Spectrum.size_weights_update]

section Polls

variable [RingEnds ρ]

/-- If nothing waits, the console does not look at its window. -/
theorem pollAmid_of_empty (h : IsQueue waiting) (hempty : waiting s.ring = [])
    (early late : List Float32) : s.pollAmid early late = s.offerAll (early ++ late) := by
  have hslots : RingEnds.slots s.ring = 0 := by rw [h.slots, hempty]; rfl
  rw [pollAmid, hslots]
  show (s.offerAll early).offerAll late = _
  simp only [offerAll, RingEnds.offerAll, List.foldl_append]

/-- If samples wait, the console hears all of them, and none of those handed over
meanwhile. -/
theorem exists_pollAmid_eq (h : IsQueue waiting) (hwaiting : waiting s.ring ≠ [])
    (early late : List Float32) :
    ∃ first second, first.toList ++ second.toList = waiting s.ring ∧
      s.pollAmid early late =
        ((s.offerAll (early ++ late)).commit (waiting s.ring).length).hear first second := by
  have hsome : (waiting s.ring).length ≠ 0 :=
    fun hzero => hwaiting (List.eq_nil_of_length_eq_zero hzero)
  have hroom : (waiting s.ring).length ≤ (waiting (s.offerAll early).ring).length := by
    rw [offerAll, h.waiting_offerAll, List.length_append]
    omega
  obtain ⟨first, second, hchunk, hpieces⟩ := h.chunk hroom
  refine ⟨first, second, ?_, ?_⟩
  · rw [hpieces, offerAll, h.waiting_offerAll, List.take_left]
  · rw [pollAmid, h.slots, if_neg hsome, hchunk]
    simp only [offerAll, RingEnds.offerAll, List.foldl_append]

theorem Keeps.offerAll (h : Keeps waiting handed consumed s) (hqueue : IsQueue waiting)
    (samples : List Float32) :
    Keeps waiting (handed ++ taken s.ring samples) consumed (s.offerAll samples) where
  handed_eq := by
    rw [h.handed_eq, Scope.offerAll, hqueue.waiting_offerAll, List.append_assoc]
  window_eq := h.window_eq
  weights_eq := h.weights_eq

/-- The console hears the oldest samples that wait, and lets go of them. -/
theorem Keeps.hear {more : List Float32} {first second : Array Float32}
    (h : Keeps waiting handed consumed s) (hqueue : IsQueue waiting)
    (hmore : waiting s.ring = (first.toList ++ second.toList) ++ more) :
    Keeps waiting handed (consumed ++ (first.toList ++ second.toList))
      ((s.commit (first.toList ++ second.toList).length).hear first second) where
  handed_eq := by
    have hroom : (first.toList ++ second.toList).length ≤ (waiting s.ring).length := by
      rw [hmore]
      exact (List.prefix_append _ more).length_le
    show handed = _ ++ waiting (RingEnds.commit s.ring _)
    rw [hqueue.commit hroom, h.handed_eq, hmore, List.drop_left, ← List.append_assoc]
  window_eq := by
    rw [toList_window_hear, ← List.append_assoc _ consumed,
      ← rtake_rtake_append windowLength (_ ++ consumed), ← h.window_eq]
    rfl
  weights_eq := by
    rw [size_weights_hear]
    exact h.weights_eq

theorem Keeps.pollAmid (h : Keeps waiting handed consumed s) (hqueue : IsQueue waiting)
    (early late : List Float32) :
    Keeps waiting (handed ++ taken s.ring (early ++ late)) (consumed ++ waiting s.ring)
      (s.pollAmid early late) := by
  have hoffered := h.offerAll hqueue (early ++ late)
  by_cases hempty : waiting s.ring = []
  · rw [pollAmid_of_empty hqueue hempty, hempty, List.append_nil]
    exact hoffered
  · obtain ⟨first, second, hpieces, hpoll⟩ := exists_pollAmid_eq hqueue hempty early late
    have hmore : waiting (s.offerAll (early ++ late)).ring =
        (first.toList ++ second.toList) ++ taken s.ring (early ++ late) := by
      rw [Scope.offerAll, hqueue.waiting_offerAll, hpieces]
    rw [hpoll, ← hpieces]
    exact hoffered.hear hqueue hmore

end Polls

/-! ### Runs -/

/-- What the output and the console do, one after the other. -/
inductive Step where
  | offer (sample : Float32)
  /-- The console looks at the output; some samples are handed over before it reads those
  that wait, and some before it lets go of them. -/
  | poll (early late : List Float32)

def Step.offered : Step → List Float32
  | .offer sample => [sample]
  | .poll early late => early ++ late

section Runs

variable [RingEnds ρ]

def act (s : Scope ρ) : Step → Scope ρ
  | .offer sample => s.offerAll [sample]
  | .poll early late => s.pollAmid early late

def run (steps : List Step) (s : Scope ρ) : Scope ρ :=
  steps.foldl act s

/-- The samples of a run that the ring has room for. -/
def accepted : List Step → Scope ρ → List Float32
  | [], _ => []
  | step :: rest, s => taken s.ring step.offered ++ accepted rest (s.act step)

/-- The samples that come through the ring in a step: those that wait when the console
looks at the output. -/
def fetched (waiting : ρ → List Float32) (s : Scope ρ) : Step → List Float32
  | .offer _ => []
  | .poll _ _ => waiting s.ring

/-- The samples that come through the ring in a run. -/
def fetchedAll (waiting : ρ → List Float32) : List Step → Scope ρ → List Float32
  | [], _ => []
  | step :: rest, s => s.fetched waiting step ++ fetchedAll waiting rest (s.act step)

theorem Keeps.act (h : Keeps waiting handed consumed s) (hqueue : IsQueue waiting) (step : Step) :
    Keeps waiting (handed ++ taken s.ring step.offered) (consumed ++ s.fetched waiting step)
      (s.act step) := by
  cases step with
  | offer sample =>
      rw [fetched, List.append_nil]
      exact h.offerAll hqueue [sample]
  | poll early late => exact h.pollAmid hqueue early late

theorem Keeps.run (h : Keeps waiting handed consumed s) (hqueue : IsQueue waiting)
    (steps : List Step) :
    Keeps waiting (handed ++ accepted steps s) (consumed ++ fetchedAll waiting steps s)
      (s.run steps) := by
  induction steps generalizing s handed consumed with
  | nil =>
      rw [accepted, fetchedAll, List.append_nil, List.append_nil]
      exact h
  | cons step steps ih =>
      rw [accepted, fetchedAll, ← List.append_assoc, ← List.append_assoc]
      exact ih (h.act hqueue step)

/-- A look at the output looks at a window of the length that the analyzer is for, if
there are new samples; otherwise it leaves everything as it was. -/
theorem Keeps.analyze_pollAmid (h : Keeps waiting handed consumed s) (hqueue : IsQueue waiting)
    (early late : List Float32) :
    let next := s.pollAmid early late
    if waiting s.ring = [] then next.window = s.window ∧ next.spectrum = s.spectrum
    else next.window.size = s.spectrum.weights.size ∧
      next.spectrum = s.spectrum.analyze next.window := by
  intro next
  split
  · next hempty =>
      have hpoll : next = s.offerAll (early ++ late) := pollAmid_of_empty hqueue hempty early late
      rw [hpoll]
      exact ⟨rfl, rfl⟩
  · next hwaiting =>
      obtain ⟨first, second, -, hpoll⟩ := exists_pollAmid_eq hqueue hwaiting early late
      have hsize : next.window.size = s.spectrum.weights.size :=
        (h.pollAmid hqueue early late).size_window.trans h.weights_eq.symm
      have hnext : next = _ := hpoll
      refine ⟨hsize, ?_⟩
      rw [hnext] at hsize ⊢
      exact spectrum_hear hsize

/-- The output hands over samples through a ring that is a queue, and the console looks at
it from time to time, in any order and also at the same time. The samples that the ring
had room for have come through it, or wait in it, in the order in which they were handed
over. The window always has its length: it holds the newest of all that has come through
the ring, behind the silence it began with. Whenever there are new samples, the analyzer
takes in the window, whichever transform it uses. -/
theorem window_is_newest (hqueue : IsQueue waiting) (ring : ρ) (sampleRate : Float32)
    (transform : Signal.Transform) (steps : List Step) :
    let start := new ring sampleRate transform
    let s := start.run steps
    let heard := fetchedAll waiting steps start
    waiting ring ++ accepted steps start = heard ++ waiting s.ring ∧
    s.window.size = windowLength ∧
    s.window.toList = (List.replicate windowLength 0 ++ heard).rtake windowLength ∧
    ∀ early late,
      let next := s.pollAmid early late
      if waiting s.ring = [] then next.window = s.window ∧ next.spectrum = s.spectrum
      else next.window.size = s.spectrum.weights.size ∧
        next.spectrum = s.spectrum.analyze next.window := by
  intro start s heard
  have hkeeps : Keeps waiting (waiting ring ++ accepted steps start) heard s :=
    (keeps_new waiting ring sampleRate transform).run hqueue steps
  exact ⟨hkeeps.handed_eq, hkeeps.size_window, hkeeps.window_eq,
    hkeeps.analyze_pollAmid hqueue⟩

end Runs

/-- In a ring of three places the console reads two samples while the output hands over two
more, of which one is lost; with the other, the next ones go around the end. -/
theorem window_around_end :
    let ring := Ring.new 3 (by decide)
    let steps := [.offer 1, .offer 2, .poll [3] [4], .offer 5, .offer 6, .poll [] []]
    IsQueue Ring.waiting ∧
    accepted steps (new ring 48000) = [1, 2, 3, 5, 6] ∧
    (run steps (new ring 48000)).window.size = windowLength ∧
    (run steps (new ring 48000)).window.toList =
      (List.replicate windowLength (0 : Float32) ++ [1, 2, 3, 5, 6]).rtake windowLength := by
  intro ring steps
  have haccepted : accepted steps (new ring 48000) = [1, 2, 3, 5, 6] := by decide +kernel
  have hheard : fetchedAll Ring.waiting steps (new ring 48000) = [1, 2, 3, 5, 6] := by
    decide +kernel
  obtain ⟨-, hsize, hwindow, -⟩ := window_is_newest Ring.isQueue ring 48000
    Signal.Spectrum.coefficient steps
  rw [hheard] at hwindow
  exact ⟨Ring.isQueue, haccepted, hsize, hwindow⟩

end Screen.Scope

/-! ### The console on a terminal -/

namespace Screen.Desk

/-- What happens to a console: the output hands over samples, or an event of the terminal
is taken and the next frame prepared. -/
inductive Happening where
  | fed (samples : Array Float32)
  | taken (event : TerminalEvent)

variable (around : Console.Surroundings) (d : Desk)

def meet : Happening → Desk
  | .fed samples => d.feedScope samples
  | .taken event => d.turn around event

theorem scope_handle (event : TerminalEvent) : (d.handle around event).scope = d.scope := by
  have hsubmit : (d.submit around).scope = d.scope := by
    rw [submit]
    dsimp only
    split
    · rfl
    · generalize Console.executeLine around d.engine d.input = done
      obtain ⟨answer, engine, records⟩ := done
      rcases answer with error | lines | _ <;> rfl
  cases event with
  | other => rfl
  | press key control =>
      rw [handle]
      cases key with
      | char c =>
          rw [press]
          split <;> rfl
      | enter => exact hsubmit
      | escape | backspace | other => rfl

theorem run_offers (s : Scope Ring) (samples : List Float32) :
    Scope.run (samples.map .offer) s = s.offerAll samples := by
  induction samples generalizing s with
  | nil => rfl
  | cons sample samples ih => exact ih (s.offerAll [sample])

theorem exists_scope_meet (happening : Happening) :
    ∃ steps, (d.meet around happening).scope = d.scope.run steps := by
  cases happening with
  | fed samples =>
      obtain ⟨offered, -, hfeed⟩ := exists_feed_eq d.scope.ring samples.toList
      refine ⟨offered.map .offer, ?_⟩
      rw [run_offers, meet, feedScope, Scope.feed, hfeed]
      rfl
  | taken event =>
      rw [meet, turn]
      split
      · exact ⟨[], scope_handle around d event⟩
      · refine ⟨[.poll [] []], ?_⟩
        show (d.handle around event).scope.poll = d.scope.poll
        rw [scope_handle]

theorem exists_scope_meetAll (happenings : List Happening) :
    ∃ steps, (happenings.foldl (meet around) d).scope = d.scope.run steps := by
  induction happenings generalizing d with
  | nil => exact ⟨[], rfl⟩
  | cons happening happenings ih =>
      obtain ⟨steps, hsteps⟩ := exists_scope_meet around d happening
      obtain ⟨more, hmore⟩ := ih (d.meet around happening)
      refine ⟨steps ++ more, ?_⟩
      rw [List.foldl_cons, hmore, hsteps, Scope.run, Scope.run, Scope.run, List.foldl_append]

theorem size_window (engine : Engine) (shutdown : Shutdown) (device : String)
    (happenings : List Happening) :
    let d := happenings.foldl (meet around) (new engine shutdown device)
    d.scope.window.size = windowLength ∧ d.scope.spectrum.weights.size = windowLength := by
  intro d
  obtain ⟨steps, hsteps⟩ := exists_scope_meetAll around (new engine shutdown device) happenings
  have hstart := Scope.keeps_new Ring.waiting (.new scopeCapacity (by decide))
    engine.settings.sampleRate Signal.Spectrum.coefficient
  have hkeeps := hstart.run Ring.isQueue steps
  have hscope : d.scope = Scope.run steps (.new (.new scopeCapacity (by decide))
    engine.settings.sampleRate) := hsteps
  rw [hscope]
  exact ⟨hkeeps.size_window, hkeeps.weights_eq⟩

end Screen.Desk

end PolySampler
