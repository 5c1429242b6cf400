import PolySampler.Proofs.Envelope.Timeline

/-!
The way of an envelope along its points, for any description, also one whose held
point does not exist. Within one start the attack moves towards the points up to the
held one and the release towards those behind it, each stage from its first point on
and one after the other; the envelope is held only once the held point has been
reached. So the held point is there whenever its level is asked for. An envelope
that is over stays silent and as it is.
-/

namespace PolySampler.Envelope

open Signal

namespace Progress

variable (d : Description) (sampleRate : Float32)

/-- The progress that the level of a frame is made from: the trigger has fired and the
release has begun if this is their frame. -/
def poised (p : Progress) : Progress :=
  match p.stage with
  | .idle | .done => p
  | .delayed =>
    if p.triggerCountdown ≠ 0 then p
    else (p.triggered d sampleRate).countRelease d sampleRate
  | .attack | .sustain | .release => p.countRelease d sampleRate

/-- The stage and the index of the point that the envelope moves towards, if it is on
its way to one. -/
def towards (p : Progress) : Option (Stage × Nat) :=
  match p.stage with
  | .attack | .release =>
    if p.segment < d.points.size then some (p.stage, p.segment) else none
  | .idle | .delayed | .sustain | .done => none

def arrival (p : Progress) : Option (Stage × Nat) :=
  if least (p.segmentPosition + p.segmentStep) 1 < 1 then none else p.towards d

/-- Produces the level of one frame, and fails where the level of the held point is
asked for and there is no such point. -/
def tick? (p : Progress) : Option (Float32 × Progress) :=
  match (p.poised d sampleRate).stage with
  | .sustain => d.points[d.sustain]?.map fun point =>
      (point.level, { p.poised d sampleRate with level := point.level })
  | .idle | .delayed | .attack | .release | .done => some (p.tick d sampleRate)

theorem stage_of_towards {p : Progress} {stage : Stage} {index : Nat}
    (h : p.towards d = some (stage, index)) : p.stage = stage ∧ p.segment = index := by
  rw [towards] at h
  split at h
  case h_1 | h_2 =>
    split at h
    · simpa using h
    · cases h
  all_goals cases h

/-- Nothing is on its way: the envelope is idle, or awaits its trigger, or is over. -/
def Resting (p : Progress) : Prop :=
  p.stage = .idle ∨ p.stage = .delayed ∨ p.stage = .done

theorem towards_of_resting {p : Progress} (h : p.Resting) : p.towards d = none := by
  rw [towards]
  rcases h with h | h | h <;> rw [h]

/-- An envelope that rests in a frame keeps its stage and its segment; any other makes
its level from the progress poised for the frame. -/
theorem tick_cases (p : Progress) :
    p.Resting ∧ p.poised d sampleRate = p ∧ (p.tick d sampleRate).2.stage = p.stage ∧
        (p.tick d sampleRate).2.segment = p.segment ∨
      p.tick d sampleRate = (p.poised d sampleRate).emit d sampleRate := by
  cases hstage : p.stage with
  | idle => exact .inl (by simp [Resting, poised, tick, hstage])
  | done => exact .inl (by simp [Resting, poised, tick, hstage])
  | delayed =>
      by_cases hzero : p.triggerCountdown = 0
      · refine .inr ?_
        rw [tick_of_delayed_zero d sampleRate hstage hzero, sound_eq_emit]
        simp [poised, hstage, hzero]
      · refine .inl ?_
        rw [tick_of_delayed_ne_zero d sampleRate hstage hzero]
        simp [Resting, poised, hstage, hzero]
  | attack => exact .inr (by simp [poised, tick, hstage, sound_eq_emit])
  | sustain => exact .inr (by simp [poised, tick, hstage, sound_eq_emit])
  | release => exact .inr (by simp [poised, tick, hstage, sound_eq_emit])

end Progress

/-- The first `attacked` points of the attack and after them the first `released` points
of the release, in their order. -/
def course (d : Description) (attacked released : Nat) : List (Stage × Nat) :=
  (List.range attacked).map (Stage.attack, ·) ++
    (List.range' d.releaseStart released).map (Stage.release, ·)

theorem course_attack (d : Description) (attacked : Nat) :
    course d attacked 0 ++ [(Stage.attack, attacked)] = course d (attacked + 1) 0 := by
  simp [course, List.range_succ]

theorem course_release (d : Description) (attacked released : Nat) :
    course d attacked released ++ [(Stage.release, d.releaseStart + released)] =
      course d attacked (released + 1) := by
  simp [course, List.range'_1_concat]

/-- Where an envelope is that has reached the first `attacked` points of its attack and
the first `released` points of its release. -/
inductive Along (d : Description) : (stage : Stage) → (segment attacked released : Nat) → Prop
  | idle (segment : Nat) : Along d .idle segment 0 0
  | delayed (segment : Nat) : Along d .delayed segment 0 0
  | attack {attacked : Nat} (hheld : attacked ≤ d.sustain) (hsize : attacked ≤ d.points.size) :
      Along d .attack attacked attacked 0
  | sustain (segment : Nat) (hsize : d.sustain < d.points.size) :
      Along d .sustain segment (d.sustain + 1) 0
  | release {attacked released : Nat} (hheld : attacked ≤ d.sustain + 1)
      (hsize : d.releaseStart + released < d.points.size) :
      Along d .release (d.releaseStart + released) attacked released
  | ranOut (segment : Nat) (hsize : d.points.size ≤ d.sustain) :
      Along d .done segment d.points.size 0
  | ended (segment : Nat) {attacked : Nat} (hheld : attacked ≤ d.sustain + 1) :
      Along d .done segment attacked (d.points.size - d.releaseStart)

namespace Progress

/-- The envelope has reached so many points of its attack and of its release, and once
its release has begun no other one is in wait. -/
structure Stands (d : Description) (attacked released : Nat) (p : Progress) : Prop where
  along : Along d p.stage p.segment attacked released
  single : p.stage = .release → p.releaseCountdown = none

variable {d : Description} (sampleRate : Float32) {attacked released : Nat} {p : Progress}

/-- A release may begin wherever the attack has got to. -/
theorem stands_enterRelease (hheld : attacked ≤ d.sustain + 1)
    (hnone : p.releaseCountdown = none) :
    (p.enterRelease d sampleRate).Stands d attacked 0 := by
  rw [enterRelease]
  split
  · next hempty =>
      have hover := Along.ended (d := d) p.segment hheld
      rw [Nat.sub_eq_zero_of_le hempty] at hover
      exact ⟨hover, Stage.noConfusion⟩
  · next hsome =>
      have hfirst : Along d .release (d.releaseStart + 0) attacked 0 :=
        .release hheld (Nat.not_le.mp hsome)
      exact ⟨hfirst, fun _ => hnone⟩

theorem Stands.countRelease (h : p.Stands d attacked released)
    (hstage : p.Sounding ∨ p.stage = .release) :
    (p.countRelease d sampleRate).Stands d attacked released := by
  obtain ⟨halong, hsingle⟩ := h
  rw [Progress.countRelease]
  split
  · exact ⟨halong, hsingle⟩
  · next countdown hcountdown =>
      have hne : p.stage ≠ .release := by
        intro hrelease
        rw [hsingle hrelease] at hcountdown
        cases hcountdown
      have hsounding : p.Sounding := hstage.resolve_right hne
      split
      · have hheld : attacked ≤ d.sustain + 1 ∧ released = 0 := by
          rcases hsounding with hattack | hsustain
          · rw [hattack] at halong
            cases halong with
            | attack hheld hsize => exact ⟨Nat.le_succ_of_le hheld, rfl⟩
          · rw [hsustain] at halong
            cases halong with
            | sustain segment hsize => exact ⟨Nat.le_refl _, rfl⟩
        obtain ⟨hheld, rfl⟩ := hheld
        exact stands_enterRelease sampleRate hheld rfl
      · exact ⟨halong, fun hrelease => absurd hrelease hne⟩

theorem stands_triggered (p : Progress) : (p.triggered d sampleRate).Stands d 0 0 :=
  ⟨.attack (Nat.zero_le _) (Nat.zero_le _), Stage.noConfusion⟩

theorem Stands.poised (h : p.Stands d attacked released) :
    (p.poised d sampleRate).Stands d attacked released := by
  rw [Progress.poised]
  split
  · exact h
  · exact h
  · next hdelayed =>
      split
      · exact h
      · have halong := h.along
        rw [hdelayed] at halong
        cases halong with
        | delayed segment =>
            exact (stands_triggered sampleRate p).countRelease sampleRate (.inl (.inl rfl))
  · next hattack => exact h.countRelease sampleRate (.inl (.inl hattack))
  · next hsustain => exact h.countRelease sampleRate (.inl (.inr hsustain))
  · next hrelease => exact h.countRelease sampleRate (.inr hrelease)

theorem arrival_of_lt (h : least (p.segmentPosition + p.segmentStep) 1 < 1) :
    p.arrival d = none :=
  if_pos h

theorem arrival_of_not_lt (h : ¬ least (p.segmentPosition + p.segmentStep) 1 < 1)
    (hstage : p.stage = .attack ∨ p.stage = .release) (hsize : p.segment < d.points.size) :
    p.arrival d = some (p.stage, p.segment) := by
  rw [arrival, if_neg h, towards]
  rcases hstage with hstage | hstage <;> simp only [hstage, if_pos hsize]

/-- A frame of the attack stays on its way, or reaches the point ahead and goes on to
the next one or is held, or finds no point ahead, which ends the envelope. -/
theorem Stands.advance_attack (h : p.Stands d attacked released) (hattack : p.stage = .attack) :
    ∃ attacked', course d attacked released ++ (p.arrival d).toList = course d attacked' 0 ∧
      (p.advance d sampleRate).Stands d attacked' 0 := by
  have halong := h.along
  rw [hattack] at halong
  cases halong with
  | attack hheld hsize =>
      rw [Progress.advance]
      split
      · next hnone =>
          have hpast : d.points.size = p.segment :=
            Nat.le_antisymm (Array.getElem?_eq_none_iff.mp hnone) hsize
          refine ⟨p.segment, ?_, ?_, Stage.noConfusion⟩
          · simp [arrival, towards, hattack, hpast]
          · have hout := Along.ranOut (d := d) p.segment (hpast ▸ hheld)
            rwa [hpast] at hout
      · next point hpoint =>
          obtain ⟨hlt, -⟩ := Array.getElem?_eq_some_iff.mp hpoint
          dsimp only
          split
          · next hless =>
              refine ⟨p.segment, ?_, ?_, fun hrelease => ?_⟩
              · rw [arrival_of_lt hless, Option.toList_none, List.append_nil]
              · dsimp only
                rw [hattack]
                exact .attack hheld hsize
              · rw [hattack] at hrelease
                cases hrelease
          · next hreached =>
              refine ⟨p.segment + 1, ?_, ?_⟩
              · rw [arrival_of_not_lt hreached (.inl hattack) hlt, hattack]
                exact course_attack d p.segment
              · simp only [completeSegment, hattack]
                split
                · next hlast =>
                    have heq : p.segment = d.sustain := Nat.le_antisymm hheld hlast
                    rw [heq]
                    exact ⟨.sustain _ (heq ▸ hlt), Stage.noConfusion⟩
                · next hmore =>
                    refine ⟨?_, fun hrelease => ?_⟩
                    · exact .attack (Nat.not_le.mp hmore) hlt
                    · cases hrelease

/-- A frame of the release stays on its way, or reaches the point ahead and goes on to
the next one; behind the last one the envelope is over. -/
theorem Stands.advance_release (h : p.Stands d attacked released)
    (hrelease : p.stage = .release) :
    ∃ released', course d attacked released ++ (p.arrival d).toList =
        course d attacked released' ∧
      (p.advance d sampleRate).Stands d attacked released' := by
  have hnone := h.single hrelease
  have halong := h.along
  rw [hrelease] at halong
  generalize hsegment : p.segment = segment at halong
  cases halong with
  | release hheld hsize =>
      rw [Progress.advance]
      split
      · next hempty =>
          have hpast := Array.getElem?_eq_none_iff.mp hempty
          omega
      · next point hpoint =>
          dsimp only
          split
          · next hless =>
              refine ⟨released, ?_, ?_, fun _ => hnone⟩
              · rw [arrival_of_lt hless, Option.toList_none, List.append_nil]
              · dsimp only
                rw [hrelease, hsegment]
                exact .release hheld hsize
          · next hreached =>
              refine ⟨released + 1, ?_, ?_⟩
              · rw [arrival_of_not_lt hreached (.inr hrelease) (hsegment ▸ hsize), hrelease,
                  hsegment]
                exact course_release d attacked released
              · simp only [completeSegment, hrelease]
                split
                · next hlast =>
                    have hall : released + 1 = d.points.size - d.releaseStart := by omega
                    rw [hall]
                    exact ⟨.ended _ hheld, Stage.noConfusion⟩
                · next hmore =>
                    refine ⟨?_, fun _ => hnone⟩
                    have hnext : d.releaseStart + (released + 1) < d.points.size := by omega
                    have hon := Along.release hheld hnext
                    rwa [← Nat.add_assoc, ← hsegment] at hon

/-- A frame reaches the point ahead or none, and the envelope is along accordingly. -/
theorem Stands.emit (h : p.Stands d attacked released) :
    ∃ attacked' released', course d attacked released ++ (p.arrival d).toList =
        course d attacked' released' ∧
      (p.emit d sampleRate).2.Stands d attacked' released' := by
  have hstill (hnowhere : p.towards d = none) :
      course d attacked released ++ (p.arrival d).toList = course d attacked released := by
    rw [arrival, hnowhere, ite_self, Option.toList_none, List.append_nil]
  cases hstage : p.stage with
  | attack =>
      obtain ⟨attacked', hcourse, hstands⟩ := h.advance_attack sampleRate hstage
      exact ⟨attacked', 0, hcourse, by simpa only [Progress.emit, hstage] using hstands⟩
  | release =>
      obtain ⟨released', hcourse, hstands⟩ := h.advance_release sampleRate hstage
      exact ⟨attacked, released', hcourse, by simpa only [Progress.emit, hstage] using hstands⟩
  | sustain =>
      refine ⟨attacked, released, hstill (by simp only [towards, hstage]), ?_⟩
      have halong := h.along
      rw [hstage] at halong
      simp only [Progress.emit, hstage]
      split
      · exact ⟨halong, Stage.noConfusion⟩
      · exact h
  | done =>
      exact ⟨attacked, released, hstill (by simp only [towards, hstage]),
        by simpa only [Progress.emit, hstage] using h⟩
  | idle =>
      exact ⟨attacked, released, hstill (by simp only [towards, hstage]),
        by simpa only [Progress.emit, hstage] using h⟩
  | delayed =>
      exact ⟨attacked, released, hstill (by simp only [towards, hstage]),
        by simpa only [Progress.emit, hstage] using h⟩

theorem Stands.tick (h : p.Stands d attacked released) :
    ∃ attacked' released',
      course d attacked released ++ ((p.poised d sampleRate).arrival d).toList =
        course d attacked' released' ∧
      (p.tick d sampleRate).2.Stands d attacked' released' := by
  rcases p.tick_cases d sampleRate with ⟨hresting, hpoised, hstage, hsegment⟩ | htick
  · refine ⟨attacked, released, ?_, ?_, fun hrelease => ?_⟩
    · rw [hpoised, arrival, towards_of_resting d hresting, ite_self, Option.toList_none,
        List.append_nil]
    · rw [hstage, hsegment]
      exact h.along
    · rw [hstage] at hrelease
      rcases hresting with hrests | hrests | hrests <;> simp [hrests] at hrelease
  · rw [htick]
    exact (h.poised sampleRate).emit sampleRate

/-! ### Frames that look whether there is a held point -/

theorem emit_of_held {point : Point} (hstage : p.stage = .sustain)
    (hpoint : d.points[d.sustain]? = some point) :
    p.emit d sampleRate = (point.level, { p with level := point.level }) := by
  simp only [Progress.emit, hstage, hpoint]

/-- The held point is there whenever its level is asked for. -/
theorem Stands.tick?_eq (h : p.Stands d attacked released) :
    p.tick? d sampleRate = some (p.tick d sampleRate) := by
  rw [Progress.tick?]
  split
  · next hsustain =>
      have halong := (h.poised sampleRate).along
      rw [hsustain] at halong
      have hsize : d.sustain < d.points.size := by
        cases halong with
        | sustain segment hsize => exact hsize
      have hpoint : d.points[d.sustain]? = some d.points[d.sustain] :=
        Array.getElem?_eq_getElem hsize
      rcases p.tick_cases d sampleRate with ⟨hresting, hpoised, -, -⟩ | htick
      · rw [hpoised] at hsustain
        rcases hresting with hrests | hrests | hrests <;> simp [hrests] at hsustain
      · rw [htick, emit_of_held sampleRate hsustain hpoint, hpoint]
        rfl
  all_goals rfl

end Progress

namespace Generator

open Progress

def heading (g : Generator) : Option (Stage × Nat) :=
  g.description.bind fun d => (g.progress.poised d g.sampleRate).towards d

def arrival (g : Generator) : Option (Stage × Nat) :=
  g.description.bind fun d => (g.progress.poised d g.sampleRate).arrival d

/-- The points that the frames reach which are produced from these generators. -/
def reached (frames : List Generator) : List (Stage × Nat) :=
  frames.filterMap arrival

def afterAll (ops : List Operation) (g : Generator) : Generator :=
  ops.foldl Operation.run g

/-- Produces the level of one frame, and fails where the held point is asked for and not
there. -/
def tick? (g : Generator) : Option (Float32 × Generator) :=
  match g.description with
  | none => some g.tick
  | some d => (g.progress.tick? d g.sampleRate).map fun (level, progress) =>
      (level, { g with progress })

def process? : Nat → Generator → Option (List Float32 × Generator)
  | 0, g => some ([], g)
  | n + 1, g => do
    let (level, g) ← g.tick?
    let (levels, g) ← process? n g
    return (level :: levels, g)

/-- The frames of one start keep to the order of the points. A frame moves towards a
point when all points of its stage before that one have been reached, and only these;
the envelope is held when the points up to the held one have been reached; and it is
over when its points have run out in the attack, or all points of the release have been
reached. -/
structure InOrder (d : Description) (frames : List Generator) : Prop where
  attack {i index : Nat} {g : Generator} (hframe : frames[i]? = some g)
    (hheading : g.heading = some (.attack, index)) :
    index ≤ d.sustain ∧ reached (frames.take i) = course d index 0
  release {i index : Nat} {g : Generator} (hframe : frames[i]? = some g)
    (hheading : g.heading = some (.release, index)) :
    ∃ attacked released, attacked ≤ d.sustain + 1 ∧ index = d.releaseStart + released ∧
      reached (frames.take i) = course d attacked released
  held {i : Nat} {g : Generator} (hframe : frames[i]? = some g)
    (hstage : g.tick.2.progress.stage = .sustain) :
    reached (frames.take (i + 1)) = course d (d.sustain + 1) 0
  ended {i : Nat} {g : Generator} (hframe : frames[i]? = some g)
    (hstage : g.tick.2.isFinished) :
    d.points.size ≤ d.sustain ∧ reached (frames.take (i + 1)) = course d d.points.size 0 ∨
      ∃ attacked ≤ d.sustain + 1,
        reached (frames.take (i + 1)) = course d attacked (d.points.size - d.releaseStart)

section Runs

variable {d : Description} {g : Generator} {attacked released : Nat}

theorem stands_setSampleRate (h : g.progress.Stands d attacked released) (rate : Float32) :
    (g.setSampleRate rate).progress.Stands d attacked released := by
  obtain ⟨step, heq⟩ := g.setSampleRate_eq rate
  rw [heq]
  exact ⟨h.along, h.single⟩

theorem stands_release (h : g.progress.Stands d attacked released) (ahead : UInt32) :
    (g.release ahead).progress.Stands d attacked released := by
  by_cases hfalling : g.progress.Falling
  · rwa [release_of_falling hfalling]
  · rcases g.release_cases ahead with heq | ⟨frame, -, -, heq⟩
    · rwa [heq]
    · rw [heq]
      exact ⟨h.along, fun hrelease => absurd (.inl hrelease) hfalling⟩

theorem stands_tick (hbound : g.description = some d)
    (h : g.progress.Stands d attacked released) :
    ∃ attacked' released',
      course d attacked released ++ g.arrival.toList = course d attacked' released' ∧
      g.tick.2.progress.Stands d attacked' released' := by
  obtain ⟨attacked', released', hcourse, hstands⟩ := h.tick g.sampleRate
  refine ⟨attacked', released', ?_, ?_⟩
  · rw [arrival, hbound]
    exact hcourse
  · rwa [progress_tick hbound]

theorem reached_cons (g : Generator) (frames : List Generator) :
    reached (g :: frames) = g.arrival.toList ++ reached frames := by
  rw [reached, List.filterMap_cons]
  cases g.arrival <;> rfl

/-- Each frame of a run is produced from a generator that has reached just those points
that the frames before have reached. -/
theorem stands_frames (hbound : g.description = some d)
    (h : g.progress.Stands d attacked released) (ops : List Operation) {i : Nat}
    {producer : Generator} (hproducer : (frames ops g)[i]? = some producer) :
    ∃ attacked' released',
      course d attacked released ++ reached ((frames ops g).take i) =
        course d attacked' released' ∧
      producer.description = some d ∧ producer.progress.Stands d attacked' released' := by
  induction ops, g using frames_induction generalizing attacked released i with
  | done g => simp [frames] at hproducer
  | block rest g ih =>
      rw [frames_process_zero] at hproducer ⊢
      exact ih hbound h hproducer
  | frame n rest g ih =>
      rw [frames_process_succ] at hproducer ⊢
      cases i with
      | zero =>
          obtain rfl := Option.some.inj hproducer
          exact ⟨attacked, released, List.append_nil _, hbound, h⟩
      | succ i =>
          obtain ⟨attacked', released', hcourse, hstands⟩ := stands_tick hbound h
          rw [List.take_succ_cons, reached_cons, ← List.append_assoc, hcourse]
          exact ih ((description_tick g).trans hbound) hstands hproducer
  | rate rate rest g ih =>
      exact ih ((g.setSampleRate_trigger rate).1.trans hbound) (stands_setSampleRate h rate)
        hproducer
  | release ahead rest g ih =>
      exact ih ((g.release_trigger ahead).1.trans hbound) (stands_release h ahead) hproducer

theorem stands_start (hbound : g.description = some d) (delay : UInt32) :
    (g.start delay).description = some d ∧ (g.start delay).progress.Stands d 0 0 := by
  have hstart : g.start delay =
      { g with progress := { stage := .delayed, triggerCountdown := delay } } := by
    simp only [start, hbound]
  rw [hstart]
  exact ⟨hbound, .delayed _, Stage.noConfusion⟩

/-- Before a frame as many points have been reached as the generator has that the frame
is produced from, and after it as many as the generator that it leads to. -/
theorem reached_of_start (hbound : g.description = some d) (delay : UInt32)
    (ops : List Operation) {i : Nat} {producer : Generator}
    (hproducer : (frames ops (g.start delay))[i]? = some producer) :
    producer.description = some d ∧
      (∃ attacked released,
        reached ((frames ops (g.start delay)).take i) = course d attacked released ∧
        producer.progress.Stands d attacked released) ∧
      ∃ attacked released,
        reached ((frames ops (g.start delay)).take (i + 1)) = course d attacked released ∧
        producer.tick.2.progress.Stands d attacked released := by
  obtain ⟨hbound', hstart⟩ := stands_start hbound delay
  obtain ⟨attacked, released, hcourse, hthere, hstands⟩ :=
    stands_frames hbound' hstart ops hproducer
  obtain ⟨attacked', released', hcourse', hstands'⟩ := stands_tick hthere hstands
  have hnone : course d 0 0 = [] := rfl
  rw [hnone, List.nil_append] at hcourse
  refine ⟨hthere, ⟨attacked, released, hcourse, hstands⟩, attacked', released', ?_, hstands'⟩
  calc reached ((frames ops (g.start delay)).take (i + 1))
      = reached ((frames ops (g.start delay)).take i) ++ reached [producer] := by
        rw [List.take_add_one, hproducer, reached, List.filterMap_append]
        rfl
    _ = course d attacked released ++ producer.arrival.toList := by
        rw [hcourse, reached_cons, reached, List.filterMap_nil, List.append_nil]
    _ = course d attacked' released' := hcourse'

/-- What a frame moves towards tells where the generator is. -/
theorem along_of_heading (hbound : g.description = some d)
    (h : g.progress.Stands d attacked released) {stage : Stage} {index : Nat}
    (hheading : g.heading = some (stage, index)) : Along d stage index attacked released := by
  rw [heading, hbound] at hheading
  obtain ⟨rfl, rfl⟩ := stage_of_towards d hheading
  exact (h.poised g.sampleRate).along

theorem inOrder_start (hbound : g.description = some d) (delay : UInt32)
    (ops : List Operation) : InOrder d (frames ops (g.start delay)) where
  attack hframe hheading := by
    obtain ⟨hthere, ⟨attacked, released, hcourse, hstands⟩, -⟩ :=
      reached_of_start hbound delay ops hframe
    cases along_of_heading hthere hstands hheading with
    | attack hheld hsize => exact ⟨hheld, hcourse⟩
  release hframe hheading := by
    obtain ⟨hthere, ⟨attacked, released, hcourse, hstands⟩, -⟩ :=
      reached_of_start hbound delay ops hframe
    cases along_of_heading hthere hstands hheading with
    | release hheld hsize => exact ⟨attacked, released, hheld, rfl, hcourse⟩
  held hframe hstage := by
    obtain ⟨-, -, attacked, released, hcourse, hstands⟩ :=
      reached_of_start hbound delay ops hframe
    have halong := hstands.along
    rw [hstage] at halong
    cases halong with
    | sustain segment hsize => exact hcourse
  ended hframe hover := by
    obtain ⟨-, -, attacked, released, hcourse, hstands⟩ :=
      reached_of_start hbound delay ops hframe
    have halong := hstands.along
    rw [of_decide_eq_true hover] at halong
    cases halong with
    | ranOut segment hsize => exact .inl ⟨hsize, hcourse⟩
    | ended segment hheld => exact .inr ⟨attacked, hheld, hcourse⟩

end Runs

/-! ### Whatever is called for -/

/-- What can be asked of a generator, at any time. -/
inductive Call where
  | configure (d : Description)
  | start (delay : UInt32)
  | operate (op : Operation)
  | reset
  | unbind

def Call.run (g : Generator) : Call → Generator
  | configure d => g.configure d
  | start delay => g.start delay
  | operate op => op.run g
  | reset => g.reset
  | unbind => g.unbind

/-- A generator that has a description is somewhere along its points. -/
def Placed (g : Generator) : Prop :=
  ∀ d, g.description = some d → ∃ attacked released, g.progress.Stands d attacked released

section Calls

variable {g : Generator}

theorem Placed.tick (h : g.Placed) : g.tick.2.Placed := by
  intro d hbound
  rw [description_tick] at hbound
  obtain ⟨attacked, released, hstands⟩ := h d hbound
  obtain ⟨attacked', released', -, hstands'⟩ := stands_tick hbound hstands
  exact ⟨attacked', released', hstands'⟩

theorem Placed.tick?_eq (h : g.Placed) : g.tick? = some g.tick := by
  rw [tick?]
  split
  · rfl
  · next d hbound =>
      obtain ⟨attacked, released, hstands⟩ := h d hbound
      rw [hstands.tick?_eq g.sampleRate, tick_of_bound hbound]
      rfl

theorem Placed.process?_eq (h : g.Placed) (n : Nat) :
    process? n g = some ((g.process n).1.toList, (g.process n).2) := by
  rw [process_eq]
  induction n generalizing g with
  | zero => rfl
  | succ n ih =>
      rw [process?, h.tick?_eq]
      simp only [Option.bind_eq_bind, Option.bind_some, ih h.tick]
      rfl

theorem Placed.ticked (h : g.Placed) (n : Nat) : (g.ticked n).Placed := by
  induction n generalizing g with
  | zero => exact h
  | succ n ih => exact ih h.tick

theorem Placed.run (h : g.Placed) (call : Call) : (call.run g).Placed := by
  cases call with
  | configure d =>
      intro d' hbound
      exact ⟨0, 0, .idle _, Stage.noConfusion⟩
  | start delay =>
      intro d hbound
      cases hnone : g.description with
      | none => simp [Call.run, start, hnone] at hbound
      | some d' =>
          obtain ⟨hsame, hstands⟩ := stands_start hnone delay
          obtain rfl := Option.some.inj (hsame.symm.trans hbound)
          exact ⟨0, 0, hstands⟩
  | operate op =>
      cases op with
      | process n =>
          show (g.process n).2.Placed
          rw [process_eq]
          exact h.ticked n
      | setSampleRate rate =>
          intro d hbound
          obtain ⟨attacked, released, hstands⟩ :=
            h d ((g.setSampleRate_trigger rate).1.symm.trans hbound)
          exact ⟨attacked, released, stands_setSampleRate hstands rate⟩
      | release ahead =>
          intro d hbound
          obtain ⟨attacked, released, hstands⟩ :=
            h d ((g.release_trigger ahead).1.symm.trans hbound)
          exact ⟨attacked, released, stands_release hstands ahead⟩
  | reset =>
      intro d hbound
      exact ⟨0, 0, .idle _, Stage.noConfusion⟩
  | unbind =>
      intro d hbound
      cases hbound

theorem placed_after (sampleRate : Float32) (calls : List Call) :
    (calls.foldl Call.run (Generator.new sampleRate)).Placed := by
  have hkept (calls : List Call) (g : Generator) (h : g.Placed) :
      (calls.foldl Call.run g).Placed := by
    induction calls generalizing g with
    | nil => exact h
    | cons call rest ih => exact ih _ (h.run call)
  refine hkept calls _ fun d hbound => ?_
  cases hbound

theorem tick_of_isFinished (h : g.isFinished) : g.tick = (0, g) := by
  have hstage : g.progress.stage = .done := of_decide_eq_true h
  rw [Generator.tick]
  split
  · rfl
  · simp only [Progress.tick, hstage]

theorem upcoming_of_isFinished (h : g.isFinished) (n : Nat) :
    upcoming n g = List.replicate n g ∧ ticked n g = g := by
  induction n with
  | zero => exact ⟨rfl, rfl⟩
  | succ n ih => rw [upcoming, ticked, tick_of_isFinished h, List.replicate_succ, ih.1, ih.2]; simp

theorem silent_operation (h : g.isFinished) (op : Operation) :
    (∀ level ∈ op.levels g, level = 0) ∧ (op.run g).progress = g.progress := by
  have hstage : g.progress.stage = .done := of_decide_eq_true h
  cases op with
  | process n =>
      obtain ⟨hframes, hlater⟩ := upcoming_of_isFinished h n
      rw [Operation.levels, Operation.run, process_eq, hframes, hlater, List.map_replicate,
        tick_of_isFinished h]
      exact ⟨fun level hlevel => List.eq_of_mem_replicate hlevel, rfl⟩
  | setSampleRate rate =>
      refine ⟨fun level hlevel => absurd hlevel List.not_mem_nil, ?_⟩
      simp only [Operation.run, setSampleRate, hstage]
      cases g.description <;> rfl
  | release ahead =>
      refine ⟨fun level hlevel => absurd hlevel List.not_mem_nil, ?_⟩
      rw [Operation.run, release_of_falling (.inr hstage)]

theorem silent_afterAll (h : g.isFinished) (ops : List Operation) :
    (∀ level ∈ levels ops g, level = 0) ∧ (afterAll ops g).progress = g.progress := by
  induction ops generalizing g with
  | nil => exact ⟨fun level hlevel => absurd hlevel List.not_mem_nil, rfl⟩
  | cons op rest ih =>
      obtain ⟨hlevels, hsame⟩ := silent_operation h op
      have hover : (op.run g).isFinished := by
        rw [isFinished, hsame]
        exact h
      obtain ⟨hrest, hlater⟩ := ih hover
      refine ⟨fun level hlevel => ?_, ?_⟩
      · rcases List.mem_append.mp hlevel with hfirst | hmore
        · exact hlevels level hfirst
        · exact hrest level hmore
      · rw [afterAll, List.foldl_cons, ← afterAll, hlater, hsame]

/-- Whatever has been asked of a generator and whatever its descriptions, its points are
kept in order. The level of the held point is only asked for when there is such a
point. Within one start the points of the attack up to the held one are taken one after
the other from the first on, those of the release one after the other from the first
behind the held one on, and the envelope is held only when the held point has been
reached. Once it is over an envelope is silent and neither releases nor changes of the
sample rate move it. -/
theorem points_in_order (sampleRate : Float32) (calls : List Call) :
    let g := calls.foldl Call.run (Generator.new sampleRate)
    (∀ n, process? n g = some ((g.process n).1.toList, (g.process n).2)) ∧
    (∀ d, g.description = some d →
      ∀ delay ops, InOrder d (frames ops (g.start delay))) ∧
    (g.isFinished → ∀ ops,
      (∀ level ∈ levels ops g, level = 0) ∧ (afterAll ops g).progress = g.progress) := by
  intro g
  have hplaced : g.Placed := placed_after sampleRate calls
  exact ⟨hplaced.process?_eq, fun d hbound => inOrder_start hbound, silent_afterAll⟩

/-- A release on the way to the second point of an attack: the way goes on with the points
of the release, and when they have been reached the envelope is over. -/
theorem release_interrupts_attack :
    let d : Description := ⟨#[⟨0.25, 1, 0⟩, ⟨1, 0.5, 0⟩, ⟨0.5, 0.25, 0⟩, ⟨0.25, 0, 0⟩], 1⟩
    let ready := [.configure d].foldl Call.run (Generator.new 4)
    let ops := [.process 4, .release 0, .process 5]
    let last := (.configure d :: .start 2 :: ops.map Call.operate).foldl Call.run
      (Generator.new 4)
    ready.description = some d ∧ InOrder d (frames ops (ready.start 2)) ∧
      reached (frames ops (ready.start 2)) = [(.attack, 0), (.release, 2), (.release, 3)] ∧
      last.isFinished ∧
      ∀ level ∈ levels [.release 0, .setSampleRate 2000, .process 3] last, level = 0 := by
  intro d ready ops last
  have hbound : ready.description = some d := rfl
  have hreached : reached (frames ops (ready.start 2)) =
      [(.attack, 0), (.release, 2), (.release, 3)] := by decide +kernel
  have hover : last.isFinished := by decide +kernel
  obtain ⟨-, hstart, -⟩ := points_in_order 4 [.configure d]
  obtain ⟨-, -, hsilent⟩ :=
    points_in_order 4 (.configure d :: .start 2 :: ops.map Call.operate)
  exact ⟨hbound, hstart d hbound 2 ops, hreached, hover, (hsilent hover _).1⟩

end Calls

end Generator

end PolySampler.Envelope
