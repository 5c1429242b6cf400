import PolySampler.Proofs.Gate.Exclusion

/-!
Every call through the gate is one body run at one moment. The steps of a thread
are accounted for call by call: a configuring call takes the lock, tries the flag
until it is clear, runs its body and gives everything back; a render call makes one
attempt and either runs its body or is counted. A run of any number of threads is
then as good as the bodies alone, in the order in which their threads took the flag.
-/

namespace PolySampler.Gate

variable {σ : Type}

namespace World

/-! ### The steps of a call -/

/-- What a thread does before it has the flag. -/
inductive Lead : Turn → List Action → Prop where
  | control (thread tries : Nat) :
      Lead (.control thread) (.lock :: List.replicate tries .bounce)
  | render : Lead .render []

inductive Whole : Turn → List Action → Prop where
  | configured {thread : Nat} {lead : List Action} (h : Lead (.control thread) lead) :
      Whole (.control thread) (lead ++ [.enter, .run, .clear, .unlock])
  | rendered : Whole .render [.enter, .run, .clear]
  | turnedAway : Whole .render [.bounce, .count]

/-- The steps of a call up to a point. -/
inductive Underway : Turn → Point → List Action → Prop where
  | outside (turn : Turn) : Underway turn .outside []
  | queued {thread : Nat} {lead : List Action} (h : Lead (.control thread) lead) :
      Underway (.control thread) .queued lead
  | refused : Underway .render .refused [.bounce]
  | entered {turn : Turn} {lead : List Action} (h : Lead turn lead) :
      Underway turn .entered (lead ++ [.enter])
  | leaving {turn : Turn} {lead : List Action} (h : Lead turn lead) :
      Underway turn .leaving (lead ++ [.enter, .run])
  | unqueueing {thread : Nat} {lead : List Action} (h : Lead (.control thread) lead) :
      Underway (.control thread) .unqueueing (lead ++ [.enter, .run, .clear])

/-- The steps of calls that a thread has made one after the other. -/
inductive Made (turn : Turn) : List (Body σ) → List (Body σ × Action) → Prop where
  | none : Made turn [] []
  | call {made : List (Body σ)} {steps : List (Body σ × Action)} (h : Made turn made steps)
      (body : Body σ) {actions : List Action} (hwhole : Whole turn actions) :
      Made turn (made ++ [body]) (steps ++ actions.map (body, ·))

/-- Of the calls of a thread some are over, and its steps are those of these calls
and of the present one up to the point where the thread stands. -/
def Accounted (w : World σ) (turn : Turn) (calls : List (Body σ)) : Prop :=
  ∃ worker made steps actions, w.worker? turn = some worker ∧ calls = made ++ worker.calls ∧
    Made turn made steps ∧ Underway turn worker.point actions ∧
    w.stepsOf turn = steps ++ worker.calls.head?.toList.flatMap fun body => actions.map (body, ·)

section Rules

variable {w : World σ} {turn : Turn} {body : Body σ} {rest : List (Body σ)} {point : Point}
  {action : Action} {worker : Worker σ} {gate : Gate σ} {lock : Lock}

theorem Rule.underway (hrule : Rule w body rest turn point action worker gate lock)
    {actions : List Action} (h : Underway turn point actions) :
    (worker.calls = body :: rest ∧ Underway turn worker.point (actions ++ [action])) ∨
      (worker = ⟨.outside, rest⟩ ∧ Whole turn (actions ++ [action])) := by
  cases hrule with
  | lock thread _ =>
      cases h with
      | outside => exact .inl ⟨rfl, .queued (.control thread 0)⟩
  | wait thread _ =>
      cases h with
      | queued hlead =>
          cases hlead with
          | control _ tries =>
              refine .inl ⟨rfl, ?_⟩
              rw [List.cons_append, ← List.replicate_succ']
              exact .queued (.control thread (tries + 1))
  | enter thread _ =>
      cases h with
      | queued hlead => exact .inl ⟨rfl, .entered hlead⟩
  | run =>
      cases h with
      | entered hlead =>
          refine .inl ⟨rfl, ?_⟩
          rw [List.append_assoc]
          exact .leaving hlead
  | clear thread =>
      cases h with
      | leaving hlead =>
          refine .inl ⟨rfl, ?_⟩
          rw [List.append_assoc]
          exact .unqueueing hlead
  | unlock thread =>
      cases h with
      | unqueueing hlead =>
          refine .inr ⟨rfl, ?_⟩
          rw [List.append_assoc]
          exact .configured hlead
  | refuse _ =>
      cases h with
      | outside => exact .inl ⟨rfl, .refused⟩
  | enterBlock _ =>
      cases h with
      | outside => exact .inl ⟨rfl, .entered .render⟩
  | clearBlock =>
      cases h with
      | leaving hlead =>
          cases hlead with
          | render => exact .inr ⟨rfl, .rendered⟩
  | count =>
      cases h with
      | refused => exact .inr ⟨rfl, .turnedAway⟩

/-- A step of any thread leaves the steps of every thread accounted for. -/
theorem Accounted.advance {other : Turn} {calls : List (Body σ)} (h : w.Accounted other calls)
    (hworker : w.worker? turn = some ⟨point, body :: rest⟩)
    (hrule : Rule w body rest turn point action worker gate lock) :
    (w.advance turn body action worker gate lock).Accounted other calls := by
  obtain ⟨old, made, steps, actions, hold, hcalls, hmade, hunderway, hsteps⟩ := h
  by_cases hturn : other = turn
  · subst hturn
    obtain rfl : old = ⟨point, body :: rest⟩ := Option.some.inj (hold.symm.trans hworker)
    have hself := worker?_advance_self w other body action worker gate lock hworker
    have hsteps' : (w.advance other body action worker gate lock).stepsOf other =
        steps ++ (actions ++ [action]).map (body, ·) := by
      rw [stepsOf_advance, if_pos rfl, hsteps]
      simp
    rcases hrule.underway hunderway with ⟨hsame, hnext⟩ | ⟨rfl, hwhole⟩
    · refine ⟨worker, made, steps, _, hself, by rw [hsame]; exact hcalls, hmade, hnext, ?_⟩
      rw [hsteps', hsame]
      simp
    · refine ⟨_, made ++ [body], _, [], hself, ?_, hmade.call body hwhole, .outside _, ?_⟩
      · rw [hcalls, List.append_assoc]
        rfl
      · rw [hsteps']
        simp
  · refine ⟨old, made, steps, actions, ?_, hcalls, hmade, hunderway, ?_⟩
    · rw [worker?_advance_of_ne _ _ _ _ _ _ _ hturn, hold]
    · rw [stepsOf_advance, if_neg fun heq => hturn heq.symm, List.append_nil]
      exact hsteps

end Rules

/-! ### Runs -/

/-- What holds in every state of a run. -/
structure Sound (state : σ) (controls : List (List (Body σ))) (renders : List (Body σ))
    (w : World σ) : Prop where
  guarded : Guarded w
  queueing : Queueing w
  ordered : Ordered state w
  controls : ∀ thread calls, controls[thread]? = some calls → w.Accounted (.control thread) calls
  renders : w.Accounted .render renders

variable (state : σ) (controls : List (List (Body σ))) (renders : List (Body σ))

theorem worker?_start {turn : Turn} {worker : Worker σ}
    (h : (start state controls renders).worker? turn = some worker) : worker.point = .outside := by
  cases turn with
  | control thread =>
      obtain ⟨calls, -, rfl⟩ := Option.map_eq_some_iff.mp (List.getElem?_map.symm.trans h)
      rfl
  | render =>
      obtain rfl := Option.some.inj h
      rfl

theorem sound_start : Sound state controls renders (start state controls renders) := by
  have houtside {turn : Turn} {worker : Worker σ}
      (h : (start state controls renders).worker? turn = some worker) : worker.point = .outside :=
    worker?_start state controls renders h
  have hnone (turn : Turn) : ¬ (start state controls renders).Inside turn := by
    rintro ⟨worker, hworker, hinside⟩
    rw [houtside hworker] at hinside
    cases hinside
  refine ⟨⟨fun t _ ht => absurd ht (hnone t), ?_⟩, ⟨fun thread => ?_, rfl⟩,
    ⟨rfl, fun turn worker hworker hentered => ?_, fun _ => rfl, rfl⟩, fun thread calls hcalls => ?_,
    ⟨_, [], [], [], rfl, rfl, .none, .outside _, by cases renders <;> rfl⟩⟩
  · exact ⟨fun hbusy => absurd hbusy Bool.false_ne_true, fun ⟨t, ht⟩ => absurd ht (hnone t)⟩
  · refine ⟨fun hholder => absurd hholder (by simp [start]), ?_⟩
    rintro ⟨worker, hworker, hpoint⟩
    exact absurd (houtside hworker) hpoint
  · rw [houtside hworker] at hentered
    cases hentered
  · refine ⟨⟨.outside, calls⟩, [], [], [], ?_, rfl, .none, .outside _, by cases calls <;> rfl⟩
    simp [worker?, start, hcalls]

theorem Sound.run {state : σ} {controls : List (List (Body σ))} {renders : List (Body σ)}
    {w : World σ} (h : Sound state controls renders w) (turns : List Turn) :
    Sound state controls renders (w.run turns) := by
  refine run_induction (fun h hworker hrule => ?_) h turns
  exact ⟨h.guarded.advance hworker hrule, h.queueing.advance hworker hrule,
    h.ordered.advance h.guarded hworker hrule,
    fun thread calls hcalls => (h.controls thread calls hcalls).advance hworker hrule,
    h.renders.advance hworker hrule⟩

/-- A thread that finds lock and flag free configures in five steps of its own,
whether or not a thread has panicked with the lock before. -/
theorem configure_alone {w : World σ} {thread : Nat} {body : Body σ} {rest : List (Body σ)}
    (hworker : w.worker? (.control thread) = some ⟨.outside, body :: rest⟩)
    (hlock : w.lock.holder = none) (hbusy : w.gate.busy = false) :
    let w' := w.run (List.replicate 5 (.control thread))
    w'.worker? (.control thread) = some ⟨.outside, rest⟩ ∧
      w'.gate.state = body.update w.gate.state ∧ w'.gate.busy = false ∧
      w'.lock.holder = none := by
  -- Each step finds the thread, the gate and the lock as the one before has left them.
  obtain ⟨w₁, hstep₁, hworker₁, hgate₁⟩ : ∃ v, w.step (.control thread) = v ∧
      v.worker? (.control thread) = some ⟨.queued, body :: rest⟩ ∧ v.gate = w.gate :=
    ⟨_, (step_of_worker? hworker).trans (stepControl_outside hlock thread body rest),
      worker?_advance_self _ _ _ _ _ _ _ hworker, rfl⟩
  rw [← hgate₁] at hbusy
  obtain ⟨w₂, hstep₂, hworker₂, hgate₂⟩ : ∃ v, w₁.step (.control thread) = v ∧
      v.worker? (.control thread) = some ⟨.entered, body :: rest⟩ ∧ v.gate = w₁.gate.hold :=
    ⟨_, (step_of_worker? hworker₁).trans (stepControl_queued hbusy thread body rest),
      worker?_advance_self _ _ _ _ _ _ _ hworker₁, rfl⟩
  obtain ⟨w₃, hstep₃, hworker₃, hgate₃⟩ : ∃ v, w₂.step (.control thread) = v ∧
      v.worker? (.control thread) = some ⟨.leaving, body :: rest⟩ ∧
      v.gate = w₂.gate.runBody body :=
    ⟨_, step_of_worker? hworker₂,
      worker?_advance_self _ _ _ _ _ (w₂.gate.runBody body) w₂.lock hworker₂, rfl⟩
  obtain ⟨w₄, hstep₄, hworker₄, hgate₄⟩ : ∃ v, w₃.step (.control thread) = v ∧
      v.worker? (.control thread) = some ⟨.unqueueing, body :: rest⟩ ∧
      v.gate = w₃.gate.release :=
    ⟨_, step_of_worker? hworker₃,
      worker?_advance_self _ _ _ _ _ w₃.gate.release w₃.lock hworker₃, rfl⟩
  obtain ⟨w₅, hstep₅, hworker₅, hgate₅, hlock₅⟩ : ∃ v, w₄.step (.control thread) = v ∧
      v.worker? (.control thread) = some ⟨.outside, rest⟩ ∧ v.gate = w₄.gate ∧
      v.lock.holder = none :=
    ⟨_, step_of_worker? hworker₄,
      worker?_advance_self _ _ _ _ _ w₄.gate (w₄.lock.release body.panics) hworker₄, rfl, rfl⟩
  have hrun : w.run (List.replicate 5 (.control thread)) = w₅ := by
    simp only [run, List.replicate, List.foldl_cons, List.foldl_nil, hstep₁, hstep₂, hstep₃,
      hstep₄, hstep₅]
  rw [hrun]
  dsimp only
  rw [hgate₅, hgate₄, hgate₃, hgate₂, hgate₁]
  exact ⟨hworker₅, rfl, rfl, hlock₅⟩

theorem busy_step_of_leaving {w : World σ} {turn : Turn} {body : Body σ} {rest : List (Body σ)}
    (h : w.worker? turn = some ⟨.leaving, body :: rest⟩) : (w.step turn).gate.busy = false := by
  rw [step_of_worker? h]
  cases turn <;> rfl

theorem holder_step_of_unqueueing {w : World σ} {thread : Nat} {body : Body σ}
    {rest : List (Body σ)} (h : w.worker? (.control thread) = some ⟨.unqueueing, body :: rest⟩) :
    (w.step (.control thread)).lock.holder = none := by
  rw [step_of_worker? h]
  rfl

/-- In every state of every run, with threads and calls of any number: one thread at
most is inside, and the flag is set exactly while one is. With nobody inside, the
state is what the bodies of those who took the flag lead to, in the order in which
they took it. The steps of every thread are those of its calls, each a single body
run or, for a render call, a single attempt that was counted instead. A panic has no
part in this: the flag is cleared and the lock given back, and whoever asks for them
when they are free gets them. -/
theorem run_linearizable (turns : List Turn) :
    let w := (start state controls renders).run turns
    (∀ t t', w.Inside t → w.Inside t' → t = t') ∧
    (w.gate.busy = true ↔ ∃ t, w.Inside t) ∧
    ((∀ t, ¬ w.Inside t) →
      w.did .enter = w.did .run ∧ w.gate.state = composed state (w.did .enter)) ∧
    (∀ thread calls, controls[thread]? = some calls → w.Accounted (.control thread) calls) ∧
    w.Accounted .render renders ∧
    w.gate.contended = (w.did .count).length ∧
    (∀ turn body rest, w.worker? turn = some ⟨.leaving, body :: rest⟩ →
      (w.step turn).gate.busy = false) ∧
    (∀ thread body rest, w.worker? (.control thread) = some ⟨.unqueueing, body :: rest⟩ →
      (w.step (.control thread)).lock.holder = none) ∧
    (w.lock.poisoned = (w.did .unlock).any fun step => step.2.panics) ∧
    (∀ thread, w.lock.holder = some thread ↔
      ∃ worker, w.worker? (.control thread) = some worker ∧ worker.point ≠ .outside) ∧
    (∀ thread body rest, w.worker? (.control thread) = some ⟨.outside, body :: rest⟩ →
      w.lock.holder = none → w.gate.busy = false →
      let w' := w.run (List.replicate 5 (.control thread))
      w'.worker? (.control thread) = some ⟨.outside, rest⟩ ∧
        w'.gate.state = body.update w.gate.state ∧ w'.gate.busy = false ∧
        w'.lock.holder = none) := by
  intro w
  have hsound : Sound state controls renders w := (sound_start state controls renders).run turns
  refine ⟨hsound.guarded.unique, hsound.guarded.busy, fun hnone => ?_, hsound.controls,
    hsound.renders, hsound.ordered.contended, fun _ _ _ => busy_step_of_leaving,
    fun _ _ _ => holder_step_of_unqueueing, hsound.queueing.poisoned, hsound.queueing.holder,
    fun _ _ _ => configure_alone⟩
  have hsettled := hsound.ordered.settled fun turn worker hworker hentered =>
    hnone turn ⟨worker, hworker, by rw [hentered]; rfl⟩
  refine ⟨hsettled, ?_⟩
  rw [hsettled]
  exact hsound.ordered.state

/-- One thread panics with gate and lock, a render call that comes meanwhile is turned
away, and another thread configures all the same. -/
theorem configured_after_panic :
    let w : World Nat := (start 1 [[⟨(· + 4), true⟩], [⟨(· * 2), false⟩]] [⟨(· + 1), false⟩]).run
      [.control 0, .control 0, .render, .control 0, .control 0, .control 0, .render]
    w.lock.poisoned = true ∧ w.gate.contended = 1 ∧
      (w.run (List.replicate 5 (.control 1))).gate.state = 10 := by
  intro w
  obtain ⟨-, -, -, -, -, hcontended, -, -, hpoisoned, -, hconfigure⟩ := run_linearizable
    (1 : Nat) [[⟨(· + 4), true⟩], [⟨(· * 2), false⟩]] [⟨(· + 1), false⟩]
    [.control 0, .control 0, .render, .control 0, .control 0, .control 0, .render]
  refine ⟨hpoisoned.trans rfl, hcontended.trans rfl, ?_⟩
  exact (hconfigure 1 ⟨(· * 2), false⟩ [] rfl rfl rfl).2.1

end World

end PolySampler.Gate
