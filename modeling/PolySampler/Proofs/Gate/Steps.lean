import PolySampler.Gate.Interleaving

/-!
What one step of a thread can do. A step that changes anything follows one of ten
rules, each with the point it starts from, what it does to the gate and the lock,
and where it leaves the thread. Everything that holds along a run is shown rule by
rule, and carried through the run by one induction.
-/

namespace PolySampler.Gate

variable {σ : Type}

namespace World

/-- A step that was made, with the gate and the lock as it leaves them. -/
def advance (w : World σ) (turn : Turn) (body : Body σ) (action : Action) (worker : Worker σ)
    (gate : Gate σ) (lock : Lock) : World σ :=
  { w.make turn body action worker with gate, lock }

section Advance

variable (w : World σ) (turn : Turn) (body : Body σ) (action : Action) (worker : Worker σ)
  (gate : Gate σ) (lock : Lock)

@[simp] theorem gate_advance : (w.advance turn body action worker gate lock).gate = gate := rfl

@[simp] theorem lock_advance : (w.advance turn body action worker gate lock).lock = lock := rfl

@[simp] theorem trace_advance :
    (w.advance turn body action worker gate lock).trace =
      w.trace ++ [⟨turn, body, action⟩] := rfl

theorem worker?_advance_self {old : Worker σ} (h : w.worker? turn = some old) :
    (w.advance turn body action worker gate lock).worker? turn = some worker := by
  cases turn with
  | control thread =>
      have hlt : thread < w.controls.length := (List.getElem?_eq_some_iff.mp h).1
      exact List.getElem?_set_self hlt
  | render => rfl

theorem worker?_advance_of_ne {other : Turn} (h : other ≠ turn) :
    (w.advance turn body action worker gate lock).worker? other = w.worker? other := by
  cases turn with
  | control thread =>
      cases other with
      | control thread' =>
          have hne : thread ≠ thread' := fun heq => h (by rw [heq])
          exact List.getElem?_set_ne hne
      | render => rfl
  | render =>
      cases other with
      | control thread' => rfl
      | render => exact absurd rfl h

theorem make_eq_advance :
    w.make turn body action worker = w.advance turn body action worker w.gate w.lock := by
  cases turn <;> rfl

end Advance

/-- The rules of a step within the call of `body`, before the calls `rest`: the
thread, the point it starts from, what it does, the thread, the gate and the lock
afterwards. -/
inductive Rule (w : World σ) (body : Body σ) (rest : List (Body σ)) :
    Turn → Point → Action → Worker σ → Gate σ → Lock → Prop where
  | lock (thread : Nat) (h : w.lock.holder = none) :
      Rule w body rest (.control thread) .outside .lock ⟨.queued, body :: rest⟩ w.gate
        { w.lock with holder := some thread }
  | wait (thread : Nat) (h : w.gate.busy = true) :
      Rule w body rest (.control thread) .queued .bounce ⟨.queued, body :: rest⟩ w.gate w.lock
  | enter (thread : Nat) (h : w.gate.busy = false) :
      Rule w body rest (.control thread) .queued .enter ⟨.entered, body :: rest⟩ w.gate.hold w.lock
  | run (turn : Turn) :
      Rule w body rest turn .entered .run ⟨.leaving, body :: rest⟩ (w.gate.runBody body) w.lock
  | clear (thread : Nat) :
      Rule w body rest (.control thread) .leaving .clear ⟨.unqueueing, body :: rest⟩
        w.gate.release w.lock
  | unlock (thread : Nat) :
      Rule w body rest (.control thread) .unqueueing .unlock ⟨.outside, rest⟩ w.gate
        (w.lock.release body.panics)
  | refuse (h : w.gate.busy = true) :
      Rule w body rest .render .outside .bounce ⟨.refused, body :: rest⟩ w.gate w.lock
  | enterBlock (h : w.gate.busy = false) :
      Rule w body rest .render .outside .enter ⟨.entered, body :: rest⟩ w.gate.hold w.lock
  | clearBlock :
      Rule w body rest .render .leaving .clear ⟨.outside, rest⟩ w.gate.release w.lock
  | count :
      Rule w body rest .render .refused .count ⟨.outside, rest⟩ w.gate.turnAway w.lock

/-- Whether or not it is poisoned, the lock is had as soon as nobody has it. -/
theorem acquire_of_holder_eq_none {l : Lock} (h : l.holder = none) (thread : Nat) :
    (l.acquire thread).map Lock.ofAnswer = some { l with holder := some thread } := by
  rw [Lock.acquire, if_neg (by simp [h])]
  cases l.poisoned <;> rfl

theorem acquire_of_holder_eq_some {l : Lock} {other : Nat} (h : l.holder = some other)
    (thread : Nat) : l.acquire thread = none := by
  rw [Lock.acquire, if_pos (by simp [h])]

theorem step_of_worker? {w : World σ} {turn : Turn} {point : Point} {body : Body σ}
    {rest : List (Body σ)} (h : w.worker? turn = some ⟨point, body :: rest⟩) :
    w.step turn = match turn with
      | .control thread => w.stepControl thread point body rest
      | .render => w.stepRender point body rest := by
  simp only [step, h]
  cases turn <;> rfl

theorem stepControl_outside {w : World σ} (h : w.lock.holder = none) (thread : Nat)
    (body : Body σ) (rest : List (Body σ)) :
    w.stepControl thread .outside body rest =
      w.advance (.control thread) body .lock ⟨.queued, body :: rest⟩ w.gate
        { w.lock with holder := some thread } := by
  obtain ⟨answer, hanswer, hlock⟩ :=
    Option.map_eq_some_iff.mp (acquire_of_holder_eq_none h thread)
  simp only [stepControl, hanswer, hlock]
  rfl

theorem stepControl_queued {w : World σ} (h : w.gate.busy = false) (thread : Nat)
    (body : Body σ) (rest : List (Body σ)) :
    w.stepControl thread .queued body rest =
      w.advance (.control thread) body .enter ⟨.entered, body :: rest⟩ w.gate.hold w.lock := by
  simp only [stepControl, h, Bool.false_eq_true, if_false]
  rfl

/-- A step of a configuring thread changes nothing or follows a rule. -/
theorem stepControl_cases (thread : Nat) (point : Point) (body : Body σ) (rest : List (Body σ))
    (w : World σ) :
    w.stepControl thread point body rest = w ∨ ∃ action worker gate lock,
      Rule w body rest (.control thread) point action worker gate lock ∧
      w.stepControl thread point body rest =
        w.advance (.control thread) body action worker gate lock := by
  cases point with
  | outside =>
      cases hholder : w.lock.holder with
      | none =>
          exact .inr ⟨_, _, _, _, .lock thread hholder,
            stepControl_outside hholder thread body rest⟩
      | some other =>
          exact .inl (by simp only [stepControl, acquire_of_holder_eq_some hholder])
  | queued =>
      cases hbusy : w.gate.busy with
      | true =>
          refine .inr ⟨_, _, _, _, .wait thread hbusy, ?_⟩
          simp only [stepControl, hbusy, if_true, make_eq_advance]
      | false =>
          exact .inr ⟨_, _, _, _, .enter thread hbusy, stepControl_queued hbusy thread body rest⟩
  | entered => exact .inr ⟨_, _, _, _, .run _, rfl⟩
  | leaving => exact .inr ⟨_, _, _, _, .clear thread, rfl⟩
  | unqueueing => exact .inr ⟨_, _, _, _, .unlock thread, rfl⟩
  | refused => exact .inl rfl

/-- A step of the rendering thread changes nothing or follows a rule. -/
theorem stepRender_cases (point : Point) (body : Body σ) (rest : List (Body σ)) (w : World σ) :
    w.stepRender point body rest = w ∨ ∃ action worker gate lock,
      Rule w body rest .render point action worker gate lock ∧
      w.stepRender point body rest = w.advance .render body action worker gate lock := by
  cases point with
  | outside =>
      cases hbusy : w.gate.busy with
      | true =>
          refine .inr ⟨_, _, _, _, .refuse hbusy, ?_⟩
          simp only [stepRender, hbusy, if_true, make_eq_advance]
      | false =>
          refine .inr ⟨_, _, _, _, .enterBlock hbusy, ?_⟩
          simp only [stepRender, hbusy, Bool.false_eq_true, if_false]
          rfl
  | entered => exact .inr ⟨_, _, _, _, .run _, rfl⟩
  | leaving => exact .inr ⟨_, _, _, _, .clearBlock, rfl⟩
  | refused => exact .inr ⟨_, _, _, _, .count, rfl⟩
  | queued => exact .inl rfl
  | unqueueing => exact .inl rfl

/-- A step changes nothing or follows a rule. -/
theorem step_cases (w : World σ) (turn : Turn) :
    w.step turn = w ∨ ∃ body rest point action worker gate lock,
      w.worker? turn = some ⟨point, body :: rest⟩ ∧
      Rule w body rest turn point action worker gate lock ∧
      w.step turn = w.advance turn body action worker gate lock := by
  rcases hworker : w.worker? turn with _ | ⟨point, calls⟩
  · exact .inl (by simp only [step, hworker])
  cases calls with
  | nil => exact .inl (by simp only [step, hworker])
  | cons body rest =>
      rw [step_of_worker? hworker]
      cases turn with
      | control thread =>
          rcases stepControl_cases thread point body rest w with heq | ⟨_, _, _, _, hrule, heq⟩
          · exact .inl heq
          · exact .inr ⟨body, rest, point, _, _, _, _, rfl, hrule, heq⟩
      | render =>
          rcases stepRender_cases point body rest w with heq | ⟨_, _, _, _, hrule, heq⟩
          · exact .inl heq
          · exact .inr ⟨body, rest, point, _, _, _, _, rfl, hrule, heq⟩

/-- What every rule keeps holds along every run. -/
theorem run_induction {P : World σ → Prop}
    (hrule : ∀ {w : World σ} {turn : Turn} {body : Body σ} {rest : List (Body σ)} {point : Point}
      {action : Action} {worker : Worker σ} {gate : Gate σ} {lock : Lock}, P w →
      w.worker? turn = some ⟨point, body :: rest⟩ →
      Rule w body rest turn point action worker gate lock →
      P (w.advance turn body action worker gate lock))
    {w : World σ} (h : P w) (turns : List Turn) : P (w.run turns) := by
  induction turns generalizing w with
  | nil => exact h
  | cons turn turns ih =>
      refine ih ?_
      rcases step_cases w turn with heq | ⟨_, _, _, _, _, _, _, hworker, hstep, heq⟩
      · rwa [heq]
      · rw [heq]
        exact hrule h hworker hstep

end World

end PolySampler.Gate
