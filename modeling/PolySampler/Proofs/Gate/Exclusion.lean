import PolySampler.Proofs.Gate.Steps

/-!
The gate lets one thread in at a time, and a call of either kind is what it looks
like from outside: one body run at one moment. The flag is set exactly while a
thread is inside, the lock is held exactly by the thread within its call, and the
steps of a thread are those of its calls, one call after the other. A body that
panics makes no difference to any of this.
-/

namespace PolySampler.Gate

variable {σ : Type}

/-- The thread has the flag. -/
def Point.isInside : Point → Bool
  | .entered | .leaving => true
  | .outside | .queued | .unqueueing | .refused => false

namespace World

def Inside (w : World σ) (turn : Turn) : Prop :=
  ∃ worker, w.worker? turn = some worker ∧ worker.point.isInside

/-- The threads that have done something so far, each with its body, in order. -/
def did (w : World σ) (action : Action) : List (Turn × Body σ) :=
  (w.trace.filter (·.action = action)).map fun step => (step.turn, step.body)

def stepsOf (w : World σ) (turn : Turn) : List (Body σ × Action) :=
  (w.trace.filter (·.turn = turn)).map fun step => (step.body, step.action)

section Advance

variable {w : World σ} {turn : Turn} {body : Body σ} {rest : List (Body σ)} {point : Point}
  {action : Action} {worker : Worker σ} {gate : Gate σ} {lock : Lock}

theorem inside_advance {old : Worker σ} (h : w.worker? turn = some old) (other : Turn) :
    (w.advance turn body action worker gate lock).Inside other ↔
      if other = turn then worker.point.isInside = true else w.Inside other := by
  split
  · next heq =>
      subst heq
      simp [Inside, worker?_advance_self w other body action worker gate lock h]
  · next hne => rw [Inside, worker?_advance_of_ne _ _ _ _ _ _ _ hne, Inside]

theorem did_advance (other : Action) :
    (w.advance turn body action worker gate lock).did other =
      w.did other ++ if action = other then [(turn, body)] else [] := by
  rw [did, trace_advance, List.filter_append, List.map_append, did]
  split <;> simp_all

theorem stepsOf_advance (other : Turn) :
    (w.advance turn body action worker gate lock).stepsOf other =
      w.stepsOf other ++ if turn = other then [(body, action)] else [] := by
  rw [stepsOf, trace_advance, List.filter_append, List.map_append, stepsOf]
  split <;> simp_all

end Advance

/-! ### The flag -/

/-- The flag is set exactly while a thread is inside, and no two are. -/
structure Guarded (w : World σ) : Prop where
  unique : ∀ t t', w.Inside t → w.Inside t' → t = t'
  busy : w.gate.busy = true ↔ ∃ t, w.Inside t

theorem Guarded.not_inside {w : World σ} (h : Guarded w) (hbusy : w.gate.busy = false)
    (turn : Turn) : ¬ w.Inside turn := fun hinside => by
  have := h.busy.mpr ⟨turn, hinside⟩
  rw [hbusy] at this
  cases this

section Rules

variable {w : World σ} {turn : Turn} {body : Body σ} {rest : List (Body σ)} {point : Point}
  {action : Action} {worker : Worker σ} {gate : Gate σ} {lock : Lock}

theorem Guarded.keep (h : Guarded w) (hworker : w.worker? turn = some ⟨point, body :: rest⟩)
    (hpoint : worker.point.isInside = point.isInside) (hbusy : gate.busy = w.gate.busy) :
    Guarded (w.advance turn body action worker gate lock) := by
  have hsame (t : Turn) :
      (w.advance turn body action worker gate lock).Inside t ↔ w.Inside t := by
    rw [inside_advance hworker]
    split
    · next heq => simp [heq, Inside, hworker, hpoint]
    · rfl
  refine ⟨fun t t' => ?_, ?_⟩
  · rw [hsame, hsame]
    exact h.unique t t'
  · simp only [gate_advance, hbusy, hsame]
    exact h.busy

theorem Guarded.enter (h : Guarded w) (hworker : w.worker? turn = some ⟨point, body :: rest⟩)
    (hpoint : worker.point.isInside) (hclear : w.gate.busy = false) :
    Guarded (w.advance turn body action worker w.gate.hold lock) := by
  have honly (t : Turn) :
      (w.advance turn body action worker w.gate.hold lock).Inside t ↔ t = turn := by
    rw [inside_advance hworker]
    split
    · next heq => simp [heq, hpoint]
    · next hne => simp [hne, h.not_inside hclear t]
  refine ⟨fun t t' ht ht' => ?_, ?_⟩
  · exact ((honly t).mp ht).trans ((honly t').mp ht').symm
  · exact ⟨fun _ => ⟨turn, (honly turn).mpr rfl⟩, fun _ => rfl⟩

theorem Guarded.leave (h : Guarded w) (hworker : w.worker? turn = some ⟨point, body :: rest⟩)
    (hinside : point.isInside) (hpoint : worker.point.isInside = false) :
    Guarded (w.advance turn body action worker w.gate.release lock) := by
  have hnone (t : Turn) : ¬ (w.advance turn body action worker w.gate.release lock).Inside t := by
    rw [inside_advance hworker]
    split
    · simp [hpoint]
    · next hne => exact fun ht => hne (h.unique t turn ht ⟨_, hworker, hinside⟩)
  refine ⟨fun t _ ht => absurd ht (hnone t), ?_⟩
  exact ⟨fun hbusy => absurd hbusy Bool.false_ne_true, fun ⟨t, ht⟩ => absurd ht (hnone t)⟩

theorem Guarded.advance (h : Guarded w) (hworker : w.worker? turn = some ⟨point, body :: rest⟩)
    (hrule : Rule w body rest turn point action worker gate lock) :
    Guarded (w.advance turn body action worker gate lock) := by
  cases hrule with
  | lock thread _ => exact h.keep hworker rfl rfl
  | wait thread _ => exact h.keep hworker rfl rfl
  | refuse _ => exact h.keep hworker rfl rfl
  | run => exact h.keep hworker rfl rfl
  | unlock thread => exact h.keep hworker rfl rfl
  | count => exact h.keep hworker rfl rfl
  | enter thread hclear => exact h.enter hworker rfl hclear
  | enterBlock hclear => exact h.enter hworker rfl hclear
  | clear thread => exact h.leave hworker rfl rfl
  | clearBlock => exact h.leave hworker rfl rfl

end Rules

/-! ### The lock -/

/-- The lock is held exactly by the configuring thread that is within its call, and
is poisoned exactly if a thread that panicked has given it back. -/
structure Queueing (w : World σ) : Prop where
  holder : ∀ thread, w.lock.holder = some thread ↔
    ∃ worker, w.worker? (.control thread) = some worker ∧ worker.point ≠ .outside
  poisoned : w.lock.poisoned = (w.did .unlock).any fun step => step.2.panics

section Rules

variable {w : World σ} {turn : Turn} {body : Body σ} {rest : List (Body σ)} {point : Point}
  {action : Action} {worker : Worker σ} {gate : Gate σ} {lock : Lock}

theorem Queueing.keep (h : Queueing w) (hworker : w.worker? turn = some ⟨point, body :: rest⟩)
    (hpoint : ∀ thread, turn = .control thread → point ≠ .outside ∧ worker.point ≠ .outside)
    (haction : action ≠ .unlock) :
    Queueing (w.advance turn body action worker gate w.lock) := by
  refine ⟨fun thread => ?_, ?_⟩
  · by_cases hturn : Turn.control thread = turn
    · subst hturn
      obtain ⟨hpoint, hpoint'⟩ := hpoint thread rfl
      have hheld := (h.holder thread).mpr ⟨_, hworker, hpoint⟩
      rw [worker?_advance_self _ _ _ _ _ _ _ hworker]
      simp [hheld, hpoint']
    · rw [worker?_advance_of_ne _ _ _ _ _ _ _ hturn]
      exact h.holder thread
  · rw [did_advance, if_neg haction, List.append_nil]
    exact h.poisoned

theorem Queueing.acquire {thread : Nat} (h : Queueing w)
    (hworker : w.worker? (.control thread) = some ⟨point, body :: rest⟩)
    (hfree : w.lock.holder = none) :
    Queueing (w.advance (.control thread) body .lock ⟨.queued, body :: rest⟩ w.gate
      { w.lock with holder := some thread }) := by
  refine ⟨fun other => ?_, ?_⟩
  · by_cases hturn : Turn.control other = .control thread
    · obtain rfl : other = thread := by simpa using hturn
      rw [worker?_advance_self _ _ _ _ _ _ _ hworker]
      simp
    · rw [worker?_advance_of_ne _ _ _ _ _ _ _ hturn, ← h.holder other, hfree]
      have hne : thread ≠ other := fun heq => hturn (by rw [heq])
      simp [hne]
  · rw [did_advance, if_neg (by decide), List.append_nil]
    exact h.poisoned

theorem Queueing.unlock {thread : Nat} (h : Queueing w)
    (hworker : w.worker? (.control thread) = some ⟨.unqueueing, body :: rest⟩) :
    Queueing (w.advance (.control thread) body .unlock ⟨.outside, rest⟩ w.gate
      (w.lock.release body.panics)) := by
  have hheld := (h.holder thread).mpr ⟨_, hworker, by simp⟩
  refine ⟨fun other => ?_, ?_⟩
  · by_cases hturn : Turn.control other = .control thread
    · rw [hturn, worker?_advance_self _ _ _ _ _ _ _ hworker]
      simp [Lock.release]
    · rw [worker?_advance_of_ne _ _ _ _ _ _ _ hturn, ← h.holder other, hheld]
      have hne : thread ≠ other := fun heq => hturn (by rw [heq])
      simp [Lock.release, hne]
  · rw [did_advance, if_pos rfl, List.any_append, ← h.poisoned]
    simp [Lock.release]

theorem Queueing.advance (h : Queueing w) (hworker : w.worker? turn = some ⟨point, body :: rest⟩)
    (hrule : Rule w body rest turn point action worker gate lock) :
    Queueing (w.advance turn body action worker gate lock) := by
  cases hrule with
  | lock thread hfree => exact h.acquire hworker hfree
  | unlock thread => exact h.unlock hworker
  | wait thread _ => exact h.keep hworker (by simp) (by decide)
  | enter thread _ => exact h.keep hworker (by simp) (by decide)
  | run turn => exact h.keep hworker (by simp) (by decide)
  | clear thread => exact h.keep hworker (by simp) (by decide)
  | refuse _ => exact h.keep hworker (by simp) (by decide)
  | enterBlock _ => exact h.keep hworker (by simp) (by decide)
  | clearBlock => exact h.keep hworker (by simp) (by decide)
  | count => exact h.keep hworker (by simp) (by decide)

end Rules

/-! ### The order of the bodies -/

def composed (state : σ) (entries : List (Turn × Body σ)) : σ :=
  entries.foldl (fun state entry => entry.2.update state) state

theorem composed_append (state : σ) (entries more : List (Turn × Body σ)) :
    composed state (entries ++ more) = composed (composed state entries) more :=
  List.foldl_append

/-- The state is the one that the bodies run so far lead to, and they were run in
the order in which their threads took the flag; the one that took it last may still
have its body to run. Whoever was turned away is counted. -/
structure Ordered (state : σ) (w : World σ) : Prop where
  state : w.gate.state = composed state (w.did .run)
  entered : ∀ turn worker, w.worker? turn = some worker → worker.point = .entered →
    ∃ body rest, worker.calls = body :: rest ∧ w.did .enter = w.did .run ++ [(turn, body)]
  settled : (∀ turn worker, w.worker? turn = some worker → worker.point ≠ .entered) →
    w.did .enter = w.did .run
  contended : w.gate.contended = (w.did .count).length

section Rules

variable {state : σ} {w : World σ} {turn : Turn} {body : Body σ} {rest : List (Body σ)}
  {point : Point} {action : Action} {worker : Worker σ} {gate : Gate σ} {lock : Lock}

theorem Ordered.keep (h : Ordered state w) (hworker : w.worker? turn = some ⟨point, body :: rest⟩)
    (hpoint : point ≠ .entered) (hpoint' : worker.point ≠ .entered)
    (haction : action ≠ .enter ∧ action ≠ .run) (hstate : gate.state = w.gate.state)
    (hcontended : gate.contended = w.gate.contended + if action = .count then 1 else 0) :
    Ordered state (w.advance turn body action worker gate lock) := by
  have hother {other : Turn} {worker' : Worker σ}
      (h' : (w.advance turn body action worker gate lock).worker? other = some worker')
      (hentered : worker'.point = .entered) : other ≠ turn ∧ w.worker? other = some worker' := by
    by_cases hturn : other = turn
    · subst hturn
      rw [worker?_advance_self _ _ _ _ _ _ _ hworker, Option.some.injEq] at h'
      exact absurd (h' ▸ hentered) hpoint'
    · rw [worker?_advance_of_ne _ _ _ _ _ _ _ hturn] at h'
      exact ⟨hturn, h'⟩
  refine ⟨?_, ?_, ?_, ?_⟩
  · rw [did_advance, if_neg haction.2, List.append_nil, gate_advance, hstate]
    exact h.state
  · intro other worker' h' hentered
    rw [did_advance, did_advance, if_neg haction.1, if_neg haction.2, List.append_nil,
      List.append_nil]
    exact h.entered other worker' (hother h' hentered).2 hentered
  · intro hnone
    rw [did_advance, did_advance, if_neg haction.1, if_neg haction.2, List.append_nil,
      List.append_nil]
    refine h.settled fun other worker' h' hentered => ?_
    by_cases hturn : other = turn
    · rw [hturn, hworker, Option.some.injEq] at h'
      exact hpoint (by rw [← hentered, ← h'])
    · exact hnone other worker'
        ((worker?_advance_of_ne _ _ _ _ _ _ _ hturn).trans h') hentered
  · rw [did_advance, gate_advance, hcontended, h.contended, List.length_append]
    split <;> rfl

theorem Ordered.enter (h : Ordered state w) (hguarded : Guarded w)
    (hworker : w.worker? turn = some ⟨point, body :: rest⟩) (hclear : w.gate.busy = false) :
    Ordered state
      (w.advance turn body .enter ⟨.entered, body :: rest⟩ w.gate.hold lock) := by
  have hsettled := h.settled fun t worker' h' hentered =>
    hguarded.not_inside hclear t ⟨worker', h', by rw [hentered]; rfl⟩
  refine ⟨?_, ?_, ?_, ?_⟩
  · rw [did_advance, if_neg (by decide), List.append_nil]
    exact h.state
  · intro other worker' h' hentered
    by_cases hturn : other = turn
    · subst hturn
      rw [worker?_advance_self _ _ _ _ _ _ _ hworker, Option.some.injEq] at h'
      subst h'
      refine ⟨body, rest, rfl, ?_⟩
      rw [did_advance, did_advance, if_pos rfl, if_neg (by decide), List.append_nil, hsettled]
    · rw [worker?_advance_of_ne _ _ _ _ _ _ _ hturn] at h'
      exact absurd ⟨worker', h', by rw [hentered]; rfl⟩ (hguarded.not_inside hclear other)
  · intro hnone
    exact absurd rfl (hnone turn _ (worker?_advance_self _ _ _ _ _ _ _ hworker))
  · rw [did_advance, if_neg (by decide), List.append_nil]
    exact h.contended

theorem Ordered.run (h : Ordered state w) (hguarded : Guarded w)
    (hworker : w.worker? turn = some ⟨.entered, body :: rest⟩) :
    Ordered state
      (w.advance turn body .run ⟨.leaving, body :: rest⟩ (w.gate.runBody body) lock) := by
  obtain ⟨body', rest', hcalls, hdid⟩ := h.entered turn _ hworker rfl
  obtain ⟨rfl, rfl⟩ := List.cons.inj hcalls
  refine ⟨?_, ?_, fun _ => ?_, ?_⟩
  · rw [did_advance, if_pos rfl, composed_append, ← h.state]
    rfl
  · intro other worker' h' hentered
    by_cases hturn : other = turn
    · subst hturn
      rw [worker?_advance_self _ _ _ _ _ _ _ hworker, Option.some.injEq] at h'
      rw [← h'] at hentered
      cases hentered
    · rw [worker?_advance_of_ne _ _ _ _ _ _ _ hturn] at h'
      exact absurd (hguarded.unique other turn ⟨worker', h', by rw [hentered]; rfl⟩
        ⟨_, hworker, rfl⟩) hturn
  · rw [did_advance, did_advance, if_neg (by decide), if_pos rfl, List.append_nil, hdid]
  · rw [did_advance, if_neg (by decide), List.append_nil]
    exact h.contended

theorem Ordered.advance (h : Ordered state w) (hguarded : Guarded w)
    (hworker : w.worker? turn = some ⟨point, body :: rest⟩)
    (hrule : Rule w body rest turn point action worker gate lock) :
    Ordered state (w.advance turn body action worker gate lock) := by
  cases hrule with
  | enter thread hclear => exact h.enter hguarded hworker hclear
  | enterBlock hclear => exact h.enter hguarded hworker hclear
  | run turn => exact h.run hguarded hworker
  | lock thread _ => exact h.keep hworker (by decide) nofun (by decide) rfl rfl
  | wait thread _ => exact h.keep hworker (by decide) nofun (by decide) rfl rfl
  | clear thread => exact h.keep hworker (by decide) nofun (by decide) rfl rfl
  | unlock thread => exact h.keep hworker (by decide) nofun (by decide) rfl rfl
  | refuse _ => exact h.keep hworker (by decide) nofun (by decide) rfl rfl
  | clearBlock => exact h.keep hworker (by decide) nofun (by decide) rfl rfl
  | count => exact h.keep hworker (by decide) nofun (by decide) rfl rfl

end Rules

end World

end PolySampler.Gate
