import PolySampler.Gate.Basic

/-!
The gate under concurrent use, in atomic steps. Any number of configuring
threads queue on a lock; the one that has it tries the flag of the gate until it
finds it clear. One rendering thread tries the flag once per call and never
waits. Every interleaving of the threads is a list of thread choices.
-/

namespace PolySampler.Gate

variable {σ : Type}

/-- What a thread runs inside the gate: how it changes the state, and whether it
panics before it leaves. A panic keeps the change made so far. -/
structure Body (σ : Type) where
  update : σ → σ
  panics : Bool := false

def runBody (g : Gate σ) (body : Body σ) : Gate σ :=
  { g with state := body.update g.state }

/-- The lock that configuring threads queue on. -/
structure Lock where
  holder : Option Nat := none
  /-- A thread has panicked while it had the lock. -/
  poisoned : Bool := false

namespace Lock

/-- Asks for the lock. A thread waits while another one has it, and is given it
as an error once it is poisoned. -/
def acquire (thread : Nat) (l : Lock) : Option (Except Lock Lock) :=
  if l.holder.isSome then none
  else
    let taken : Lock := { l with holder := some thread }
    some (if l.poisoned then .error taken else .ok taken)

/-- The lock out of either answer: that it is poisoned is of no account. -/
def ofAnswer : Except Lock Lock → Lock
  | .ok l => l
  | .error l => l

def release (panicking : Bool) (l : Lock) : Lock :=
  { holder := none, poisoned := l.poisoned || panicking }

end Lock

/-- Where a thread stands within its call. -/
inductive Point where
  /-- Outside; the next step waits for the lock, or tries the flag if the thread
  renders. -/
  | outside
  /-- With the lock; the next step tries the flag. -/
  | queued
  /-- With the flag; the next step runs the body. -/
  | entered
  /-- The body is over, or has panicked; the next step clears the flag. -/
  | leaving
  /-- The flag is clear; the next step gives the lock back. -/
  | unqueueing
  /-- Turned away; the next step counts that. -/
  | refused
  deriving DecidableEq, Repr

/-- A thread with the calls it has still to make, the present one first. -/
structure Worker (σ : Type) where
  point : Point
  calls : List (Body σ)

inductive Turn where
  | control (thread : Nat)
  | render
  deriving DecidableEq, Repr

inductive Action where
  /-- Takes the lock. -/
  | lock
  /-- Finds the flag set. -/
  | bounce
  /-- Finds the flag clear and sets it. -/
  | enter
  /-- Runs the body. -/
  | run
  /-- Clears the flag. -/
  | clear
  /-- Gives the lock back. -/
  | unlock
  /-- Counts that the renderer was turned away. -/
  | count
  deriving DecidableEq, Repr

/-- A step that was made: the thread, the body of the call it belongs to, and
what it did. -/
structure Step (σ : Type) where
  turn : Turn
  body : Body σ
  action : Action

/-- All threads, the gate and the lock they share, and the steps made so far. -/
structure World (σ : Type) where
  gate : Gate σ
  lock : Lock := {}
  controls : List (Worker σ)
  renderer : Worker σ
  trace : List (Step σ) := []

namespace World

def start (state : σ) (controls : List (List (Body σ))) (renders : List (Body σ)) : World σ where
  gate := { state }
  controls := controls.map fun calls => { point := .outside, calls }
  renderer := { point := .outside, calls := renders }

def worker? (w : World σ) : Turn → Option (Worker σ)
  | .control thread => w.controls[thread]?
  | .render => some w.renderer

def setWorker (w : World σ) (turn : Turn) (worker : Worker σ) : World σ :=
  match turn with
  | .control thread => { w with controls := w.controls.set thread worker }
  | .render => { w with renderer := worker }

/-- Writes a step down and moves its thread on. -/
def make (w : World σ) (turn : Turn) (body : Body σ) (action : Action) (worker : Worker σ) :
    World σ :=
  { w.setWorker turn worker with trace := w.trace ++ [{ turn, body, action }] }

/-- One step of a configuring thread within its call. A thread that waits for
the lock stays as it is. -/
def stepControl (thread : Nat) (point : Point) (body : Body σ) (rest : List (Body σ))
    (w : World σ) : World σ :=
  let make (action : Action) (point : Point) : World σ :=
    w.make (.control thread) body action { point, calls := body :: rest }
  match point with
  | .outside =>
    match w.lock.acquire thread with
    | none => w
    | some answer => { make .lock .queued with lock := Lock.ofAnswer answer }
  | .queued =>
    if w.gate.busy then make .bounce .queued else { make .enter .entered with gate := w.gate.hold }
  | .entered => { make .run .leaving with gate := w.gate.runBody body }
  | .leaving => { make .clear .unqueueing with gate := w.gate.release }
  | .unqueueing =>
    { w.make (.control thread) body .unlock { point := .outside, calls := rest } with
      lock := w.lock.release body.panics }
  -- only a renderer is turned away
  | .refused => w

/-- One step of the rendering thread within its call. -/
def stepRender (point : Point) (body : Body σ) (rest : List (Body σ)) (w : World σ) : World σ :=
  let make (action : Action) (point : Point) : World σ :=
    w.make .render body action { point, calls := body :: rest }
  let finish (action : Action) : World σ :=
    w.make .render body action { point := .outside, calls := rest }
  match point with
  | .outside =>
    if w.gate.busy then make .bounce .refused
    else { make .enter .entered with gate := w.gate.hold }
  | .entered => { make .run .leaving with gate := w.gate.runBody body }
  | .leaving => { finish .clear with gate := w.gate.release }
  | .refused => { finish .count with gate := w.gate.turnAway }
  -- a renderer does not queue
  | .queued | .unqueueing => w

/-- One step of a thread. A thread with nothing left to do stays as it is. -/
def step (w : World σ) (turn : Turn) : World σ :=
  match w.worker? turn with
  | some ⟨point, body :: rest⟩ =>
    match turn with
    | .control thread => w.stepControl thread point body rest
    | .render => w.stepRender point body rest
  | _ => w

def run (w : World σ) (turns : List Turn) : World σ :=
  turns.foldl step w

end World

/-- The turns of a configuring call that arrives while the renderer is inside:
it queues and finds the gate busy, and gets in once the renderer has left. -/
def waitingTurns : List Turn :=
  [.render, .control 0, .control 0, .render, .render,
    .control 0, .control 0, .control 0, .control 0]

/-- A render call during which another thread starts to configure. Gives the
state that the render call sees when it is done, and the gate after both. -/
def renderWithWriter (render write : σ → σ) (g : Gate σ) : σ × Gate σ :=
  let w : World σ :=
    { World.start g.state [[{ update := write }]] [{ update := render }] with gate := g }
  ((w.run (waitingTurns.take 4)).gate.state, (w.run waitingTurns).gate)

end PolySampler.Gate
