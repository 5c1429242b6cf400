/-!
The gate before a state that is both rendered and configured. A renderer makes
a single attempt to get in and goes away if the gate is busy; a configuring
thread waits. Whatever happens inside, the gate is open again afterwards.

Here the gate is seen by one thread, whose calls may nest: what runs inside a
call may try to render and then finds the gate busy. Configuring inside a call
would wait for ever, and nothing here can express it.
-/

namespace PolySampler

/-- A state behind a gate, and how often a renderer was turned away. -/
structure Gate (σ : Type) where
  state : σ
  busy : Bool := false
  contended : Nat := 0

namespace Gate

variable {σ : Type}

def hold (g : Gate σ) : Gate σ :=
  { g with busy := true }

def release (g : Gate σ) : Gate σ :=
  { g with busy := false }

def turnAway (g : Gate σ) : Gate σ :=
  { g with contended := g.contended + 1 }

/-- Makes a single attempt to run `f` inside; absent if the gate is busy. What runs
inside has the state, and meets the gate as it is held. -/
def tryRender {α : Type} (f : Gate σ → α × Gate σ) (g : Gate σ) : Option α × Gate σ :=
  if g.busy then (none, g.turnAway)
  else
    let (result, g) := f g.hold
    (some result, g.release)

def configure {α : Type} (f : Gate σ → α × Gate σ) (g : Gate σ) : α × Gate σ :=
  let (result, g) := f g.hold
  (result, g.release)

/-- An attempt to render: how it changes the state, whether it panics after
that, and the further attempts made before it leaves. -/
inductive Attempt (σ : Type) where
  | attempt (update : σ → σ) (panics : Bool) (inner : List (Attempt σ))

inductive Outcome (σ : Type) where
  | busy
  | panicked
  | done (state : σ) (inner : List (Outcome σ))

mutual

/-- Makes one attempt. A panic keeps the change made so far, leaves out what was
still to be done inside, and opens the gate. -/
def Attempt.run : Attempt σ → Gate σ → Outcome σ × Gate σ
  | .attempt update panics inner, g =>
    if g.busy then (.busy, g.turnAway)
    else
      let g := { g.hold with state := update g.state }
      if panics then (.panicked, g.release)
      else
        let state := g.state
        let (outcomes, g) := Attempt.runAll inner g
        (.done state outcomes, g.release)

def Attempt.runAll : List (Attempt σ) → Gate σ → List (Outcome σ) × Gate σ
  | [], g => ([], g)
  | first :: rest, g =>
    let (outcome, g) := Attempt.run first g
    let (outcomes, g) := Attempt.runAll rest g
    (outcome :: outcomes, g)

end

/-- Configures the state, with attempts to render before the gate opens again. A
panic is as in an attempt. -/
def configureAround (update : σ → σ) (panics : Bool) (inner : List (Attempt σ)) (g : Gate σ) :
    Outcome σ × Gate σ :=
  let g := { g.hold with state := update g.state }
  if panics then (.panicked, g.release)
  else
    let state := g.state
    let (outcomes, g) := Attempt.runAll inner g
    (.done state outcomes, g.release)

end Gate

end PolySampler
