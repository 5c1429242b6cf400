import PolySampler.Envelope.Description

/-!
The envelope generator of one voice. It produces one level per frame. Starts
and releases are scheduled in frames: a start waits for its trigger frame in
silence, and a release begins on its own frame from whatever level has been
reached. A release that is asked for while the trigger is still awaited is
moved behind the trigger.
-/

namespace PolySampler.Envelope

open Signal

inductive Stage where
  | idle
  | delayed
  | attack
  | sustain
  | release
  | done
  deriving DecidableEq, Repr, Inhabited

structure Progress where
  stage : Stage := .idle
  /-- Frames until the attack begins; counts while the stage is `delayed`. -/
  triggerCountdown : UInt32 := 0
  /-- Frames until the release begins, if one has been asked for. -/
  releaseCountdown : Option UInt32 := none
  segment : Nat := 0
  segmentStart : Float32 := 0
  segmentPosition : Float32 := 0
  segmentStep : Float32 := 1
  level : Float32 := 0

/-- The way along a segment after its curve: slow to start for positive shapes,
fast for negative ones. -/
def shaped (x shape : Float32) : Float32 :=
  if 0 < shape then x.pow (1 + shape)
  else if shape < 0 then 1 - (1 - x).pow (1 - shape)
  else x

def stepOf (time sampleRate : Float32) : Float32 :=
  let frames := time * sampleRate
  if frames ≤ 1 then 1 else 1 / frames

namespace Progress

def enterSegment (p : Progress) (d : Description) (segment : Nat) (sampleRate : Float32) :
    Progress :=
  { p with
    segment
    segmentStart := p.level
    segmentPosition := 0
    segmentStep := match d.points[segment]? with
      | some point => stepOf point.time sampleRate
      | none => 1 }

/-- Begins the release; with no release segments the envelope is over. -/
def enterRelease (p : Progress) (d : Description) (sampleRate : Float32) : Progress :=
  if d.points.size ≤ d.releaseStart then
    { p with level := 0, stage := .done }
  else
    ({ p with stage := .release } : Progress).enterSegment d d.releaseStart sampleRate

def completeSegment (p : Progress) (d : Description) (sampleRate : Float32) : Progress :=
  match p.stage with
  | .attack =>
    if d.sustain ≤ p.segment then { p with stage := .sustain }
    else p.enterSegment d (p.segment + 1) sampleRate
  | .release =>
    if d.points.size ≤ p.segment + 1 then { p with stage := .done }
    else p.enterSegment d (p.segment + 1) sampleRate
  | _ => p.enterSegment d (p.segment + 1) sampleRate

def advance (p : Progress) (d : Description) (sampleRate : Float32) : Progress :=
  match d.points[p.segment]? with
  | none => { p with stage := .done, level := 0 }
  | some point =>
    let position := least (p.segmentPosition + p.segmentStep) 1
    let level := p.segmentStart + (point.level - p.segmentStart) * shaped position point.shape
    if position < 1 then { p with segmentPosition := position, level }
    else
      ({ p with segmentPosition := position, level := point.level } :
        Progress).completeSegment d sampleRate

/-- Counts down to the release, and begins it when its frame has come. -/
def countRelease (p : Progress) (d : Description) (sampleRate : Float32) : Progress :=
  match p.releaseCountdown with
  | none => p
  | some remaining =>
    if remaining = 0 then
      ({ p with releaseCountdown := none } : Progress).enterRelease d sampleRate
    else { p with releaseCountdown := some (remaining - 1) }

def sound (p : Progress) (d : Description) (sampleRate : Float32) : Float32 × Progress :=
  let p := p.countRelease d sampleRate
  match p.stage with
  | .attack | .release =>
    let p := p.advance d sampleRate
    (p.level, p)
  | .sustain =>
    match d.points[d.sustain]? with
    | some point => (point.level, { p with level := point.level })
    | none => (p.level, p)
  | .done => (0, p)
  | .idle | .delayed => (p.level, p)

/-- Produces the level of one frame. While the trigger is awaited, both
countdowns run and the frame is silent. -/
def tick (p : Progress) (d : Description) (sampleRate : Float32) : Float32 × Progress :=
  match p.stage with
  | .idle | .done => (0, p)
  | .delayed =>
    -- the release counts as well, so it keeps its frame
    if p.triggerCountdown ≠ 0 then
      (0, { p with
        triggerCountdown := p.triggerCountdown - 1
        releaseCountdown := p.releaseCountdown.map fun r => if r = 0 then 0 else r - 1 })
    else
      (({ p with level := 0, stage := .attack } : Progress).enterSegment d 0
        sampleRate).sound d sampleRate
  | .attack | .sustain | .release => p.sound d sampleRate

end Progress

/-- An envelope generator: the description bound to it, if any, the sample rate,
and its progress. -/
structure Generator where
  description : Option Description := none
  sampleRate : Float32
  progress : Progress := {}

/-- What can be seen of a generator from outside. -/
inductive Phase where
  | idle
  | pendingTrigger
  | attack
  | sustain
  | pendingRelease
  | releasing
  | released
  deriving DecidableEq, Repr

def maxDelay : UInt32 := 0xFFFFFFFF

namespace Generator

def new (sampleRate : Float32) : Generator :=
  { sampleRate }

/-- Changes the sample rate. The speed of the present segment follows;
countdowns are in frames and stay. -/
def setSampleRate (g : Generator) (sampleRate : Float32) : Generator :=
  let g := { g with sampleRate }
  match g.description, g.progress.stage with
  | some d, .attack | some d, .release =>
    match d.points[g.progress.segment]? with
    | some point =>
      { g with progress := { g.progress with segmentStep := stepOf point.time sampleRate } }
    | none => g
  | _, _ => g

/-- Binds a description and returns to idle. -/
def configure (g : Generator) (d : Description) : Generator :=
  { g with description := some d, progress := {} }

/-- Schedules the attack `delay` frames ahead. Without a description nothing
happens. -/
def start (g : Generator) (delay : UInt32) : Generator :=
  match g.description with
  | none => g
  | some _ => { g with progress := { stage := .delayed, triggerCountdown := delay } }

/-- The frame after the trigger, as far as frames can be scheduled. -/
def afterTrigger (countdown : UInt32) : UInt32 :=
  if countdown = maxDelay then maxDelay else countdown + 1

/-- Schedules the release `delay` frames ahead, or earlier if an earlier one is
already scheduled. Before the trigger the release is moved behind it; after the
release has begun, and when nothing sounds, nothing happens. -/
def release (g : Generator) (delay : UInt32) : Generator :=
  let schedule (delay : UInt32) : Generator :=
    { g with progress := { g.progress with
        releaseCountdown := some (match g.progress.releaseCountdown with
          | some pending => if delay < pending then delay else pending
          | none => delay) } }
  match g.progress.stage with
  | .idle | .done | .release => g
  | .delayed =>
    -- the attack gets one frame at least
    let earliest := afterTrigger g.progress.triggerCountdown
    schedule (if delay < earliest then earliest else delay)
  | .attack | .sustain => schedule delay

/-- Produces the level of one frame; silence if nothing is bound. -/
def tick (g : Generator) : Float32 × Generator :=
  match g.description with
  | none => (0, g)
  | some d =>
    let (level, progress) := g.progress.tick d g.sampleRate
    (level, { g with progress })

def processFrom : Nat → Array Float32 → Generator → Array Float32 × Generator
  | 0, done, g => (done, g)
  | n + 1, done, g =>
    let (level, g) := g.tick
    processFrom n (done.push level) g

/-- How many of the next frames only wait for the trigger. -/
def silentFrames (g : Generator) (frames : Nat) : Nat :=
  match g.description, g.progress.stage with
  | some _, .delayed => min frames g.progress.triggerCountdown.toNat
  | _, _ => 0

/-- Counts off frames that only wait for the trigger. -/
def skip (g : Generator) (frames : Nat) : Generator :=
  let countOff (countdown : UInt32) : UInt32 := .ofNat (countdown.toNat - frames)
  { g with progress := { g.progress with
      triggerCountdown := countOff g.progress.triggerCountdown
      releaseCountdown := g.progress.releaseCountdown.map countOff } }

/-- The levels of a block of frames. The silence before the trigger is written at
once, however long it is. -/
def process (g : Generator) (frames : Nat) : Array Float32 × Generator :=
  let silent := g.silentFrames frames
  processFrom (frames - silent) (Array.replicate silent 0) (g.skip silent)

def reset (g : Generator) : Generator :=
  { g with progress := {} }

def unbind (g : Generator) : Generator :=
  { g with description := none, progress := {} }

/-- What can be seen from outside. A release that is scheduled shows only once
the trigger has fired. -/
def phase (g : Generator) : Phase :=
  match g.progress.stage with
  | .idle => .idle
  | .delayed => .pendingTrigger
  | .attack => if g.progress.releaseCountdown.isSome then .pendingRelease else .attack
  | .sustain => if g.progress.releaseCountdown.isSome then .pendingRelease else .sustain
  | .release => .releasing
  | .done => .released

def isFinished (g : Generator) : Bool :=
  g.progress.stage = .done

end Generator

end PolySampler.Envelope
