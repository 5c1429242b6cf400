import PolySampler.Gate.Basic
import PolySampler.Instrument.Load
import PolySampler.Midi.Source
import PolySampler.Synth.Events
import PolySampler.Synth.InPlace
import PolySampler.Synth.Render

/-!
The engine: a synth behind a gate, with counters that can be read without
passing it. A block that finds the gate busy is silent and its events are lost;
changes of configuration wait for the gate and report what they did.
-/

namespace PolySampler

open Signal

/-- What became of a block. Both are success for the host. -/
inductive RenderStatus where
  | rendered (events : Nat)
  | silenced
  deriving DecidableEq, Repr

def RenderStatus.code : RenderStatus → Nat
  | .rendered _ => 0
  | .silenced => 0

structure Engine where
  gate : Gate Synth
  /-- Voices that sounded at the end of the last block rendered. -/
  activeVoices : Nat := 0
  renderedBlocks : Nat := 0

/-- The answer to a request of the control side: a result or a refusal, the
engine afterwards, and the records of it. -/
structure Response (α : Type) where
  answer : Except ConfigError α
  engine : Engine
  records : List Log.Record

namespace Engine

def new (memory : Memory) (settings : Settings) : Except ConfigError Engine :=
  (Synth.new memory settings).map fun synth => { gate := { state := synth } }

def synth (e : Engine) : Synth :=
  e.gate.state

/-- Blocks that were silent because the gate was busy. -/
def contentionCount (e : Engine) : Nat :=
  e.gate.contended

def silence (output : Array Float32) : Array Float32 :=
  Array.replicate output.size 0

/-- Renders one block after `feed` has dispatched its events. While it does, `feed` may
turn to the engine again, whose gate is held. What it has of its own comes back as it
leaves it. On a busy gate nothing is fed and the block is silent. -/
def renderAround {ω : Type} (feed : ω → Engine → Nat × ω × Engine) (own : ω)
    (outputs : List (Array Float32)) (e : Engine) :
    RenderStatus × List (Array Float32) × Engine × ω :=
  let block (gate : Gate Synth) :
      (Nat × ω × List (Array Float32) × Engine) × Gate Synth :=
    let (events, own, e) := feed own { e with gate }
    let (state, outputs) := e.synth.renderBlock outputs
    ((events, own, outputs, { e with activeVoices := state.activeVoices }),
      { e.gate with state })
  match e.gate.tryRender block with
  | (some (events, own, outputs, e), gate) =>
    (.rendered events, outputs, { e with gate, renderedBlocks := e.renderedBlocks + 1 }, own)
  | (none, gate) => (.silenced, outputs.map silence, { e with gate }, own)

/-- Gives `f` the synth of an engine whose gate is held. -/
def inside {α : Type} (f : Synth → α × Synth) (e : Engine) : α × Engine :=
  let (result, state) := f e.synth
  (result, { e with gate := { e.gate with state } })

/-- Renders one block after `feed` has dispatched its events, knowing nothing of the
engine but its synth. -/
def renderFed {ω : Type} (feed : ω → Synth → Nat × ω × Synth) (own : ω)
    (outputs : List (Array Float32)) (e : Engine) :
    RenderStatus × List (Array Float32) × Engine × ω :=
  e.renderAround (fun own e =>
    let ((events, own), e) := e.inside fun s =>
      let (events, own, s) := feed own s
      ((events, own), s)
    (events, own, e)) own outputs

/-- Renders one block after `feed` has dispatched its events. -/
def renderWith (feed : Synth → Nat × Synth) (outputs : List (Array Float32)) (e : Engine) :
    RenderStatus × List (Array Float32) × Engine :=
  let (status, outputs, e, _) := e.renderFed
    (fun () s => let (events, s) := feed s; (events, (), s)) () outputs
  (status, outputs, e)

/-- Renders one block with the events of a source. The events of a silent block are
fetched all the same, and dropped. -/
def renderFrom {ω α : Type} [Midi.EventSource ω α] [Midi.TransportEvent α] (source : ω)
    (outputs : List (Array Float32)) (e : Engine) :
    RenderStatus × List (Array Float32) × Engine × ω :=
  let (status, outputs, e, source) := e.renderFed Midi.dispatchFrom source outputs
  let source := match status with
    | .rendered _ => source
    | .silenced => Midi.discard source
  (status, outputs, e, source)

def render {α : Type} [Midi.TransportEvent α] (events : List α)
    (outputs : List (Array Float32)) (e : Engine) :
    RenderStatus × List (Array Float32) × Engine :=
  let (status, outputs, e, _) := e.renderFrom events outputs
  (status, outputs, e)

/-- Renders one block with everything that is queued. The queue is empty
afterwards, also if the block was silent. -/
def renderQueue {ρ : Type} [Midi.MessageRing ρ] (queue : Midi.Queue ρ)
    (outputs : List (Array Float32)) (e : Engine) :
    RenderStatus × List (Array Float32) × Engine × Midi.Queue ρ :=
  e.renderFrom queue outputs

def renderTransports (transports : List Midi.Transport) (outputs : List (Array Float32))
    (e : Engine) : RenderStatus × List (Array Float32) × Engine :=
  e.renderWith (Midi.dispatchAll transports) outputs

def whileHeld {α : Type} (f : Engine → α × Engine) (e : Engine) : α × Engine :=
  let ((result, e), gate) := e.gate.configure fun gate =>
    let (result, e) := f { e with gate }
    ((result, e), e.gate)
  (result, { e with gate })

def configure {α : Type} (f : Synth → α × Synth) (e : Engine) : α × Engine :=
  e.whileHeld (inside f)

/-- Makes a change that may be refused, and reports on it under the name of what
is changed. -/
def apply (what : String) (change : InPlace ConfigError Synth Unit) (e : Engine) :
    Response Unit :=
  match e.configure change.perform with
  | (.ok (), engine) =>
    { answer := .ok (), engine, records := [{ level := .info, message := s!"{what} updated" }] }
  | (.error refusal, engine) =>
    { answer := .error refusal
      engine
      records := [{ level := .warn, message := s!"rejected {what}: {refusal.message}" }] }

/-- Loads an instrument and puts it in place of the one before. Files are read
before the gate is passed. -/
def loadInstrument (files : Files) (path : String) (e : Engine) (readers : Readers := {}) :
    Response LoadReport :=
  let loaded := PolySampler.loadInstrument files path readers
  match loaded.result with
  | .error cause =>
    { answer := .error (.instrument path cause)
      engine := e
      records := loaded.records ++
        [{ level := .warn, message := s!"could not load {path}: {cause.message}" }] }
  | .ok (instrument, report) =>
    let (_, engine) := e.configure fun s => s.setInstrument (some instrument)
    let imported := match report.importFormat with
      | some format => s!", imported from {format}"
      | none => ""
    let counts := s!"{report.regions} regions, {report.preloadedSamples} samples{imported}"
    { answer := .ok report
      engine
      records := loaded.records ++
        [{ level := .info, message := s!"loaded {report.path} ({counts})" }] }

def unloadInstrument (e : Engine) : Engine :=
  (e.configure fun s => s.setInstrument none).2

def setSampleRate (rate : Float32) (e : Engine) : Response Unit :=
  e.apply "sample rate" (Synth.changeSampleRate rate)

def setSamplesPerBlock (memory : Memory) (frames : Nat) (e : Engine) : Response Unit :=
  e.apply "block size" (Synth.changeSamplesPerBlock memory frames)

def setNumVoices (memory : Memory) (count : Nat) (e : Engine) : Response Unit :=
  e.apply "voice count" (Synth.changeNumVoices memory count)

def setPreloadSize (frames : Nat) (e : Engine) : Response Unit :=
  e.apply "preload size" (Synth.changePreloadSize frames)

def setVolume (level : Float32) (e : Engine) : Response Unit :=
  e.apply "volume" (Synth.changeVolume level)

def setOversampling (oversampling : Oversampling) (e : Engine) : Response Unit :=
  let (_, engine) := e.configure fun s => ((), s.setOversampling oversampling)
  { answer := .ok ()
    engine
    records := [{ level := .info, message := s!"oversampling set to {oversampling.label}" }] }

def setOversamplingFactor (factor : Nat) (e : Engine) : Response Unit :=
  match Oversampling.ofFactor factor with
  | .ok oversampling => e.setOversampling oversampling
  | .error refusal =>
    { answer := .error refusal
      engine := e
      records := [{ level := .warn, message := s!"rejected oversampling: {refusal.message}" }] }

def sampleRateChanged (rate : UInt32) (e : Engine) : Response Unit :=
  e.setSampleRate rate.toFloat32

def blockSizeChanged (memory : Memory) (frames : UInt32) (e : Engine) : Response Unit :=
  e.setSamplesPerBlock memory frames.toNat

def settings (e : Engine) : Settings :=
  e.synth.settings

def instrumentName? (e : Engine) : Option String :=
  e.synth.instrument.map Instrument.name

end Engine

end PolySampler
