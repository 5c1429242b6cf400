import PolySampler.Console.Command
import PolySampler.Engine
import PolySampler.Shutdown

/-!
Executing commands on the engine, and the plain console, which reads lines,
executes them and writes the replies.
-/

namespace PolySampler.Console

open Signal

/-- What the console does after a command: it shows the reply, or it ends. -/
inductive Reply where
  | lines (lines : List String)
  | quit
  deriving DecidableEq, Repr

inductive ControlError where
  | command (error : CommandError)
  | config (error : ConfigError)

def ControlError.message : ControlError → String
  | .command error => error.message
  | .config error => error.message

/-- What surrounds the sampler: the files that can be read, the memory that can be
had, and what files are read with. -/
structure Surroundings where
  files : Files
  memory : Memory := Memory.machine
  readers : Readers := {}

def settingsLines (e : Engine) : List String :=
  let s := e.settings
  [s!"synth.gain {Decimal.plain s.volume}",
    s!"synth.sample_rate {Decimal.plain s.sampleRate}",
    s!"synth.samples_per_block {s.samplesPerBlock}",
    s!"synth.voices {s.numVoices}",
    s!"synth.oversampling {s.oversampling.label}",
    s!"synth.preload_size {s.preloadSize}",
    "synth.instrument " ++ e.instrumentName?.getD "(none)"]

/-- Answers a change that worked with one line. -/
def Response.reply (response : Response Unit) (line : String) : Response Reply where
  answer := response.answer.map fun _ => .lines [line]
  engine := response.engine
  records := response.records

def execute (around : Surroundings) (e : Engine) : Command → Response Reply
  | .loadInstrument path =>
    let response := e.loadInstrument around.files path around.readers
    { answer := response.answer.map fun report => .lines (Text.lines report.text)
      engine := response.engine
      records := response.records }
  | .unloadInstrument =>
    { answer := .ok (.lines ["instrument unloaded"])
      engine := e.unloadInstrument
      records := [] }
  | .setOversampling oversampling =>
    Response.reply (e.setOversampling oversampling) s!"oversampling {oversampling.label}"
  | .setPreloadSize frames => Response.reply (e.setPreloadSize frames) s!"preload size {frames}"
  | .setVoices count =>
    Response.reply (e.setNumVoices around.memory count) s!"voices {count}"
  | .gain level => Response.reply (e.setVolume level) s!"gain {Decimal.plain level} dB"
  | .settings => { answer := .ok (.lines (settingsLines e)), engine := e, records := [] }
  | .help => { answer := .ok (.lines helpLines), engine := e, records := [] }
  | .quit => { answer := .ok .quit, engine := e, records := [] }

/-- What came of a line: the reply or an error, the engine afterwards, and the
records. -/
structure Executed where
  answer : Except ControlError Reply
  engine : Engine
  records : List Log.Record

/-- Executes a line. A blank one does nothing. -/
def executeLine (around : Surroundings) (e : Engine) (line : String) : Executed :=
  match Command.parse line with
  | .error error => { answer := .error (.command error), engine := e, records := [] }
  | .ok none => { answer := .ok (.lines []), engine := e, records := [] }
  | .ok (some command) =>
    let response := execute around e command
    { answer := response.answer.mapError .config
      engine := response.engine
      records := response.records }

structure Session where
  engine : Engine
  shutdown : Shutdown := {}
  /-- What has been written so far. -/
  output : String := ""
  records : List Log.Record := []

/-- Why a plain console ended before its time: a line was no text. -/
inductive SessionError where
  | invalidData
  deriving DecidableEq, Repr

def promptText : String := "> "

namespace Session

def write (s : Session) (text : String) : Session :=
  { s with output := s.output ++ text }

def writeLines (s : Session) (lines : List String) : Session :=
  s.write (String.join (lines.map (· ++ "\n")))

/-- Executes one line; the console goes on unless the answer is that it is to
end. -/
def step (around : Surroundings) (s : Session) (line : String) : Bool × Session :=
  let done := executeLine around s.engine line
  let s := { s with engine := done.engine, records := s.records ++ done.records }
  match done.answer with
  | .ok .quit => (false, { s with shutdown := s.shutdown.request })
  | .ok (.lines lines) => (true, (s.writeLines lines).write promptText)
  | .error error => (true, (s.writeLines ["ERROR: " ++ error.message]).write promptText)

/-- Executes lines until one of them ends the console, is no text, or shutdown
has been requested. The end of the lines requests shutdown. -/
def runLines (around : Surroundings) :
    List (Option String) → Session → Except SessionError Unit × Session
  | [], s => (.ok (), { s with shutdown := s.shutdown.request })
  | line :: rest, s =>
    if s.shutdown.requested then (.ok (), s)
    else
      match line with
      | none => (.error .invalidData, s)
      | some line =>
        match s.step around line with
        | (true, s) => runLines around rest s
        | (false, s) => (.ok (), s)

end Session

def inputLines (input : ByteArray) : List (Option String) :=
  (Text.splitLines (10 : UInt8) 13 input.toList).map fun bytes =>
    String.fromUTF8? (ByteArray.mk bytes.toArray)

def run (around : Surroundings) (engine : Engine) (shutdown : Shutdown) (input : ByteArray) :
    Except SessionError Unit × Session :=
  Session.runLines around (inputLines input)
    (({ engine, shutdown } : Session).write promptText)

end PolySampler.Console
