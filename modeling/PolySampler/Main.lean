import PolySampler.Arguments
import PolySampler.Console.Session

/-!
The program: the plain console on standard input and output. Files are read
here, before a line is executed, so that all that follows is a function of
their contents.
-/

namespace PolySampler.Main

open Console (Session Surroundings)

def readFile (path : String) : IO (Option ByteArray) := do
  try
    return some (← IO.FS.readBinFile path)
  catch _ =>
    return none

def gatherFiles (path : String) : IO Files := do
  let some contents ← readFile path | return fun _ => none
  let samples ← (samplePaths path contents).mapM fun sample => do
    return (sample, ← readFile sample)
  let known := (path, some contents) :: samples
  return fun wanted => (known.lookup wanted).join

def surroundings (line : String) : IO Surroundings := do
  match Console.Command.parse line with
  | .ok (some (.loadInstrument path)) => return { files := ← gatherFiles path }
  | _ => return { files := fun _ => none }

def report (filter : Log.Filter) (records : List Log.Record) : IO Unit :=
  for record in records do
    if filter.passes record.level then IO.eprintln record.line

def flush (filter : Log.Filter) (s : Session) : IO Session := do
  report filter s.records
  let output ← IO.getStdout
  output.putStr s.output
  output.flush
  return { s with output := "", records := [] }

def withoutEnd (line : String) : String :=
  match (Text.lines line).head? with
  | some text => text
  | none => line

/-- Executes lines until the session or the input ends. -/
partial def loop (filter : Log.Filter) (input : IO.FS.Stream) (s : Session) : IO Unit := do
  let line ← input.getLine
  if line.isEmpty then return
  let line := withoutEnd line
  let (more, s) := s.step (← surroundings line) line
  let s ← flush filter s
  if more then loop filter input s

def loadFirst (filter : Log.Filter) (path : String) (engine : Engine) : IO Engine := do
  let response := engine.loadInstrument (← gatherFiles path) path
  let told : List Log.Record := match response.answer with
    | .ok loaded => (Text.lines loaded.text).map fun line => { level := .info, message := line }
    | .error refusal => [{ level := .error, message := refusal.message }]
  report filter (response.records ++ told)
  return response.engine

def run (a : Arguments) : IO UInt32 := do
  for option in a.unknown do
    IO.eprintln s!"[warn] unknown arg: {option}"
  if a.help then
    IO.println Arguments.usage
    return 0
  if a.listDevices then
    IO.println "Available output devices:"
    IO.println "Available MIDI inputs:"
    return 0
  match Engine.new .machine a.settings with
  | .error refusal =>
    IO.eprintln s!"Error: invalid engine settings: {refusal.message}"
    return 1
  | .ok engine =>
    let engine ← match a.instrument with
      | some path => loadFirst a.logLevel path engine
      | none => pure engine
    IO.println "Type 'help' for commands"
    let s ← flush a.logLevel (({ engine } : Session).write Console.promptText)
    loop a.logLevel (← IO.getStdin) s
    return 0

end PolySampler.Main

def main (arguments : List String) : IO UInt32 :=
  match PolySampler.Arguments.parse arguments with
  | .ok a => PolySampler.Main.run a
  | .error refusal => do
    IO.eprintln s!"Error: {refusal.message}"
    return 1
