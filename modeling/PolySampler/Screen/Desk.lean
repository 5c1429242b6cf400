import PolySampler.Console.Session
import PolySampler.Screen.Chart
import PolySampler.Screen.Scope
import PolySampler.Screen.StatusBar

/-!
The console on a terminal. It takes the same commands as the plain console from
an input line, and shows what the engine does: its status, the spectrum of its
output, and the last lines of the replies.
-/

namespace PolySampler.Screen

open Console (Surroundings executeLine)

def scopeCapacity : Nat := windowLength * 16

def shownLines : Nat := 10

inductive Key where
  | char (c : Char)
  | enter
  | escape
  | backspace
  /-- A key that means nothing here. -/
  | other
  deriving DecidableEq, Repr

inductive TerminalEvent where
  /-- A key was pressed, perhaps together with the control key. -/
  | press (key : Key) (control : Bool)
  /-- A key was held or let go, or something else happened. -/
  | other
  deriving DecidableEq, Repr

structure Desk where
  engine : Engine
  shutdown : Shutdown := {}
  /-- The lines of replies. -/
  lines : Log.Lines := {}
  scope : Scope Ring
  status : Status
  /-- What has been typed and not yet entered. -/
  input : String := ""

namespace Desk

def new (engine : Engine) (shutdown : Shutdown) (device : String) : Desk where
  engine
  shutdown
  scope := .new (.new scopeCapacity (by decide)) engine.settings.sampleRate
  status := { settings := engine.settings, instrument := engine.instrumentName?, device }

/-- The output hands over samples. What there is no room for is lost. -/
def feedScope (d : Desk) (samples : Array Float32) : Desk :=
  { d with scope := d.scope.feed samples.toList }

/-- Takes the waiting samples and looks at the newest window. -/
def pollScope (d : Desk) : Desk :=
  { d with scope := d.scope.poll }

/-- Takes over the counters of the engine, which can be read without passing the
gate. -/
def pollStatus (d : Desk) : Desk :=
  { d with status := { d.status with
      activeVoices := d.engine.activeVoices
      silencedBlocks := d.engine.contentionCount } }

def poll (d : Desk) : Desk :=
  d.pollScope.pollStatus

def refreshSettings (d : Desk) : Desk :=
  { d with status := { d.status with
      settings := d.engine.settings
      instrument := d.engine.instrumentName? } }

def showAnswer (d : Desk) : Except Console.ControlError Console.Reply → Desk
  | .ok (.lines lines) => { d with lines := d.lines.pushAll lines }
  | .ok .quit => { d with shutdown := d.shutdown.request }
  | .error error => { d with lines := d.lines.push ("ERROR: " ++ error.message) }

/-- Executes the typed line, unless it is blank. -/
def submit (around : Surroundings) (d : Desk) : Desk :=
  let line := d.input
  let d := { d with input := "" }
  if (Text.trim line.toList).isEmpty then d
  else
    let done := executeLine around d.engine line
    let d := { d with engine := done.engine, lines := d.lines.push ("> " ++ line) }
    (d.showAnswer done.answer).refreshSettings

def press (around : Surroundings) (d : Desk) (control : Bool) : Key → Desk
  | .escape => { d with shutdown := d.shutdown.request }
  | .char c =>
    if c = 'c' ∧ control then { d with shutdown := d.shutdown.request }
    else { d with input := d.input.push c }
  | .backspace => { d with input := String.ofList d.input.toList.dropLast }
  | .enter => d.submit around
  | .other => d

def handle (around : Surroundings) (d : Desk) : TerminalEvent → Desk
  | .press key control => d.press around control key
  | .other => d

/-- One turn of the loop: an event is taken, and unless the console is to end,
the next frame is prepared. -/
def turn (around : Surroundings) (d : Desk) (event : TerminalEvent) : Desk :=
  let d := d.handle around event
  if d.shutdown.requested then d else d.poll

/-- Takes events until the console is to end; those behind are not taken. -/
def turns (around : Surroundings) : List TerminalEvent → Desk → Desk
  | [], d => d
  | event :: rest, d =>
    if d.shutdown.requested then d else turns around rest (d.turn around event)

def run (around : Surroundings) (events : List TerminalEvent) (d : Desk) : Desk :=
  if d.shutdown.requested then d else d.poll.turns around events

def plainRow (width : Nat) (text : String) : Row :=
  textRow width ((Text.lines text).map fun line => ⟨line, .reset⟩)

def statusRow (d : Desk) (width : Nat) : Row :=
  d.status.row width (.ofSamples d.scope.window)

def lineRows (d : Desk) (width : Nat) : List Row :=
  let rows := (d.lines.tail shownLines).map (plainRow (width - 2))
  rows ++ List.replicate (shownLines - rows.length) (blanks (width - 2))

/-- The row of the input line: only the first line of what is typed is shown. -/
def inputRow (d : Desk) (width : Nat) : Row :=
  plainRow (width - 2) ((Text.lines ("> " ++ d.input)).headD "")

def keyHelp : String :=
  " [Enter] Run command  [Esc] Quit  type 'help' for commands"

def draw (d : Desk) (width height : Nat) : List Row :=
  d.status.bar width (.ofSamples d.scope.window) ++
    panel width " Spectrum " (chart (width - 2) (height - 21)) ++
    panel width " Console " (d.lineRows width) ++
    panel width " Command " [d.inputRow width] ++
    [textRow width [⟨keyHelp, .darkGray⟩]]

end Desk

def emptyScreen (width height : Nat) : List Row :=
  List.replicate height (blanks width)

end PolySampler.Screen
