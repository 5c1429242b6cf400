import PolySampler.Log
import PolySampler.Settings

/-!
The command line: options that begin with two dashes, and at most one
instrument file. Of an option given several times the last one counts; unknown
options are named in a warning and otherwise skipped.
-/

namespace PolySampler

structure Arguments where
  instrument : Option String := none
  oversampling : Oversampling := .x1
  preloadSize : Nat := ({} : Settings).preloadSize
  numVoices : Nat := ({} : Settings).numVoices
  device : Option String := none
  midiPort : Option String := none
  plain : Bool := false
  state : Bool := false
  logLevel : Log.Filter := some .info
  listDevices : Bool := false
  help : Bool := false
  /-- Options that were not understood. -/
  unknown : List String := []

inductive ArgumentError where
  | oversampling (cause : ConfigError)
  | preloadSize (cause : Text.NumeralFault)
  | numVoices (cause : Text.NumeralFault)
  | logLevel (text : String)
  | secondInstrument (text : String)

def ArgumentError.message : ArgumentError → String
  | .oversampling cause => s!"--oversampling: {cause.message}"
  | .preloadSize cause => s!"--preload-size: {cause.message}"
  | .numVoices cause => s!"--num-voices: {cause.message}"
  | .logLevel text => s!"--log-level: unknown level '{text}'"
  | .secondInstrument text => s!"only one instrument file can be given (got '{text}')"

namespace Arguments

def usage : String :=
  "usage: saavy-sampler [options] [instrument]\n\n" ++
  "  --oversampling=x1|x2|x4|x8   internal oversampling factor\n" ++
  "  --preload-size=N             preloaded frames per sample\n" ++
  "  --num-voices=N               polyphony\n" ++
  "  --device=NAME                output device (default device otherwise)\n" ++
  "  --midi-port=TEXT             connect the first MIDI input whose name contains TEXT\n" ++
  "  --plain                      line console on stdin/stdout instead of the TUI\n" ++
  "  --state                      report active voices every second\n" ++
  "  --log-level=LEVEL            off, error, warn, info, debug, trace\n" ++
  "  --list-devices               list audio outputs and MIDI inputs, then exit"

/-- The rest of a text behind a given beginning. -/
def after? (beginning : String) (text : String) : Option String :=
  if beginning.toList.isPrefixOf text.toList then
    some (String.ofList (text.toList.drop beginning.toList.length))
  else none

inductive Valued where
  | oversampling
  | preloadSize
  | numVoices
  | device
  | midiPort
  | logLevel
  deriving DecidableEq, Repr

def Valued.beginning : Valued → String
  | .oversampling => "--oversampling="
  | .preloadSize => "--preload-size="
  | .numVoices => "--num-voices="
  | .device => "--device="
  | .midiPort => "--midi-port="
  | .logLevel => "--log-level="

def Valued.all : List Valued :=
  [.oversampling, .preloadSize, .numVoices, .device, .midiPort, .logLevel]

inductive Kind where
  | plain
  | state
  | listDevices
  | help
  | valued (option : Valued) (value : String)
  | unknown
  | instrument
  deriving DecidableEq, Repr

def kindOf (text : String) : Kind :=
  if text = "--plain" then .plain
  else if text = "--state" then .state
  else if text = "--list-devices" then .listDevices
  else if text = "--help" ∨ text = "-h" then .help
  else
    match Valued.all.findSome? fun option =>
      (after? option.beginning text).map fun value => (option, value) with
    | some (option, value) => .valued option value
    | none => if (after? "--" text).isSome then .unknown else .instrument

/-- Gives an option its value; `filter?` reads the level of the log. -/
def setValue (filter? : String → Option Log.Filter) (a : Arguments) (value : String) :
    Valued → Except ArgumentError Arguments
  | .oversampling => do
    return { a with oversampling := ← (Oversampling.parse value).mapError .oversampling }
  | .preloadSize => do
    return { a with
      preloadSize := ← (Text.readNatural Text.maxWord32 value.toList).mapError .preloadSize }
  | .numVoices => do
    return { a with
      numVoices := ← (Text.readNatural Text.maxWord64 value.toList).mapError .numVoices }
  | .device => .ok { a with device := some value }
  | .midiPort => .ok { a with midiPort := some value }
  | .logLevel =>
    match filter? value with
    | some filter => .ok { a with logLevel := filter }
    | none => .error (.logLevel value)

def add (filter? : String → Option Log.Filter) (a : Arguments) (text : String) :
    Except ArgumentError Arguments :=
  match kindOf text with
  | .plain => .ok { a with plain := true }
  | .state => .ok { a with state := true }
  | .listDevices => .ok { a with listDevices := true }
  | .help => .ok { a with help := true }
  | .valued option value => a.setValue filter? value option
  | .unknown => .ok { a with unknown := a.unknown ++ [text] }
  | .instrument =>
    if a.instrument.isSome then .error (.secondInstrument text)
    else .ok { a with instrument := some text }

/-- Reads a command line without the name of the program. The first argument
that cannot be taken in decides the refusal. -/
def parse (arguments : List String)
    (filter? : String → Option Log.Filter := Log.Filter.ofName?) :
    Except ArgumentError Arguments :=
  arguments.foldlM (add filter?) {}

def settings (a : Arguments) : Settings :=
  { oversampling := a.oversampling
    preloadSize := a.preloadSize
    numVoices := a.numVoices }

end Arguments

end PolySampler
