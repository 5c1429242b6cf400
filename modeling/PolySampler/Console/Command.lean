import PolySampler.Settings

/-!
The command language of the console: a keyword and its argument, separated by
white space. A part in double quotes is one token, so that paths may hold
spaces.
-/

namespace PolySampler.Console

inductive CommandError where
  | unknown (keyword : String)
  | missingArgument (command argument : String)
  | invalidArgument (command value : String)
  | unterminatedQuote
  deriving DecidableEq, Repr

def CommandError.message : CommandError → String
  | .unknown keyword => s!"Unknown command '{keyword}'!"
  | .missingArgument command argument => s!"'{command}' expects {argument}"
  | .invalidArgument command value => s!"'{command}': invalid value '{value}'"
  | .unterminatedQuote => "unterminated quote"

inductive Command where
  | loadInstrument (path : String)
  | unloadInstrument
  | setOversampling (oversampling : Oversampling)
  | setPreloadSize (frames : Nat)
  | setVoices (count : Nat)
  | gain (level : Float32)
  | settings
  | help
  | quit

def helpLines : List String :=
  ["load_instrument <file>",
    "unload_instrument",
    "set_oversampling <1|2|4|8>",
    "set_preload_size <frames>",
    "set_voices <count>",
    "gain <dB>",
    "settings",
    "help",
    "quit"]

def flushPart (part : List Char) (tokens : List (List Char)) : List (List Char) :=
  if part.isEmpty then tokens else part :: tokens

/-- Splits the rest of a line, `part` being what has been collected of the
present token and `quoted` whether a quote is open. A closing quote ends a
token, even an empty one; an opening quote does not. -/
def splitTokens : (quoted : Bool) → (part : List Char) → List Char →
    Except CommandError (List (List Char))
  | true, _, [] => .error .unterminatedQuote
  | false, part, [] => .ok (flushPart part [])
  | true, part, c :: rest =>
    if c = '"' then (splitTokens false [] rest).map (part :: ·)
    else splitTokens true (part ++ [c]) rest
  | false, part, c :: rest =>
    if c = '"' then splitTokens true part rest
    else if Text.isBlank c then (splitTokens false [] rest).map (flushPart part)
    else splitTokens false (part ++ [c]) rest

def tokenize (line : String) : Except CommandError (List String) :=
  (splitTokens false [] line.toList).map (·.map String.ofList)

def argument (arguments : List String) (command what : String) : Except CommandError String :=
  match arguments with
  | value :: _ => .ok value
  | [] => .error (.missingArgument command what)

def naturalArgument (limit : Nat) (command value : String) : Except CommandError Nat :=
  match Text.readNatural limit value.toList with
  | .ok number => .ok number
  | .error _ => .error (.invalidArgument command value)

namespace Command

/-- The command of a keyword and its arguments. Further arguments are of no
account. -/
def ofTokens (keyword : String) (arguments : List String) : Except CommandError Command :=
  match keyword with
  | "load_instrument" => do
    return .loadInstrument (← argument arguments keyword "a file")
  | "unload_instrument" => .ok .unloadInstrument
  | "set_oversampling" => do
    let value ← argument arguments keyword "a factor"
    match Oversampling.parse value with
    | .ok oversampling => return .setOversampling oversampling
    | .error _ => throw (.invalidArgument keyword value)
  | "set_preload_size" => do
    let value ← argument arguments keyword "a size"
    return .setPreloadSize (← naturalArgument Text.maxWord32 keyword value)
  | "set_voices" => do
    let value ← argument arguments keyword "a count"
    return .setVoices (← naturalArgument Text.maxWord64 keyword value)
  | "gain" => do
    let value ← argument arguments keyword "a value in dB"
    match Text.readSingle value.toList with
    | some level => return .gain level
    | none => throw (.invalidArgument keyword value)
  | "settings" => .ok .settings
  | "help" => .ok .help
  | "quit" | "exit" => .ok .quit
  | other => .error (.unknown other)

/-- Reads a line; a line without tokens is no command and no error. -/
def parse (line : String) : Except CommandError (Option Command) := do
  match ← tokenize line with
  | [] => return none
  | keyword :: arguments => return some (← ofTokens keyword arguments)

end Command

end PolySampler.Console
