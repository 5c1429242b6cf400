/-!
What the sampler reports about its own doings. Operations return their records
as data; a log keeps the newest lines of those that pass its level.
-/

namespace PolySampler.Log

/-- How grave a record is, the gravest first. -/
inductive Level where
  | error
  | warn
  | info
  | debug
  | trace
  deriving DecidableEq, Repr, Inhabited

def Level.name : Level → String
  | .error => "ERROR"
  | .warn => "WARN"
  | .info => "INFO"
  | .debug => "DEBUG"
  | .trace => "TRACE"

/-- How many levels are as grave or graver. -/
def Level.rank : Level → Nat
  | .error => 1
  | .warn => 2
  | .info => 3
  | .debug => 4
  | .trace => 5

/-- The least grave level that is let through; none lets nothing through. -/
abbrev Filter := Option Level

def Filter.passes (filter : Filter) (level : Level) : Bool :=
  match filter with
  | none => false
  | some least => level.rank ≤ least.rank

def Filter.name : Filter → String
  | none => "OFF"
  | some level => level.name

def Filter.ofName? (name : String) : Option Filter :=
  let upper := name.map fun c => if 'a' ≤ c ∧ c ≤ 'z' then Char.ofNat (c.toNat - 32) else c
  [none, some .error, some .warn, some .info, some .debug, some .trace].find?
    fun filter => Filter.name filter = upper

structure Record where
  level : Level
  message : String

def Record.line (r : Record) : String :=
  let name := r.level.name
  name ++ String.ofList (List.replicate (5 - name.length) ' ') ++ " " ++ r.message

def maxLines : Nat := 500

structure Lines where
  kept : List String := []

namespace Lines

def push (l : Lines) (line : String) : Lines :=
  { kept := (if l.kept.length = maxLines then l.kept.drop 1 else l.kept) ++ [line] }

def pushAll (l : Lines) (lines : List String) : Lines :=
  lines.foldl push l

def tail (l : Lines) (count : Nat) : List String :=
  l.kept.drop (l.kept.length - count)

def record (filter : Filter) (l : Lines) (records : List Record) : Lines :=
  l.pushAll ((records.filter fun r => filter.passes r.level).map Record.line)

end Lines

end PolySampler.Log
