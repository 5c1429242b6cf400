import PolySampler.Screen.Ring
import PolySampler.Signal.Spectrum

/-!
What the console hears of the output: the newest samples, and the spectrum of
them. The output hands over samples whenever it likes, also while the console
is taking those that wait.
-/

namespace PolySampler.Screen

def windowLength : Nat := 1024

/-- The console's end of a ring, and what has been heard through it. -/
structure Scope (ρ : Type) where
  ring : ρ
  /-- The newest samples that were taken from the ring. -/
  window : Array Float32 := Array.replicate windowLength 0
  spectrum : Signal.Spectrum

namespace Scope

variable {ρ : Type} [RingEnds ρ]

def new (ring : ρ) (sampleRate : Float32)
    (transform : Signal.Transform := Signal.Spectrum.coefficient) : Scope ρ :=
  { ring, spectrum := .new windowLength sampleRate transform }

def offerAll (s : Scope ρ) (samples : List Float32) : Scope ρ :=
  { s with ring := RingEnds.offerAll s.ring samples }

def feed (s : Scope ρ) (samples : List Float32) : Scope ρ :=
  { s with ring := RingEnds.feed s.ring samples }

def commit (s : Scope ρ) (count : Nat) : Scope ρ :=
  { s with ring := RingEnds.commit s.ring count }

/-- Puts two pieces behind the window, leaves out what is too old, and looks at
the window. -/
def hear (s : Scope ρ) (first second : Array Float32) : Scope ρ :=
  let heard := s.window ++ first ++ second
  let excess := heard.size - windowLength
  let window := heard.extract excess heard.size
  { s with window, spectrum := s.spectrum.update window }

/-- Takes the waiting samples and looks at the newest window, if any wait. Of
what the output hands over meanwhile, `early` comes before the samples are
read, and `late` before the console lets go of them. -/
def pollAmid (early late : List Float32) (s : Scope ρ) : Scope ρ :=
  let waiting := RingEnds.slots s.ring
  let s := s.offerAll early
  if waiting = 0 then s.offerAll late
  else
    match RingEnds.chunk? s.ring waiting with
    | some (first, second) => ((s.offerAll late).commit waiting).hear first second
    | none => (s.offerAll late).hear #[] #[]

def poll (s : Scope ρ) : Scope ρ :=
  s.pollAmid [] []

end Scope

end PolySampler.Screen
