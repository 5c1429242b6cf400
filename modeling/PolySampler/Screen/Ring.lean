/-!
The ring that carries samples from the output to the console. It has a fixed
number of places, which are used in turn. The samples that wait may go around
the end of the ring, so they are read in two pieces.
-/

namespace PolySampler.Screen

/-- What the output and the console do with a ring, each at its end. -/
class RingEnds (ρ : Type) where
  /-- Puts a sample behind those that wait. A full ring takes none. -/
  push? : ρ → Float32 → Option ρ
  /-- How many samples wait. -/
  slots : ρ → Nat
  /-- The given number of the oldest samples in two pieces, the second from the
  start of the ring, unless there are fewer. -/
  chunk? : ρ → Nat → Option (Array Float32 × Array Float32)
  /-- Lets go of the given number of the oldest samples. -/
  commit : ρ → Nat → ρ

namespace RingEnds

variable {ρ : Type} [RingEnds ρ]

def offer (ring : ρ) (sample : Float32) : ρ :=
  (push? ring sample).getD ring

def offerAll (ring : ρ) (samples : List Float32) : ρ :=
  samples.foldl offer ring

/-- Hands over samples until there is no room for one. The others are lost. -/
def feed (ring : ρ) : List Float32 → ρ
  | [] => ring
  | sample :: rest =>
    match push? ring sample with
    | some ring => feed ring rest
    | none => ring

end RingEnds

structure Ring where
  places : Array Float32
  /-- The place of the oldest sample. -/
  first : Nat := 0
  /-- How many samples wait. -/
  count : Nat := 0
  first_lt : first < places.size
  count_le : count ≤ places.size

namespace Ring

def new (capacity : Nat) (h : 0 < capacity) : Ring where
  places := Array.replicate capacity 0
  first_lt := by rwa [Array.size_replicate]
  count_le := Nat.zero_le _

def place (r : Ring) (offset : Nat) : Nat :=
  (r.first + offset) % r.places.size

theorem place_lt (r : Ring) (offset : Nat) : r.place offset < r.places.size :=
  Nat.mod_lt _ (Nat.zero_lt_of_lt r.first_lt)

def push? (r : Ring) (sample : Float32) : Option Ring :=
  if h : r.count < r.places.size then
    some {
      places := r.places.set (r.place r.count) sample (r.place_lt r.count)
      first := r.first
      count := r.count + 1
      first_lt := by rw [Array.size_set]; exact r.first_lt
      count_le := by rw [Array.size_set]; exact h }
  else none

def chunk? (r : Ring) (count : Nat) : Option (Array Float32 × Array Float32) :=
  if count ≤ r.count then
    let stop := r.first + count
    some (r.places.extract r.first stop, r.places.extract 0 (stop - r.places.size))
  else none

def commit (r : Ring) (count : Nat) : Ring where
  places := r.places
  first := r.place count
  count := r.count - count
  first_lt := r.place_lt count
  count_le := Nat.le_trans (Nat.sub_le _ _) r.count_le

end Ring

instance : RingEnds Ring where
  push? := Ring.push?
  slots := Ring.count
  chunk? := Ring.chunk?
  commit := Ring.commit

end PolySampler.Screen
