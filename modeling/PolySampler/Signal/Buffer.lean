import PolySampler.InPlace

/-!
Owned storage for a fixed number of channels. Each channel lies in lanes of
eight samples, so its storage may run a little past its length; the samples
past the length are of no account and may be stale. Reserving storage can fail,
and a failed change of shape leaves every channel as it was.
-/

namespace PolySampler.Signal

def laneWidth : Nat := 8

def laneBytes : Nat := 32

def lanesFor (frames : Nat) : Nat :=
  (frames + (laneWidth - 1)) / laneWidth

/-- What may be reserved: so many lanes for a channel, given by its number, and
so many more voices. Each request is answered on its own. -/
structure Memory where
  lanes : (channel lanes : Nat) → Bool
  voices : (more : Nat) → Bool

/-- A machine grants every reservation that fits its address space. -/
def Memory.machine : Memory where
  lanes _ lanes := lanes * laneBytes < 0x8000000000000000
  voices _ := true

/-- Storage for so many frames of each channel was not granted. -/
structure AllocationError where
  frames : Nat
  deriving DecidableEq, Repr

def AllocationError.message (e : AllocationError) : String :=
  s!"could not allocate {e.frames} frames per channel"

structure Channel where
  storage : Array Float32 := #[]
  length : Nat := 0

namespace Channel

def lanes (c : Channel) : Nat :=
  c.storage.size / laneWidth

/-- The samples of the channel, without the padding behind them. -/
def samples (c : Channel) : Array Float32 :=
  c.storage.extract 0 c.length

/-- Whether storage for `frames` samples is there or is granted. -/
def canHold (c : Channel) (memory : Memory) (channel frames : Nat) : Bool :=
  lanesFor frames ≤ c.lanes || memory.lanes channel (lanesFor frames)

/-- Cuts the storage to `size` samples or extends it with silence. -/
def fitStorage (storage : Array Float32) (size : Nat) : Array Float32 :=
  if size ≤ storage.size then storage.extract 0 size
  else storage ++ Array.replicate (size - storage.size) 0

def silence : (count start : Nat) → Array Float32 → Array Float32
  | 0, _, storage => storage
  | n + 1, start, storage => silence n (start + 1) (storage.setIfInBounds start 0)

/-- Changes the length. Samples that come into view are silent, also where the
last lane held stale ones. -/
def setLength (c : Channel) (length : Nat) : Channel where
  storage :=
    silence (length - c.length) c.length (fitStorage c.storage (lanesFor length * laneWidth))
  length := length

def writeFrom (samples : Array Float32) : (count start : Nat) → Channel → Channel
  | 0, _, c => c
  | n + 1, start, c =>
    match samples[start]? with
    | some sample =>
      if start < c.length then
        writeFrom samples n (start + 1) { c with storage := c.storage.setIfInBounds start sample }
      else c
    | none => c

def set (c : Channel) (frame : Nat) (sample : Float32) : Channel :=
  if frame < c.length then { c with storage := c.storage.setIfInBounds frame sample } else c

def fill (c : Channel) (sample : Float32) : Channel :=
  writeFrom (Array.replicate c.length sample) c.length 0 c

def write (c : Channel) (samples : Array Float32) : Channel :=
  writeFrom samples samples.size 0 c

end Channel

/-- A buffer with room for `capacity` channels of one length. Slots from
`numChannels` on are empty. -/
structure AudioBuffer (capacity : Nat) where
  slots : Vector (Option Channel) capacity
  numChannels : Nat
  numFrames : Nat

namespace AudioBuffer

variable {capacity : Nat}

def empty : AudioBuffer capacity where
  slots := Vector.replicate capacity none
  numChannels := 0
  numFrames := 0

instance : Inhabited (AudioBuffer capacity) := ⟨empty⟩

/-- Appends a silent channel, unless the buffer is full or the storage is not
granted. Tells whether it did. -/
def addChannel (memory : Memory) (b : AudioBuffer capacity) : Bool × AudioBuffer capacity :=
  if capacity ≤ b.numChannels then (false, b)
  else if ({} : Channel).canHold memory b.numChannels b.numFrames then
    (true, { b with
      slots := b.slots.setIfInBounds b.numChannels (some (({} : Channel).setLength b.numFrames))
      numChannels := b.numChannels + 1 })
  else (false, b)

def addChannels (memory : Memory) : Nat → AudioBuffer capacity → AudioBuffer capacity
  | 0, b => b
  | n + 1, b => addChannels memory n (b.addChannel memory).2

/-- A buffer of silent channels; requests beyond the capacity are cut down. -/
def ofShape (memory : Memory) (channels frames : Nat) : AudioBuffer capacity :=
  addChannels memory (min channels capacity) { (empty : AudioBuffer capacity) with
    numFrames := frames }

/-- Whether a channel, if there is one, can be given the new length. -/
def canHold (memory : Memory) (b : AudioBuffer capacity) (frames index : Nat) : Bool :=
  match b.slots[index]? with
  | some (some channel) => channel.canHold memory index frames
  | _ => true

def canResize (memory : Memory) (b : AudioBuffer capacity) (frames : Nat) : Bool :=
  (List.range capacity).all (b.canHold memory frames)

/-- Changes the length of every channel, or of none if storage for one of them
is not granted. -/
def resize (memory : Memory) (b : AudioBuffer capacity) (frames : Nat) :
    Except AllocationError (AudioBuffer capacity) :=
  if b.canResize memory frames then
    .ok { b with
      slots := b.slots.map fun slot => slot.map fun channel => channel.setLength frames
      numFrames := frames }
  else .error { frames }

/-- Reserves storage for the channels one after the other, up to the first that it
is not granted for. Storage that is reserved and not used does not show. -/
def reserve (memory : Memory) (frames : Nat) :
    List Nat → InPlace AllocationError (AudioBuffer capacity) Unit
  | [] => pure ()
  | index :: rest => do
    let b ← get
    if b.canHold memory frames index then reserve memory frames rest else throw { frames }

/-- Resizes in place: first the storage of every channel, then the lengths. -/
def changeLength (memory : Memory) (frames : Nat) :
    InPlace AllocationError (AudioBuffer capacity) Unit := do
  reserve memory frames (List.range capacity)
  modify fun b => { b with
    slots := b.slots.map fun slot => slot.map fun channel => channel.setLength frames }
  modify fun b => { b with numFrames := frames }

/-- The samples of a channel; none for an empty slot. -/
def samples (b : AudioBuffer capacity) (channel : Nat) : Array Float32 :=
  match b.slots[channel]? with
  | some (some c) => c.samples
  | _ => #[]

def sample (b : AudioBuffer capacity) (channel frame : Nat) : Float32 :=
  (b.samples channel)[frame]?.getD 0

def modifyChannel (b : AudioBuffer capacity) (channel : Nat) (f : Channel → Channel) :
    AudioBuffer capacity :=
  match b.slots[channel]? with
  | some slot => { b with slots := b.slots.setIfInBounds channel (slot.map f) }
  | none => b

def set (b : AudioBuffer capacity) (channel frame : Nat) (sample : Float32) :
    AudioBuffer capacity :=
  b.modifyChannel channel fun c => c.set frame sample

def fill (b : AudioBuffer capacity) (channel : Nat) (sample : Float32) : AudioBuffer capacity :=
  b.modifyChannel channel fun c => c.fill sample

def write (b : AudioBuffer capacity) (channel : Nat) (samples : Array Float32) :
    AudioBuffer capacity :=
  b.modifyChannel channel fun c => c.write samples

def fillAll (b : AudioBuffer capacity) (sample : Float32) : AudioBuffer capacity :=
  { b with slots := b.slots.map fun slot => slot.map fun channel => channel.fill sample }

def clear (b : AudioBuffer capacity) : AudioBuffer capacity :=
  b.fillAll 0

def isEmpty (b : AudioBuffer capacity) : Bool :=
  b.numFrames = 0

end AudioBuffer

end PolySampler.Signal
