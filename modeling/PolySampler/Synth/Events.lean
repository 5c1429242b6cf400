import PolySampler.Midi.Dispatch
import PolySampler.Synth.Basic

/-!
What events do to the synth. Notes start and release voices at their frame;
controllers move at once, and those that the sound depends on are scheduled for
their frame as well.
-/

namespace PolySampler.Synth

/-- Lets a change take effect at its frame of the coming block, or at once if
too many are pending. -/
def schedule (s : Synth) (delay : UInt32) (change : Change) : Synth :=
  if s.pending.length < maxPending then
    { s with pending := insertPending delay change s.pending }
  else { s with performance := s.performance.apply change }

/-- The voices that satisfy a condition, with their indices, the oldest of them
first met: the index and age of the best so far are carried along. -/
def oldestFrom (p : Voice → Bool) :
    (index : Nat) → (best : Option (Nat × Nat)) → List Voice → Option (Nat × Nat)
  | _, best, [] => best
  | index, best, v :: rest =>
    let best :=
      if p v then
        match best with
        | some (i, age) => if v.age < age then some (index, v.age) else some (i, age)
        | none => some (index, v.age)
      else best
    oldestFrom p (index + 1) best rest

/-- The index of the oldest voice that satisfies a condition, the first of them
if several are as old. -/
def oldest? (p : Voice → Bool) (voices : List Voice) : Option Nat :=
  (oldestFrom p 0 none voices).map (·.1)

/-- The voice to be taken for a new note: a free one, else the oldest that is
releasing, else the oldest of all. -/
def allocate? (voices : List Voice) : Option Nat :=
  match voices.findIdx? Voice.isFree with
  | some index => some index
  | none =>
    (oldest? (fun v => v.state = .releasing) voices).or (oldest? (fun _ => true) voices)

/-- Starts one region of a note in the voice that is taken for it. -/
def startRegion (regions : Array Region) (key velocity : UInt8) (delay : UInt32) (age : Nat)
    (voices : List Voice) (index : Nat) : List Voice :=
  match regions[index]?, allocate? voices with
  | some region, some slot =>
    voices.modify slot fun v => v.start index region key velocity delay age
  | _, _ => voices

/-- A key goes down: every region that answers to it starts, in order. -/
def noteOn (delay : UInt32) (key velocity : UInt8) (s : Synth) : Synth :=
  match s.instrument with
  | none => s
  | some instrument =>
    let age := s.frameCounter + delay.toNat
    { s with
      voices := (instrument.regionsFor key velocity).foldl
        (startRegion instrument.regions key velocity delay age) s.voices }

def updateVoices (s : Synth) (p : Voice → Bool) (f : Voice → Voice) : Synth :=
  { s with voices := s.voices.map fun v => if p v then f v else v }

/-- A key comes up: its voices are released, or held while the sustain pedal is
down. -/
def noteOff (delay : UInt32) (key _velocity : UInt8) (s : Synth) : Synth :=
  let pedal := s.controllers.sustainDown
  s.updateVoices (fun v => v.state = .active && v.note = key) fun v =>
    if pedal then v.hold else v.release delay

def releaseSustained (delay : UInt32) (s : Synth) : Synth :=
  s.updateVoices Voice.sustained fun v => v.release delay

def silenceAll (s : Synth) : Synth :=
  s.updateVoices (fun _ => true) Voice.free

def releaseAll (delay : UInt32) (s : Synth) : Synth :=
  s.updateVoices (fun _ => true) fun v => v.release delay

/-- Brings every controller back to rest. Lifting the pedal this way releases
what it held. -/
def reset (delay : UInt32) (s : Synth) : Synth :=
  -- the pedal as it stood: the next line lifts it
  let pedal := s.controllers.sustainDown
  let s := { s with controllers := .initial }
  let s := if pedal then s.releaseSustained delay else s
  ((s.schedule delay (.volume 127)).schedule delay (.expression 127)).schedule delay
    (.pitchBend 0)

def controlChange (delay : UInt32) (controller value : UInt8) (s : Synth) : Synth :=
  -- every value is kept, also of controllers that do nothing else
  let controller := controller &&& 0x7F
  let s := { s with controllers := s.controllers.setValue controller value }
  if controller = volumeController then s.schedule delay (.volume value)
  else if controller = expressionController then s.schedule delay (.expression value)
  else if controller = sustainController then
    if value < 64 then s.releaseSustained delay else s
  else if controller = allSoundOff then s.silenceAll
  else if controller = resetControllers then s.reset delay
  else if controller = allNotesOff then s.releaseAll delay
  else s

def pitchWheel (delay : UInt32) (value : Int) (s : Synth) : Synth :=
  ({ s with controllers := { s.controllers with pitchBend := value } } : Synth).schedule delay
    (.pitchBend value)

def polyAftertouch (_delay : UInt32) (key value : UInt8) (s : Synth) : Synth :=
  { s with controllers := s.controllers.setPressure key value }

def channelAftertouch (_delay : UInt32) (value : UInt8) (s : Synth) : Synth :=
  { s with controllers := { s.controllers with channelPressure := value } }

instance : Midi.EventSink Synth where
  noteOn := noteOn
  noteOff := noteOff
  polyAftertouch := polyAftertouch
  channelAftertouch := channelAftertouch
  controlChange := controlChange
  pitchWheel := pitchWheel

end PolySampler.Synth
