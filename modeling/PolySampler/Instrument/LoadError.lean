import PolySampler.Envelope.Description

/-!
Why an instrument cannot be loaded, and how that is told to the user.
-/

namespace PolySampler

inductive RegionFault where
  | notMidi
  | emptyKeys (low high : Nat)
  | emptyVelocities (low high : Nat)
  | volume
  | envelope (fault : Envelope.Fault)

def RegionFault.message : RegionFault → String
  | .notMidi => "key, velocity and keycenter must be MIDI values"
  | .emptyKeys low high => s!"empty key range {low}..={high}"
  | .emptyVelocities low high => s!"empty velocity range {low}..={high}"
  | .volume => "volume must be finite"
  | .envelope fault => fault.message

inductive LoadError where
  | unreadable (path : String)
  | malformed
  | undecodable (path : String)
  | unsupported (extension : String)
  | invalidRegion (index : Nat) (fault : RegionFault)
  | noRegions

def LoadError.message : LoadError → String
  | .unreadable path => s!"could not read {path}"
  | .malformed => "invalid patch description"
  | .undecodable path => s!"could not decode {path}"
  | .unsupported ext => s!"unsupported instrument format '{ext}'"
  | .invalidRegion index fault => s!"region {index}: {fault.message}"
  | .noRegions => "the instrument has no regions"

end PolySampler
