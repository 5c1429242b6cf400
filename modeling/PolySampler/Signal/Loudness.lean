import PolySampler.Signal.Single

/-!
How loud a window of samples is.
-/

namespace PolySampler.Signal

/-- The greatest magnitude and the root of the mean square of some samples. -/
structure Loudness where
  peak : Float32 := 0
  rms : Float32 := 0

def Loudness.ofSamples (samples : Array Float32) : Loudness :=
  if samples.isEmpty then {}
  else
    { peak := samples.foldl (fun peak x => greatest peak x.abs) 0
      rms := (samples.foldl (fun sum x => sum + x * x) 0 / samples.size.toFloat32).sqrt }

end PolySampler.Signal
