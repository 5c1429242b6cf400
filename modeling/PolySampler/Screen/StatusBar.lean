import PolySampler.Screen.Row
import PolySampler.Settings
import PolySampler.Signal.Loudness

/-!
The status bar: the instrument, how many voices sound, the settings, the level
of the output, and the device.
-/

namespace PolySampler.Screen

structure Status where
  settings : Settings
  instrument : Option String
  device : String
  activeVoices : Nat := 0
  silencedBlocks : Nat := 0

/-- The colour of the voice count: red when the pool is used up, green while
anything sounds. -/
def Status.voiceColor (s : Status) : Color :=
  if s.settings.numVoices ≤ s.activeVoices then .red
  else if 0 < s.activeVoices then .green
  else .darkGray

def Status.spans (s : Status) (loudness : Signal.Loudness) : List Span :=
  let instrument := s.instrument.getD "no instrument"
  let rate := Decimal.fixed 1 (s.settings.sampleRate / 1000)
  let silencedColor : Color := if 0 < s.silencedBlocks then .yellow else .darkGray
  [⟨s!" {instrument}  ", .cyan⟩,
    ⟨s!"Voices {s.activeVoices}/{s.settings.numVoices}  ", s.voiceColor⟩,
    ⟨s!"{rate}kHz  {s.settings.samplesPerBlock} frames  {s.settings.oversampling.label}  ",
      .darkGray⟩,
    ⟨s!"Gain {Decimal.fixedSigned 1 s.settings.volume} dB  ", .white⟩,
    ⟨s!"Peak: {Decimal.fixed 2 loudness.peak}  RMS: {Decimal.fixed 2 loudness.rms}  ",
      .magenta⟩,
    ⟨s!"Silenced: {s.silencedBlocks}  ", silencedColor⟩,
    ⟨s.device, .darkGray⟩]

def Status.row (width : Nat) (s : Status) (loudness : Signal.Loudness) : Row :=
  textRow (width - 2) (s.spans loudness)

def statusTitle : String := " saavy-sampler "

def Status.bar (width : Nat) (s : Status) (loudness : Signal.Loudness) : List Row :=
  panel width statusTitle [s.row width loudness]

end PolySampler.Screen
