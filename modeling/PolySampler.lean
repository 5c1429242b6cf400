import PolySampler.Gate.Interleaving
import PolySampler.Main
import PolySampler.Proofs.Envelope.Timeline
import PolySampler.Proofs.Synth.Agreement
import PolySampler.Proofs.Synth.Causality
import PolySampler.Proofs.Synth.Cutting
import PolySampler.Proofs.Synth.Keys
import PolySampler.Proofs.Synth.Regions
import PolySampler.Proofs.Synth.Schedule
import PolySampler.Screen.Desk
import PolySampler.Proofs.Gate.Steps
import PolySampler.Proofs.Gate.Exclusion
import PolySampler.Proofs.Gate.Linear
import PolySampler.Synth.InPlace
import PolySampler.Proofs.Engine.Refusal
import PolySampler.Proofs.Synth.Configured
import PolySampler.Proofs.Midi.Dispatch
import PolySampler.Proofs.Engine.Blocks
import PolySampler.Proofs.Signal.Tracks
import PolySampler.Proofs.Engine.Queued
import PolySampler.Proofs.Console.Input
import PolySampler.Proofs.Console.Script
import PolySampler.Proofs.Voice.Reuse
import PolySampler.Proofs.Synth.Allocation
import PolySampler.Proofs.Synth.Layers
import PolySampler.Proofs.Synth.Coverage
import PolySampler.Proofs.Envelope.AttackFirst
import PolySampler.Proofs.Envelope.Segments
import PolySampler.Proofs.Midi.Decoding
import PolySampler.Proofs.Midi.Delivery
import PolySampler.Proofs.Console.Quoting
import PolySampler.Proofs.Arguments.Parsing
import PolySampler.Proofs.Instrument.Build
import PolySampler.Proofs.Screen.Scope
import PolySampler.Proofs.Instrument.Channels
