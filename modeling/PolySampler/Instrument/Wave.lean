import PolySampler.Instrument.Sample

/-!
Wave files. A file is a sequence of chunks; the one named `fmt ` tells how the
samples in the one named `data` are written, and everything else is passed
over. Samples may be integers of 8 to 32 bits or 32-bit floating point.
-/

namespace PolySampler.Wave

def littleEndian? (bytes : ByteArray) (offset : Nat) : Nat → Option Nat
  | 0 => some 0
  | count + 1 => do
    let low ← bytes[offset]?
    let high ← littleEndian? bytes (offset + 1) count
    return low.toNat + 256 * high

def nameCode (name : String) : Nat :=
  name.toList.foldr (fun c value => c.toNat + 256 * value) 0

inductive Encoding where
  | integer
  | float
  deriving DecidableEq, Repr

structure Format where
  channels : Nat
  sampleRate : Nat
  /-- Bytes of one sample. -/
  width : Nat
  /-- Bits of one sample that count. -/
  bits : Nat
  encoding : Encoding

def integerKind : Nat := 0x719B3800AA0000800010000000000001

def floatKind : Nat := 0x719B3800AA0000800010000000000003

/-- Reads a format chunk of the given length whose body is at `offset`. Gives
the format and the number of bytes it took. -/
def readFormat? (bytes : ByteArray) (offset length : Nat) : Option (Format × Nat) := do
  if length < 16 then none
  let tag ← littleEndian? bytes offset 2
  let channels ← littleEndian? bytes (offset + 2) 2
  let sampleRate ← littleEndian? bytes (offset + 4) 4
  let byteRate ← littleEndian? bytes (offset + 8) 4
  let blockAlign ← littleEndian? bytes (offset + 12) 2
  let bits ← littleEndian? bytes (offset + 14) 2
  if channels = 0 then none
  let width := blockAlign / channels
  if 0x10000 ≤ width * 8 ∨ width * 8 < bits then none
  if 0x100000000 ≤ blockAlign * sampleRate ∨ byteRate ≠ blockAlign * sampleRate then none
  if bits = 0 ∨ bits % 8 ≠ 0 then none
  if tag = 1 then
    let format : Format := { channels, sampleRate, width, bits, encoding := .integer }
    if length = 16 then return (format, 16)
    if length ≠ 18 ∧ length ≠ 40 then none
    if 24 < bits then none
    let _ ← littleEndian? bytes (offset + 16) (length - 16)
    return (format, length)
  else if tag = 3 then
    if length ≠ 16 ∧ length ≠ 18 then none
    if length = 18 ∧ (← littleEndian? bytes (offset + 16) 2) ≠ 0 then none
    if bits ≠ 32 then none
    return ({ channels, sampleRate, width, bits, encoding := .float }, length)
  else if tag = 0xFFFE then
    if length < 40 then none
    if (← littleEndian? bytes (offset + 16) 2) ≠ 22 then none
    let validBits ← littleEndian? bytes (offset + 18) 2
    let kind ← littleEndian? bytes (offset + 24) 16
    let encoding ←
      if kind = integerKind then some Encoding.integer
      else if kind = floatKind then some Encoding.float
      else none
    let bits := if 0 < validBits then validBits else bits
    return ({ channels, sampleRate, width, bits, encoding }, 40)
  else none

/-- Passes over chunks until the data, keeping the last format seen. Gives the
format, the offset of the data and its length. -/
def findData? (bytes : ByteArray) : Nat → Nat → Option Format → Option (Format × Nat × Nat)
  | 0, _, _ => none
  | fuel + 1, offset, format => do
    let name ← littleEndian? bytes offset 4
    let length ← littleEndian? bytes (offset + 4) 4
    let body := offset + 8
    if name = nameCode "fmt " then
      let (format, taken) ← readFormat? bytes body length
      findData? bytes fuel (body + taken) (some format)
    else if name = nameCode "fact" then
      let _ ← littleEndian? bytes body 4
      findData? bytes fuel (body + 4) format
    else if name = nameCode "data" then
      return (← format, body, length)
    else if bytes.size < body + length then none
    else findData? bytes fuel (body + length) format

def signed (value bits : Nat) : Int :=
  let low := value % Nat.pow 2 bits
  if low < Nat.pow 2 (bits - 1) then low else (low : Int) - (Nat.pow 2 bits : Int)

/-- Reads one sample. Integers are scaled so that the full range of their bits
becomes the range from -1 to 1. -/
def readSample? (bytes : ByteArray) (format : Format) (offset : Nat) : Option Float32 := do
  match format.encoding with
  | .float =>
    if format.width = 4 ∧ format.bits = 32 then
      return Float32.ofBits (UInt32.ofNat (← littleEndian? bytes offset 4))
    else none
  | .integer =>
    let scale := 1 / Float32.ofNat (Nat.pow 2 (min 32 (max 1 format.bits) - 1))
    let scaled (value : Int) : Float32 := Float32.ofInt value * scale
    match format.width, format.bits with
    | 1, 8 => return scaled ((← littleEndian? bytes offset 1 : Nat) - 128)
    | 2, 16 => return scaled (signed (← littleEndian? bytes offset 2) 16)
    | 3, 24 => return scaled (signed (← littleEndian? bytes offset 3) 24)
    | 4, 24 => return scaled (signed (← littleEndian? bytes offset 4) 24)
    | 4, 32 => return scaled (signed (← littleEndian? bytes offset 4) 32)
    | _, _ => none

def readSamples? (bytes : ByteArray) (format : Format) :
    (count offset : Nat) → Array Float32 → Option (Array Float32)
  | 0, _, done => some done
  | n + 1, offset, done => do
    let sample ← readSample? bytes format offset
    readSamples? bytes format n (offset + format.width) (done.push sample)

/-- Decodes a file: its format and the samples as they are interleaved. -/
def decode? (bytes : ByteArray) : Option (Format × Array Float32) := do
  if (← littleEndian? bytes 0 4) ≠ nameCode "RIFF" then none
  if (← littleEndian? bytes 8 4) ≠ nameCode "WAVE" then none
  let (format, offset, length) ← findData? bytes (bytes.size + 1) 12 none
  let count := length / format.width
  if count * format.width ≠ length ∨ count % format.channels ≠ 0 then none
  let samples ← readSamples? bytes format count offset #[]
  return (format, samples)

/-- The most channels that are kept of a file. -/
def keptChannels : Nat := 2

def toSample (format : Format) (samples : Array Float32) : SampleData :=
  let width := max format.channels 1
  { channels := SampleData.deinterleave width (min width keptChannels) samples
    sampleRate := (UInt32.ofNat format.sampleRate).toFloat32 }

end PolySampler.Wave
