/-!
# Samples

A tone is made of single-precision numbers from -1 up to but not including 1; a sound device
takes them as integers of some width or as floating-point numbers. The magnitude of a sample
is counted in units of 2 ^ -149, the smallest step there is, so every conversion is exact
arithmetic on natural numbers.
-/

namespace Chip8

/-- A single-precision number by its bits: a sign, eight bits of exponent and a fraction. -/
structure Sample where
  bits : UInt32
  deriving DecidableEq

namespace Sample

/-- Whether the sign bit is set. -/
def isNegative (sample : Sample) : Bool := sample.bits.toNat.testBit 31

/-- The exponent field. -/
def exponent (sample : Sample) : Nat := (sample.bits.toNat >>> 23) % 256

/-- The fraction field. -/
def fraction (sample : Sample) : Nat := sample.bits.toNat % 8388608

/-- The distance from zero in units of 2 ^ -149; an exponent field of zero means that the
leading one of the fraction is missing. -/
def magnitude (sample : Sample) : Nat :=
  if sample.exponent = 0 then sample.fraction
  else (8388608 + sample.fraction) <<< (sample.exponent - 1)

/-- Whether the bits stand for no number at all. -/
def isNaN (sample : Sample) : Bool :=
  sample.exponent == 255 && sample.fraction != 0

/-- The sample times 2 ^ (`width` - 1), without its fraction and within a signed integer of
`width` bits. -/
def toSigned (width : Nat) (sample : Sample) : Int :=
  let scaled := (sample.magnitude <<< (width - 1)) >>> 149
  let half := 1 <<< (width - 1)
  if sample.isNaN then 0
  else if sample.isNegative then -(min scaled half : Nat)
  else (min scaled (half - 1) : Nat)

/-- The sample as an integer without a sign: half the range stands for zero. -/
def toUnsigned (width : Nat) (sample : Sample) : Int :=
  sample.toSigned width + (1 <<< (width - 1) : Nat)

/-- The bits of the double-precision number of the same value. -/
def toDouble (sample : Sample) : Nat :=
  let sign := if sample.isNegative then 1 <<< 63 else 0
  if sample.exponent = 255 then
    sign + (2047 <<< 52) + (sample.fraction <<< 29)
  else if sample.magnitude = 0 then
    sign
  else
    let leading := sample.magnitude.log2
    sign + ((leading + 874) <<< 52) + ((sample.magnitude <<< 52) >>> leading - (1 <<< 52))

end Sample

/-- The forms in which a sound device takes samples. -/
inductive SampleFormat
  /-- Integers with a sign, of so many bits. -/
  | signed (width : Nat)
  /-- Integers without a sign, of so many bits. -/
  | unsigned (width : Nat)
  | single
  | double
  deriving DecidableEq

/-- A sample in the form that a device takes, floating-point numbers by their bits. -/
def SampleFormat.convert (format : SampleFormat) (sample : Sample) : Int :=
  match format with
  | signed width => sample.toSigned width
  | unsigned width => sample.toUnsigned width
  | single => sample.bits.toNat
  | double => sample.toDouble

end Chip8
