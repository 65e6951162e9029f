/-!
# The 64-bit xxHash

The hash reads its input in stripes of thirty-two bytes that feed four
accumulators, then takes what is left in words of eight bytes, one word of four
bytes and single bytes, and finally mixes the bits of the result so that every
input bit reaches every output bit.  All arithmetic is modulo 2 ^ 64, and words
are read with their least significant byte first.
-/

namespace ScriptObjects.Hash

set_option autoImplicit false

namespace Xxh64

def prime1 : UInt64 := 0x9E3779B185EBCA87
def prime2 : UInt64 := 0xC2B2AE3D27D4EB4F
def prime3 : UInt64 := 0x165667B19E3779F9
def prime4 : UInt64 := 0x85EBCA77C2B2AE63
def prime5 : UInt64 := 0x27D4EB2F165667C5

/-- The word turned left by a number of bits between one and sixty-three. -/
def rotateLeft (word : UInt64) (bits : UInt64) : UInt64 :=
  (word <<< bits) ||| (word >>> (64 - bits))

/-- The number whose base-256 digits, least significant first, are the bytes. -/
def littleEndian : List UInt8 → UInt64
  | [] => 0
  | byte :: rest => byte.toUInt64 + (littleEndian rest <<< 8)

/-- One word taken into an accumulator. -/
def absorb (accumulator word : UInt64) : UInt64 :=
  rotateLeft (accumulator + word * prime2) 31 * prime1

/-- The four accumulators fed by whole stripes. -/
structure Lanes where
  first : UInt64
  second : UInt64
  third : UInt64
  fourth : UInt64

/-- The accumulators before any stripe. -/
def Lanes.initial (seed : UInt64) : Lanes :=
  ⟨seed + prime1 + prime2, seed + prime2, seed, seed - prime1⟩

/-- The accumulators after one stripe, the first thirty-two bytes of the input. -/
def Lanes.absorb (lanes : Lanes) (bytes : List UInt8) : Lanes :=
  ⟨Xxh64.absorb lanes.first (littleEndian (bytes.take 8)),
   Xxh64.absorb lanes.second (littleEndian ((bytes.drop 8).take 8)),
   Xxh64.absorb lanes.third (littleEndian ((bytes.drop 16).take 8)),
   Xxh64.absorb lanes.fourth (littleEndian ((bytes.drop 24).take 8))⟩

/-- The four accumulators joined into one. -/
def Lanes.merge (lanes : Lanes) : UInt64 :=
  let join (total lane : UInt64) := (total ^^^ Xxh64.absorb 0 lane) * prime1 + prime4
  let total := rotateLeft lanes.first 1 + rotateLeft lanes.second 7
    + rotateLeft lanes.third 12 + rotateLeft lanes.fourth 18
  join (join (join (join total lanes.first) lanes.second) lanes.third) lanes.fourth

/-- All whole stripes taken in, and the fewer than thirty-two bytes that remain. -/
def stripes (lanes : Lanes) (bytes : List UInt8) : Lanes × List UInt8 :=
  if 32 ≤ bytes.length then stripes (lanes.absorb bytes) (bytes.drop 32) else (lanes, bytes)
termination_by bytes.length

/-- The remaining words of eight bytes, and the fewer than eight bytes after them. -/
def longWords (total : UInt64) (bytes : List UInt8) : UInt64 × List UInt8 :=
  if 8 ≤ bytes.length then
    let mixed := total ^^^ absorb 0 (littleEndian (bytes.take 8))
    longWords (rotateLeft mixed 27 * prime1 + prime4) (bytes.drop 8)
  else (total, bytes)
termination_by bytes.length

/-- The word of four bytes that may remain, and the fewer than four bytes after it. -/
def shortWord (total : UInt64) (bytes : List UInt8) : UInt64 × List UInt8 :=
  if 4 ≤ bytes.length then
    let mixed := total ^^^ (littleEndian (bytes.take 4) * prime1)
    (rotateLeft mixed 23 * prime2 + prime3, bytes.drop 4)
  else (total, bytes)

/-- The single bytes at the end. -/
def lastBytes (total : UInt64) (bytes : List UInt8) : UInt64 :=
  bytes.foldl (fun total byte => rotateLeft (total ^^^ (byte.toUInt64 * prime5)) 11 * prime1) total

/-- The final mixing of the bits. -/
def avalanche (total : UInt64) : UInt64 :=
  let total := (total ^^^ (total >>> 33)) * prime2
  let total := (total ^^^ (total >>> 29)) * prime3
  total ^^^ (total >>> 32)

end Xxh64

open Xxh64 in
/-- The hash of a sequence of bytes under a seed. -/
def xxh64 (bytes : List UInt8) (seed : UInt64) : UInt64 :=
  let (start, rest) :=
    if 32 ≤ bytes.length then
      let (lanes, rest) := stripes (Lanes.initial seed) bytes
      (lanes.merge, rest)
    else (seed + prime5, bytes)
  let (total, rest) := longWords (start + bytes.length.toUInt64) rest
  let (total, rest) := shortWord total rest
  avalanche (lastBytes total rest)

end ScriptObjects.Hash
