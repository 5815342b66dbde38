/-!
# XXH3, 64 bits

The hash with seed 0 and the default secret. Inputs of up to 16, 128 and 240 bytes each have a
rule of their own; longer ones are taken in stripes of 64 bytes into eight lanes, which are
scrambled after every sixteen stripes.
-/
namespace Keyset.Hash

namespace Xxh3

def secret : ByteArray := ⟨#[
  0xb8, 0xfe, 0x6c, 0x39, 0x23, 0xa4, 0x4b, 0xbe, 0x7c, 0x01, 0x81, 0x2c, 0xf7, 0x21, 0xad, 0x1c,
  0xde, 0xd4, 0x6d, 0xe9, 0x83, 0x90, 0x97, 0xdb, 0x72, 0x40, 0xa4, 0xa4, 0xb7, 0xb3, 0x67, 0x1f,
  0xcb, 0x79, 0xe6, 0x4e, 0xcc, 0xc0, 0xe5, 0x78, 0x82, 0x5a, 0xd0, 0x7d, 0xcc, 0xff, 0x72, 0x21,
  0xb8, 0x08, 0x46, 0x74, 0xf7, 0x43, 0x24, 0x8e, 0xe0, 0x35, 0x90, 0xe6, 0x81, 0x3a, 0x26, 0x4c,
  0x3c, 0x28, 0x52, 0xbb, 0x91, 0xc3, 0x00, 0xcb, 0x88, 0xd0, 0x65, 0x8b, 0x1b, 0x53, 0x2e, 0xa3,
  0x71, 0x64, 0x48, 0x97, 0xa2, 0x0d, 0xf9, 0x4e, 0x38, 0x19, 0xef, 0x46, 0xa9, 0xde, 0xac, 0xd8,
  0xa8, 0xfa, 0x76, 0x3f, 0xe3, 0x9c, 0x34, 0x3f, 0xf9, 0xdc, 0xbb, 0xc7, 0xc7, 0x0b, 0x4f, 0x1d,
  0x8a, 0x51, 0xe0, 0x4b, 0xcd, 0xb4, 0x59, 0x31, 0xc8, 0x9f, 0x7e, 0xc9, 0xd9, 0x78, 0x73, 0x64,
  0xea, 0xc5, 0xac, 0x83, 0x34, 0xd3, 0xeb, 0xc3, 0xc5, 0x81, 0xa0, 0xff, 0xfa, 0x13, 0x63, 0xeb,
  0x17, 0x0d, 0xdd, 0x51, 0xb7, 0xf0, 0xda, 0x49, 0xd3, 0x16, 0x55, 0x26, 0x29, 0xd4, 0x68, 0x9e,
  0x2b, 0x16, 0xbe, 0x58, 0x7d, 0x47, 0xa1, 0xfc, 0x8f, 0xf8, 0xb8, 0xd1, 0x7a, 0xd0, 0x31, 0xce,
  0x45, 0xcb, 0x3a, 0x8f, 0x95, 0x16, 0x04, 0x28, 0xaf, 0xd7, 0xfb, 0xca, 0xbb, 0x4b, 0x40, 0x7e]⟩

def prime32₁ : UInt64 := 0x9E3779B1
def prime32₂ : UInt64 := 0x85EBCA77
def prime32₃ : UInt64 := 0xC2B2AE3D
def prime64₁ : UInt64 := 0x9E3779B185EBCA87
def prime64₂ : UInt64 := 0xC2B2AE3D27D4EB4F
def prime64₃ : UInt64 := 0x165667B19E3779F9
def prime64₄ : UInt64 := 0x85EBCA77C2B2AE63
def prime64₅ : UInt64 := 0x27D4EB2F165667C5
def primeMix₁ : UInt64 := 0x165667919E3779F9
def primeMix₂ : UInt64 := 0x9FB21C651E98DF25

/-- A byte, or zero beyond the end. -/
def byte (b : ByteArray) (i : Nat) : UInt64 := ((b.data[i]?).getD 0).toUInt64

/-- The number in `count` bytes, least significant first. -/
def littleEndian (b : ByteArray) : Nat → Nat → UInt64
  | 0, _ => 0
  | count + 1, i => byte b i ||| (littleEndian b count (i + 1) <<< 8)

def read32 (b : ByteArray) (i : Nat) : UInt64 := littleEndian b 4 i
def read64 (b : ByteArray) (i : Nat) : UInt64 := littleEndian b 8 i

/-- The two halves of the full product, added without carry. -/
def foldProduct (a b : UInt64) : UInt64 :=
  let p := a.toNat * b.toNat
  UInt64.ofNat p ^^^ UInt64.ofNat (p / UInt64.size)

def rotate (h : UInt64) (n : UInt64) : UInt64 := (h <<< n) ||| (h >>> (64 - n))

def swapBytes (h : UInt64) : UInt64 :=
  (List.range 8).foldl (fun acc i => (acc <<< 8) ||| ((h >>> (8 * UInt64.ofNat i)) &&& 0xFF)) 0

/-- The final mixing of inputs of up to three bytes. -/
def finishShort (h : UInt64) : UInt64 :=
  let h := (h ^^^ (h >>> 33)) * prime64₂
  let h := (h ^^^ (h >>> 29)) * prime64₃
  h ^^^ (h >>> 32)

/-- The final mixing of inputs of more than eight bytes. -/
def finish (h : UInt64) : UInt64 :=
  let h := (h ^^^ (h >>> 37)) * primeMix₁
  h ^^^ (h >>> 32)

/-- The final mixing of inputs of four to eight bytes. -/
def finishMiddle (h size : UInt64) : UInt64 :=
  let h := (h ^^^ rotate h 49 ^^^ rotate h 24) * primeMix₂
  let h := (h ^^^ ((h >>> 35) + size)) * primeMix₂
  h ^^^ (h >>> 28)

def upTo16 (b : ByteArray) : UInt64 :=
  let size := UInt64.ofNat b.size
  if 8 < b.size then
    let low := read64 b 0 ^^^ read64 secret 24 ^^^ read64 secret 32
    let high := read64 b (b.size - 8) ^^^ read64 secret 40 ^^^ read64 secret 48
    finish (size + swapBytes low + high + foldProduct low high)
  else if 4 ≤ b.size then
    let ends := read32 b (b.size - 4) + (read32 b 0 <<< 32)
    finishMiddle (ends ^^^ read64 secret 8 ^^^ read64 secret 16) size
  else if 0 < b.size then
    let ends := (byte b 0 <<< 16) ||| (byte b (b.size / 2) <<< 24) ||| byte b (b.size - 1) |||
      (size <<< 8)
    finishShort (ends ^^^ read32 secret 0 ^^^ read32 secret 4)
  else finishShort (read64 secret 56 ^^^ read64 secret 64)

/-- Sixteen bytes mixed with sixteen of the secret. -/
def mix16 (b : ByteArray) (i key : Nat) : UInt64 :=
  foldProduct (read64 b i ^^^ read64 secret key) (read64 b (i + 8) ^^^ read64 secret (key + 8))

/-- Pairs of chunks from both ends towards the middle. -/
def upTo128 (b : ByteArray) : UInt64 :=
  let pair (n : Nat) := mix16 b (16 * n) (32 * n) + mix16 b (b.size - 16 * (n + 1)) (32 * n + 16)
  finish ((List.range ((b.size - 1) / 32 + 1)).foldl (fun acc n => acc + pair n)
    (UInt64.ofNat b.size * prime64₁))

/-- Eight chunks, the other whole chunks, and the last sixteen bytes. -/
def upTo240 (b : ByteArray) : UInt64 :=
  let start := (List.range 8).foldl (fun acc n => acc + mix16 b (16 * n) (16 * n))
    (UInt64.ofNat b.size * prime64₁)
  let more := (List.range (b.size / 16 - 8)).foldl
    (fun acc n => acc + mix16 b (16 * (n + 8)) (16 * n + 3)) (finish start)
  finish (more + mix16 b (b.size - 16) 119)

abbrev Lanes := Vector UInt64 8

def firstLanes : Lanes := #v[prime32₃, prime64₁, prime64₂, prime64₃, prime64₄, prime32₂,
  prime64₅, prime32₁]

/-- Takes 64 bytes in. A lane gets its neighbour's bytes as they are and its own multiplied. -/
def accumulate (b : ByteArray) (i key : Nat) (lanes : Lanes) : Lanes :=
  lanes.mapIdx fun (n : Nat) (lane : UInt64) =>
    let neighbour := if n % 2 = 0 then n + 1 else n - 1
    let keyed := read64 b (i + 8 * n) ^^^ read64 secret (key + 8 * n)
    lane + read64 b (i + 8 * neighbour) + (keyed &&& (0xFFFFFFFF : UInt64)) * (keyed >>> 32)

def scramble (lanes : Lanes) : Lanes :=
  lanes.mapIdx fun (n : Nat) (lane : UInt64) =>
    (lane ^^^ (lane >>> 47) ^^^ read64 secret (128 + 8 * n)) * prime32₁

/-- Takes stripes in, from byte `i` on. -/
def stripes (b : ByteArray) (i count : Nat) (lanes : Lanes) : Lanes :=
  (List.range count).foldl (fun lanes n => accumulate b (i + 64 * n) (8 * n) lanes) lanes

def long (b : ByteArray) : UInt64 :=
  let blocks := (b.size - 1) / 1024
  let lanes := (List.range blocks).foldl
    (fun lanes n => scramble (stripes b (1024 * n) 16 lanes)) firstLanes
  let lanes := stripes b (1024 * blocks) ((b.size - 1 - 1024 * blocks) / 64) lanes
  let lanes := accumulate b (b.size - 64) 121 lanes
  finish ((List.range 4).foldl
    (fun acc n => acc + foldProduct
      ((lanes[2 * n]?).getD 0 ^^^ read64 secret (11 + 16 * n))
      ((lanes[2 * n + 1]?).getD 0 ^^^ read64 secret (19 + 16 * n)))
    (UInt64.ofNat b.size * prime64₁))

end Xxh3

/-- XXH3 of the bytes. -/
def xxh3 (b : ByteArray) : UInt64 :=
  if b.size ≤ 16 then Xxh3.upTo16 b
  else if b.size ≤ 128 then Xxh3.upTo128 b
  else if b.size ≤ 240 then Xxh3.upTo240 b
  else Xxh3.long b

end Keyset.Hash
