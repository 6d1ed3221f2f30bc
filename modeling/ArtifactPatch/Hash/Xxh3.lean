/-
  ArtifactPatch.Hash.Xxh3
  ───────────────────────
  **THE 64-BIT XXH3 HASH.**

  XXH3 with seed zero and its default secret.  Inputs are hashed by length
  class: nothing, 1–3, 4–8, 9–16, 17–128, 129–240 bytes, and longer ones in
  stripes of 64 bytes over eight accumulators.  All arithmetic is modulo 2^64;
  reads are little-endian.
-/

namespace ArtifactPatch.Hash.Xxh3

/-! ## §1. Constants. -/

/-- The default secret. -/
def secret : ByteArray := ⟨#[
  0xb8, 0xfe, 0x6c, 0x39, 0x23, 0xa4, 0x4b, 0xbe, 0x7c, 0x01, 0x81, 0x2c, 0xf7, 0x21, 0xad, 0x1c,
  0xde, 0xd4, 0x6d, 0xe9, 0x83, 0x90, 0x97, 0xdb, 0x72, 0x40, 0xa4, 0xa4, 0xb7, 0xb3, 0x67, 0x1f,
  0xcb, 0x79, 0xe6, 0x4e, 0xcc, 0xc0, 0xe5, 0x78, 0x82, 0x5a, 0xd0, 0x7d, 0xcc, 0xff, 0x72, 0x21,
  0xb8, 0x08, 0x46, 0x74, 0xf7, 0x43, 0x24, 0x8e, 0xe0, 0x35, 0x90, 0xe6, 0x81, 0x3a, 0x26, 0x4c,
  0x3c, 0x28, 0x52, 0xbb, 0x91, 0xc3, 0x00, 0xcb, 0x88, 0xd0, 0x65, 0x8b, 0x1b, 0x53, 0x2e, 0xa3,
  0x71, 0x64, 0x48, 0x97, 0xa2, 0x0d, 0xf9, 0x4e, 0x38, 0x19, 0xef, 0x46, 0xa9, 0xde, 0xac, 0xd8,
  0xa8, 0xfa, 0x76, 0x3f, 0xe3, 0x9c, 0x34, 0x3f, 0xf9, 0xdc, 0xbb, 0xc7, 0xc7, 0x0b, 0x4f, 0x1d,
  0x8a, 0x51, 0xe0, 0x4b, 0xcd, 0xb4, 0x59, 0x31, 0xc8, 0x9f, 0x7e, 0xc9, 0xd9, 0x78, 0x73, 0x64,
  0xea, 0xc5, 0xac, 0x83, 0x34, 0xd3, 0xeb, 0xc3, 0xc5, 0x81, 0xa0, 0xff, 0xfa, 0x13, 0x63, 0xeb,
  0x17, 0x0d, 0xdd, 0x51, 0xb7, 0xf0, 0xda, 0x49, 0xd3, 0x16, 0x55, 0x26, 0x29, 0xd4, 0x68, 0x9e,
  0x2b, 0x16, 0xbe, 0x58, 0x7d, 0x47, 0xa1, 0xfc, 0x8f, 0xf8, 0xb8, 0xd1, 0x7a, 0xd0, 0x31, 0xce,
  0x45, 0xcb, 0x3a, 0x8f, 0x95, 0x16, 0x04, 0x28, 0xaf, 0xd7, 0xfb, 0xca, 0xbb, 0x4b, 0x40, 0x7e]⟩

/-- The 32-bit primes. -/
def prime32₁ : UInt64 := 0x9E3779B1
def prime32₂ : UInt64 := 0x85EBCA77
def prime32₃ : UInt64 := 0xC2B2AE3D

/-- The 64-bit primes. -/
def prime64₁ : UInt64 := 0x9E3779B185EBCA87
def prime64₂ : UInt64 := 0xC2B2AE3D27D4EB4F
def prime64₃ : UInt64 := 0x165667B19E3779F9
def prime64₄ : UInt64 := 0x85EBCA77C2B2AE63
def prime64₅ : UInt64 := 0x27D4EB2F165667C5

/-- The multiplier of the `rrmxmx` finish. -/
def primeMx₂ : UInt64 := 0x9FB21C651E98DF25

/-- The multiplier of the plain finish. -/
def primeMx₁ : UInt64 := 0x165667919E3779F9

/-! ## §2. Reads and mixes. -/

/-- A byte, zero past the end. -/
def byteAt (b : ByteArray) (i : Nat) : UInt64 :=
  if h : i < b.size then b[i].toUInt64 else 0

/-- Four bytes. -/
def read32 (b : ByteArray) (i : Nat) : UInt64 :=
  byteAt b i ||| (byteAt b (i + 1) <<< 8) ||| (byteAt b (i + 2) <<< 16)
    ||| (byteAt b (i + 3) <<< 24)

/-- Eight bytes. -/
def read64 (b : ByteArray) (i : Nat) : UInt64 :=
  read32 b i ||| (read32 b (i + 4) <<< 32)

/-- The two halves of the 128-bit product, combined. -/
def mulFold (x y : UInt64) : UInt64 :=
  let product := x.toNat * y.toNat
  UInt64.ofNat product ^^^ UInt64.ofNat (product >>> 64)

/-- Rotate left. -/
def rotl (x : UInt64) (n : UInt64) : UInt64 :=
  (x <<< n) ||| (x >>> (64 - n))

/-- Reverse the bytes of a word. -/
def swap64 (x : UInt64) : UInt64 :=
  (List.range 8).foldl
    (fun acc i => (acc <<< 8) ||| ((x >>> UInt64.ofNat (8 * i)) &&& 0xFF)) 0

/-- The finish shared by the middle and long classes. -/
def avalanche (h : UInt64) : UInt64 :=
  let h := h ^^^ (h >>> 37)
  let h := h * primeMx₁
  h ^^^ (h >>> 32)

/-- The finish of the shortest inputs. -/
def avalanche64 (h : UInt64) : UInt64 :=
  let h := h ^^^ (h >>> 33)
  let h := h * prime64₂
  let h := h ^^^ (h >>> 29)
  let h := h * prime64₃
  h ^^^ (h >>> 32)

/-- Sixteen bytes of input against sixteen bytes of secret. -/
def mix16 (b : ByteArray) (i s : Nat) : UInt64 :=
  mulFold (read64 b i ^^^ read64 secret s) (read64 b (i + 8) ^^^ read64 secret (s + 8))

/-! ## §3. Short inputs. -/

/-- 1 to 3 bytes. -/
def hash1To3 (b : ByteArray) : UInt64 :=
  let n := b.size
  let combined := (byteAt b 0 <<< 16) ||| (byteAt b (n / 2) <<< 24)
    ||| byteAt b (n - 1) ||| (UInt64.ofNat n <<< 8)
  avalanche64 (combined ^^^ (read32 secret 0 ^^^ read32 secret 4))

/-- 4 to 8 bytes. -/
def hash4To8 (b : ByteArray) : UInt64 :=
  let n := b.size
  let flip := read64 secret 8 ^^^ read64 secret 16
  let h := (read32 b (n - 4) + (read32 b 0 <<< 32)) ^^^ flip
  let h := h ^^^ (rotl h 49 ^^^ rotl h 24)
  let h := h * primeMx₂
  let h := h ^^^ ((h >>> 35) + UInt64.ofNat n)
  let h := h * primeMx₂
  h ^^^ (h >>> 28)

/-- 9 to 16 bytes. -/
def hash9To16 (b : ByteArray) : UInt64 :=
  let n := b.size
  let lo := read64 b 0 ^^^ (read64 secret 24 ^^^ read64 secret 32)
  let hi := read64 b (n - 8) ^^^ (read64 secret 40 ^^^ read64 secret 48)
  avalanche (UInt64.ofNat n + swap64 lo + hi + mulFold lo hi)

/-- 17 to 128 bytes: pairs of sixteen from both ends inwards. -/
def hash17To128 (b : ByteArray) : UInt64 :=
  let n := b.size
  let start := UInt64.ofNat n * prime64₁
  let sum := (List.range ((n - 1) / 32 + 1)).foldl
    (fun acc i => acc + mix16 b (16 * i) (32 * i) + mix16 b (n - 16 * (i + 1)) (32 * i + 16))
    start
  avalanche sum

/-- 129 to 240 bytes: eight blocks, a finish in between, then the rest. -/
def hash129To240 (b : ByteArray) : UInt64 :=
  let n := b.size
  let first := (List.range 8).foldl
    (fun acc i => acc + mix16 b (16 * i) (16 * i)) (UInt64.ofNat n * prime64₁)
  let later := (List.range (n / 16 - 8)).foldl
    (fun acc i => acc + mix16 b (16 * (i + 8)) (16 * i + 3)) (avalanche first)
  avalanche (later + mix16 b (n - 16) (136 - 17))

/-! ## §4. Long inputs. -/

/-- The eight accumulators at the start. -/
def initial : Array UInt64 :=
  #[prime32₃, prime64₁, prime64₂, prime64₃, prime64₄, prime32₂, prime64₅, prime32₁]

/-- An accumulator. -/
def lane (acc : Array UInt64) (i : Nat) : UInt64 :=
  acc.getD i 0

/-- Take in the stripe at `i` with the secret at `s`. -/
def accumulate (acc : Array UInt64) (b : ByteArray) (i s : Nat) : Array UInt64 :=
  Array.ofFn fun (k : Fin 8) =>
    let value := read64 b (i + 8 * k)
    let key := value ^^^ read64 secret (s + 8 * k)
    let across := read64 b (i + 8 * (if k.val % 2 = 0 then k.val + 1 else k.val - 1))
    lane acc k + across + (key &&& (0xFFFFFFFF : UInt64)) * (key >>> (32 : UInt64))

/-- Stir the accumulators after a block. -/
def scramble (acc : Array UInt64) (s : Nat) : Array UInt64 :=
  Array.ofFn fun (k : Fin 8) =>
    let a := lane acc k
    (a ^^^ (a >>> 47) ^^^ read64 secret (s + 8 * k)) * prime32₁

/-- Stripes of a block: one for each eight bytes of secret that is left. -/
def stripesPerBlock : Nat := (192 - 64) / 8

/-- Bytes of a block. -/
def blockSize : Nat := 64 * stripesPerBlock

/-- Take in `count` stripes from `start` on. -/
def accumulateStripes (acc : Array UInt64) (b : ByteArray) (start count : Nat) :
    Array UInt64 :=
  (List.range count).foldl (fun acc j => accumulate acc b (start + 64 * j) (8 * j)) acc

/-- Combine the accumulators with the secret at `s`. -/
def merge (acc : Array UInt64) (s : Nat) (start : UInt64) : UInt64 :=
  avalanche ((List.range 4).foldl
    (fun sum i => sum + mulFold (lane acc (2 * i) ^^^ read64 secret (s + 16 * i))
      (lane acc (2 * i + 1) ^^^ read64 secret (s + 16 * i + 8))) start)

/-- More than 240 bytes. -/
def hashLong (b : ByteArray) : UInt64 :=
  let n := b.size
  let blocks := (n - 1) / blockSize
  let acc := (List.range blocks).foldl
    (fun acc i =>
      scramble (accumulateStripes acc b (i * blockSize) stripesPerBlock) (192 - 64))
    initial
  let stripes := ((n - 1) - blockSize * blocks) / 64
  let acc := accumulateStripes acc b (blocks * blockSize) stripes
  let acc := accumulate acc b (n - 64) (192 - 64 - 7)
  merge acc 11 (UInt64.ofNat n * prime64₁)

end Xxh3

/-! ## §5. The hash. -/

/-- The XXH3 hash of some bytes. -/
def xxh3 (b : ByteArray) : UInt64 :=
  open Xxh3 in
  if b.size = 0 then avalanche64 (read64 secret 56 ^^^ read64 secret 64)
  else if b.size ≤ 3 then hash1To3 b
  else if b.size ≤ 8 then hash4To8 b
  else if b.size ≤ 16 then hash9To16 b
  else if b.size ≤ 128 then hash17To128 b
  else if b.size ≤ 240 then hash129To240 b
  else hashLong b

/-- A hash in sixteen lower-case hexadecimal digits. -/
def hex (h : UInt64) : String :=
  let digits := Nat.toDigits 16 h.toNat
  String.ofList (List.replicate (16 - digits.length) '0' ++ digits)

end ArtifactPatch.Hash
