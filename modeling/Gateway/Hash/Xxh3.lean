import Gateway.Bytes

/-! The 64-bit XXH3 hash with seed zero. -/
namespace Gateway.Hash.Xxh3

/-- The 192 octets of the standard secret. -/
private def secret : Array UInt8 := #[
  0xb8, 0xfe, 0x6c, 0x39, 0x23, 0xa4, 0x4b, 0xbe, 0x7c, 0x01, 0x81, 0x2c, 0xf7, 0x21, 0xad, 0x1c,
  0xde, 0xd4, 0x6d, 0xe9, 0x83, 0x90, 0x97, 0xdb, 0x72, 0x40, 0xa4, 0xa4, 0xb7, 0xb3, 0x67, 0x1f,
  0xcb, 0x79, 0xe6, 0x4e, 0xcc, 0xc0, 0xe5, 0x78, 0x82, 0x5a, 0xd0, 0x7d, 0xcc, 0xff, 0x72, 0x21,
  0xb8, 0x08, 0x46, 0x74, 0xf7, 0x43, 0x24, 0x8e, 0xe0, 0x35, 0x90, 0xe6, 0x81, 0x3a, 0x26, 0x4c,
  0x3c, 0x28, 0x52, 0xbb, 0x91, 0xc3, 0x00, 0xcb, 0x88, 0xd0, 0x65, 0x8b, 0x1b, 0x53, 0x2e, 0xa3,
  0x71, 0x64, 0x48, 0x97, 0xa2, 0x0d, 0xf9, 0x4e, 0x38, 0x19, 0xef, 0x46, 0xa9, 0xde, 0xac, 0xd8,
  0xa8, 0xfa, 0x76, 0x3f, 0xe3, 0x9c, 0x34, 0x3f, 0xf9, 0xdc, 0xbb, 0xc7, 0xc7, 0x0b, 0x4f, 0x1d,
  0x8a, 0x51, 0xe0, 0x4b, 0xcd, 0xb4, 0x59, 0x31, 0xc8, 0x9f, 0x7e, 0xc9, 0xd9, 0x78, 0x73, 0x64,
  0xea, 0xc5, 0xac, 0x83, 0x34, 0xd3, 0xeb, 0xc3, 0xc5, 0x81, 0xa0, 0xff, 0xfa, 0x13, 0x63, 0xeb,
  0x17, 0x0d, 0xdd, 0x51, 0xb7, 0xf0, 0xda, 0x49, 0xd3, 0x16, 0x55, 0x26, 0x29, 0xd4, 0x68, 0x9e,
  0x2b, 0x16, 0xbe, 0x58, 0x7d, 0x47, 0xa1, 0xfc, 0x8f, 0xf8, 0xb8, 0xd1, 0x7a, 0xd0, 0x31, 0xce,
  0x45, 0xcb, 0x3a, 0x8f, 0x95, 0x16, 0x04, 0x28, 0xaf, 0xd7, 0xfb, 0xca, 0xbb, 0x4b, 0x40, 0x7e]

private def prime32_1 : UInt64 := 0x9E3779B1
private def prime32_2 : UInt64 := 0x85EBCA77
private def prime32_3 : UInt64 := 0xC2B2AE3D
private def prime64_1 : UInt64 := 0x9E3779B185EBCA87
private def prime64_2 : UInt64 := 0xC2B2AE3D27D4EB4F
private def prime64_3 : UInt64 := 0x165667B19E3779F9
private def prime64_4 : UInt64 := 0x85EBCA77C2B2AE63
private def prime64_5 : UInt64 := 0x27D4EB2F165667C5
private def primeMx1 : UInt64 := 0x165667919E3779F9
private def primeMx2 : UInt64 := 0x9FB21C651E98DF25

private def byteAt (a : Array UInt8) (i : Nat) : UInt64 := (a.getD i 0).toUInt64

private def read32 (a : Array UInt8) (i : Nat) : UInt64 :=
  byteAt a i ||| byteAt a (i + 1) <<< 8 ||| byteAt a (i + 2) <<< 16 ||| byteAt a (i + 3) <<< 24

private def read64 (a : Array UInt8) (i : Nat) : UInt64 := read32 a i ||| read32 a (i + 4) <<< 32

private def rotateLeft (x : UInt64) (n : UInt64) : UInt64 := x <<< n ||| x >>> (64 - n)

private def swap64 (x : UInt64) : UInt64 :=
  (List.range 8).foldl (fun acc i => acc <<< 8 ||| (x >>> (8 * i).toUInt64 &&& 0xFF)) 0

/-- The two halves of the 128-bit product, combined by exclusive or. -/
private def mulFold (x y : UInt64) : UInt64 :=
  let p := x.toNat * y.toNat
  (p % UInt64.size).toUInt64 ^^^ (p / UInt64.size).toUInt64

private def avalanche64 (h : UInt64) : UInt64 :=
  let h := (h ^^^ h >>> 33) * prime64_2
  let h := (h ^^^ h >>> 29) * prime64_3
  h ^^^ h >>> 32

private def avalanche (h : UInt64) : UInt64 :=
  let h := (h ^^^ h >>> 37) * primeMx1
  h ^^^ h >>> 32

private def hash0 : UInt64 := avalanche64 (read64 secret 56 ^^^ read64 secret 64)

private def hash1to3 (a : Array UInt8) : UInt64 :=
  let n := a.size
  let combined := byteAt a 0 <<< 16 ||| byteAt a (n / 2) <<< 24 ||| byteAt a (n - 1)
    ||| n.toUInt64 <<< 8
  avalanche64 (combined ^^^ (read32 secret 0 ^^^ read32 secret 4))

private def hash4to8 (a : Array UInt8) : UInt64 :=
  let n := a.size
  let input := read32 a (n - 4) + read32 a 0 <<< 32
  let h := input ^^^ (read64 secret 8 ^^^ read64 secret 16)
  let h := h ^^^ rotateLeft h 49 ^^^ rotateLeft h 24
  let h := h * primeMx2
  let h := h ^^^ (h >>> 35 + n.toUInt64)
  let h := h * primeMx2
  h ^^^ h >>> 28

private def hash9to16 (a : Array UInt8) : UInt64 :=
  let n := a.size
  let lo := read64 a 0 ^^^ (read64 secret 24 ^^^ read64 secret 32)
  let hi := read64 a (n - 8) ^^^ (read64 secret 40 ^^^ read64 secret 48)
  avalanche (n.toUInt64 + swap64 lo + hi + mulFold lo hi)

private def mix16 (a : Array UInt8) (i s : Nat) : UInt64 :=
  mulFold (read64 a i ^^^ read64 secret s) (read64 a (i + 8) ^^^ read64 secret (s + 8))

private def hash17to128 (a : Array UInt8) : UInt64 :=
  let n := a.size
  let pairs := (n - 1) / 32 + 1
  let acc := (List.range pairs).foldl
    (fun acc i => acc + mix16 a (16 * i) (32 * i) + mix16 a (n - 16 * (i + 1)) (32 * i + 16))
    (n.toUInt64 * prime64_1)
  avalanche acc

private def hash129to240 (a : Array UInt8) : UInt64 :=
  let n := a.size
  let acc := (List.range 8).foldl (fun acc i => acc + mix16 a (16 * i) (16 * i))
    (n.toUInt64 * prime64_1)
  let rest := (List.range (n / 16 - 8)).foldl
    (fun acc i => acc + mix16 a (16 * (i + 8)) (16 * i + 3)) (avalanche acc)
  avalanche (rest + mix16 a (n - 16) (136 - 17))

private def lowHalf (x : UInt64) : UInt64 := x &&& 0xFFFFFFFF

private def initialLanes : Array UInt64 :=
  #[prime32_3, prime64_1, prime64_2, prime64_3, prime64_4, prime32_2, prime64_5, prime32_1]

private def accumulate (lanes : Array UInt64) (a : Array UInt8) (i s : Nat) : Array UInt64 :=
  (List.range 8).foldl (fun acc k =>
    let value := read64 a (i + 8 * k)
    let key : UInt64 := value ^^^ read64 secret (s + 8 * k)
    (acc.modify (k ^^^ 1) (· + value)).modify k (· + lowHalf key * (key >>> 32))) lanes

private def scramble (lanes : Array UInt64) : Array UInt64 :=
  (List.range 8).foldl (fun acc k =>
    acc.modify k fun x =>
      (x ^^^ x >>> 47 ^^^ read64 secret (secret.size - 64 + 8 * k)) * prime32_1) lanes

private def merge (lanes : Array UInt64) (s : Nat) (start : UInt64) : UInt64 :=
  avalanche ((List.range 4).foldl (fun acc k =>
    acc + mulFold (lanes.getD (2 * k) 0 ^^^ read64 secret (s + 16 * k))
      (lanes.getD (2 * k + 1) 0 ^^^ read64 secret (s + 16 * k + 8))) start)

private def hashLong (a : Array UInt8) : UInt64 :=
  let n := a.size
  let stripes := (secret.size - 64) / 8
  let block := 64 * stripes
  let blocks := (n - 1) / block
  let lanes := (List.range blocks).foldl (fun lanes b =>
    scramble ((List.range stripes).foldl (fun lanes s =>
      accumulate lanes a (b * block + 64 * s) (8 * s)) lanes)) initialLanes
  let lanes := (List.range ((n - 1 - block * blocks) / 64)).foldl (fun lanes s =>
    accumulate lanes a (blocks * block + 64 * s) (8 * s)) lanes
  let lanes := accumulate lanes a (n - 64) (secret.size - 64 - 7)
  merge lanes 11 (n.toUInt64 * prime64_1)

/-- The hash of an octet string. -/
def hash (bs : Bytes) : UInt64 :=
  let a := bs.toArray
  if a.size = 0 then hash0
  else if a.size ≤ 3 then hash1to3 a
  else if a.size ≤ 8 then hash4to8 a
  else if a.size ≤ 16 then hash9to16 a
  else if a.size ≤ 128 then hash17to128 a
  else if a.size ≤ 240 then hash129to240 a
  else hashLong a

end Gateway.Hash.Xxh3
