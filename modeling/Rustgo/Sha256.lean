import Rustgo.Bytes

namespace Rustgo.Sha256

/-- The eight working words. -/
structure Words where
  a : UInt32
  b : UInt32
  c : UInt32
  d : UInt32
  e : UInt32
  f : UInt32
  g : UInt32
  h : UInt32
  deriving DecidableEq

def initial : Words where
  a := 0x6a09e667
  b := 0xbb67ae85
  c := 0x3c6ef372
  d := 0xa54ff53a
  e := 0x510e527f
  f := 0x9b05688c
  g := 0x1f83d9ab
  h := 0x5be0cd19

def constants : List UInt32 := [
  0x428a2f98, 0x71374491, 0xb5c0fbcf, 0xe9b5dba5, 0x3956c25b, 0x59f111f1, 0x923f82a4, 0xab1c5ed5,
  0xd807aa98, 0x12835b01, 0x243185be, 0x550c7dc3, 0x72be5d74, 0x80deb1fe, 0x9bdc06a7, 0xc19bf174,
  0xe49b69c1, 0xefbe4786, 0x0fc19dc6, 0x240ca1cc, 0x2de92c6f, 0x4a7484aa, 0x5cb0a9dc, 0x76f988da,
  0x983e5152, 0xa831c66d, 0xb00327c8, 0xbf597fc7, 0xc6e00bf3, 0xd5a79147, 0x06ca6351, 0x14292967,
  0x27b70a85, 0x2e1b2138, 0x4d2c6dfc, 0x53380d13, 0x650a7354, 0x766a0abb, 0x81c2c92e, 0x92722c85,
  0xa2bfe8a1, 0xa81a664b, 0xc24b8b70, 0xc76c51a3, 0xd192e819, 0xd6990624, 0xf40e3585, 0x106aa070,
  0x19a4c116, 0x1e376c08, 0x2748774c, 0x34b0bcb5, 0x391c0cb3, 0x4ed8aa4a, 0x5b9cca4f, 0x682e6ff3,
  0x748f82ee, 0x78a5636f, 0x84c87814, 0x8cc70208, 0x90befffa, 0xa4506ceb, 0xbef9a3f7, 0xc67178f2]

def rotr (x n : UInt32) : UInt32 := (x >>> n) ||| (x <<< (32 - n))

/-- The words so far stand in reverse order. -/
def schedule : Nat → List UInt32 → List UInt32
  | 0, words => words.reverse
  | n + 1, words =>
      let w := fun i => words.getD i 0
      let s0 := rotr (w 14) 7 ^^^ rotr (w 14) 18 ^^^ (w 14 >>> 3)
      let s1 := rotr (w 1) 17 ^^^ rotr (w 1) 19 ^^^ (w 1 >>> 10)
      schedule n ((w 15 + s0 + w 6 + s1) :: words)

def round (v : Words) (k w : UInt32) : Words :=
  let s1 := rotr v.e 6 ^^^ rotr v.e 11 ^^^ rotr v.e 25
  let ch := (v.e &&& v.f) ^^^ (~~~v.e &&& v.g)
  let t1 := v.h + s1 + ch + k + w
  let s0 := rotr v.a 2 ^^^ rotr v.a 13 ^^^ rotr v.a 22
  let maj := (v.a &&& v.b) ^^^ (v.a &&& v.c) ^^^ (v.b &&& v.c)
  ⟨t1 + (s0 + maj), v.a, v.b, v.c, v.d + t1, v.e, v.f, v.g⟩

def wordsOf : Nat → Bytes → List UInt32
  | 0, _ => []
  | n + 1, bytes => UInt32.ofNat (ofBe (bytes.take 4)) :: wordsOf n (bytes.drop 4)

def compress (v : Words) (block : Bytes) : Words :=
  let words := schedule 48 (wordsOf 16 block).reverse
  let r := (constants.zip words).foldl (fun r p => round r p.1 p.2) v
  ⟨v.a + r.a, v.b + r.b, v.c + r.c, v.d + r.d, v.e + r.e, v.f + r.f, v.g + r.g, v.h + r.h⟩

def pad (message : Bytes) : Bytes :=
  message ++ 0x80 :: List.replicate ((119 - message.length % 64) % 64) 0 ++ be 8 (8 * message.length)

def blocks : Nat → Bytes → Words → Words
  | 0, _, v => v
  | n + 1, bytes, v => blocks n (bytes.drop 64) (compress v (bytes.take 64))

def bytesOf (v : Words) : Bytes :=
  be 4 v.a.toNat ++ be 4 v.b.toNat ++ be 4 v.c.toNat ++ be 4 v.d.toNat ++
    be 4 v.e.toNat ++ be 4 v.f.toNat ++ be 4 v.g.toNat ++ be 4 v.h.toNat

theorem length_bytesOf (v : Words) : (bytesOf v).length = 32 := by
  simp [bytesOf]

def digest (message : Bytes) : Vector UInt8 32 :=
  let padded := pad message
  let bytes := bytesOf (blocks (padded.length / 64) padded initial)
  ⟨bytes.toArray, by simpa using length_bytesOf _⟩

example : (digest [0x61, 0x62, 0x63]).toList = [
    0xba, 0x78, 0x16, 0xbf, 0x8f, 0x01, 0xcf, 0xea, 0x41, 0x41, 0x40, 0xde, 0x5d, 0xae, 0x22, 0x23,
    0xb0, 0x03, 0x61, 0xa3, 0x96, 0x17, 0x7a, 0x9c, 0xb4, 0x10, 0xff, 0x61, 0xf2, 0x00, 0x15, 0xad] := by
  decide +kernel

end Rustgo.Sha256
