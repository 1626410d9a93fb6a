/-!
# SHA-256

The digest of a byte string as 32 bytes: the padded message is cut into blocks of sixteen words, and each
block is mixed into a state of eight words by sixty-four rounds.
-/

namespace ClassLedger

/-- A digest of 32 bytes. -/
abbrev Digest := Vector UInt8 32

namespace Sha256

/-- The fractional parts of the cube roots of the first 64 primes. -/
def roundConstants : List UInt32 :=
  [0x428a2f98, 0x71374491, 0xb5c0fbcf, 0xe9b5dba5, 0x3956c25b, 0x59f111f1, 0x923f82a4, 0xab1c5ed5,
    0xd807aa98, 0x12835b01, 0x243185be, 0x550c7dc3, 0x72be5d74, 0x80deb1fe, 0x9bdc06a7, 0xc19bf174,
    0xe49b69c1, 0xefbe4786, 0x0fc19dc6, 0x240ca1cc, 0x2de92c6f, 0x4a7484aa, 0x5cb0a9dc, 0x76f988da,
    0x983e5152, 0xa831c66d, 0xb00327c8, 0xbf597fc7, 0xc6e00bf3, 0xd5a79147, 0x06ca6351, 0x14292967,
    0x27b70a85, 0x2e1b2138, 0x4d2c6dfc, 0x53380d13, 0x650a7354, 0x766a0abb, 0x81c2c92e, 0x92722c85,
    0xa2bfe8a1, 0xa81a664b, 0xc24b8b70, 0xc76c51a3, 0xd192e819, 0xd6990624, 0xf40e3585, 0x106aa070,
    0x19a4c116, 0x1e376c08, 0x2748774c, 0x34b0bcb5, 0x391c0cb3, 0x4ed8aa4a, 0x5b9cca4f, 0x682e6ff3,
    0x748f82ee, 0x78a5636f, 0x84c87814, 0x8cc70208, 0x90befffa, 0xa4506ceb, 0xbef9a3f7, 0xc67178f2]

/-- The chaining state. -/
structure State where
  a : UInt32
  b : UInt32
  c : UInt32
  d : UInt32
  e : UInt32
  f : UInt32
  g : UInt32
  h : UInt32

/-- The fractional parts of the square roots of the first 8 primes. -/
def initial : State where
  a := 0x6a09e667
  b := 0xbb67ae85
  c := 0x3c6ef372
  d := 0xa54ff53a
  e := 0x510e527f
  f := 0x9b05688c
  g := 0x1f83d9ab
  h := 0x5be0cd19

def rotateRight (x amount : UInt32) : UInt32 := (x >>> amount) ||| (x <<< (32 - amount))

/-- One round with the word `w` of the schedule and the constant `k`. -/
def round (s : State) (k w : UInt32) : State :=
  let sum1 := rotateRight s.e 6 ^^^ rotateRight s.e 11 ^^^ rotateRight s.e 25
  let choice := (s.e &&& s.f) ^^^ (~~~s.e &&& s.g)
  let t1 := s.h + sum1 + choice + k + w
  let sum0 := rotateRight s.a 2 ^^^ rotateRight s.a 13 ^^^ rotateRight s.a 22
  let majority := (s.a &&& s.b) ^^^ (s.a &&& s.c) ^^^ (s.b &&& s.c)
  { a := t1 + sum0 + majority, b := s.a, c := s.b, d := s.c, e := s.d + t1, f := s.e, g := s.f, h := s.g }

/-- The words of a block followed by `count` more, each made of four earlier ones. -/
def extend (words : Array UInt32) (count : Nat) : Array UInt32 :=
  match count with
  | 0 => words
  | count + 1 =>
    let word (back : Nat) : UInt32 := words.getD (words.size - back) 0
    let x := word 15
    let y := word 2
    let small0 := rotateRight x 7 ^^^ rotateRight x 18 ^^^ (x >>> 3)
    let small1 := rotateRight y 17 ^^^ rotateRight y 19 ^^^ (y >>> 10)
    extend (words.push (word 16 + small0 + word 7 + small1)) count

/-- The state after a block of sixteen words. -/
def mix (s : State) (block : List UInt32) : State :=
  let schedule := (extend block.toArray 48).toList
  let t := (roundConstants.zip schedule).foldl (fun t (k, w) => round t k w) s
  { a := s.a + t.a, b := s.b + t.b, c := s.c + t.c, d := s.d + t.d,
    e := s.e + t.e, f := s.f + t.f, g := s.g + t.g, h := s.h + t.h }

/-- The message, a one bit, zeros up to a whole number of blocks, and the length in bits as eight bytes. -/
def pad (message : List UInt8) : List UInt8 :=
  let size := message.length
  let zeros := (119 - size % 64) % 64
  let length := (List.range 8).map fun i => UInt8.ofNat ((size * 8) >>> (56 - 8 * i))
  message ++ 0x80 :: (List.replicate zeros 0 ++ length)

/-- Mixes in the blocks of padded bytes, where `words` are the words of the current block, last one first. -/
def absorb (s : State) (words : List UInt32) (count : Nat) : List UInt8 → State
  | b0 :: b1 :: b2 :: b3 :: rest =>
    let word := b0.toUInt32 <<< 24 ||| b1.toUInt32 <<< 16 ||| b2.toUInt32 <<< 8 ||| b3.toUInt32
    if count = 15 then absorb (mix s (word :: words).reverse) [] 0 rest
    else absorb s (word :: words) (count + 1) rest
  | _ => s

/-- The digest of a byte string. -/
def digest (message : List UInt8) : Digest :=
  let s := absorb initial [] 0 (pad message)
  let words : Vector UInt32 8 := #v[s.a, s.b, s.c, s.d, s.e, s.f, s.g, s.h]
  Vector.ofFn fun i => (words[i.val / 4] >>> (UInt32.ofNat (24 - 8 * (i.val % 4)))).toUInt8

end Sha256

end ClassLedger
