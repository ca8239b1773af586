/-!
# SHA-256

The message is padded to blocks of 64 bytes. Each block is spread to 64 words, which are
mixed one after another into a state of eight words; the last state is the digest.

* `Sha256.hex`: the digest in hexadecimal digits.
-/

namespace Scorecard.Sha256

/-- The round constants: the first 32 bits of the fractions of the cube roots of the first 64
primes. -/
def roundConstants : List UInt32 := [
  0x428a2f98, 0x71374491, 0xb5c0fbcf, 0xe9b5dba5, 0x3956c25b, 0x59f111f1,
  0x923f82a4, 0xab1c5ed5, 0xd807aa98, 0x12835b01, 0x243185be, 0x550c7dc3,
  0x72be5d74, 0x80deb1fe, 0x9bdc06a7, 0xc19bf174, 0xe49b69c1, 0xefbe4786,
  0x0fc19dc6, 0x240ca1cc, 0x2de92c6f, 0x4a7484aa, 0x5cb0a9dc, 0x76f988da,
  0x983e5152, 0xa831c66d, 0xb00327c8, 0xbf597fc7, 0xc6e00bf3, 0xd5a79147,
  0x06ca6351, 0x14292967, 0x27b70a85, 0x2e1b2138, 0x4d2c6dfc, 0x53380d13,
  0x650a7354, 0x766a0abb, 0x81c2c92e, 0x92722c85, 0xa2bfe8a1, 0xa81a664b,
  0xc24b8b70, 0xc76c51a3, 0xd192e819, 0xd6990624, 0xf40e3585, 0x106aa070,
  0x19a4c116, 0x1e376c08, 0x2748774c, 0x34b0bcb5, 0x391c0cb3, 0x4ed8aa4a,
  0x5b9cca4f, 0x682e6ff3, 0x748f82ee, 0x78a5636f, 0x84c87814, 0x8cc70208,
  0x90befffa, 0xa4506ceb, 0xbef9a3f7, 0xc67178f2]

/-- The eight words of a state. -/
structure State where
  a : UInt32
  b : UInt32
  c : UInt32
  d : UInt32
  e : UInt32
  f : UInt32
  g : UInt32
  h : UInt32
  deriving DecidableEq, Repr

/-- The first state: the first 32 bits of the fractions of the square roots of the first eight
primes. -/
def initial : State :=
  ⟨0x6a09e667, 0xbb67ae85, 0x3c6ef372, 0xa54ff53a,
   0x510e527f, 0x9b05688c, 0x1f83d9ab, 0x5be0cd19⟩

/-- Turns a word to the right by `n` bits. -/
def rotate (x n : UInt32) : UInt32 := (x >>> n) ||| (x <<< (32 - n))

/-! ### Padding -/

/-- The `n` low bytes of a number, the highest first. -/
def bytesOf (n x : Nat) : List UInt8 :=
  (List.range n).map fun i => UInt8.ofNat (x >>> (8 * (n - 1 - i)))

/-- The message, a set bit, clear bits up to eight bytes before the end of a block, and the
number of the message's bits. -/
def pad (message : List UInt8) : List UInt8 :=
  let zeros := (119 - message.length % 64) % 64
  message ++ 0x80 :: List.replicate zeros 0 ++ bytesOf 8 (8 * message.length)

/-- The words that the bytes write, four bytes each. -/
def words : List UInt8 → List UInt32
  | a :: b :: c :: d :: rest =>
    ((a.toUInt32 <<< 24) ||| (b.toUInt32 <<< 16) ||| (c.toUInt32 <<< 8) ||| d.toUInt32)
      :: words rest
  | _ => []

/-! ### Blocks -/

/-- The next word of a block's spread, from the words before it, the latest first. -/
def nextWord (latest : List UInt32) : UInt32 :=
  let at_ (i : Nat) : UInt32 := latest.getD i 0
  let x := at_ 14
  let y := at_ 1
  let s0 := rotate x 7 ^^^ rotate x 18 ^^^ (x >>> 3)
  let s1 := rotate y 17 ^^^ rotate y 19 ^^^ (y >>> 10)
  at_ 15 + s0 + at_ 6 + s1

/-- Adds `n` words to the spread of a block, the latest first. -/
def spread : (n : Nat) → List UInt32 → List UInt32
  | 0, latest => latest
  | n + 1, latest => spread n (nextWord latest :: latest)

/-- Mixes one word into the state. -/
def mix (s : State) (wk : UInt32 × UInt32) : State :=
  let s1 := rotate s.e 6 ^^^ rotate s.e 11 ^^^ rotate s.e 25
  let choice := (s.e &&& s.f) ^^^ ((~~~ s.e) &&& s.g)
  let t1 := s.h + s1 + choice + wk.2 + wk.1
  let s0 := rotate s.a 2 ^^^ rotate s.a 13 ^^^ rotate s.a 22
  let majority := (s.a &&& s.b) ^^^ (s.a &&& s.c) ^^^ (s.b &&& s.c)
  ⟨t1 + (s0 + majority), s.a, s.b, s.c, s.d + t1, s.e, s.f, s.g⟩

/-- The word by word sum of two states. -/
def State.add (s t : State) : State :=
  ⟨s.a + t.a, s.b + t.b, s.c + t.c, s.d + t.d, s.e + t.e, s.f + t.f, s.g + t.g, s.h + t.h⟩

/-- Takes a block of sixteen words. -/
def takeBlock (s : State) (block : List UInt32) : State :=
  s.add ((((spread 48 block.reverse).reverse).zip roundConstants).foldl mix s)

/-- Takes blocks as long as there are words; `fuel` bounds their number. -/
def takeBlocks : (fuel : Nat) → State → List UInt32 → State
  | 0, s, _ => s
  | fuel + 1, s, ws =>
    if ws.isEmpty then s else takeBlocks fuel (takeBlock s (ws.take 16)) (ws.drop 16)

/-- The last state. -/
def digest (message : List UInt8) : State :=
  let ws := words (pad message)
  takeBlocks (ws.length / 16) initial ws

/-! ### Hexadecimal digits -/

/-- A word in eight hexadecimal digits. -/
def hexWord (x : UInt32) : List Char :=
  (List.range 8).map fun i => Nat.digitChar ((x.toNat >>> (4 * (7 - i))) % 16)

/-- The digest of a message in hexadecimal digits. -/
def hex (message : ByteArray) : String :=
  let s := digest message.toList
  String.ofList ([s.a, s.b, s.c, s.d, s.e, s.f, s.g, s.h].flatMap hexWord)

end Scorecard.Sha256
