/-!
# Digests

The digest SHA-256 of a text, written in hexadecimal digits.
-/

namespace CallAtlas.Digest

/-- The first 32 bits of the fractional parts of the cube roots of the first 64 primes. -/
def roundConstants : Array UInt32 := #[
  0x428a2f98, 0x71374491, 0xb5c0fbcf, 0xe9b5dba5, 0x3956c25b, 0x59f111f1, 0x923f82a4, 0xab1c5ed5,
  0xd807aa98, 0x12835b01, 0x243185be, 0x550c7dc3, 0x72be5d74, 0x80deb1fe, 0x9bdc06a7, 0xc19bf174,
  0xe49b69c1, 0xefbe4786, 0x0fc19dc6, 0x240ca1cc, 0x2de92c6f, 0x4a7484aa, 0x5cb0a9dc, 0x76f988da,
  0x983e5152, 0xa831c66d, 0xb00327c8, 0xbf597fc7, 0xc6e00bf3, 0xd5a79147, 0x06ca6351, 0x14292967,
  0x27b70a85, 0x2e1b2138, 0x4d2c6dfc, 0x53380d13, 0x650a7354, 0x766a0abb, 0x81c2c92e, 0x92722c85,
  0xa2bfe8a1, 0xa81a664b, 0xc24b8b70, 0xc76c51a3, 0xd192e819, 0xd6990624, 0xf40e3585, 0x106aa070,
  0x19a4c116, 0x1e376c08, 0x2748774c, 0x34b0bcb5, 0x391c0cb3, 0x4ed8aa4a, 0x5b9cca4f, 0x682e6ff3,
  0x748f82ee, 0x78a5636f, 0x84c87814, 0x8cc70208, 0x90befffa, 0xa4506ceb, 0xbef9a3f7, 0xc67178f2]

/-- The eight words that a digest starts from and ends in. -/
structure Words where
  a : UInt32
  b : UInt32
  c : UInt32
  d : UInt32
  e : UInt32
  f : UInt32
  g : UInt32
  h : UInt32
deriving DecidableEq, Inhabited

/-- The first 32 bits of the fractional parts of the square roots of the first eight primes. -/
def Words.initial : Words :=
  ⟨0x6a09e667, 0xbb67ae85, 0x3c6ef372, 0xa54ff53a, 0x510e527f, 0x9b05688c, 0x1f83d9ab, 0x5be0cd19⟩

/-- Word by word addition. -/
def Words.add (x y : Words) : Words :=
  ⟨x.a + y.a, x.b + y.b, x.c + y.c, x.d + y.d, x.e + y.e, x.f + y.f, x.g + y.g, x.h + y.h⟩

/-- Moves the bits of a word to the right, those that fall out coming in again at the left. -/
def rotateRight (x : UInt32) (n : UInt32) : UInt32 := (x >>> n) ||| (x <<< (32 - n))

/-- One round of the compression of a block. -/
def round (w : Words) (constant word : UInt32) : Words :=
  let s1 := rotateRight w.e 6 ^^^ rotateRight w.e 11 ^^^ rotateRight w.e 25
  let choice := (w.e &&& w.f) ^^^ (~~~w.e &&& w.g)
  let t1 := w.h + s1 + choice + constant + word
  let s0 := rotateRight w.a 2 ^^^ rotateRight w.a 13 ^^^ rotateRight w.a 22
  let majority := (w.a &&& w.b) ^^^ (w.a &&& w.c) ^^^ (w.b &&& w.c)
  ⟨t1 + (s0 + majority), w.a, w.b, w.c, w.d + t1, w.e, w.f, w.g⟩

/-- The 64 words that a block of 16 words is spread out to. -/
def schedule (block : Array UInt32) : Array UInt32 :=
  (List.range 48).foldl (fun w i =>
    let at_ (k : Nat) : UInt32 := w.getD k 0
    let x := at_ (i + 1)
    let y := at_ (i + 14)
    let s0 := rotateRight x 7 ^^^ rotateRight x 18 ^^^ (x >>> 3)
    let s1 := rotateRight y 17 ^^^ rotateRight y 19 ^^^ (y >>> 10)
    w.push (at_ i + s0 + at_ (i + 9) + s1)) block

/-- Takes a block into the digest. -/
def compress (w : Words) (block : Array UInt32) : Words :=
  let spread := schedule block
  w.add ((List.range 64).foldl (fun x i =>
    round x (roundConstants.getD i 0) (spread.getD i 0)) w)

/-- The byte at a place of the padded message: the message, the byte 128, zeros, and the number of bits
of the message in eight bytes. -/
def paddedByte (bytes : ByteArray) (total i : Nat) : UInt32 :=
  if h : i < bytes.size then bytes[i].toUInt32
  else if i = bytes.size then 128
  else if i + 8 < total then 0
  else ((bytes.size * 8) >>> (8 * (total - 1 - i))).toUInt32 &&& 255

/-- The words of a block of the padded message. -/
def block (bytes : ByteArray) (total index : Nat) : Array UInt32 :=
  (Array.range 16).map fun k =>
    let i := 64 * index + 4 * k
    let b (n : Nat) : UInt32 := paddedByte bytes total (i + n)
    (b 0 <<< 24) ||| (b 1 <<< 16) ||| (b 2 <<< 8) ||| b 3

/-- The digest of some bytes, in words. -/
def words (bytes : ByteArray) : Words :=
  let blocks := (bytes.size + 8) / 64 + 1
  (List.range blocks).foldl (fun w i => compress w (block bytes (64 * blocks) i)) .initial

/-- A hexadecimal digit. -/
def hexDigit (n : Nat) : Char := if n < 10 then Char.ofNat (48 + n) else Char.ofNat (87 + n)

/-- A word in eight hexadecimal digits. -/
def hexWord (w : UInt32) : List Char :=
  (List.range 8).map fun i => hexDigit ((w >>> (28 - 4 * i).toUInt32) &&& 15).toNat

/-- The digest of some bytes, in hexadecimal digits. -/
def hex (bytes : ByteArray) : String :=
  let w := words bytes
  String.ofList ([w.a, w.b, w.c, w.d, w.e, w.f, w.g, w.h].flatMap hexWord)

end CallAtlas.Digest
