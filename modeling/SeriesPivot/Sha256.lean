/-!
# SHA-256

The digest of a byte string, as 64 hexadecimal digits in lower case. Words are of 32 bits, and addition
wraps around.

* `Sha256.pad` completes a message to blocks of 64 bytes.
* `Sha256.compress` folds one block into the state.
* `Sha256.hex` is the digest of the UTF-8 form of a text.
-/

namespace SeriesPivot.Sha256

/-- The round constants. -/
def constants : List UInt32 :=
  [0x428a2f98, 0x71374491, 0xb5c0fbcf, 0xe9b5dba5, 0x3956c25b, 0x59f111f1, 0x923f82a4, 0xab1c5ed5,
   0xd807aa98, 0x12835b01, 0x243185be, 0x550c7dc3, 0x72be5d74, 0x80deb1fe, 0x9bdc06a7, 0xc19bf174,
   0xe49b69c1, 0xefbe4786, 0x0fc19dc6, 0x240ca1cc, 0x2de92c6f, 0x4a7484aa, 0x5cb0a9dc, 0x76f988da,
   0x983e5152, 0xa831c66d, 0xb00327c8, 0xbf597fc7, 0xc6e00bf3, 0xd5a79147, 0x06ca6351, 0x14292967,
   0x27b70a85, 0x2e1b2138, 0x4d2c6dfc, 0x53380d13, 0x650a7354, 0x766a0abb, 0x81c2c92e, 0x92722c85,
   0xa2bfe8a1, 0xa81a664b, 0xc24b8b70, 0xc76c51a3, 0xd192e819, 0xd6990624, 0xf40e3585, 0x106aa070,
   0x19a4c116, 0x1e376c08, 0x2748774c, 0x34b0bcb5, 0x391c0cb3, 0x4ed8aa4a, 0x5b9cca4f, 0x682e6ff3,
   0x748f82ee, 0x78a5636f, 0x84c87814, 0x8cc70208, 0x90befffa, 0xa4506ceb, 0xbef9a3f7, 0xc67178f2]

/-- The eight working words. -/
structure State where
  a : UInt32
  b : UInt32
  c : UInt32
  d : UInt32
  e : UInt32
  f : UInt32
  g : UInt32
  h : UInt32

/-- The state before the first block. -/
def initial : State :=
  ⟨0x6a09e667, 0xbb67ae85, 0x3c6ef372, 0xa54ff53a, 0x510e527f, 0x9b05688c, 0x1f83d9ab, 0x5be0cd19⟩

/-- Rotation to the right. -/
def rotr (n x : UInt32) : UInt32 := (x >>> n) ||| (x <<< (32 - n))

/-- One round with a schedule word and a constant. -/
def round (s : State) (w k : UInt32) : State :=
  let sum1 := rotr 6 s.e ^^^ rotr 11 s.e ^^^ rotr 25 s.e
  let choice := (s.e &&& s.f) ^^^ ((~~~ s.e) &&& s.g)
  let t1 := s.h + sum1 + choice + k + w
  let sum0 := rotr 2 s.a ^^^ rotr 13 s.a ^^^ rotr 22 s.a
  let majority := (s.a &&& s.b) ^^^ (s.a &&& s.c) ^^^ (s.b &&& s.c)
  ⟨t1 + (sum0 + majority), s.a, s.b, s.c, s.d + t1, s.e, s.f, s.g⟩

/-- The next schedule word from the last sixteen, newest first. -/
def nextWord (last : List UInt32) : UInt32 :=
  let past (i : Nat) : UInt32 := last.getD i 0
  let s0 := rotr 7 (past 14) ^^^ rotr 18 (past 14) ^^^ (past 14 >>> 3)
  let s1 := rotr 17 (past 1) ^^^ rotr 19 (past 1) ^^^ (past 1 >>> 10)
  past 15 + s0 + past 6 + s1

/-- Schedule words, newest first, extended by as many as asked for. -/
def extend (words : List UInt32) : Nat → List UInt32
  | 0 => words
  | n + 1 => extend (nextWord words :: words) n

/-- Big-endian words of a list of bytes. -/
def wordsOf : List UInt8 → List UInt32
  | a :: b :: c :: d :: rest =>
    ((a.toUInt32 <<< 24) ||| (b.toUInt32 <<< 16) ||| (c.toUInt32 <<< 8) ||| d.toUInt32) ::
      wordsOf rest
  | _ => []

/-- Fold one block of 64 bytes into the state. -/
def compress (s : State) (block : List UInt8) : State :=
  let schedule := (extend (wordsOf block).reverse 48).reverse
  let t := (schedule.zip constants).foldl (fun s p => round s p.1 p.2) s
  ⟨s.a + t.a, s.b + t.b, s.c + t.c, s.d + t.d, s.e + t.e, s.f + t.f, s.g + t.g, s.h + t.h⟩

/-- The bytes of a number, most significant first. -/
def bytesOf (n : Nat) : (count : Nat) → List UInt8
  | 0 => []
  | count + 1 => bytesOf (n / 256) count ++ [UInt8.ofNat (n % 256)]

/-- The message, a one bit, zeros, and the length in bits: a multiple of 64 bytes. -/
def pad (message : List UInt8) : List UInt8 :=
  let n := message.length
  message ++ 0x80 :: List.replicate ((119 - n % 64) % 64) 0 ++ bytesOf (8 * n) 8

/-- Fold as many blocks as asked for. -/
def absorb (s : State) : (blocks : Nat) → List UInt8 → State
  | 0, _ => s
  | blocks + 1, bytes => absorb (compress s (bytes.take 64)) blocks (bytes.drop 64)

/-- The digest of a byte string, as eight words. -/
def digest (message : List UInt8) : List UInt32 :=
  let bytes := pad message
  let s := absorb initial (bytes.length / 64) bytes
  [s.a, s.b, s.c, s.d, s.e, s.f, s.g, s.h]

/-- A word as eight hexadecimal digits. -/
def hexWord (w : UInt32) : String :=
  let ds := (Nat.toDigits 16 w.toNat)
  String.ofList (List.replicate (8 - ds.length) '0' ++ ds)

/-- The digest of a text in hexadecimal. -/
def hex (text : String) : String :=
  String.join ((digest text.toUTF8.toList).map hexWord)

end SeriesPivot.Sha256
