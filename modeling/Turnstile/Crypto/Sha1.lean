import Turnstile.Crypto.Sha256

/-!
# SHA-1

A script is called by the digest of its text. Padding and word order are those of
SHA-256; the state has five words, and each block takes eighty rounds.
-/

namespace Turnstile.Sha1

/-- The five words of a digest in the making. -/
structure State where
  a : UInt32
  b : UInt32
  c : UInt32
  d : UInt32
  e : UInt32

/-- The state before the first block. -/
def start : State where
  a := 0x67452301
  b := 0xEFCDAB89
  c := 0x98BADCFE
  d := 0x10325476
  e := 0xC3D2E1F0

/-- Rotation to the left. -/
def rotl (x : UInt32) (n : UInt32) : UInt32 := (x <<< n) ||| (x >>> (32 - n))

/-- The eighty words that a block of sixteen expands to. -/
def schedule (block : List UInt32) : Array UInt32 :=
  (List.range 64).foldl (fun w i =>
    w.push (rotl (w.getD (i + 13) 0 ^^^ w.getD (i + 8) 0 ^^^ w.getD (i + 2) 0 ^^^ w.getD i 0) 1))
    block.toArray

/-- The mixing function and constant of a round. -/
def mixing (i : Nat) (b c d : UInt32) : UInt32 :=
  if i < 20 then ((b &&& c) ||| (~~~b &&& d)) + 0x5A827999
  else if i < 40 then (b ^^^ c ^^^ d) + 0x6ED9EBA1
  else if i < 60 then ((b &&& c) ||| (b &&& d) ||| (c &&& d)) + 0x8F1BBCDC
  else (b ^^^ c ^^^ d) + 0xCA62C1D6

/-- The state after a block. -/
def compress (s : State) (block : List UInt32) : State :=
  let w := schedule block
  let t := (List.range 80).foldl (fun (t : State) i =>
    ⟨rotl t.a 5 + mixing i t.b t.c t.d + t.e + w.getD i 0, t.a, rotl t.b 30, t.c, t.d⟩) s
  ⟨s.a + t.a, s.b + t.b, s.c + t.c, s.d + t.d, s.e + t.e⟩

/-- Folds the given number of blocks into the state. -/
def compressAll : Nat → State → List UInt32 → State
  | 0, s, _ => s
  | blocks + 1, s, w => compressAll blocks (compress s (w.take 16)) (w.drop 16)

/-- The twenty octets of a message's digest. -/
def digest (message : Bytes) : Bytes :=
  let w := Sha256.words (Sha256.pad message)
  let s := compressAll (w.length / 16) start w
  [s.a, s.b, s.c, s.d, s.e].flatMap fun x => Bytes.ofNat 4 x.toNat

end Turnstile.Sha1
