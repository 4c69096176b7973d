import Turnstile.Bytes

/-!
# AES block encryption

A block is sixteen octets in column order. The octets form a field; the substitution of
the cipher is inversion in it followed by an affine map, and its table is computed from
that. Keys of sixteen and of thirty-two octets give eleven and fifteen round keys.
-/

namespace Turnstile.Aes

/-- A block of the cipher. -/
abbrev Block := Vector UInt8 16

/-- Multiplication by the field element `x`. -/
def double (b : UInt8) : UInt8 := (b <<< 1) ^^^ (if b &&& 0x80 = 0 then 0 else 0x1B)

/-- The product of two field elements, over the bits of the second from the lowest up. -/
def mulBits : Nat → UInt8 → UInt8 → UInt8
  | 0, _, _ => 0
  | bits + 1, a, b => (if b &&& 1 = 0 then 0 else a) ^^^ mulBits bits (double a) (b >>> 1)

/-- The product of two field elements. -/
def mul (a b : UInt8) : UInt8 := mulBits 8 a b

/-- The inverse of a field element, zero for zero: its power of exponent 254. -/
def inverse (b : UInt8) : UInt8 :=
  let b₂ := mul b b
  let b₄ := mul b₂ b₂
  let b₈ := mul b₄ b₄
  let b₁₆ := mul b₈ b₈
  let b₃₂ := mul b₁₆ b₁₆
  let b₆₄ := mul b₃₂ b₃₂
  mul (mul (mul b₂ b₄) (mul b₈ b₁₆)) (mul (mul b₃₂ b₆₄) (mul b₆₄ b₆₄))

/-- Rotation of an octet to the left. -/
def rotl (b n : UInt8) : UInt8 := (b <<< n) ||| (b >>> (8 - n))

/-- The substitution of an octet. -/
def substitute (b : UInt8) : UInt8 :=
  let i := inverse b
  i ^^^ rotl i 1 ^^^ rotl i 2 ^^^ rotl i 3 ^^^ rotl i 4 ^^^ 0x63

/-- The substitution, tabulated. -/
def substitutionTable : Vector UInt8 256 := Vector.ofFn fun i => substitute (UInt8.ofNat i)

/-- The substitution of an octet, looked up. -/
def sub (b : UInt8) : UInt8 := substitutionTable.get ⟨b.toNat, b.toNat_lt⟩

/-- Row `r` of the block moves `r` columns to the left. -/
def shiftRows (s : Block) : Block := Vector.ofFn fun i =>
  s.get ⟨(i.val + 4 * (i.val % 4)) % 16, Nat.mod_lt _ (by decide)⟩

/-- The octet of a block in the column of place `i`, `r` rows further down and around. -/
def below (s : Block) (i : Fin 16) (r : Nat) : UInt8 :=
  s.get ⟨i.val / 4 * 4 + (i.val + r) % 4, by omega⟩

/-- Each column is multiplied by a fixed polynomial. -/
def mixColumns (s : Block) : Block := Vector.ofFn fun i =>
  double (below s i 0) ^^^ (double (below s i 1) ^^^ below s i 1) ^^^ below s i 2 ^^^ below s i 3

/-- Exclusive or of two blocks. -/
def xor (a b : Block) : Block := Vector.zipWith (· ^^^ ·) a b

/-- A word of the key schedule. -/
abbrev KeyWord := Vector UInt8 4

/-- The key words up to the given count, from the words of the key. Every `keyWords`-th word is
rotated, substituted and marked with a power of `x`; long keys substitute once more in between. -/
def expandWords (keyWords : Nat) : Nat → Array KeyWord → UInt8 → Array KeyWord
  | 0, w, _ => w
  | more + 1, w, mark =>
    let zero : KeyWord := Vector.replicate 4 0
    let i := w.size
    let last := w.getD (i - 1) zero
    let (next, mark) : KeyWord × UInt8 :=
      if i % keyWords = 0 then
        (#v[sub last[1] ^^^ mark, sub last[2], sub last[3], sub last[0]], double mark)
      else if 6 < keyWords ∧ i % keyWords = 4 then (last.map sub, mark)
      else (last, mark)
    let word := Vector.zipWith (· ^^^ ·) (w.getD (i - keyWords) zero) next
    expandWords keyWords more (w.push word) mark

/-- Octets in groups of four. -/
def keyWordsOf : Bytes → List KeyWord
  | a :: b :: c :: d :: rest => #v[a, b, c, d] :: keyWordsOf rest
  | _ => []

/-- Words in groups of four, each a round key. -/
def roundKeysOf : List KeyWord → List Block
  | a :: b :: c :: d :: rest => (a ++ b ++ c ++ d) :: roundKeysOf rest
  | _ => []

/-- The round keys of a key of sixteen or thirty-two octets. -/
def roundKeys (key : Bytes) : List Block :=
  let words := keyWordsOf key
  let total := 4 * (words.length + 7)
  roundKeysOf (expandWords words.length (total - words.length) words.toArray 1).toList

/-- The rounds after the first key: all mix the columns but the last. -/
def rounds : List Block → Block → Block
  | [], s => s
  | [k], s => xor (shiftRows (s.map sub)) k
  | k :: more, s => rounds more (xor (mixColumns (shiftRows (s.map sub))) k)

/-- The block that a block is encrypted to. -/
def encrypt (keys : List Block) (block : Block) : Block :=
  match keys with
  | [] => block
  | k :: more => rounds more (xor block k)

end Turnstile.Aes
