/-!
# Double-precision numbers

A number of the binary64 format is kept as its 64 bits, so that equality of
numbers is equality of representations: the two zeros differ, and a NaN equals
itself. A finite one is a sign and a magnitude `significand * 2 ^ exponent`.
-/

namespace Turnstile

/-- A double-precision number, by its bits. -/
structure Binary64 where
  bits : UInt64
  deriving DecidableEq, Repr

namespace Binary64

/-- The number held in a machine register. -/
def ofFloat (x : Float) : Binary64 := ⟨x.toBits⟩

/-- The machine register that holds the number. -/
def toFloat (x : Binary64) : Float := Float.ofBits x.bits

/-- Whether the sign bit is set. -/
def isNegative (x : Binary64) : Bool := x.bits >>> 63 == 1

/-- The eleven exponent bits. -/
def exponentField (x : Binary64) : Nat := ((x.bits >>> 52) &&& 0x7FF).toNat

/-- The fifty-two fraction bits. -/
def fractionField (x : Binary64) : Nat := (x.bits &&& 0xFFFFFFFFFFFFF).toNat

/-- Neither infinite nor a NaN. -/
def isFinite (x : Binary64) : Bool := x.exponentField != 0x7FF

/-- Whether the magnitude is zero. -/
def isZero (x : Binary64) : Bool := x.exponentField == 0 && x.fractionField == 0

/-- The integer significand of a finite number, hidden bit included. -/
def significand (x : Binary64) : Nat :=
  if x.exponentField = 0 then x.fractionField else 0x10000000000000 + x.fractionField

/-- The power of two that scales the significand of a finite number. -/
def exponent (x : Binary64) : Int := (max x.exponentField 1 : Nat) - 1075

/-- The sign-reversed number. -/
def neg (x : Binary64) : Binary64 := ⟨x.bits ^^^ 0x8000000000000000⟩

/-- The number that carries the same value as a single-precision one. -/
def ofSingle (x : Float32) : Binary64 := ofFloat x.toFloat

end Binary64
end Turnstile
