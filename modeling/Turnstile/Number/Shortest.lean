import Turnstile.Number.Binary64

/-!
# Shortest decimals

The reals that round to a given double form an interval around it. The shortest
decimal of the double is the point of that interval on the coarsest decimal grid
that has one, and the nearest of them when the grid has several. All comparisons
are exact, between natural numbers.
-/

namespace Turnstile.Number

/-- The decimal `coefficient * 10 ^ exponent`. -/
structure Decimal where
  coefficient : Nat
  exponent : Int
  deriving DecidableEq, Repr

/-- Reals that round to `mid`, all in units of `2 ^ scale`. -/
structure RoundingInterval where
  low : Nat
  mid : Nat
  high : Nat
  scale : Int
  closed : Bool

/-- The rounding interval of `significand * 2 ^ exponent`. Just above a power of two the
neighbour below is half as far away as the one above; the ends belong to the interval when
the significand is even. -/
def RoundingInterval.around (significand : Nat) (exponent : Int) (nearBelow : Bool) :
    RoundingInterval where
  low := 4 * significand - if nearBelow then 1 else 2
  mid := 4 * significand
  high := 4 * significand + 2
  scale := exponent - 2
  closed := significand % 2 == 0

namespace RoundingInterval

/-- Factor that brings interval units to the common measure with the grid of `10 ^ k`. -/
def unitFactor (i : RoundingInterval) (k : Int) : Nat :=
  Nat.pow 2 i.scale.toNat * Nat.pow 10 (-k).toNat

/-- Factor that brings grid points to the common measure with the interval units. -/
def gridFactor (i : RoundingInterval) (k : Int) : Nat :=
  Nat.pow 2 (-i.scale).toNat * Nat.pow 10 k.toNat

/-- Whether the grid point `c * 10 ^ k` lies in the interval. -/
def holds (i : RoundingInterval) (k : Int) (c : Nat) : Bool :=
  let point := c * i.gridFactor k
  let unit := i.unitFactor k
  if i.closed then i.low * unit ≤ point && point ≤ i.high * unit
  else i.low * unit < point && point < i.high * unit

/-- The point of the grid of `10 ^ k` in the interval that is nearest to the middle; of two
equally near ones the even. -/
def nearestOn? (i : RoundingInterval) (k : Int) : Option Nat :=
  let exact := i.mid * i.unitFactor k
  let step := i.gridFactor k
  let below := exact / step
  let rest := exact % step
  match i.holds k below, i.holds k (below + 1) with
  | true, true =>
    if 2 * rest < step then some below
    else if step < 2 * rest then some (below + 1)
    else some (below + below % 2)
  | true, false => some below
  | false, true => some (below + 1)
  | false, false => none

/-- Tries at most `rounds` ever finer grids, from `10 ^ k` down. -/
def search (i : RoundingInterval) : Nat → Int → Decimal
  | 0, k => ⟨i.mid * i.unitFactor k / i.gridFactor k, k⟩
  | rounds + 1, k =>
    match i.nearestOn? k with
    | some c => ⟨c, k⟩
    | none => i.search rounds (k - 1)

end RoundingInterval

/-- A power of ten above every real that rounds to `significand * 2 ^ exponent`. -/
def coarsestGrid (significand : Nat) (exponent : Int) : Int :=
  (Nat.log2 significand + exponent + 2) * 30103 / 100000 + 1

/-- The shortest decimal of the magnitude of a finite nonzero double. Seventeen significant
digits always suffice, and the search starts at most three grids above the first. -/
def shortest (x : Binary64) : Decimal :=
  let significand := x.significand
  let nearBelow := x.fractionField == 0 && 1 < x.exponentField
  (RoundingInterval.around significand x.exponent nearBelow).search 24
    (coarsestGrid significand x.exponent)

end Turnstile.Number
