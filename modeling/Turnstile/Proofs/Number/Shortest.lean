import Mathlib.Algebra.Order.Field.Rat
import Mathlib.Tactic.FieldSimp
import Mathlib.Tactic.Linarith
import Mathlib.Tactic.Ring
import Turnstile.Number.Shortest

/-!
# What a shortest decimal determines

The search for the shortest decimal of a double ends inside the interval of the reals that round
to it. The intervals of two magnitudes have at most an end in common, and then only one of the two
owns it, so that a shortest decimal belongs to one magnitude alone.
-/

namespace Turnstile.Number

/-- The rational number that a decimal writes. -/
def Decimal.value (d : Decimal) : ℚ := d.coefficient * 10 ^ d.exponent

namespace RoundingInterval

variable (i : RoundingInterval) (k : Int)

/-- The lower end of the interval. -/
def bottom : ℚ := i.low * 2 ^ i.scale

/-- The upper end of the interval. -/
def top : ℚ := i.high * 2 ^ i.scale

/-- A rational number lies in the interval. -/
def Contains (q : ℚ) : Prop :=
  if i.closed then i.bottom ≤ q ∧ q ≤ i.top else i.bottom < q ∧ q < i.top

/-! ## Points of a grid -/

/-- What both the interval units and the grid points are multiplied by to be compared. -/
def measure : ℚ := i.unitFactor k / 2 ^ i.scale

theorem measure_pos : 0 < i.measure k := by
  have hunit : 0 < i.unitFactor k :=
    Nat.mul_pos (Nat.pow_pos (by decide)) (Nat.pow_pos (by decide))
  exact div_pos (Nat.cast_pos.2 hunit) (zpow_pos (by norm_num) _)

/-- Units in the common measure. -/
theorem cast_mul_unitFactor (units : Nat) :
    ((units * i.unitFactor k : Nat) : ℚ) = units * 2 ^ i.scale * i.measure k := by
  have hscale : (2 : ℚ) ^ i.scale ≠ 0 := zpow_ne_zero _ (by norm_num)
  rw [Nat.cast_mul, measure]
  field_simp

/-- Grid points in the common measure. -/
theorem cast_mul_gridFactor (c : Nat) :
    ((c * i.gridFactor k : Nat) : ℚ) = c * 10 ^ k * i.measure k := by
  have hpow (b : ℚ) (hb : b ≠ 0) (n : Int) : b ^ (-n).toNat * b ^ n = b ^ n.toNat := by
    rw [← zpow_natCast, ← zpow_natCast, ← zpow_add₀ hb]
    congr 1
    omega
  have htwo := hpow 2 (by norm_num) i.scale
  have hten := hpow 10 (by norm_num) k
  have hscale : (2 : ℚ) ^ i.scale ≠ 0 := zpow_ne_zero _ (by norm_num)
  simp only [measure, gridFactor, unitFactor, Nat.pow_eq, Nat.cast_mul, Nat.cast_pow,
    Nat.cast_ofNat]
  rw [← htwo, ← hten]
  field_simp

/-- A grid point is held if it lies in the interval. -/
theorem holds_iff (c : Nat) : i.holds k c = true ↔ i.Contains (c * 10 ^ k) := by
  have hpos := i.measure_pos k
  have hle (a b : ℚ) : a * i.measure k ≤ b * i.measure k ↔ a ≤ b := mul_le_mul_iff_left₀ hpos
  have hlt (a b : ℚ) : a * i.measure k < b * i.measure k ↔ a < b := mul_lt_mul_iff_left₀ hpos
  unfold holds Contains bottom top
  cases i.closed <;>
    simp only [Bool.and_eq_true, decide_eq_true_eq, ← Nat.cast_le (α := ℚ), ← Nat.cast_lt (α := ℚ),
      cast_mul_unitFactor, cast_mul_gridFactor, hle, hlt, Bool.false_eq_true, if_false, if_true]

/-- The nearest point of a grid is held. -/
theorem holds_of_nearestOn? {c : Nat} (h : i.nearestOn? k = some c) : i.holds k c = true := by
  unfold nearestOn? at h
  dsimp only at h
  split at h
  · rename_i hbelow habove
    -- Between two points it is one of them, by whichever is nearer or even.
    split at h
    · exact Option.some.inj h ▸ hbelow
    split at h
    · exact Option.some.inj h ▸ habove
    · obtain heven | hodd := Nat.mod_two_eq_zero_or_one
        (i.mid * i.unitFactor k / i.gridFactor k)
      · rw [heven] at h
        exact Option.some.inj h ▸ hbelow
      · rw [hodd] at h
        exact Option.some.inj h ▸ habove
  · exact Option.some.inj h ▸ ‹_›
  · exact Option.some.inj h ▸ ‹_›
  · cases h

/-! ## The search -/

/-- A grid no coarser than the interval units has a point in the interval. -/
theorem nearestOn?_ne_none (hlow : i.low < i.mid) (hhigh : i.mid < i.high)
    (hfine : i.gridFactor k ≤ i.unitFactor k) : i.nearestOn? k ≠ none := by
  have hgrid : 0 < i.gridFactor k :=
    Nat.mul_pos (Nat.pow_pos (by decide)) (Nat.pow_pos (by decide))
  have hbelow : i.holds k (i.mid * i.unitFactor k / i.gridFactor k) = true := by
    have hsplit := Nat.div_add_mod' (i.mid * i.unitFactor k) (i.gridFactor k)
    have hrest := Nat.mod_lt (i.mid * i.unitFactor k) hgrid
    have hdown : i.low * i.unitFactor k + i.unitFactor k ≤ i.mid * i.unitFactor k := by
      rw [← Nat.succ_mul]
      exact Nat.mul_le_mul_right _ hlow
    have hup : i.mid * i.unitFactor k + i.unitFactor k ≤ i.high * i.unitFactor k := by
      rw [← Nat.succ_mul]
      exact Nat.mul_le_mul_right _ hhigh
    unfold holds
    dsimp only
    split <;> rw [Bool.and_eq_true, decide_eq_true_eq, decide_eq_true_eq] <;> omega
  unfold nearestOn?
  dsimp only
  rw [hbelow]
  split
  · split
    · exact Option.some_ne_none _
    split <;> exact Option.some_ne_none _
  · exact Option.some_ne_none _
  · contradiction
  · contradiction

/-- The search ends inside the interval if its last grid is no coarser than the units. -/
theorem contains_search (hlow : i.low < i.mid) (hhigh : i.mid < i.high) (rounds : Nat)
    (hfine : i.gridFactor (k - rounds) ≤ i.unitFactor (k - rounds)) :
    i.Contains (i.search (rounds + 1) k).value := by
  induction rounds generalizing k with
  | zero =>
    rw [search]
    cases hnearest : i.nearestOn? k with
    | none =>
      rw [Nat.cast_zero, sub_zero] at hfine
      exact absurd hnearest (i.nearestOn?_ne_none k hlow hhigh hfine)
    | some c => exact (i.holds_iff k c).1 (i.holds_of_nearestOn? k hnearest)
  | succ rounds ih =>
    rw [search]
    cases hnearest : i.nearestOn? k with
    | none =>
      refine ih (k - 1) ?_
      rwa [show k - 1 - (rounds : Int) = k - (rounds + 1 : Nat) by omega]
    | some c => exact (i.holds_iff k c).1 (i.holds_of_nearestOn? k hnearest)

/-- Ten is more than `2 ^ (33 / 10)`. -/
theorem two_pow_le_ten_pow {s k : Nat} (h : 10 * s ≤ 33 * k) : 2 ^ s ≤ 10 ^ k := by
  refine (Nat.pow_le_pow_iff_left (n := 10) (by decide)).1 ?_
  calc (2 ^ s) ^ 10 = 2 ^ (10 * s) := by rw [← pow_mul, mul_comm]
    _ ≤ 2 ^ (33 * k) := Nat.pow_le_pow_right (by decide) h
    _ = (2 ^ 33) ^ k := pow_mul 2 33 k
    _ ≤ (10 ^ 10) ^ k := Nat.pow_le_pow_left (by decide) k
    _ = (10 ^ k) ^ 10 := by rw [← pow_mul, ← pow_mul, mul_comm]

/-- Ten is less than `2 ^ (10 / 3)`. -/
theorem ten_pow_le_two_pow {s k : Nat} (h : 10 * k ≤ 3 * s) : 10 ^ k ≤ 2 ^ s := by
  refine (Nat.pow_le_pow_iff_left (n := 3) (by decide)).1 ?_
  calc (10 ^ k) ^ 3 = (10 ^ 3) ^ k := by rw [← pow_mul, ← pow_mul, mul_comm]
    _ ≤ (2 ^ 10) ^ k := Nat.pow_le_pow_left (by decide) k
    _ = 2 ^ (10 * k) := (pow_mul 2 10 k).symm
    _ ≤ 2 ^ (3 * s) := Nat.pow_le_pow_right (by decide) h
    _ = (2 ^ s) ^ 3 := by rw [← pow_mul, mul_comm]

/-- A grid is no coarser than the units if its exponent is below theirs by the logarithm of ten. -/
theorem gridFactor_le (hnegative : k < 0 → 33 * k ≤ 10 * i.scale)
    (hpositive : 0 ≤ k → 10 * k ≤ 3 * i.scale) : i.gridFactor k ≤ i.unitFactor k := by
  simp only [gridFactor, unitFactor, Nat.pow_eq]
  by_cases hk : k < 0
  · have hbound := hnegative hk
    have hpow : 2 ^ (-i.scale).toNat ≤ 10 ^ (-k).toNat := two_pow_le_ten_pow (by omega)
    rw [show k.toNat = 0 by omega, pow_zero, mul_one]
    exact hpow.trans (Nat.le_mul_of_pos_left _ (Nat.pow_pos (by decide)))
  · have hbound := hpositive (by omega)
    have hpow : 10 ^ k.toNat ≤ 2 ^ i.scale.toNat := ten_pow_le_two_pow (by omega)
    rw [show (-i.scale).toNat = 0 by omega, pow_zero, one_mul]
    exact hpow.trans (Nat.le_mul_of_pos_right _ (Nat.pow_pos (by decide)))

/-! ## Intervals side by side -/

variable {i} {j : RoundingInterval}

/-- The interval lies between its ends. -/
theorem Contains.bounds {q : ℚ} (h : i.Contains q) : i.bottom ≤ q ∧ q ≤ i.top := by
  unfold Contains at h
  split at h
  · exact h
  · exact ⟨h.1.le, h.2.le⟩

/-- Two intervals that meet in an end have a common number only if both own the end. -/
theorem not_contains_of_le {q : ℚ} (hle : i.top ≤ j.bottom)
    (hends : i.top = j.bottom → ¬(i.closed = true ∧ j.closed = true)) (hi : i.Contains q) :
    ¬j.Contains q := by
  intro hj
  have hqi := hi.bounds.2
  have hqj := hj.bounds.1
  refine hends (le_antisymm hle (hqj.trans hqi)) ⟨?_, ?_⟩
  · by_contra hopen
    rw [Contains, if_neg hopen] at hi
    exact absurd (hi.2.trans_le (hle.trans hqj)) (lt_irrefl q)
  · by_contra hopen
    rw [Contains, if_neg hopen] at hj
    exact absurd (hqi.trans_lt (hle.trans_lt hj.1)) (lt_irrefl q)

end RoundingInterval

end Turnstile.Number

namespace Turnstile.Binary64

open Number

variable (x y : Binary64)

/-! ## The parts of a double -/

/-- The exponent and the fraction in one number, which orders the magnitudes. -/
def magnitudeField : Nat := x.exponentField * 2 ^ 52 + x.fractionField

theorem exponentField_eq : x.exponentField = x.bits.toNat / 2 ^ 52 % 2 ^ 11 := by
  rw [exponentField, UInt64.toNat_and, UInt64.toNat_shiftRight, Nat.shiftRight_eq_div_pow]
  exact Nat.and_two_pow_sub_one_eq_mod _ 11

theorem fractionField_eq : x.fractionField = x.bits.toNat % 2 ^ 52 := by
  rw [fractionField, UInt64.toNat_and]
  exact Nat.and_two_pow_sub_one_eq_mod _ 52

theorem isNegative_eq : x.isNegative = (x.bits.toNat / 2 ^ 63 == 1) := by
  rw [isNegative, Bool.eq_iff_iff, beq_iff_eq, beq_iff_eq, ← UInt64.toNat_inj,
    UInt64.toNat_shiftRight, Nat.shiftRight_eq_div_pow]
  rfl

/-- A double is its sign and its magnitude. -/
theorem ext_of_fields {x y : Binary64} (hsign : x.isNegative = y.isNegative)
    (hmagnitude : x.magnitudeField = y.magnitudeField) : x = y := by
  have hx := x.bits.toNat_lt
  have hy := y.bits.toNat_lt
  rw [isNegative_eq, isNegative_eq, Bool.eq_iff_iff, beq_iff_eq, beq_iff_eq] at hsign
  rw [magnitudeField, magnitudeField, exponentField_eq, exponentField_eq, fractionField_eq,
    fractionField_eq] at hmagnitude
  have hbits : x.bits = y.bits := UInt64.toNat_inj.1 (by omega)
  cases x
  cases y
  exact congrArg mk hbits

/-! ## Rounding intervals of doubles -/

/-- The reals that round to the magnitude of a finite nonzero double. -/
def interval : RoundingInterval :=
  .around x.significand x.exponent (x.fractionField == 0 && 1 < x.exponentField)

theorem fractionField_lt : x.fractionField < 2 ^ 52 := by
  rw [fractionField_eq]
  exact Nat.mod_lt _ (by decide)

/-- The significand has at most 53 bits, and no fewer above the least exponent. -/
theorem significand_bounds :
    x.significand < 2 ^ 53 ∧ (1 < x.exponentField → 2 ^ 52 ≤ x.significand) := by
  have hfraction := x.fractionField_lt
  unfold significand
  split <;> omega

/-- Only the two zeros have no significand. -/
theorem significand_pos (hzero : x.isZero = false) : 0 < x.significand := by
  simp only [isZero, Bool.and_eq_false_iff, beq_eq_false_iff_ne] at hzero
  unfold significand
  split <;> omega

/-- A power of two is a little closer to its neighbour below. -/
theorem low_interval : x.interval.low =
    4 * x.significand - if x.fractionField = 0 ∧ 1 < x.exponentField then 1 else 2 := by
  simp only [interval, RoundingInterval.around, Bool.and_eq_true, beq_iff_eq, decide_eq_true_eq]

variable {x y}

/-- The shortest decimal of a finite nonzero double rounds to it. -/
theorem contains_shortest (hfinite : x.isFinite = true) (hzero : x.isZero = false) :
    x.interval.Contains (shortest x).value := by
  have hpos := x.significand_pos hzero
  have hfield : x.exponentField < 2047 := by
    have hne : x.exponentField ≠ 2047 := by simpa only [isFinite, bne_iff_ne] using hfinite
    have hlt := Nat.mod_lt (x.bits.toNat / 2 ^ 52) (show 0 < 2 ^ 11 by decide)
    rw [← exponentField_eq] at hlt
    omega
  have hlog : Nat.log2 x.significand < 53 := (Nat.log2_lt hpos.ne').2 x.significand_bounds.1
  have hscale : x.interval.scale = (max x.exponentField 1 : Nat) - 1075 - 2 := rfl
  have hgrid : coarsestGrid x.significand x.exponent =
      (Nat.log2 x.significand + ((max x.exponentField 1 : Nat) - 1075 : Int) + 2) *
        30103 / 100000 + 1 := rfl
  refine x.interval.contains_search _ ?_ ?_ 23 ?_
  · rw [low_interval]
    change _ < 4 * x.significand
    split <;> omega
  · change 4 * x.significand < 4 * x.significand + 2
    omega
  · apply RoundingInterval.gridFactor_le <;> rw [hscale, hgrid] <;> omega

/-- The interval of a smaller magnitude lies below, and the end that it may have in common with the
next one belongs to the even significand of the two. -/
theorem top_le_bottom (hlt : x.magnitudeField < y.magnitudeField) :
    x.interval.top ≤ y.interval.bottom ∧ (x.interval.top = y.interval.bottom →
      ¬(x.interval.closed = true ∧ y.interval.closed = true)) := by
  have hx := x.fractionField_lt
  have hy := y.fractionField_lt
  have hclosed (z : Binary64) : z.interval.closed = true ↔ z.significand % 2 = 0 := beq_iff_eq
  have hscale (z : Binary64) : z.interval.scale = (max z.exponentField 1 : Nat) - 1077 := by
    change ((max z.exponentField 1 : Nat) : Int) - 1075 - 2 = _
    omega
  have hpos : (0 : ℚ) < 2 ^ x.interval.scale := zpow_pos (by norm_num) _
  have htop : x.interval.top = (4 * x.significand + 2 : Nat) * 2 ^ x.interval.scale := rfl
  have hbottom : y.interval.bottom = y.interval.low * 2 ^ y.interval.scale := rfl
  rw [hclosed, hclosed, htop, hbottom, low_interval]
  rw [magnitudeField, magnitudeField] at hlt
  by_cases hsame : max x.exponentField 1 = max y.exponentField 1
  · -- The significands are in one unit, in which the smaller one is less by at least one.
    have hscales : y.interval.scale = x.interval.scale := by rw [hscale, hscale, hsame]
    have hsignificand : x.significand < y.significand ∧
        ¬(y.fractionField = 0 ∧ 1 < y.exponentField) := by
      unfold significand
      split <;> split <;> omega
    rw [hscales, if_neg hsignificand.2, mul_le_mul_iff_left₀ hpos, Nat.cast_le,
      mul_left_inj' hpos.ne', Nat.cast_inj]
    omega
  · -- The unit of the greater one is at least twice the other.
    have hunits : (2 : ℚ) * 2 ^ x.interval.scale ≤ 2 ^ y.interval.scale := by
      rw [← zpow_one_add₀ (by norm_num), hscale, hscale]
      exact zpow_le_zpow_right₀ (by norm_num) (by omega)
    have hends : 4 * x.significand + 2 ≤
          2 * (4 * y.significand - if y.fractionField = 0 ∧ 1 < y.exponentField then 1 else 2) ∧
        (4 * x.significand + 2 =
          2 * (4 * y.significand - if y.fractionField = 0 ∧ 1 < y.exponentField then 1 else 2) →
            x.significand % 2 = 1) := by
      have hless := x.significand_bounds.1
      have hfield : 1 < y.exponentField := by omega
      have hsignificand : y.significand = 2 ^ 52 + y.fractionField := if_neg (by omega)
      split <;> omega
    generalize (4 * y.significand - if y.fractionField = 0 ∧ 1 < y.exponentField then 1 else 2) =
      low at hends ⊢
    have hlow : ((2 * low : Nat) : ℚ) * 2 ^ x.interval.scale ≤ low * 2 ^ y.interval.scale := by
      calc ((2 * low : Nat) : ℚ) * 2 ^ x.interval.scale = low * (2 * 2 ^ x.interval.scale) := by
            push_cast
            ring
        _ ≤ low * 2 ^ y.interval.scale := mul_le_mul_of_nonneg_left hunits (Nat.cast_nonneg low)
    refine ⟨((mul_le_mul_iff_left₀ hpos).2 (Nat.cast_le.2 hends.1)).trans hlow, fun heq => ?_⟩
    have hge : 2 * low ≤ 4 * x.significand + 2 := by
      rw [← Nat.cast_le (α := ℚ), ← mul_le_mul_iff_left₀ hpos, heq]
      exact hlow
    have hodd := hends.2 (le_antisymm hends.1 hge)
    omega

/-- Two finite nonzero doubles with shortest decimals of one value have one magnitude. -/
theorem magnitudeField_eq_of_shortest (hx : x.isFinite = true) (hxzero : x.isZero = false)
    (hy : y.isFinite = true) (hyzero : y.isZero = false)
    (h : (shortest x).value = (shortest y).value) : x.magnitudeField = y.magnitudeField := by
  have hinx := contains_shortest hx hxzero
  have hiny := contains_shortest hy hyzero
  obtain hlt | heq | hgt := Nat.lt_trichotomy x.magnitudeField y.magnitudeField
  · obtain ⟨hle, hends⟩ := top_le_bottom hlt
    rw [← h] at hiny
    exact absurd hiny (RoundingInterval.not_contains_of_le hle hends hinx)
  · exact heq
  · obtain ⟨hle, hends⟩ := top_le_bottom hgt
    rw [h] at hinx
    exact absurd hinx (RoundingInterval.not_contains_of_le hle hends hiny)

/-- The shortest decimal of a finite nonzero double is not zero. -/
theorem shortest_value_pos (hfinite : x.isFinite = true) (hzero : x.isZero = false) :
    0 < (shortest x).value := by
  have hlow : 0 < x.interval.low := by
    have hpos := x.significand_pos hzero
    rw [low_interval]
    split <;> omega
  have hbottom : 0 < x.interval.bottom :=
    mul_pos (Nat.cast_pos.2 hlow) (zpow_pos (by norm_num) _)
  exact hbottom.trans_le (contains_shortest hfinite hzero).bounds.1

end Turnstile.Binary64
