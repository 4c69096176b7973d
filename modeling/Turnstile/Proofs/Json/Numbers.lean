import Turnstile.Json.Printer
import Turnstile.Proofs.Number.Reading

/-!
# Texts of numbers

The text of a double reads as its shortest decimal, whether that is written positionally or with
an exponent. Since the shortest decimal belongs to one double alone, numbers that JSON has a text
for have different texts if they differ.
-/

namespace Turnstile.Json

open Turnstile.Number (Decimal Digits Reads exponent? exponent?_toDigits point shortest)

/-! ## Texts of doubles -/

/-- An exponent is read behind its sign. -/
theorem exponent?_intText (n : Int) :
    exponent? ((if 0 ≤ n then ['+'] else []) ++ intText n) = some n := by
  obtain ⟨hminus, hplus⟩ := exponent?_toDigits n.natAbs
  by_cases hn : 0 ≤ n
  · rw [if_pos hn, intText, if_neg (by omega)]
    exact hplus.trans (congrArg some (Int.natAbs_of_nonneg hn))
  · rw [if_neg hn, intText, if_pos (by omega)]
    exact hminus.trans (congrArg some (by omega))

section Decimals

variable {digits : List Char} (hdigits : ∀ c ∈ digits, c.isDigit = true) (hne : digits ≠ [])
  {first : Int}

include hdigits hne

/-- The digits may be behind the point and zeros. -/
theorem reads_behindPoint (hnegative : first < 0) (hfrom : -5 ≤ first) :
    Reads (realLayout.decimalText digits first)
      (Nat.ofDigitChars 10 digits 0 * 10 ^ (first + 1 - digits.length)) := by
  have hparts : Digits ['0'] (List.replicate (-first - 1).toNat '0' ++ digits) := by
    refine ⟨by simp, by simp, fun c hc => ?_⟩
    obtain hzero | hc := List.mem_append.1 hc
    · exact List.eq_of_mem_replicate hzero ▸ rfl
    · exact hdigits c hc
  have htext : realLayout.decimalText digits first =
      ['0'] ++ point (List.replicate (-first - 1).toNat '0' ++ digits) := by
    rw [RealLayout.decimalText, if_pos ⟨hfrom, hnegative.trans (by decide)⟩, if_pos hnegative,
      point, if_neg (by simp [hne])]
    rfl
  have hvalue : Nat.ofDigitChars 10 (['0'] ++ (List.replicate (-first - 1).toNat '0' ++ digits)) 0 =
      Nat.ofDigitChars 10 digits 0 := by
    rw [Nat.ofDigitChars_append, Nat.ofDigitChars_append, Nat.ofDigitChars_replicate_zero]
    rfl
  have hread := hparts.reads
  rw [← htext, hvalue, List.length_append, List.length_replicate] at hread
  rwa [show first + 1 - digits.length = -(((-first - 1).toNat + digits.length : Nat) : Int) by
    omega]

/-- The point may be among the digits. -/
theorem reads_amongDigits (hpositive : 0 ≤ first) (hbelow : first < 16)
    (hlong : first + 1 < digits.length) :
    Reads (realLayout.decimalText digits first)
      (Nat.ofDigitChars 10 digits 0 * 10 ^ (first + 1 - digits.length)) := by
  have hparts : Digits (digits.take (first.toNat + 1)) (digits.drop (first.toNat + 1)) :=
    ⟨fun c hc => hdigits c (List.mem_of_mem_take hc), by simp [hne],
      fun c hc => hdigits c (List.mem_of_mem_drop hc)⟩
  have hdrop : (digits.drop (first.toNat + 1)).isEmpty = false := by
    rw [List.isEmpty_eq_false_iff, Ne, List.drop_eq_nil_iff]
    omega
  have htext : realLayout.decimalText digits first =
      digits.take (first.toNat + 1) ++ point (digits.drop (first.toNat + 1)) := by
    rw [RealLayout.decimalText, if_pos ⟨Int.le_trans (by decide) hpositive, hbelow⟩,
      if_neg (Int.not_lt.2 hpositive), point, hdrop]
    dsimp only
    rw [hdrop, Nat.sub_eq_zero_of_le (by omega), List.replicate_zero, List.append_nil]
    rfl
  have hread := hparts.reads
  rw [← htext, List.take_append_drop, List.length_drop] at hread
  rwa [show first + 1 - digits.length = -((digits.length - (first.toNat + 1) : Nat) : Int) by
    omega]

/-- Zeros may fill the digits up to the point. -/
theorem reads_beforePoint (hpositive : 0 ≤ first) (hbelow : first < 16)
    (hshort : digits.length ≤ first + 1) :
    Reads (realLayout.decimalText digits first)
      (Nat.ofDigitChars 10 digits 0 * 10 ^ (first + 1 - digits.length)) := by
  have hparts : Digits (digits ++ List.replicate (first.toNat + 1 - digits.length) '0') ['0'] := by
    refine ⟨fun c hc => ?_, by simp [hne], by simp⟩
    obtain hc | hzero := List.mem_append.1 hc
    · exact hdigits c hc
    · exact List.eq_of_mem_replicate hzero ▸ rfl
  have htext : realLayout.decimalText digits first =
      digits ++ List.replicate (first.toNat + 1 - digits.length) '0' ++ point ['0'] := by
    rw [RealLayout.decimalText, if_pos ⟨Int.le_trans (by decide) hpositive, hbelow⟩,
      if_neg (Int.not_lt.2 hpositive)]
    dsimp only
    rw [List.take_of_length_le (by omega), List.drop_of_length_le (by omega)]
    rfl
  have hvalue : Nat.ofDigitChars 10
      (digits ++ List.replicate (first.toNat + 1 - digits.length) '0' ++ ['0']) 0 =
        Nat.ofDigitChars 10 digits 0 * 10 ^ (first.toNat + 1 - digits.length) * 10 := by
    rw [Nat.ofDigitChars_append, Nat.ofDigitChars_append, Nat.ofDigitChars_replicate_zero]
    change 10 * _ + 0 = _
    ring
  have hread := hparts.reads
  rw [← htext, hvalue] at hread
  have hpow : (10 : ℚ) ^ (first + 1 - digits.length) =
      10 ^ (first.toNat + 1 - digits.length) * 10 * 10 ^ (-1 : Int) := by
    rw [mul_assoc, ← zpow_one_add₀ (by norm_num), ← zpow_natCast, ← zpow_add₀ (by norm_num)]
    congr 1
    omega
  rw [hpow, ← mul_assoc, ← mul_assoc]
  exact_mod_cast hread

/-- Very great and very small decimals have an exponent. -/
theorem reads_withExponent (hoff : ¬(-5 ≤ first ∧ first < 16)) :
    Reads (realLayout.decimalText digits first)
      (Nat.ofDigitChars 10 digits 0 * 10 ^ (first + 1 - digits.length)) := by
  have hparts : Digits (digits.take 1) (digits.drop 1) :=
    ⟨fun c hc => hdigits c (List.mem_of_mem_take hc), by simp [hne],
      fun c hc => hdigits c (List.mem_of_mem_drop hc)⟩
  have htext : realLayout.decimalText digits first = digits.take 1 ++
      (point (digits.drop 1) ++ 'e' :: ((if 0 ≤ first then ['+'] else []) ++ intText first)) := by
    have hlayout : ¬(realLayout.positionalFrom ≤ first ∧ first < realLayout.positionalBelow) := hoff
    have hsign : (0 ≤ first ∧ realLayout.plusSign = true) ↔ 0 ≤ first := and_iff_left rfl
    rw [RealLayout.decimalText, if_neg hlayout, ← List.append_assoc]
    simp only [hsign]
    rfl
  have hlength := List.length_pos_iff.2 hne
  have hread := hparts.reads_exponent (exponent?_intText first)
  rw [← htext, List.take_append_drop, List.length_drop] at hread
  rwa [show first + 1 - digits.length = first - (digits.length - 1 : Nat) by omega]

/-- A decimal reads as what its digits write, the first of which has the given exponent. -/
theorem reads_decimalText (first : Int) : Reads (realLayout.decimalText digits first)
    (Nat.ofDigitChars 10 digits 0 * 10 ^ (first + 1 - digits.length)) := by
  by_cases hrange : -5 ≤ first ∧ first < 16
  · obtain hnegative | hpositive := Int.lt_or_le first 0
    · exact reads_behindPoint hdigits hne hnegative hrange.1
    obtain hlong | hshort := Int.lt_or_le (first + 1) digits.length
    · exact reads_amongDigits hdigits hne hpositive hrange.2 hlong
    · exact reads_beforePoint hdigits hne hpositive hrange.2 hshort
  · exact reads_withExponent hdigits hne hrange

end Decimals

/-- What is written of a finite double behind its sign. -/
def realMagnitude (x : Binary64) : List Char :=
  if x.isZero then "0.0".toList
  else realLayout.decimalText (Nat.toDigits 10 (shortest x).coefficient)
    ((shortest x).exponent + (Nat.toDigits 10 (shortest x).coefficient).length - 1)

section Doubles

variable {x y : Binary64}

/-- A finite double is written as its sign and its magnitude. -/
theorem realText_eq (h : x.isFinite = true) :
    realText x = if x.isNegative then '-' :: realMagnitude x else realMagnitude x := by
  rw [realText, h]
  rfl

/-- A zero reads as zero. -/
theorem reads_zero (hzero : x.isZero = true) : Reads (realMagnitude x) 0 := by
  rw [realMagnitude, hzero]
  exact ⟨⟨0, -1⟩, rfl, by simp [Decimal.value]⟩

/-- The magnitude of a double that is not zero reads as its shortest decimal. -/
theorem reads_shortest (hzero : x.isZero = false) :
    Reads (realMagnitude x) (shortest x).value := by
  rw [realMagnitude, hzero]
  have hdigits : ∀ c ∈ Nat.toDigits 10 (shortest x).coefficient, c.isDigit = true := fun c hc =>
    Nat.isDigit_of_mem_toDigits (by decide) (by decide) hc
  have hread := reads_decimalText hdigits Nat.toDigits_ne_nil
    ((shortest x).exponent + (Nat.toDigits 10 (shortest x).coefficient).length - 1)
  rw [Nat.ofDigitChars_ten_toDigits, sub_add_cancel, add_sub_cancel_right] at hread
  exact hread

/-- A magnitude does not begin with a sign. -/
theorem realMagnitude_ne_minus (text : List Char) : realMagnitude x ≠ '-' :: text := by
  have hread : ∃ q, Reads (realMagnitude x) q := by
    cases hzero : x.isZero with
    | true => exact ⟨_, reads_zero hzero⟩
    | false => exact ⟨_, reads_shortest hzero⟩
  intro heq
  obtain ⟨q, d, hd, -⟩ := hread
  rw [heq, Turnstile.Number.magnitude?_minus] at hd
  cases hd

/-- Finite doubles whose magnitudes are written in the same way have one magnitude. -/
theorem magnitudeField_eq_of_realMagnitude (hx : x.isFinite = true) (hy : y.isFinite = true)
    (h : realMagnitude x = realMagnitude y) : x.magnitudeField = y.magnitudeField := by
  have hfield {z : Binary64} (hz : z.isZero = true) : z.magnitudeField = 0 := by
    rw [Binary64.isZero, Bool.and_eq_true, beq_iff_eq, beq_iff_eq] at hz
    rw [Binary64.magnitudeField, hz.1, hz.2, Nat.zero_mul, Nat.zero_add]
  cases hxzero : x.isZero <;> cases hyzero : y.isZero
  · have hread := reads_shortest hyzero
    rw [← h] at hread
    exact Binary64.magnitudeField_eq_of_shortest hx hxzero hy hyzero
      ((reads_shortest hxzero).unique hread)
  · have hread := reads_zero hyzero
    rw [← h] at hread
    exact absurd ((reads_shortest hxzero).unique hread)
      (Binary64.shortest_value_pos hx hxzero).ne'
  · have hread := reads_zero hxzero
    rw [h] at hread
    exact absurd ((reads_shortest hyzero).unique hread)
      (Binary64.shortest_value_pos hy hyzero).ne'
  · rw [hfield hxzero, hfield hyzero]

/-- Finite doubles of one text are the same. -/
theorem realText_injective (hx : x.isFinite = true) (hy : y.isFinite = true)
    (h : realText x = realText y) : x = y := by
  rw [realText_eq hx, realText_eq hy] at h
  cases hsignx : x.isNegative <;> cases hsigny : y.isNegative <;> rw [hsignx, hsigny] at h
  · exact Binary64.ext_of_fields (hsignx.trans hsigny.symm)
      (magnitudeField_eq_of_realMagnitude hx hy h)
  · exact absurd h (realMagnitude_ne_minus _)
  · exact absurd h.symm (realMagnitude_ne_minus _)
  · exact Binary64.ext_of_fields (hsignx.trans hsigny.symm)
      (magnitudeField_eq_of_realMagnitude hx hy (List.cons.inj h).2)

end Doubles

/-! ## Texts of numbers -/

/-- The characters that numbers are written with. -/
def isNumberChar (c : Char) : Bool :=
  c.isDigit || c == '-' || c == '+' || c == '.' || c == 'e'

/-- An integer is written with digits and perhaps a minus sign. -/
theorem mem_intText {n : Int} {c : Char} (h : c ∈ intText n) : c.isDigit = true ∨ c = '-' := by
  have hdigits {c : Char} (hc : c ∈ Nat.toDigits 10 n.natAbs) : c.isDigit = true :=
    Nat.isDigit_of_mem_toDigits (by decide) (by decide) hc
  unfold intText at h
  split at h
  · exact (List.mem_cons.1 h).elim .inr fun hc => .inl (hdigits hc)
  · exact .inl (hdigits h)

/-- Different integers are written differently. -/
theorem intText_injective {m n : Int} (h : intText m = intText n) : m = n := by
  have hdigits {a b : Nat} (hab : Nat.toDigits 10 a = Nat.toDigits 10 b) : a = b := by
    rw [← Nat.ofDigitChars_ten_toDigits (n := a), hab, Nat.ofDigitChars_ten_toDigits]
  have hminus (a b : Nat) : Nat.toDigits 10 a ≠ '-' :: Nat.toDigits 10 b := by
    intro heq
    have hmem : '-' ∈ Nat.toDigits 10 a := heq ▸ List.mem_cons_self
    cases Nat.isDigit_of_mem_toDigits (by decide) (by decide) hmem
  unfold intText at h
  split at h <;> split at h
  · have habs := hdigits (List.cons.inj h).2
    omega
  · exact absurd h.symm (hminus _ _)
  · exact absurd h (hminus _ _)
  · have habs := hdigits h
    omega

/-- A decimal has a point or an exponent. -/
theorem exists_mem_decimalText (digits : List Char) (first : Int) :
    ∃ c ∈ realLayout.decimalText digits first, c = '.' ∨ c = 'e' := by
  unfold RealLayout.decimalText
  split
  · split
    · exact ⟨'.', by simp, .inl rfl⟩
    · exact ⟨'.', by simp, .inl rfl⟩
  · exact ⟨'e', by simp, .inr rfl⟩

/-- A digit may be part of a number. -/
theorem isNumberChar_of_isDigit {c : Char} (h : c.isDigit = true) : isNumberChar c = true := by
  rw [isNumberChar, h]
  rfl

/-- An integer has only the characters of numbers. -/
theorem isNumberChar_intText (n : Int) : ∀ c ∈ intText n, isNumberChar c = true := by
  intro c hc
  obtain hdigit | rfl := mem_intText hc
  · exact isNumberChar_of_isDigit hdigit
  · rfl

/-- A decimal has only the characters of numbers. -/
theorem isNumberChar_decimalText {digits : List Char} (h : ∀ c ∈ digits, c.isDigit = true)
    (first : Int) : ∀ c ∈ realLayout.decimalText digits first, isNumberChar c = true := by
  have hdigits : ∀ c ∈ digits, isNumberChar c = true := fun c hc =>
    isNumberChar_of_isDigit (h c hc)
  have htake (n : Nat) : ∀ c ∈ digits.take n, isNumberChar c = true := fun c hc =>
    hdigits c (List.mem_of_mem_take hc)
  have hdrop (n : Nat) : ∀ c ∈ digits.drop n, isNumberChar c = true := fun c hc =>
    hdigits c (List.mem_of_mem_drop hc)
  have hzeros (n : Nat) : ∀ c ∈ List.replicate n '0', isNumberChar c = true := fun c hc =>
    List.eq_of_mem_replicate hc ▸ rfl
  have hzero : isNumberChar '0' = true := rfl
  have hpoint : isNumberChar '.' = true := rfl
  have hletter : isNumberChar 'e' = true := rfl
  have hplus : isNumberChar '+' = true := rfl
  have hnone : ∀ c ∈ ([] : List Char), isNumberChar c = true := nofun
  have hexponent := isNumberChar_intText first
  unfold RealLayout.decimalText
  dsimp only
  split
  · split
    · simp only [List.forall_mem_cons, List.forall_mem_append]
      exact ⟨hzero, hpoint, hzeros _, hdigits⟩
    · simp only [List.forall_mem_cons, List.forall_mem_append]
      refine ⟨⟨htake _, hzeros _⟩, hpoint, ?_⟩
      split
      · exact List.forall_mem_singleton.2 hzero
      · exact hdrop _
  · simp only [List.forall_mem_cons, List.forall_mem_append]
    refine ⟨⟨htake _, ?_⟩, hletter, ?_, hexponent⟩
    · split
      · exact hnone
      · exact List.forall_mem_cons.2 ⟨hpoint, hdrop _⟩
    · split
      · exact List.forall_mem_singleton.2 hplus
      · exact hnone

/-- A double has only the characters of numbers. -/
theorem isNumberChar_realText {x : Binary64} (h : x.isFinite = true) :
    ∀ c ∈ realText x, isNumberChar c = true := by
  have hmagnitude : ∀ c ∈ realMagnitude x, isNumberChar c = true := by
    unfold realMagnitude
    split
    · exact List.all_eq_true.1 rfl
    · exact isNumberChar_decimalText
        (fun c hc => Nat.isDigit_of_mem_toDigits (by decide) (by decide) hc) _
  rw [realText_eq h]
  split
  · exact List.forall_mem_cons.2 ⟨rfl, hmagnitude⟩
  · exact hmagnitude

/-- A double has a point or an exponent. -/
theorem exists_mem_realText {x : Binary64} (h : x.isFinite = true) :
    ∃ c ∈ realText x, c = '.' ∨ c = 'e' := by
  have hmagnitude : ∃ c ∈ realMagnitude x, c = '.' ∨ c = 'e' := by
    unfold realMagnitude
    split
    · exact ⟨'.', by decide, .inl rfl⟩
    · exact exists_mem_decimalText _ _
  obtain ⟨c, hc, hmark⟩ := hmagnitude
  rw [realText_eq h]
  split
  · exact ⟨c, List.mem_cons_of_mem _ hc, hmark⟩
  · exact ⟨c, hc, hmark⟩

/-- No double is written as an integer is. -/
theorem realText_ne_intText {x : Binary64} (h : x.isFinite = true) (n : Int) :
    realText x ≠ intText n := by
  intro heq
  obtain ⟨c, hc, hmark⟩ := exists_mem_realText h
  rw [heq] at hc
  obtain hdigit | rfl := mem_intText hc
  · obtain rfl | rfl := hmark <;> cases hdigit
  · obtain hmark | hmark := hmark <;> exact absurd hmark (by decide)

namespace Number

/-- The number is one that JSON has a text for. -/
def Finite : Number → Prop
  | whole _ => True
  | real x => x.isFinite = true

variable {m n : Number}

/-- Numbers have only the characters of numbers. -/
theorem isNumberChar_render (h : n.Finite) : ∀ c ∈ n.render, isNumberChar c = true := by
  cases n with
  | whole w => exact isNumberChar_intText w.val
  | real x => exact isNumberChar_realText h

/-- Different numbers have different texts. -/
theorem render_injective (hm : m.Finite) (hn : n.Finite) (h : m.render = n.render) : m = n := by
  cases m with
  | whole v =>
    cases n with
    | whole w =>
      have hval := intText_injective h
      cases v
      cases w
      cases hval
      rfl
    | real y => exact absurd h.symm (realText_ne_intText hn v.val)
  | real x =>
    cases n with
    | whole w => exact absurd h (realText_ne_intText hm w.val)
    | real y => exact congrArg real (realText_injective hm hn h)

/-- A number is written with at least one character. -/
theorem render_ne_nil (h : n.Finite) : n.render ≠ [] := by
  cases n with
  | whole w =>
    rw [render, intText]
    split
    · exact List.cons_ne_nil _ _
    · exact Nat.toDigits_ne_nil
  | real x =>
    obtain ⟨c, hc, -⟩ := exists_mem_realText h
    exact List.ne_nil_of_mem hc

end Number

end Turnstile.Json
