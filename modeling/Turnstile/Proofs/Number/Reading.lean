import Turnstile.Number.Reading
import Turnstile.Proofs.Number.Shortest
import Turnstile.Proofs.Text.Readers

/-!
# Decimals as they are read

Digits with a point among them, and perhaps an exponent behind them, read as one rational number.
A text that begins with a sign does not read as a magnitude.
-/

namespace Turnstile.Number

/-- A text without sign reads as a rational number. -/
def Reads (text : List Char) (q : ℚ) : Prop :=
  ∃ d : Decimal, magnitude? text = some (.decimal d.coefficient d.exponent) ∧ d.value = q

/-- A text reads as one number. -/
theorem Reads.unique {text : List Char} {q r : ℚ} (hq : Reads text q) (hr : Reads text r) :
    q = r := by
  obtain ⟨d, hd, rfl⟩ := hq
  obtain ⟨e, he, rfl⟩ := hr
  obtain ⟨hcoefficient, hexponent⟩ := Magnitude.decimal.inj (Option.some.inj (hd.symm.trans he))
  rw [Decimal.value, Decimal.value, hcoefficient, hexponent]

theorem digitsValue_eq (start : Nat) (digits : List Char) :
    digitsValue start digits = Nat.ofDigitChars 10 digits start := by
  rw [digitsValue, Nat.ofDigitChars_eq_foldl]
  congr 1
  funext n c
  rw [Nat.mul_comm]
  rfl

/-- A digit is no letter. -/
theorem toLower_of_isDigit {c : Char} (h : c.isDigit = true) : c.toLower = c := by
  rw [Char.isDigit, Bool.and_eq_true, decide_eq_true_eq, decide_eq_true_eq] at h
  have hlower : ¬(c.val ≥ 'A'.val ∧ c.val ≤ 'Z'.val) := fun hupper =>
    absurd (UInt32.le_trans hupper.1 h.2) (by decide)
  exact dif_neg hlower

/-- The fraction of a decimal after its point, if there is one. -/
def point (fraction : List Char) : List Char := if fraction.isEmpty then [] else '.' :: fraction

/-- What is read in front of an exponent, if there is one. -/
structure Digits (whole fraction : List Char) : Prop where
  whole_isDigit : ∀ c ∈ whole, c.isDigit = true
  whole_ne_nil : whole ≠ []
  fraction_isDigit : ∀ c ∈ fraction, c.isDigit = true

namespace Digits

variable {whole fraction tail : List Char} (h : Digits whole fraction)

include h

/-- Digits are not the name of a number. -/
theorem toLower_ne {c : Char} (hc : c.isDigit = false) (name : List Char) :
    (whole ++ tail).map Char.toLower ≠ c :: name := by
  cases hwhole : whole with
  | nil => exact absurd hwhole h.whole_ne_nil
  | cons d digits =>
    have hd : d.isDigit = true := h.whole_isDigit d (hwhole ▸ List.mem_cons_self)
    rw [List.cons_append, List.map_cons, toLower_of_isDigit hd]
    intro heq
    rw [(List.cons.inj heq).1, hc] at hd
    cases hd

/-- The run of digits in front is the whole part. -/
theorem span_whole (htail : ∀ c ∈ tail.head?, c = 'e') :
    (whole ++ (point fraction ++ tail)).takeWhile Char.isDigit = whole ∧
      (whole ++ (point fraction ++ tail)).dropWhile Char.isDigit = point fraction ++ tail := by
  refine Text.span_append h.whole_isDigit ?_
  unfold point
  split
  · intro c hc
    rw [htail c hc]
    rfl
  · intro c hc
    rw [← Option.some.inj hc]
    rfl

/-- The run of digits behind the point is the fraction. -/
theorem span_fraction (htail : ∀ c ∈ tail.head?, c = 'e') :
    (fraction ++ tail).takeWhile Char.isDigit = fraction ∧
      (fraction ++ tail).dropWhile Char.isDigit = tail := by
  refine Text.span_append h.fraction_isDigit fun c hc => ?_
  rw [htail c hc]
  rfl

/-- Digits are read, and what comes behind them decides on the exponent. -/
theorem magnitude?_eq (htail : ∀ c ∈ tail.head?, c = 'e') :
    magnitude? (whole ++ (point fraction ++ tail)) =
      if tail.isEmpty then some (.decimal (Nat.ofDigitChars 10 (whole ++ fraction) 0)
        (-(fraction.length : Int)))
      else (exponent? tail.tail).map fun e =>
        .decimal (Nat.ofDigitChars 10 (whole ++ fraction) 0) (e - fraction.length) := by
  have hwhole := h.span_whole htail
  have hfraction := h.span_fraction htail
  have hempty : whole.isEmpty = false := by simpa using h.whole_ne_nil
  have hinfinite : ¬((decide ((whole ++ (point fraction ++ tail)).map Char.toLower =
      "inf".toList) || decide ((whole ++ (point fraction ++ tail)).map Char.toLower =
        "infinity".toList)) = true) := by
    rw [Bool.or_eq_true, decide_eq_true_eq, decide_eq_true_eq]
    rintro (heq | heq)
    · exact h.toLower_ne rfl _ heq
    · exact h.toLower_ne rfl _ heq
  have hnan : (whole ++ (point fraction ++ tail)).map Char.toLower ≠ "nan".toList :=
    h.toLower_ne rfl _
  have hvalue : digitsValue (digitsValue 0 whole) fraction =
      Nat.ofDigitChars 10 (whole ++ fraction) 0 := by
    rw [digitsValue_eq, digitsValue_eq, Nat.ofDigitChars_append]
  unfold magnitude?
  dsimp only
  rw [if_neg hinfinite, if_neg hnan, hwhole.1, hwhole.2, hempty, ← hvalue]
  cases hcases : fraction with
  | nil =>
    have hpoint : point [] = [] := rfl
    rw [hpoint, List.nil_append]
    cases tail with
    | nil => rfl
    | cons c more =>
      obtain rfl := htail c rfl
      rfl
  | cons d digits =>
    have hpoint : point (d :: digits) = '.' :: d :: digits := rfl
    rw [hcases] at hfraction
    rw [hpoint, List.cons_append]
    simp only [hfraction.1, hfraction.2, Bool.false_and, Bool.false_eq_true, if_false]
    cases tail with
    | nil => rfl
    | cons c more =>
      obtain rfl := htail c rfl
      rfl

/-- Digits without an exponent read as what they write. -/
theorem reads : Reads (whole ++ point fraction)
    (Nat.ofDigitChars 10 (whole ++ fraction) 0 * 10 ^ (-(fraction.length : Int))) := by
  have hread : magnitude? (whole ++ (point fraction ++ [])) = _ := h.magnitude?_eq nofun
  rw [List.append_nil] at hread
  exact ⟨⟨_, _⟩, hread, rfl⟩

/-- Digits with an exponent read as what they write. -/
theorem reads_exponent {more : List Char} {e : Int} (he : exponent? more = some e) :
    Reads (whole ++ (point fraction ++ 'e' :: more))
      (Nat.ofDigitChars 10 (whole ++ fraction) 0 * 10 ^ (e - fraction.length)) := by
  have hread : magnitude? (whole ++ (point fraction ++ 'e' :: more)) = _ :=
    h.magnitude?_eq fun c hc => (Option.some.inj hc).symm
  rw [if_neg (by simp), List.tail_cons, he] at hread
  exact ⟨⟨_, _⟩, hread, rfl⟩

end Digits

/-- A sign is not read. -/
theorem magnitude?_minus (text : List Char) : magnitude? ('-' :: text) = none := by
  unfold magnitude?
  dsimp only
  rw [if_neg, if_neg]
  · rfl
  · exact fun heq => absurd (List.cons.inj heq).1 (by decide)
  · rw [Bool.or_eq_true, decide_eq_true_eq, decide_eq_true_eq]
    rintro (heq | heq)
    · exact absurd (List.cons.inj heq).1 (by decide)
    · exact absurd (List.cons.inj heq).1 (by decide)

/-- A sign and digits are read as an exponent. -/
theorem exponent?_toDigits (n : Nat) :
    exponent? ('-' :: Nat.toDigits 10 n) = some (-(n : Int)) ∧
      exponent? ('+' :: Nat.toDigits 10 n) = some (n : Int) := by
  have hall : (Nat.toDigits 10 n).all Char.isDigit = true :=
    List.all_eq_true.2 fun c hc => Nat.isDigit_of_mem_toDigits (by decide) (by decide) hc
  have hempty : (Nat.toDigits 10 n).isEmpty = false := by simp [Nat.toDigits_ne_nil]
  have hvalue : digitsValue 0 (Nat.toDigits 10 n) = n := by
    rw [digitsValue_eq, Nat.ofDigitChars_ten_toDigits]
  constructor
  · change (if (Nat.toDigits 10 n).isEmpty || !(Nat.toDigits 10 n).all Char.isDigit then none
      else some (-(digitsValue 0 (Nat.toDigits 10 n) : Int))) = _
    rw [hall, hempty, hvalue]
    rfl
  · change (if (Nat.toDigits 10 n).isEmpty || !(Nat.toDigits 10 n).all Char.isDigit then none
      else some (digitsValue 0 (Nat.toDigits 10 n) : Int)) = _
    rw [hall, hempty, hvalue]
    rfl

end Turnstile.Number

