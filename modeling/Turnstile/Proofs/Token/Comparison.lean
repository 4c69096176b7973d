import Mathlib.Data.List.Forall2
import Turnstile.Token.Cipher

/-!
# Comparing tokens

The comparison that gathers all differences in one octet finds the same as any other one:
nothing of a difference is lost in the gathering, since no octet cancels another one.
-/

namespace Turnstile

/-- Different texts have different octets. -/
theorem Bytes.ofText_inj {a b : String} : ofText a = ofText b ↔ a = b := by
  constructor
  · intro h
    have hread := congrArg toText? h
    rw [toText?_ofText, toText?_ofText] at hread
    exact Option.some.inj hread
  · rintro rfl
    rfl

namespace Token

/-- The gathered octet is zero exactly if all octets are. -/
theorem gathered_eq_zero (octets : Bytes) (first : UInt8) :
    octets.foldl (· ||| ·) first = 0 ↔ first = 0 ∧ ∀ octet ∈ octets, octet = 0 := by
  induction octets generalizing first with
  | nil => simp
  | cons octet octets ih =>
    rw [List.foldl_cons, ih, UInt8.or_eq_zero_iff, List.forall_mem_cons, and_assoc]

/-- The differences of two octet strings are all zero exactly if every pair of octets agrees. -/
theorem zipWith_xor_eq_zero (a b : Bytes) :
    (∀ octet ∈ List.zipWith (· ^^^ ·) a b, octet = 0) ↔ ∀ pair ∈ a.zip b, pair.1 = pair.2 := by
  rw [← List.map_uncurry_zip_eq_zipWith, List.forall_mem_map]
  exact forall₂_congr fun pair _ => UInt8.xor_eq_zero_iff

/-- The gathered difference of two octet strings is zero exactly if every pair of octets agrees. -/
theorem gathered_xor_eq_zero (a b : Bytes) :
    (List.zipWith (· ^^^ ·) a b).foldl (· ||| ·) 0 = 0 ↔ ∀ pair ∈ a.zip b, pair.1 = pair.2 := by
  rw [gathered_eq_zero, zipWith_xor_eq_zero, and_iff_right rfl]

/-- Octet strings are equal exactly if they have one length and every pair of octets agrees. -/
theorem eq_iff_zip {a b : Bytes} :
    a = b ↔ a.length = b.length ∧ ∀ pair ∈ a.zip b, pair.1 = pair.2 := by
  rw [← List.forall₂_eq_eq_eq, List.forall₂_iff_zip, Prod.forall]

/-- The comparison of octet strings answers whether they are equal. -/
theorem sameOctets_eq_true {a b : Bytes} : sameOctets a b = true ↔ a = b := by
  rw [sameOctets, Bool.and_eq_true, beq_iff_eq, beq_iff_eq, gathered_xor_eq_zero, eq_iff_zip]

/-- The comparison of texts answers whether they are equal. -/
theorem sameText_eq_true {a b : String} : sameText a b = true ↔ a = b :=
  sameOctets_eq_true.trans Bytes.ofText_inj

end Token
end Turnstile
