import Turnstile.Bytes.Hex
import Turnstile.Proofs.Bytes.Utf8

/-!
# Reading percent-encoded text back

A character of ASCII may be written by its number in two hexadecimal digits, in either letter case.
Which characters are written so does not matter, as long as the percent sign itself is among them.
-/

namespace Turnstile

/-- A hexadecimal digit is a character of ASCII. -/
theorem Hex.toNat_lt_of_digitValue? {c : Char} {n : Nat} (h : digitValue? c = some n) :
    c.toNat < 128 := by
  have hle {a b : Char} (hab : a ≤ b) : a.toNat ≤ b.toNat := UInt32.le_iff_toNat_le.1 hab
  rw [digitValue?] at h
  split at h
  · rename_i hdigit
    exact Nat.lt_of_le_of_lt (hle hdigit.2) (by decide)
  · split at h
    · rename_i hlower
      exact Nat.lt_of_le_of_lt (hle hlower.2) (by decide)
    · split at h
      · rename_i hupper
        exact Nat.lt_of_le_of_lt (hle hupper.2) (by decide)
      · cases h

namespace Percent

/-- A text is written with some of its characters percent-encoded. -/
inductive Writes : List Char → List Char → Prop
  | nil : Writes [] []
  | plain {c : Char} {text written : List Char} (h : Writes text written) :
      Writes (c :: text) (c :: written)
  | encoded {c high low : Char} {a b : Nat} {text written : List Char}
      (hhigh : Hex.digitValue? high = some a) (hlow : Hex.digitValue? low = some b)
      (hc : c.toNat = 16 * a + b) (h : Writes text written) :
      Writes (c :: text) ('%' :: high :: low :: written)

variable {text written : List Char}

/-- A character that is neither in the text nor used for encoding is not written. -/
theorem Writes.not_mem {d : Char} (h : Writes text written) (hd : d ∉ text) (hpercent : d ≠ '%')
    (hdigit : Hex.digitValue? d = none) : d ∉ written := by
  have hne {c : Char} {n : Nat} (hc : Hex.digitValue? c = some n) : d ≠ c := by
    rintro rfl
    rw [hdigit] at hc
    cases hc
  induction h with
  | nil => exact hd
  | plain _ ih =>
    simp only [List.mem_cons, not_or] at hd ⊢
    exact ⟨hd.1, ih hd.2⟩
  | encoded hhigh hlow _ _ ih =>
    simp only [List.mem_cons, not_or] at hd ⊢
    exact ⟨hpercent, hne hhigh, hne hlow, ih hd.2⟩

/-- An octet that is no percent sign stands for itself. -/
theorem decode_cons_of_ne {octet : UInt8} (h : octet ≠ 0x25) (rest : Bytes) :
    decode (octet :: rest) = octet :: decode rest := by
  rw [decode]
  intro a b rest' hoctet
  exact absurd hoctet h

/-- A percent sign with two digits behind it is an octet. -/
theorem decode_encoded {high low : Char} {a b : Nat} (hhigh : Hex.digitValue? high = some a)
    (hlow : Hex.digitValue? low = some b) (rest : Bytes) :
    decode (0x25 :: UInt8.ofNat high.toNat :: UInt8.ofNat low.toNat :: rest) =
      UInt8.ofNat (16 * a + b) :: decode rest := by
  have hchar {c : Char} {n : Nat} (hc : Hex.digitValue? c = some n) :
      Char.ofNat (UInt8.ofNat c.toNat).toNat = c := by
    have hlt := Hex.toNat_lt_of_digitValue? hc
    rw [UInt8.toNat_ofNat_of_lt' (by simp [UInt8.size]; omega), Char.ofNat_toNat]
  rw [decode, hchar hhigh, hchar hlow, hhigh, hlow]

/-- What has been written is read back, if the text is of ASCII and without percent signs. -/
theorem Writes.decode_eq (h : Writes text written) (hascii : ∀ c ∈ text, c.toNat < 128)
    (hpercent : '%' ∉ text) : decode (Bytes.ofChars written) = Bytes.ofChars text := by
  induction h with
  | nil => rfl
  | @plain c text written h ih =>
    obtain ⟨hc, hrest⟩ := List.forall_mem_cons.1 hascii
    simp only [List.mem_cons, not_or] at hpercent
    obtain ⟨hne, hnot⟩ := hpercent
    have hoctet : UInt8.ofNat c.toNat ≠ 0x25 := by
      intro heq
      have hnumber := congrArg UInt8.toNat heq
      rw [UInt8.toNat_ofNat_of_lt' (Nat.lt_trans hc (by decide))] at hnumber
      have hchar : '%'.toNat = c.toNat := hnumber.symm
      exact hne (Char.toNat_inj.1 hchar)
    rw [Bytes.ofChars_cons, Bytes.ofChars_cons, Bytes.utf8EncodeChar_of_lt hc,
      List.singleton_append, decode_cons_of_ne hoctet, ih hrest hnot, List.singleton_append]
  | @encoded c high low a b text written hhigh hlow hc h ih =>
    obtain ⟨hlt, hrest⟩ := List.forall_mem_cons.1 hascii
    simp only [List.mem_cons, not_or] at hpercent
    obtain ⟨-, hnot⟩ := hpercent
    have hwritten : Bytes.ofChars ('%' :: high :: low :: written) =
        0x25 :: UInt8.ofNat high.toNat :: UInt8.ofNat low.toNat :: Bytes.ofChars written := by
      simp only [Bytes.ofChars_cons, Bytes.utf8EncodeChar_of_lt (Hex.toNat_lt_of_digitValue? hhigh),
        Bytes.utf8EncodeChar_of_lt (Hex.toNat_lt_of_digitValue? hlow)]
      rfl
    rw [hwritten, decode_encoded hhigh hlow, ih hrest hnot, Bytes.ofChars_cons,
      Bytes.utf8EncodeChar_of_lt hlt, hc, List.singleton_append]

end Percent
end Turnstile
