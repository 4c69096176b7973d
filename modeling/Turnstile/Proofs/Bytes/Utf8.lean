import Turnstile.Bytes

/-!
# The bytes of characters

A text has the bytes of its characters, one after another. A character of ASCII has one byte,
its number; no other character has a byte below 128.
-/

namespace Turnstile.Bytes

/-- The bytes of characters, one after another. -/
def ofChars (chars : List Char) : Bytes := chars.flatMap String.utf8EncodeChar

@[simp] theorem ofChars_nil : ofChars [] = [] := rfl

@[simp] theorem ofChars_cons (c : Char) (chars : List Char) :
    ofChars (c :: chars) = String.utf8EncodeChar c ++ ofChars chars := List.flatMap_cons

@[simp] theorem ofChars_append (front back : List Char) :
    ofChars (front ++ back) = ofChars front ++ ofChars back := List.flatMap_append

/-- A text made of characters has their bytes. -/
theorem ofText_ofList (chars : List Char) : ofText (String.ofList chars) = ofChars chars := by
  rw [ofText, String.toByteArray_ofList]
  exact List.toList_data_toByteArray

/-- A text has the bytes of its characters. -/
theorem ofText_eq (text : String) : ofText text = ofChars text.toList := by
  rw [← ofText_ofList, String.ofList_toList]

/-- A character of ASCII has its number as its only byte. -/
theorem utf8EncodeChar_of_lt {c : Char} (h : c.toNat < 128) :
    String.utf8EncodeChar c = [UInt8.ofNat c.toNat] := by
  have hsize : c.utf8Size = 1 :=
    Char.utf8Size_eq_one_iff.2 (UInt32.le_iff_toNat_le.2 (Nat.le_of_lt_succ h))
  rw [String.utf8EncodeChar_eq_singleton hsize]
  rfl

/-- The bytes of another character are no numbers of ASCII. -/
theorem le_of_mem_utf8EncodeChar {c : Char} (h : 128 ≤ c.toNat) {b : UInt8}
    (hb : b ∈ String.utf8EncodeChar c) : 128 ≤ b.toNat := by
  have hor (a mark : UInt8) (hmark : 128 ≤ mark.toNat) : 128 ≤ (a ||| mark).toNat := by
    rw [UInt8.toNat_or]
    exact Nat.le_trans hmark Nat.right_le_or
  obtain hsize | hsize | hsize | hsize := Char.utf8Size_eq c
  · have hlt : c.toNat ≤ 127 := UInt32.le_iff_toNat_le.1 (Char.utf8Size_eq_one_iff.1 hsize)
    omega
  · rw [String.utf8EncodeChar_eq_cons_cons hsize] at hb
    simp only [List.mem_cons, List.not_mem_nil, or_false] at hb
    rcases hb with rfl | rfl <;> exact hor _ _ (by decide)
  · rw [String.utf8EncodeChar_eq_cons_cons_cons hsize] at hb
    simp only [List.mem_cons, List.not_mem_nil, or_false] at hb
    rcases hb with rfl | rfl | rfl <;> exact hor _ _ (by decide)
  · rw [String.utf8EncodeChar_eq_cons_cons_cons_cons hsize] at hb
    simp only [List.mem_cons, List.not_mem_nil, or_false] at hb
    rcases hb with rfl | rfl | rfl | rfl <;> exact hor _ _ (by decide)

/-- Characters have at least as many bytes as they are. -/
theorem length_le_length_ofChars (chars : List Char) :
    chars.length ≤ (ofChars chars).length := by
  induction chars with
  | nil => exact Nat.le_refl 0
  | cons c chars ih =>
    have hpos : 0 < (String.utf8EncodeChar c).length := by
      rw [String.length_utf8EncodeChar]
      exact c.utf8Size_pos
    rw [ofChars_cons, List.length_append, List.length_cons]
    omega

end Turnstile.Bytes
