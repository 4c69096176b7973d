import Turnstile.Json.Reader
import Turnstile.Proofs.Bytes.Utf8
import Turnstile.Proofs.Text.Readers

/-!
# Reading scalars back

A string is read back from its text in quotes, escape by escape. A whole number is read back
from its digits, as long as nothing follows that could belong to a number.
-/

namespace Turnstile.Json.Reader

open Bytes (ofChars)
open Text (bind_of_ok get_bind map_of_ok set_bind)

/-! ## Bytes that come next -/

/-- A reader may pass over a byte. -/
theorem advance_bind {β : Type} (b : UInt8) (s : Bytes) (next : Unit → Reader β) :
    (advance >>= next) (b :: s) = next () s := rfl

/-- A byte that is not blank is the next one. -/
theorem peek_cons {b : UInt8} (h : isBlank b = false) (rest : Bytes) :
    peek (b :: rest) = .ok (some b, b :: rest) := by
  have hrest : (b :: rest).dropWhile isBlank = b :: rest := by
    rw [List.dropWhile_cons_of_neg]
    rw [h]
    decide
  rw [peek, hrest]
  rfl

/-- A character of ASCII has one byte. -/
theorem ofChars_cons_of_lt {c : Char} (h : c.toNat < 128) (chars : List Char) :
    ofChars (c :: chars) = byte c :: ofChars chars := by
  rw [Bytes.ofChars_cons, Bytes.utf8EncodeChar_of_lt h]
  rfl

/-! ## Strings -/

/-- Bytes that are neither quotes nor escapes nor control characters stand for themselves. -/
theorem unquote_plain {plain : Bytes}
    (h : ∀ b ∈ plain, b ≠ byte '"' ∧ b ≠ byte '\\' ∧ ¬b < 0x20) (reversed s : Bytes) :
    unquote reversed (plain ++ s) = unquote (plain.reverse ++ reversed) s := by
  induction plain generalizing reversed with
  | nil => rfl
  | cons b plain ih =>
    obtain ⟨hquote, hescape, hcontrol⟩ := h b List.mem_cons_self
    have hstep : unquote reversed (b :: (plain ++ s)) = unquote (b :: reversed) (plain ++ s) := by
      rw [unquote.eq_def]
      dsimp only
      rw [if_neg hquote, if_neg hescape, if_neg hcontrol]
    rw [List.cons_append, hstep, ih (fun c hc => h c (List.mem_cons_of_mem _ hc)),
      List.reverse_cons, List.append_assoc]
    rfl

/-- An escape of one letter stands for its byte. -/
theorem unquote_simple {e b : UInt8} (h : simpleEscape? e = some b) (reversed s : Bytes) :
    unquote reversed (byte '\\' :: e :: s) = unquote (b :: reversed) s := by
  rw [unquote.eq_def]
  dsimp only
  rw [if_neg (by decide), if_pos rfl, h]

/-- An escape of four digits below the surrogates stands for its code point. -/
theorem unquote_hex {h₀ h₁ h₂ h₃ : UInt8} {n : Nat} (h : hex4? h₀ h₁ h₂ h₃ = some n)
    (hn : n < 0xD800) (reversed s : Bytes) :
    unquote reversed (byte '\\' :: byte 'u' :: h₀ :: h₁ :: h₂ :: h₃ :: s) =
      unquote (pushCodePoint n reversed) s := by
  have hsimple : simpleEscape? (byte 'u') = none := rfl
  rw [unquote.eq_def]
  dsimp only
  rw [if_neg (by decide), if_pos rfl, hsimple]
  dsimp only
  rw [if_pos rfl, h]
  dsimp only
  rw [if_neg (by omega), if_pos (.inl hn)]

/-- A control character is read back from its four digits. -/
theorem unquote_control {c : Char} (h : c.toNat < 0x20) (reversed s : Bytes) :
    unquote reversed (ofChars ['\\', 'u', '0', '0', Hex.digit (c.toNat / 16),
      Hex.digit (c.toNat % 16)] ++ s) =
        unquote ((String.utf8EncodeChar c).reverse ++ reversed) s := by
  have hdigits : ∀ n < 0x20,
      ofChars ['\\', 'u', '0', '0', Hex.digit (n / 16), Hex.digit (n % 16)] =
        [byte '\\', byte 'u', byte '0', byte '0', byte (Hex.digit (n / 16)),
          byte (Hex.digit (n % 16))] ∧
      hex4? (byte '0') (byte '0') (byte (Hex.digit (n / 16))) (byte (Hex.digit (n % 16))) =
        some n := by
    decide
  obtain ⟨hbytes, hvalue⟩ := hdigits c.toNat h
  rw [hbytes]
  refine (unquote_hex hvalue (by omega) reversed s).trans ?_
  rw [pushCodePoint, Char.ofNat_toNat]

/-- A character is read back from what stands for it. -/
theorem unquote_escapeChar (c : Char) (reversed s : Bytes) :
    unquote reversed (ofChars (escapeChar c) ++ s) =
      unquote ((String.utf8EncodeChar c).reverse ++ reversed) s := by
  unfold escapeChar
  -- Seven characters have an escape of one letter.
  iterate 7
    split
    · rename_i hc
      subst hc
      exact unquote_simple rfl reversed s
  split
  · exact unquote_control ‹_› reversed s
  rename_i hquote hescape _ _ _ _ _ hcontrol
  rw [Bytes.ofChars_cons, Bytes.ofChars_nil, List.append_nil]
  refine unquote_plain ?_ reversed s
  intro b hb
  by_cases hascii : c.toNat < 128
  · have hbyte : b.toNat = c.toNat := by
      rw [Bytes.utf8EncodeChar_of_lt hascii, List.mem_singleton] at hb
      rw [hb, UInt8.toNat_ofNat']
      omega
    have hne (d : Char) (hd : d.toNat < 128) (hcd : c ≠ d) : b ≠ byte d := by
      intro heq
      have hnat : b.toNat = d.toNat := by
        rw [heq, byte, UInt8.toNat_ofNat']
        omega
      exact hcd (Char.toNat_inj.1 (hbyte.symm.trans hnat))
    refine ⟨hne _ (by decide) hquote, hne _ (by decide) hescape, fun hlt => hcontrol ?_⟩
    rw [← hbyte]
    exact UInt8.lt_iff_toNat_lt.1 hlt
  · have hle := Bytes.le_of_mem_utf8EncodeChar (Nat.not_lt.1 hascii) hb
    have hne (d : UInt8) (hd : d.toNat < 128) : b ≠ d := by
      rintro rfl
      omega
    refine ⟨hne _ (by decide), hne _ (by decide), fun hlt => ?_⟩
    have hlt : b.toNat < 32 := UInt8.lt_iff_toNat_lt.1 hlt
    omega

/-- Characters are read back from what stands for them, up to the closing quote. -/
theorem unquote_chars (chars : List Char) (reversed rest : Bytes) :
    unquote reversed (ofChars (chars.flatMap escapeChar) ++ byte '"' :: rest) =
      .ok (reversed.reverse ++ ofChars chars, rest) := by
  induction chars generalizing reversed with
  | nil =>
    rw [List.flatMap_nil, Bytes.ofChars_nil, List.nil_append, List.append_nil, unquote.eq_def]
    dsimp only
    rw [if_pos rfl]
  | cons c chars ih =>
    rw [List.flatMap_cons, Bytes.ofChars_append, List.append_assoc, unquote_escapeChar, ih,
      List.reverse_append, List.reverse_reverse, List.append_assoc, Bytes.ofChars_cons]

/-- The bytes of a text in quotes. -/
theorem ofChars_quoted (text : String) : ofChars (quoted text) =
    byte '"' :: (ofChars (text.toList.flatMap escapeChar) ++ [byte '"']) := by
  rw [quoted, ofChars_cons_of_lt (by decide), Bytes.ofChars_append]
  rfl

/-- A text is read back from its quotes. -/
theorem stringBody_quoted (text : String) (rest : Bytes) :
    stringBody (ofChars (text.toList.flatMap escapeChar) ++ byte '"' :: rest) =
      .ok (text, rest) := by
  have hcontent : Bytes.toText? (ofChars text.toList) = some text := by
    rw [← Bytes.ofText_eq]
    exact Bytes.toText?_ofText text
  have hunquote := unquote_chars text.toList [] rest
  rw [List.reverse_nil, List.nil_append] at hunquote
  rw [stringBody, hunquote]
  dsimp only [Bind.bind, Except.bind]
  rw [hcontent]

/-! ## Whole numbers -/

/-- Something that closes an item or a member comes next, or nothing at all. -/
def Closed (s : Bytes) : Prop :=
  ∀ b ∈ s.head?, b = byte ',' ∨ b = byte ']' ∨ b = byte '\x7d'

/-- The byte of a digit. -/
theorem byte_digit {c : Char} (h : c.isDigit = true) :
    isDigit (byte c) = true ∧ (byte c).toNat - 48 = c.toNat - '0'.toNat ∧ c.toNat < 128 := by
  have hrange : 48 ≤ c.toNat ∧ c.toNat ≤ 57 := by
    simp only [Char.isDigit, Bool.and_eq_true, decide_eq_true_eq, UInt32.le_iff_toNat_le,
      ge_iff_le] at h
    exact h
  have hbyte : (byte c).toNat = c.toNat := by
    rw [byte, UInt8.toNat_ofNat']
    omega
  refine ⟨?_, by rw [hbyte]; rfl, by omega⟩
  rw [isDigit, Bool.and_eq_true, decide_eq_true_eq, decide_eq_true_eq, UInt8.le_iff_toNat_le,
    UInt8.le_iff_toNat_le, hbyte]
  exact hrange

/-- What is not a digit is another byte. -/
theorem ne_of_isDigit {b c : UInt8} (h : isDigit b = true) (hc : isDigit c = false) : b ≠ c := by
  rintro rfl
  cases hc.symm.trans h

/-- A digit is not blank. -/
theorem isBlank_of_isDigit {b : UInt8} (h : isDigit b = true) : isBlank b = false := by
  have hne {c : UInt8} (hc : isDigit c = false) : b ≠ c := ne_of_isDigit h hc
  simp [isBlank, hne (c := 0x20) rfl, hne (c := 0x0A) rfl, hne (c := 0x09) rfl,
    hne (c := 0x0D) rfl]

/-- The digits of a number begin with one. -/
theorem ofChars_toDigits (n : Nat) :
    ∃ b rest, ofChars (Nat.toDigits 10 n) = b :: rest ∧ isDigit b = true := by
  cases hchars : Nat.toDigits 10 n with
  | nil => exact absurd hchars Nat.toDigits_ne_nil
  | cons c chars =>
    have hdigit : c.isDigit = true := by
      refine Nat.isDigit_of_mem_toDigits (b := 10) (n := n) (by decide) (by decide) ?_
      rw [hchars]
      exact List.mem_cons_self
    rw [ofChars_cons_of_lt (byte_digit hdigit).2.2]
    exact ⟨_, _, rfl, (byte_digit hdigit).1⟩

/-- Digits have one byte each. -/
theorem ofChars_digits {digits : List Char} (h : ∀ c ∈ digits, c.isDigit = true) :
    ofChars digits = digits.map byte := by
  induction digits with
  | nil => rfl
  | cons c digits ih =>
    rw [ofChars_cons_of_lt (byte_digit (h c List.mem_cons_self)).2.2, List.map_cons,
      ih fun d hd => h d (List.mem_cons_of_mem _ hd)]

/-- Digits end where something closes. -/
theorem span_digits {digits : List Char} (h : ∀ c ∈ digits, c.isDigit = true) {rest : Bytes}
    (hrest : Closed rest) :
    (digits.map byte ++ rest).takeWhile isDigit = digits.map byte ∧
      (digits.map byte ++ rest).dropWhile isDigit = rest := by
  have hdigits : ∀ b ∈ digits.map byte, isDigit b = true := by
    intro b hb
    obtain ⟨c, hc, rfl⟩ := List.mem_map.1 hb
    exact (byte_digit (h c hc)).1
  refine Text.span_append hdigits fun b hb => ?_
  obtain rfl | rfl | rfl := hrest b hb <;> rfl

/-- More digits make no smaller number. -/
theorem le_ofDigitChars (digits : List Char) (start : Nat) :
    start ≤ Nat.ofDigitChars 10 digits start := by
  induction digits generalizing start with
  | nil => exact Nat.le_refl start
  | cons c digits ih =>
    rw [Nat.ofDigitChars_cons]
    have hrest := ih (10 * start + (c.toNat - '0'.toNat))
    omega

/-- Digits are added to a significand that stays within the bound. -/
theorem absorb_digits {digits : List Char} (h : ∀ c ∈ digits, c.isDigit = true) {start : Nat}
    (hbound : Nat.ofDigitChars 10 digits start ≤ significandBound) :
    absorb start (digits.map byte) = (Nat.ofDigitChars 10 digits start, []) := by
  induction digits generalizing start with
  | nil => rfl
  | cons c digits ih =>
    have hdigit := (byte_digit (h c List.mem_cons_self)).2.1
    have hnext : start * 10 + ((byte c).toNat - 48) = 10 * start + (c.toNat - '0'.toNat) := by
      rw [hdigit, Nat.mul_comm]
    rw [Nat.ofDigitChars_cons] at hbound ⊢
    have hle := le_ofDigitChars digits (10 * start + (c.toNat - '0'.toNat))
    rw [List.map_cons, absorb, hnext, if_neg (Nat.not_lt.2 (Nat.le_trans hle hbound))]
    exact ih (fun d hd => h d (List.mem_cons_of_mem _ hd)) hbound

/-- A number that is not zero does not begin with a zero. -/
theorem head?_toDigits {n : Nat} (h : n ≠ 0) : (Nat.toDigits 10 n).head? ≠ some '0' := by
  induction n using Nat.strongRecOn with
  | ind n ih =>
    by_cases hn : n < 10
    · have hall : ∀ n < 10, n ≠ 0 → n.digitChar ≠ '0' := by decide
      rw [Nat.toDigits_of_lt_base hn]
      exact fun heq => hall n hn h (Option.some.inj heq)
    · have hle : 10 ≤ n := Nat.not_lt.1 hn
      have hfront := ih (n / 10) (by omega) (by omega)
      rw [Nat.toDigits_of_base_le (by decide) hle]
      cases hdigits : Nat.toDigits 10 (n / 10) with
      | nil => exact absurd hdigits Nat.toDigits_ne_nil
      | cons c digits =>
        rw [hdigits] at hfront
        exact hfront

/-- A number is read back from its digits. -/
theorem number_digits (positive : Bool) {n : Nat} (hn : n ≤ significandBound) {rest : Bytes}
    (hrest : Closed rest) :
    number positive (ofChars (Nat.toDigits 10 n) ++ rest) =
      .ok (wholeOrReal positive n, rest) := by
  have hdigits : ∀ c ∈ Nat.toDigits 10 n, c.isDigit = true := fun c hc =>
    Nat.isDigit_of_mem_toDigits (by decide) (by decide) hc
  have hvalue : Nat.ofDigitChars 10 (Nat.toDigits 10 n) 0 = n :=
    Nat.ofDigitChars_toDigits (by decide) (by decide)
  have habsorb : absorb 0 ((Nat.toDigits 10 n).map byte) = (n, []) := by
    rw [absorb_digits hdigits (by rw [hvalue]; exact hn), hvalue]
  obtain ⟨htake, hdrop⟩ := span_digits hdigits hrest
  rw [← ofChars_digits hdigits] at habsorb htake hdrop
  -- The first digit of several is not a zero.
  have hfirst : ∀ d more, ofChars (Nat.toDigits 10 n) = d :: more →
      ¬(d = byte '0' ∧ ¬more.isEmpty = true) := by
    rintro d more heq ⟨hd, hmore⟩
    rw [ofChars_digits hdigits] at heq
    obtain ⟨c, chars, hchars, hc, hrest⟩ := List.map_eq_cons_iff.1 heq
    have hc : c = '0' := by
      have hdigit := (byte_digit (hdigits c (by rw [hchars]; exact List.mem_cons_self))).2.2
      have hnat := congrArg UInt8.toNat (hc.trans hd)
      rw [byte, UInt8.toNat_ofNat'] at hnat
      refine Char.toNat_inj.1 ((Nat.mod_eq_of_lt ?_).symm.trans hnat)
      omega
    have hzero : n = 0 := by
      refine Decidable.byContradiction fun hne => head?_toDigits hne ?_
      rw [hchars, hc]
      rfl
    rw [hzero, Nat.toDigits_zero] at hchars
    cases hchars
    cases hrest
    exact hmore rfl
  rw [number, get_bind]
  dsimp only
  rw [htake, hdrop]
  cases hbytes : ofChars (Nat.toDigits 10 n) with
  | nil =>
    rw [ofChars_digits hdigits] at hbytes
    exact absurd (List.map_eq_nil_iff.1 hbytes) Nat.toDigits_ne_nil
  | cons d more =>
    dsimp only
    rw [if_neg (hfirst d more hbytes), set_bind, get_bind, ← hbytes, habsorb]
    cases rest with
    | nil => rfl
    | cons b rest =>
      obtain rfl | rfl | rfl := hrest b rfl <;> rfl

/-- A whole number is the one of its magnitude and sign. -/
theorem wholeOrReal_natAbs (w : Whole) :
    wholeOrReal (decide (0 ≤ w.val)) w.val.natAbs = .whole w := by
  obtain ⟨val, lower, upper⟩ := w
  have hfits : Whole.ofInt? val = some ⟨val, lower, upper⟩ := dif_pos ⟨lower, upper⟩
  by_cases hval : 0 ≤ val
  · have habs : (val.natAbs : Int) = val := Int.natAbs_of_nonneg hval
    rw [decide_eq_true hval, wholeOrReal, if_pos rfl, habs, hfits]
  · have habs : -(val.natAbs : Int) = val := by omega
    have hne : val.natAbs ≠ 0 := by omega
    rw [decide_eq_false hval, wholeOrReal, if_neg (by decide), if_neg hne, habs, hfits]

/-- The magnitude of a whole number fits a significand. -/
theorem natAbs_le (w : Whole) : w.val.natAbs ≤ significandBound := by
  obtain ⟨val, lower, upper⟩ := w
  have hbound : significandBound = 0xFFFFFFFFFFFFFFFF := rfl
  dsimp only
  omega

variable (array object : Reader Value)

/-- A digit begins a number. -/
theorem valueWith_digit {b : UInt8} (h : isDigit b = true) (s : Bytes) :
    valueWith array object (b :: s) = (Value.number <$> number true) (b :: s) := by
  have hne {c : UInt8} (hc : isDigit c = false) : b ≠ c := ne_of_isDigit h hc
  rw [valueWith, bind_of_ok (peek_cons (isBlank_of_isDigit h) s)]
  dsimp only
  rw [if_neg (hne rfl), if_neg (hne rfl), if_neg (hne rfl), if_neg (hne rfl), if_pos h]

/-- A whole number is read back from its text. -/
theorem valueWith_whole (w : Whole) {rest : Bytes} (hrest : Closed rest) :
    valueWith array object (ofChars (intText w.val) ++ rest) = .ok (.number (.whole w), rest) := by
  have hread (positive : Bool) := number_digits positive (natAbs_le w) hrest
  have hsame := wholeOrReal_natAbs w
  unfold intText
  split
  · rename_i hneg
    rw [decide_eq_false (Int.not_le.2 hneg)] at hsame
    rw [ofChars_cons_of_lt (by decide)]
    have hnumber := hread false
    rw [hsame] at hnumber
    exact map_of_ok Value.number hnumber
  · rename_i hpos
    rw [decide_eq_true (Int.not_lt.1 hpos)] at hsame
    have hnumber := hread true
    rw [hsame] at hnumber
    obtain ⟨b, more, hbytes, hdigit⟩ := ofChars_toDigits w.val.natAbs
    rw [hbytes] at hnumber ⊢
    exact (valueWith_digit array object hdigit _).trans (map_of_ok Value.number hnumber)

/-- A string is read back from its text. -/
theorem valueWith_string (text : String) (rest : Bytes) :
    valueWith array object (ofChars (quoted text) ++ rest) = .ok (.string text, rest) := by
  rw [ofChars_quoted, List.cons_append, List.append_assoc]
  exact map_of_ok Value.string (stringBody_quoted text rest)

end Turnstile.Json.Reader
