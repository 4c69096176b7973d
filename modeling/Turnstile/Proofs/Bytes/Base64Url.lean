import Turnstile.Bytes.Base64Url
import Turnstile.Proofs.Bytes.Utf8
import Turnstile.Proofs.Text.Readers

/-!
# Reading unpadded base64url back

Every six-bit number has a symbol of its own, which is a character of ASCII. The numbers of
octets come in groups of four, of which the last one may be short by one or two but never by
three, and give the octets back.
-/

namespace Turnstile.Base64Url

/-- The byte of a six-bit number's symbol. -/
def code (n : Nat) : UInt8 := UInt8.ofNat (symbol n).toNat

/-- A symbol is a character of ASCII. -/
theorem symbol_toNat_lt {n : Nat} (h : n < 64) : (symbol n).toNat < 128 := by
  have hall : ∀ n < 64, (symbol n).toNat < 128 := by decide
  exact hall n h

/-- The symbols are the letters, the digits, the hyphen and the underscore. -/
theorem symbol_cases {n : Nat} (h : n < 64) : (symbol n).isUpper = true ∨
    (symbol n).isLower = true ∨ (symbol n).isDigit = true ∨ symbol n = '-' ∨ symbol n = '_' := by
  have hall : ∀ n < 64, (symbol n).isUpper = true ∨ (symbol n).isLower = true ∨
      (symbol n).isDigit = true ∨ symbol n = '-' ∨ symbol n = '_' := by decide
  exact hall n h

/-- A symbol is read as its number. -/
theorem sextet?_code {n : Nat} (h : n < 64) : sextet? (code n) = some n := by
  have hall : ∀ n < 64, sextet? (code n) = some n := by decide
  exact hall n h

/-- Every number has a symbol of its own. -/
theorem symbol_inj {m n : Nat} (hm : m < 64) (hn : n < 64) (h : symbol m = symbol n) : m = n := by
  have hread := sextet?_code hm
  rw [code, h] at hread
  exact Option.some.inj (hread.symm.trans (sextet?_code hn))

/-- The numbers of octets have six bits. -/
theorem lt_of_mem_sextets {bytes : Bytes} {n : Nat} (h : n ∈ sextets bytes) : n < 64 := by
  induction bytes using sextets.induct with
  | case1 => cases h
  | case2 a =>
    have ha := a.toNat_lt
    simp only [sextets, List.mem_cons, List.not_mem_nil, or_false] at h
    omega
  | case3 a b =>
    have ha := a.toNat_lt
    have hb := b.toNat_lt
    simp only [sextets, List.mem_cons, List.not_mem_nil, or_false] at h
    omega
  | case4 a b c rest ih =>
    have ha := a.toNat_lt
    have hb := b.toNat_lt
    have hc := c.toNat_lt
    simp only [sextets, List.mem_cons] at h
    rcases h with h | h | h | h | h
    · omega
    · omega
    · omega
    · omega
    · exact ih h

/-- The numbers of octets leave no single one over. -/
theorem length_sextets (bytes : Bytes) : (sextets bytes).length % 4 ≠ 1 := by
  induction bytes using sextets.induct with
  | case1 => decide
  | case2 a => simp only [sextets, List.length_cons, List.length_nil]; decide
  | case3 a b => simp only [sextets, List.length_cons, List.length_nil]; decide
  | case4 a b c rest ih =>
    simp only [sextets, List.length_cons]
    omega

/-- The numbers of octets give the octets back. -/
theorem octets?_sextets (bytes : Bytes) : octets? (sextets bytes) = some bytes := by
  have hbyte {n : Nat} {a : UInt8} (h : n % 256 = a.toNat) : UInt8.ofNat n = a := by
    rw [← UInt8.toNat_inj, UInt8.toNat_ofNat']
    exact h
  induction bytes using sextets.induct with
  | case1 => rfl
  | case2 a =>
    have ha := a.toNat_lt
    rw [sextets, octets?, if_pos (by omega), @hbyte _ a (by omega)]
  | case3 a b =>
    have ha := a.toNat_lt
    have hb := b.toNat_lt
    rw [sextets, octets?, if_pos (by omega)]
    rw [@hbyte _ a (by omega), @hbyte _ b (by omega)]
  | case4 a b c rest ih =>
    have ha := a.toNat_lt
    have hb := b.toNat_lt
    have hc := c.toNat_lt
    rw [sextets, octets?, ih, Option.map_some]
    rw [@hbyte _ a (by omega), @hbyte _ b (by omega), @hbyte _ c (by omega)]

/-- The bytes of an encoding are the codes of its numbers. -/
theorem ofText_encode (bytes : Bytes) : Bytes.ofText (encode bytes) = (sextets bytes).map code := by
  rw [encode, Bytes.ofText_ofList]
  have hchars (numbers : List Nat) (h : ∀ n ∈ numbers, n < 64) :
      Bytes.ofChars (numbers.map symbol) = numbers.map code := by
    induction numbers with
    | nil => rfl
    | cons n numbers ih =>
      have hascii := Bytes.utf8EncodeChar_of_lt (symbol_toNat_lt (h n List.mem_cons_self))
      rw [List.map_cons, Bytes.ofChars_cons, hascii,
        ih fun m hm => h m (List.mem_cons_of_mem _ hm)]
      rfl
  exact hchars _ fun n hn => lt_of_mem_sextets hn

/-- Codes are read as their numbers. -/
theorem sextetsOf_code (length offset : Nat) {numbers : List Nat} (h : ∀ n ∈ numbers, n < 64) :
    sextetsOf length offset (numbers.map code) = .ok numbers := by
  induction numbers generalizing offset with
  | nil => rfl
  | cons n numbers ih =>
    have hrest := ih (offset + 1) fun m hm => h m (List.mem_cons_of_mem _ hm)
    rw [List.map_cons, sextetsOf, sextet?_code (h n List.mem_cons_self), hrest]
    rfl

/-- An encoding is read back. -/
theorem decode_encode (bytes : Bytes) : decode (Bytes.ofText (encode bytes)) = .ok bytes := by
  have hlength : ((sextets bytes).map code).length % 4 ≠ 1 := by
    rw [List.length_map]
    exact length_sextets bytes
  have hstray : strayEnd? ((sextets bytes).map code) = none := by
    unfold strayEnd?
    split
    · exact if_neg fun h => hlength h.1
    · rfl
  have hnumbers : sextetsOf ((sextets bytes).map code).length 0 ((sextets bytes).map code) =
      .ok (sextets bytes) := sextetsOf_code _ _ fun n hn => lt_of_mem_sextets hn
  rw [ofText_encode, decode, hstray, hnumbers]
  dsimp only [Bind.bind, Except.bind]
  rw [if_neg hlength, octets?_sextets]
  rfl

/-- An encoding has no other characters than the symbols. -/
theorem mem_encode_cases {bytes : Bytes} {c : Char} (h : c ∈ (encode bytes).toList) :
    c.isUpper = true ∨ c.isLower = true ∨ c.isDigit = true ∨ c = '-' ∨ c = '_' := by
  rw [encode, String.toList_ofList] at h
  obtain ⟨n, hn, rfl⟩ := List.mem_map.1 h
  exact symbol_cases (lt_of_mem_sextets hn)

/-! ## What is read is what is written -/

/-- Only the code of a number is read as it. -/
theorem code_of_sextet? {b : UInt8} {n : Nat} (h : sextet? b = some n) : n < 64 ∧ code n = b := by
  have hall : ∀ b < 256, ∀ n ∈ sextet? (UInt8.ofNat b), n < 64 ∧ code n = UInt8.ofNat b := by
    decide +kernel
  have hbyte := hall b.toNat b.toNat_lt n
  rw [UInt8.ofNat_toNat] at hbyte
  exact hbyte h

/-- Only codes are read as numbers. -/
theorem sextetsOf_eq_ok {length offset : Nat} {text : Bytes} {numbers : List Nat}
    (h : sextetsOf length offset text = .ok numbers) :
    (∀ n ∈ numbers, n < 64) ∧ text = numbers.map code := by
  induction text generalizing offset numbers with
  | nil =>
    cases h
    exact ⟨nofun, rfl⟩
  | cons b text ih =>
    rw [sextetsOf] at h
    cases hsextet : sextet? b with
    | none =>
      rw [hsextet] at h
      cases h
    | some n =>
      rw [hsextet] at h
      obtain ⟨more, hmore, hnumbers⟩ := Text.except_bind_eq_ok h
      cases hnumbers
      obtain ⟨hlt, htext⟩ := ih hmore
      obtain ⟨hn, hcode⟩ := code_of_sextet? hsextet
      rw [List.map_cons, hcode, ← htext]
      exact ⟨List.forall_mem_cons.2 ⟨hn, hlt⟩, rfl⟩

/-- Octets have no other numbers than those that they are read from. -/
theorem sextets_of_octets? {numbers : List Nat} {bytes : Bytes} (hlt : ∀ n ∈ numbers, n < 64)
    (h : octets? numbers = some bytes) : sextets bytes = numbers := by
  induction numbers using octets?.induct generalizing bytes with
  | case1 =>
    cases h
    rfl
  | case2 => cases h
  | case3 a b hspare =>
    rw [octets?, if_pos hspare] at h
    cases h
    have ha := hlt a (by simp)
    have hb := hlt b (by simp)
    simp only [sextets, UInt8.toNat_ofNat', List.cons.injEq, and_true]
    omega
  | case4 a b hspare =>
    rw [octets?, if_neg hspare] at h
    cases h
  | case5 a b c hspare =>
    rw [octets?, if_pos hspare] at h
    cases h
    have ha := hlt a (by simp)
    have hb := hlt b (by simp)
    have hc := hlt c (by simp)
    simp only [sextets, UInt8.toNat_ofNat', List.cons.injEq, and_true]
    omega
  | case6 a b c hspare =>
    rw [octets?, if_neg hspare] at h
    cases h
  | case7 a b c d rest ih =>
    rw [octets?] at h
    obtain ⟨more, hmore, hbytes⟩ := Option.map_eq_some_iff.1 h
    cases hbytes
    have ha := hlt a (by simp)
    have hb := hlt b (by simp)
    have hc := hlt c (by simp)
    have hd := hlt d (by simp)
    rw [sextets, ih (fun n hn => hlt n (by simp [hn])) hmore]
    simp only [UInt8.toNat_ofNat', List.cons.injEq, and_true]
    omega

/-- A text is read as certain octets only if it is their encoding. -/
theorem decode_eq_ok_iff {text : String} {bytes : Bytes} :
    decode (Bytes.ofText text) = .ok bytes ↔ text = encode bytes := by
  refine ⟨fun h => ?_, fun h => h ▸ decode_encode bytes⟩
  have hnumbers : ∃ numbers, sextetsOf (Bytes.ofText text).length 0 (Bytes.ofText text) =
      .ok numbers ∧ octets? numbers = some bytes := by
    rw [decode] at h
    dsimp only at h
    cases hstray : strayEnd? (Bytes.ofText text) with
    | some fault =>
      rw [hstray] at h
      cases h
    | none =>
      rw [hstray] at h
      obtain ⟨numbers, hsextets, hoctets⟩ := Text.except_bind_eq_ok h
      refine ⟨numbers, hsextets, ?_⟩
      split at hoctets
      · cases hoctets
      · cases hfound : octets? numbers with
        | none =>
          rw [hfound] at hoctets
          cases hoctets
        | some found =>
          rw [hfound] at hoctets
          cases hoctets
          rfl
  obtain ⟨numbers, hsextets, hoctets⟩ := hnumbers
  obtain ⟨hlt, htext⟩ := sextetsOf_eq_ok hsextets
  rw [← sextets_of_octets? hlt hoctets, ← ofText_encode] at htext
  have hsame := congrArg Bytes.toText? htext
  rw [Bytes.toText?_ofText, Bytes.toText?_ofText] at hsame
  exact Option.some.inj hsame

/-- The symbols that a text may consist of: letters, digits, the hyphen and the underscore. -/
def IsSymbol (c : Char) : Prop :=
  c.isUpper = true ∨ c.isLower = true ∨ c.isDigit = true ∨ c = '-' ∨ c = '_'

/-- The bits of the last number that belong to no octet are zero. -/
theorem spare_sextets {bytes : Bytes} {n : Nat} (h : (sextets bytes).getLast? = some n) :
    ((sextets bytes).length % 4 = 2 → n % 16 = 0) ∧
      ((sextets bytes).length % 4 = 3 → n % 4 = 0) := by
  induction bytes using sextets.induct with
  | case1 => cases h
  | case2 a =>
    simp only [sextets, List.getLast?_cons_cons, List.getLast?_singleton, Option.some.injEq] at h
    simp only [sextets, List.length_cons, List.length_nil]
    omega
  | case3 a b =>
    simp only [sextets, List.getLast?_cons_cons, List.getLast?_singleton, Option.some.injEq] at h
    simp only [sextets, List.length_cons, List.length_nil]
    omega
  | case4 a b c rest ih =>
    simp only [sextets, List.length_cons]
    cases hrest : sextets rest with
    | nil =>
      simp only [List.length_nil]
      omega
    | cons m more =>
      rw [sextets, hrest, List.getLast?_cons_cons, List.getLast?_cons_cons,
        List.getLast?_cons_cons, List.getLast?_cons_cons, ← hrest] at h
      have hspare := ih h
      rw [hrest] at hspare
      omega

end Turnstile.Base64Url
