import Turnstile.Proofs.Token.Sealing

/-!
# Tokens that have been tampered with

The octets of a token determine its text, and the nonce and the masked payload in them determine
the tag behind them. So of all texts that carry the same nonce and payload one authenticates, apart
from the blanks around it, and the others are refused for their tag. A text that encodes no octets,
or too few of them, is malformed before any tag is looked at.
-/

namespace Turnstile.Token

open Base64Url (IsSymbol)

/-- What makes a text without blanks around it malformed. -/
inductive Flawed (text : String) : Prop
  | padded (hlast : text.toList.getLast? = some '=')
  | foreign {c : Char} (hmem : c ∈ text.toList) (hc : ¬IsSymbol c)
  | spare {n : Nat} (hn : n < 64) (hlast : text.toList.getLast? = some (Base64Url.symbol n))
      (hbits : text.toList.length % 4 = 2 ∧ n % 16 ≠ 0 ∨ text.toList.length % 4 = 3 ∧ n % 4 ≠ 0)
  | short {octets : Bytes} (hoctets : Base64Url.decode (Bytes.ofText text) = .ok octets)
      (hlength : octets.length < nonceLength + tagLength)

/-- A text carries a nonce and a masked payload if it encodes them with a tag of any kind behind
them. -/
def Carries (text : String) (body : Bytes) : Prop :=
  ∃ tag : Bytes, tag.length = tagLength ∧
    Base64Url.decode (Bytes.ofText (Text.trim text)) = .ok (body ++ tag)

/-- An encoding has no blanks around it. -/
theorem trim_encode (octets : Bytes) :
    Text.trim (Base64Url.encode octets) = Base64Url.encode octets := by
  have htrim := @Text.trim_append "" (Base64Url.encode octets) "" nofun
    (fun c hc => isBlank_encode hc) nofun
  rwa [String.empty_append, String.append_empty] at htrim

/-- A flawed text encodes nothing, or too little. -/
theorem Flawed.length_lt {text : String} {octets : Bytes} (h : Flawed text)
    (hdecode : Base64Url.decode (Bytes.ofText text) = .ok octets) :
    octets.length < nonceLength + tagLength := by
  have htext : text = Base64Url.encode octets := Base64Url.decode_eq_ok_iff.1 hdecode
  have hsymbol : ∀ c ∈ text.toList, IsSymbol c := by
    rw [htext]
    exact fun c hc => Base64Url.mem_encode_cases hc
  cases h with
  | padded hlast =>
    have hpad : ¬IsSymbol '=' := by
      unfold IsSymbol
      decide
    exact absurd (hsymbol _ (List.mem_of_getLast? hlast)) hpad
  | foreign hmem hc => exact absurd (hsymbol _ hmem) hc
  | @spare n hn hlast hbits =>
    rw [htext, Base64Url.encode, String.toList_ofList, List.length_map] at hbits
    rw [htext, Base64Url.encode, String.toList_ofList, List.getLast?_map] at hlast
    obtain ⟨m, hm, hsame⟩ := Option.map_eq_some_iff.1 hlast
    have hlt := Base64Url.lt_of_mem_sextets (List.mem_of_getLast? hm)
    rw [← Base64Url.symbol_inj hlt hn hsame] at hbits
    have hspare := Base64Url.spare_sextets hm
    omega
  | short hoctets hlength =>
    cases hoctets.symm.trans hdecode
    exact hlength

namespace Cipher

variable (cipher : Cipher)

/-- The tag that is expected behind a nonce and a masked payload. -/
def expectedTag (body : Bytes) : Bytes :=
  Gcm.tag cipher.encryptBlock (nonceOf body) (body.drop nonceLength)

/-- The nonce is found in the first twelve octets. -/
theorem nonceOf_append {body : Bytes} (hbody : nonceLength ≤ body.length) (tag : Bytes) :
    nonceOf (body ++ tag) = nonceOf body := by
  refine Vector.ext fun i hi => ?_
  have hi' : i < body.length := Nat.lt_of_lt_of_le hi hbody
  rw [nonceOf, nonceOf, Vector.getElem_ofFn, Vector.getElem_ofFn, List.getD_eq_getElem?_getD,
    List.getD_eq_getElem?_getD, List.getElem?_append_left hi']

/-- The expected tag gives way to the payload, and every other one is refused. -/
theorem unframe_append {body tag : Bytes} (hbody : nonceLength ≤ body.length)
    (htag : tag.length = tagLength) :
    cipher.unframe (body ++ tag) =
      if tag = cipher.expectedTag body then
        .ok (Gcm.mask cipher.encryptBlock (nonceOf body) (body.drop nonceLength))
      else .error .authentication := by
  have hlength : ¬(body ++ tag).length < nonceLength + tagLength := by
    rw [List.length_append, htag]
    omega
  have hsealed : (body ++ tag).drop nonceLength = body.drop nonceLength ++ tag :=
    List.drop_append_of_le_length hbody
  rw [unframe, if_neg hlength, nonceOf_append hbody, hsealed, Gcm.decipher?_append _ _ htag,
    expectedTag]
  by_cases hsame : tag = Gcm.tag cipher.encryptBlock (nonceOf body) (body.drop nonceLength)
  · rw [if_pos hsame, if_pos hsame]
  · rw [if_neg hsame, if_neg hsame]

/-- What a token says depends on the octets that it encodes. -/
theorem payload_of_decode {text : String} {octets : Bytes}
    (h : Base64Url.decode (Bytes.ofText (Text.trim text)) = .ok octets) :
    cipher.payload text = cipher.unframe octets := by
  rw [Cipher.payload, h]

/-- A text authenticates if it opens to whatever can be read of a payload. -/
def Authenticates (text : String) : Prop :=
  ∃ payload, ∀ (α : Type) (read : Bytes → Except Json.ReadError α),
    cipher.openWith read text = (read payload).mapError fun fault => .malformed (.payload fault)

/-- A text is refused if it does not open, whatever is to be read of it. -/
def Refuses (text : String) (e : CipherError) : Prop :=
  ∀ (α : Type) (read : Bytes → Except Json.ReadError α), cipher.openWith read text = .error e

variable {text : String}

/-- A text whose payload is found authenticates. -/
theorem authenticates_of_payload {payload : Bytes} (h : cipher.payload text = .ok payload) :
    cipher.Authenticates text :=
  ⟨payload, fun _ read => cipher.openWith_of_payload h read⟩

/-- A text whose payload is not found is refused. -/
theorem refuses_of_payload {e : CipherError} (h : cipher.payload text = .error e) :
    cipher.Refuses text e := by
  intro α read
  rw [openWith, h]
  rfl

/-- A flawed text is malformed. -/
theorem refuses_of_flawed (h : Flawed (Text.trim text)) :
    ∃ fault, cipher.Refuses text (.malformed fault) := by
  cases hdecode : Base64Url.decode (Bytes.ofText (Text.trim text)) with
  | error fault =>
    refine ⟨.encoding fault, cipher.refuses_of_payload ?_⟩
    rw [Cipher.payload, hdecode]
  | ok octets =>
    refine ⟨.tooShort octets.length, cipher.refuses_of_payload ?_⟩
    rw [cipher.payload_of_decode hdecode, unframe, if_pos (h.length_lt hdecode)]

/-- Of the texts that carry a nonce and a masked payload, exactly one authenticates, whatever blanks
stand around it, and all others are refused for their tag. A text that is padded, has foreign
characters or bits to spare, or encodes fewer octets than a nonce and a tag take, is malformed. -/
theorem one_carrier_authenticates (cipher : Cipher) :
    (∀ body : Bytes, nonceLength ≤ body.length →
      ∃ token, Text.trim token = token ∧ Carries token body ∧ ∀ text, Carries text body →
        (Text.trim text = token → cipher.Authenticates text) ∧
        (Text.trim text ≠ token → cipher.Refuses text .authentication)) ∧
    ∀ text, Flawed (Text.trim text) → ∃ fault, cipher.Refuses text (.malformed fault) := by
  refine ⟨fun body hbody => ?_, fun text hflawed => cipher.refuses_of_flawed hflawed⟩
  have hexpected : (cipher.expectedTag body).length = tagLength := Gcm.length_tag ..
  have hencoded := Base64Url.decode_encode (body ++ cipher.expectedTag body)
  rw [← trim_encode] at hencoded
  -- The one text is the encoding with the expected tag; a text and its octets determine each other.
  refine ⟨_, trim_encode _, ⟨_, hexpected, hencoded⟩, ?_⟩
  rintro text ⟨tag, htag, hdecode⟩
  have hpayload := cipher.payload_of_decode hdecode
  rw [cipher.unframe_append hbody htag] at hpayload
  refine ⟨fun hsame => ?_, fun hother => ?_⟩
  · have hoctets := Except.ok.inj (hdecode.symm.trans (Base64Url.decode_eq_ok_iff.2 hsame))
    rw [if_pos (List.append_cancel_left hoctets)] at hpayload
    exact cipher.authenticates_of_payload hpayload
  · have hne : tag ≠ cipher.expectedTag body := by
      intro hsame
      rw [hsame] at hdecode
      exact hother (Base64Url.decode_eq_ok_iff.1 hdecode)
    rw [if_neg hne] at hpayload
    exact cipher.refuses_of_payload hpayload

/-- A token stands between a blank and a new line; with every octet of its tag changed it is
refused; and a padded text is malformed. -/
theorem one_carrier_authenticates_of_flipped : ∃ cipher token tag,
    ofMaterial .aes256 [0x6B] = .ok cipher ∧
    Base64Url.decode (Bytes.ofText token) = .ok (List.replicate 13 0 ++ tag) ∧
    cipher.Authenticates (" " ++ token ++ "\n") ∧
    cipher.Refuses (Base64Url.encode (List.replicate 13 0 ++ tag.map (· ^^^ 1))) .authentication ∧
    ∃ fault, cipher.Refuses " AAA=" (.malformed fault) := by
  have hmaterial : ∃ cipher, ofMaterial .aes256 [0x6B] = .ok cipher := ⟨_, rfl⟩
  obtain ⟨cipher, hcipher⟩ := hmaterial
  obtain ⟨hcarriers, hflawed⟩ := one_carrier_authenticates cipher
  obtain ⟨token, htrim, ⟨tag, htag, hdecode⟩, hopens⟩ :=
    hcarriers (List.replicate 13 0) (by decide)
  rw [htrim] at hdecode
  have htoken : token = Base64Url.encode (List.replicate 13 0 ++ tag) :=
    Base64Url.decode_eq_ok_iff.1 hdecode
  have hblanks : Text.trim (" " ++ token ++ "\n") = token := by
    refine Text.trim_append ?_ (fun c hc => isBlank_encode (htoken ▸ hc)) ?_ <;>
      exact fun c hc => by cases List.mem_singleton.1 hc; rfl
  have hflipped : tag.map (· ^^^ 1) ≠ tag := by
    cases tag with
    | nil => cases htag
    | cons b tag =>
      intro hsame
      have hb : b ^^^ 1 = b := (List.cons.inj hsame).1
      have hone : (1 : UInt8) = b ^^^ b := by
        rw [← UInt8.xor_right_inj b, hb, UInt8.xor_self, UInt8.xor_zero]
      cases hone.trans (UInt8.xor_self)
  have hother := trim_encode (List.replicate 13 0 ++ tag.map (· ^^^ 1))
  have hoctets := Base64Url.decode_encode (List.replicate 13 0 ++ tag.map (· ^^^ 1))
  rw [← hother] at hoctets
  have hcarries : Carries (" " ++ token ++ "\n") (List.replicate 13 0) :=
    ⟨tag, htag, hblanks.symm ▸ hdecode⟩
  refine ⟨cipher, token, tag, hcipher, hdecode, (hopens _ hcarries).1 hblanks, ?_, ?_⟩
  · refine (hopens _ ⟨tag.map (· ^^^ 1), by rw [List.length_map, htag], hoctets⟩).2 ?_
    intro hsame
    rw [hsame] at hoctets
    exact hflipped (List.append_cancel_left (Except.ok.inj (hoctets.symm.trans hdecode)))
  · exact hflawed " AAA=" (.padded (by decide +kernel))

end Cipher
end Turnstile.Token
