import Turnstile.Proofs.Bytes.Base64Url
import Turnstile.Proofs.Json.Values
import Turnstile.Proofs.Text.Trimming
import Turnstile.Token.Cipher

/-!
# Opening what has been sealed

The mask of a text is lifted by masking it again, and the tag behind it is the one that it is
expected to have. So a token opens to the value that it was made of, for every key and nonce, and
for all blanks around it.
-/

namespace Turnstile

namespace Text

/-- Trimming takes the blanks around a text away, if there are none in it. -/
theorem trim_append {before text after : String} (hbefore : ∀ c ∈ before.toList, isBlank c = true)
    (htext : ∀ c ∈ text.toList, isBlank c = false)
    (hafter : ∀ c ∈ after.toList, isBlank c = true) : trim (before ++ text ++ after) = text :=
  (trimmed_of_forall htext).trim_append hbefore hafter

end Text

namespace Gcm

open Aes (Block)

variable (encrypt : Block → Block) (nonce : Nonce)

/-- A block of the mask has sixteen octets. -/
theorem length_keystream (blocks counter : Nat) :
    (keystream encrypt nonce blocks counter).length = 16 * blocks := by
  induction blocks generalizing counter with
  | zero => rfl
  | succ blocks ih =>
    rw [keystream, List.length_append, ih, Vector.length_toList]
    omega

/-- The mask covers the text. -/
theorem length_mask (text : Bytes) : (mask encrypt nonce text).length = text.length := by
  rw [mask, Bytes.xor, List.length_zipWith, length_keystream]
  omega

/-- Masking twice gives the text back. -/
theorem mask_mask (text : Bytes) : mask encrypt nonce (mask encrypt nonce text) = text := by
  have hcovers : text.length ≤
      (keystream encrypt nonce ((text.length + 15) / 16) 2).length := by
    rw [length_keystream]
    omega
  have htwice : mask encrypt nonce (mask encrypt nonce text) =
      Bytes.xor (mask encrypt nonce text)
        (keystream encrypt nonce ((text.length + 15) / 16) 2) := by
    rw [mask, length_mask]
  rw [htwice]
  exact Bytes.xor_xor_cancel hcovers

/-- A tag has sixteen octets. -/
theorem length_tag (masked : Bytes) : (tag encrypt nonce masked).length = 16 := by
  rw [tag, Bytes.xor, List.length_zipWith, Bytes.length_ofNat, Vector.length_toList]
  rfl

/-- Only the tag of a masked text is accepted behind it. -/
theorem decipher?_append {tag : Bytes} (htag : tag.length = 16) (masked : Bytes) :
    decipher? encrypt nonce (masked ++ tag) =
      if tag = Gcm.tag encrypt nonce masked then some (mask encrypt nonce masked) else none := by
  have hfront : (masked ++ tag).length - 16 = masked.length := by
    rw [List.length_append, htag, Nat.add_sub_cancel]
  rw [decipher?, hfront, List.take_left, List.drop_left]

/-- What has been enciphered is deciphered. -/
theorem decipher?_encipher (text : Bytes) :
    decipher? encrypt nonce (encipher encrypt nonce text) = some text := by
  rw [encipher, decipher?_append _ _ (length_tag ..), if_pos rfl, mask_mask]

end Gcm

namespace Token

/-- A symbol of base64url is not blank. -/
theorem isBlank_encode {octets : Bytes} {c : Char} (h : c ∈ (Base64Url.encode octets).toList) :
    Text.isBlank c = false := by
  have hall : ∀ n < 64, Text.isBlank (Base64Url.symbol n) = false := by decide
  rw [Base64Url.encode, String.toList_ofList] at h
  obtain ⟨n, hn, rfl⟩ := List.mem_map.1 h
  exact hall n (Base64Url.lt_of_mem_sextets hn)

namespace Cipher

variable (cipher : Cipher) (nonce : Nonce)

/-- The nonce comes first in the octets of a token. -/
theorem nonceOf_frame (payload : Bytes) : nonceOf (cipher.frame nonce payload) = nonce := by
  refine Vector.ext fun i hi => ?_
  have hi' : i < nonce.toList.length := by rw [Vector.length_toList]; exact hi
  rw [nonceOf, Vector.getElem_ofFn, frame, List.getD_eq_getElem?_getD,
    List.getElem?_append_left hi', List.getElem?_eq_getElem hi', Option.getD_some,
    Vector.getElem_toList]

/-- The payload is found in the octets of a token. -/
theorem unframe_frame (payload : Bytes) :
    cipher.unframe (cipher.frame nonce payload) = .ok payload := by
  have hnonce : nonce.toList.length = nonceLength := Vector.length_toList
  have hlength : ¬(cipher.frame nonce payload).length < nonceLength + tagLength := by
    rw [frame, Gcm.encipher, List.length_append, List.length_append, Gcm.length_tag, hnonce,
      tagLength]
    omega
  have hsealed : (cipher.frame nonce payload).drop nonceLength =
      Gcm.encipher cipher.encryptBlock nonce payload := by
    rw [frame, ← hnonce, List.drop_left]
  rw [unframe, if_neg hlength, nonceOf_frame, hsealed, Gcm.decipher?_encipher]

/-- Tokens of different nonces differ. -/
theorem issue_inj_nonce {nonce nonce' : Nonce} {payload payload' : Bytes}
    (h : cipher.issue nonce payload = cipher.issue nonce' payload') : nonce = nonce' := by
  have hdecode := congrArg (fun token => Base64Url.decode (Bytes.ofText token)) h
  dsimp only [issue] at hdecode
  rw [Base64Url.decode_encode, Base64Url.decode_encode] at hdecode
  have hnonce := congrArg nonceOf (Except.ok.inj hdecode)
  rw [nonceOf_frame, nonceOf_frame] at hnonce
  exact hnonce

/-- The payload of a token is found, whatever blanks stand around the token. -/
theorem payload_issue (payload : Bytes) {before after : String}
    (hbefore : ∀ c ∈ before.toList, Text.isBlank c = true)
    (hafter : ∀ c ∈ after.toList, Text.isBlank c = true) :
    cipher.payload (before ++ cipher.issue nonce payload ++ after) = .ok payload := by
  rw [Cipher.payload, issue, Text.trim_append hbefore (fun c hc => isBlank_encode hc) hafter,
    Base64Url.decode_encode]
  exact cipher.unframe_frame nonce payload

/-- What is read of a token is read of its payload. -/
theorem openWith_of_payload {α : Type} {text : String} {payload : Bytes}
    (h : cipher.payload text = .ok payload) (read : Bytes → Except Json.ReadError α) :
    cipher.openWith read text =
      (read payload).mapError fun fault => .malformed (.payload fault) := by
  rw [openWith, h]
  dsimp only [Bind.bind, Except.bind]
  cases read payload with
  | ok a => rfl
  | error fault => rfl

/-- The token of a value opens to what is read of the value's text. -/
theorem openWith_issueValue {α : Type} (read : Bytes → Except Json.ReadError α) (v : Json.Value)
    (a : α) :
    cipher.openWith read (cipher.issueValue nonce v) = .ok a ↔ read v.toBytes = .ok a := by
  have hpayload : cipher.payload ("" ++ cipher.issue nonce v.toBytes ++ "") = .ok v.toBytes :=
    cipher.payload_issue nonce v.toBytes nofun nofun
  rw [String.empty_append, String.append_empty] at hpayload
  rw [issueValue, cipher.openWith_of_payload hpayload]
  cases read v.toBytes with
  | ok found =>
    change (Except.ok found : Except CipherError α) = .ok a ↔ _
    rw [Except.ok.injEq, Except.ok.injEq]
  | error fault =>
    constructor
    · intro h
      cases h
    · intro h
      cases h

/-- The token of a value opens to the value, unless that nests too deep to be read. -/
theorem openValue_append {v : Json.Value} (hordered : v.Ordered) (hreal : v.RealFree)
    {before after : String} (hbefore : ∀ c ∈ before.toList, Text.isBlank c = true)
    (hafter : ∀ c ∈ after.toList, Text.isBlank c = true) :
    cipher.openValue (before ++ cipher.issueValue nonce v ++ after) =
      if v.depth < 128 then .ok v else .error (.malformed (.payload .nestingLimit)) := by
  rw [openValue, issueValue, cipher.openWith_of_payload (payload_issue _ _ _ hbefore hafter),
    Json.Value.parse_toBytes hordered hreal]
  by_cases hdepth : v.depth < 128
  · rw [if_pos hdepth, if_pos hdepth]
    rfl
  · rw [if_neg hdepth, if_neg hdepth]
    rfl

/-- Any key material makes a cipher whose tokens open to the values that they were made of, whatever
blanks stand around them, unless a value nests 128 arrays and objects: then its token is malformed.
The tokens consist of letters, digits, hyphens and underscores. -/
theorem openValue_issueValue (algorithm : Algorithm) {material : Bytes}
    (hmaterial : material ≠ []) :
    ∃ cipher, ofMaterial algorithm material = .ok cipher ∧
      ∀ (nonce : Nonce) (v : Json.Value), v.Ordered → v.RealFree →
        (∀ before after : String, (∀ c ∈ before.toList, Text.isBlank c = true) →
          (∀ c ∈ after.toList, Text.isBlank c = true) →
          (v.depth < 128 →
            cipher.openValue (before ++ cipher.issueValue nonce v ++ after) = .ok v) ∧
          (128 ≤ v.depth →
            cipher.openValue (before ++ cipher.issueValue nonce v ++ after) =
              .error (.malformed (.payload .nestingLimit)))) ∧
        ∀ c ∈ (cipher.issueValue nonce v).toList,
          c.isUpper = true ∨ c.isLower = true ∨ c.isDigit = true ∨ c = '-' ∨ c = '_' := by
  refine ⟨_, dif_neg hmaterial, fun nonce v hordered hreal => ⟨?_, ?_⟩⟩
  · intro before after hbefore hafter
    rw [openValue_append _ nonce hordered hreal hbefore hafter]
    exact ⟨fun hdepth => if_pos hdepth, fun hdepth => if_neg (Nat.not_lt.2 hdepth)⟩
  · intro c hc
    exact Base64Url.mem_encode_cases hc

/-- Arrays around each other, the innermost of them empty. -/
def arrays : Nat → Json.Value
  | 0 => .array []
  | more + 1 => .array [arrays more]

/-- Arrays around each other are ordered, have no doubles and nest as deep as they are many. -/
theorem arrays_wellFormed (more : Nat) :
    (arrays more).Ordered ∧ (arrays more).RealFree ∧ (arrays more).depth = more + 1 := by
  induction more with
  | zero => exact ⟨trivial, trivial, rfl⟩
  | succ more ih =>
    obtain ⟨hordered, hreal, hdepth⟩ := ih
    refine ⟨⟨hordered, trivial⟩, ⟨hreal, trivial⟩, ?_⟩
    rw [arrays, Json.Value.depth, Json.Value.itemsDepth, Json.Value.itemsDepth, hdepth,
      Nat.max_zero]

/-- A token of 127 arrays opens between a blank and a new line, and one of 128 is malformed. -/
theorem openValue_issueValue_of_arrays : ∃ cipher, ofMaterial .aes256 [0x6B] = .ok cipher ∧
    cipher.openValue (" " ++ cipher.issueValue (Vector.replicate 12 0) (arrays 126) ++ "\n") =
      .ok (arrays 126) ∧
    cipher.openValue ("" ++ cipher.issueValue (Vector.replicate 12 0) (arrays 127) ++ "") =
      .error (.malformed (.payload .nestingLimit)) := by
  have hblank (c : Char) (hc : Text.isBlank c = true) :
      ∀ d ∈ (String.singleton c).toList, Text.isBlank d = true := by
    intro d hd
    rw [String.toList_singleton, List.mem_singleton] at hd
    rw [hd]
    exact hc
  have hnone : ∀ c ∈ "".toList, Text.isBlank c = true := by
    intro c hc
    cases hc
  obtain ⟨cipher, hcipher, hopens⟩ := openValue_issueValue .aes256 (List.cons_ne_nil 0x6B [])
  obtain ⟨hordered, hreal, hdepth⟩ := arrays_wellFormed 126
  obtain ⟨hordered', hreal', hdepth'⟩ := arrays_wellFormed 127
  have hshallow := (hopens (Vector.replicate 12 0) (arrays 126) hordered hreal).1 " " "\n"
    (hblank ' ' rfl) (hblank '\n' rfl)
  have hdeep := (hopens (Vector.replicate 12 0) (arrays 127) hordered' hreal').1 "" "" hnone hnone
  exact ⟨cipher, hcipher, hshallow.1 (by omega), hdeep.2 (by omega)⟩

/-- A cipher whose key is one letter. -/
def ofLetter : Cipher := .ofKey .aes128 [0x6B] (List.cons_ne_nil 0x6B [])

end Cipher
end Token
end Turnstile
