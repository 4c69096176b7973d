import Turnstile.Proofs.Bytes.Base64Url
import Turnstile.Proofs.Bytes.Percent
import Turnstile.Proofs.Session.Headers
import Turnstile.Proofs.Text.Readers

/-!
# A token on its way

A token of at least seven letters, digits, hyphens and underscores arrives as it is, with or without
the scheme in front of it and even if it begins with the letters of the scheme: in a header,
whatever else is in the request, and in the query if no header has the name of the token header. In
the query any of its characters may be percent-encoded.
-/

namespace Turnstile

/-! ## Symbols -/

namespace Base64Url.IsSymbol

variable {c : Char}

instance (c : Char) : Decidable (IsSymbol c) := inferInstanceAs (Decidable (_ ∨ _))

/-- The symbols are characters of ASCII. -/
theorem toNat_cases (h : IsSymbol c) : (65 ≤ c.toNat ∧ c.toNat ≤ 90) ∨
    (97 ≤ c.toNat ∧ c.toNat ≤ 122) ∨ (48 ≤ c.toNat ∧ c.toNat ≤ 57) ∨ c.toNat = 45 ∨
      c.toNat = 95 := by
  rcases h with h | h | h | rfl | rfl
  · exact .inl (of_decide_eq_true h)
  · obtain ⟨hlow, hhigh⟩ := Bool.and_eq_true_iff.1 h
    exact .inr (.inl ⟨of_decide_eq_true hlow, of_decide_eq_true hhigh⟩)
  · obtain ⟨hlow, hhigh⟩ := Bool.and_eq_true_iff.1 h
    exact .inr (.inr (.inl ⟨of_decide_eq_true hlow, of_decide_eq_true hhigh⟩))
  · decide
  · decide

theorem toNat_lt (h : IsSymbol c) : c.toNat < 128 := by
  have hcases := h.toNat_cases
  omega

/-- No symbol is a blank. -/
theorem isBlank (h : IsSymbol c) : Text.isBlank c = false := by
  have hcases := h.toNat_cases
  simp only [Text.isBlank, Bool.or_eq_false_iff, Bool.and_eq_false_iff, decide_eq_false_iff_not,
    beq_eq_false_iff_ne]
  omega

/-- A character that becomes a small letter has been a letter. -/
theorem of_toLower (h : c.toLower.isLower = true) : IsSymbol c := by
  by_cases hupper : c.val ≥ 'A'.val ∧ c.val ≤ 'Z'.val
  · exact .inl (decide_eq_true hupper)
  · have hsame : c.toLower = c := dif_neg hupper
    exact .inr (.inl (hsame ▸ h))

end Base64Url.IsSymbol

namespace Session

open Base64Url (IsSymbol)

/-- What a token looks like: at least seven letters, digits, hyphens and underscores. -/
structure IsToken (token : String) : Prop where
  long : 7 ≤ token.toList.length
  symbols : ∀ c ∈ token.toList, IsSymbol c

namespace IsToken

variable {token : String}

theorem ne_nil (h : IsToken token) : token.toList ≠ [] := by
  intro hnil
  have hlong := h.long
  simp [hnil] at hlong

/-- A token has no blanks. -/
theorem trimmed (h : IsToken token) : Text.Trimmed token :=
  Text.trimmed_of_forall fun c hc => (h.symbols c hc).isBlank

/-- A token is not blank. -/
theorem not_blank (h : IsToken token) : ¬Text.Blank token := by
  intro hblank
  refine h.ne_nil ?_
  rw [← h.trimmed.trim_eq, Text.trim_of_blank hblank]
  rfl

/-- A character that is no symbol is not in a token. -/
theorem not_mem (h : IsToken token) {c : Char} (hc : ¬IsSymbol c) : c ∉ token.toList :=
  fun hmem => hc (h.symbols c hmem)

end IsToken

/-! ## In a header -/

/-- The value of a header that presents a token: the token alone, or behind the scheme and at least
one blank, with any blanks around. -/
inductive Presents (token : String) : String → Prop
  | alone {before after : String} (hbefore : Text.Blank before) (hafter : Text.Blank after) :
      Presents token (before ++ token ++ after)
  | behindScheme {before scheme gap after : String} (hbefore : Text.Blank before)
      (hscheme : Text.toAsciiLower scheme = "bearer") (hne : gap ≠ "") (hgap : Text.Blank gap)
      (hafter : Text.Blank after) : Presents token (before ++ (scheme ++ gap ++ token) ++ after)

namespace Carrier

variable {carrier : Carrier} {token : String}

/-- A token that begins with the letters of the scheme does not have it. -/
theorem stripScheme_token (h : IsToken token) : stripScheme token.toList = token.toList := by
  rw [stripScheme]
  refine if_neg fun hscheme => ?_
  have hlong : 6 < token.toList.length := h.long
  have hnext : (token.toList.drop 6).head? = some token.toList[6] := by
    rw [List.head?_drop, List.getElem?_eq_getElem hlong]
  have hblank := hscheme.2
  rw [hnext, Option.all_some, (h.symbols _ (List.getElem_mem hlong)).isBlank] at hblank
  cases hblank

section Scheme

variable {scheme gap : String} (h : IsToken token) (hscheme : Text.toAsciiLower scheme = "bearer")
  (hne : gap ≠ "") (hgap : Text.Blank gap)

include hscheme in
theorem toLower_scheme : scheme.toList.map Char.toLower = Carrier.scheme := by
  rw [Text.toAsciiLower, ← String.toList_inj, String.toList_map] at hscheme
  exact hscheme

include h hscheme in
/-- A token behind the scheme neither begins nor ends with a blank. -/
theorem trimmed_scheme : Text.Trimmed (scheme ++ gap ++ token) := by
  have hlower := toLower_scheme hscheme
  rw [Text.Trimmed, String.toList_append, String.toList_append, List.append_assoc]
  constructor
  · cases hchars : scheme.toList with
    | nil =>
      rw [hchars] at hlower
      cases hlower
    | cons first more =>
      rw [hchars, List.map_cons, Carrier.scheme, List.cons.injEq] at hlower
      intro c hc
      obtain rfl : first = c := by simpa using hc
      exact (IsSymbol.of_toLower (hlower.1 ▸ by decide)).isBlank
  · intro c hc
    rw [← List.append_assoc, List.getLast?_append_of_ne_nil _ h.ne_nil] at hc
    exact h.trimmed.2 c hc

include h hscheme hne hgap in
/-- Behind the scheme stands the token. -/
theorem stripScheme_scheme : stripScheme (scheme ++ gap ++ token).toList = token.toList := by
  have hlower := toLower_scheme hscheme
  have hlength : scheme.toList.length = 6 := by
    simpa [Carrier.scheme] using congrArg List.length hlower
  have hchars :
      (scheme ++ gap ++ token).toList = scheme.toList ++ (gap.toList ++ token.toList) := by
    rw [String.toList_append, String.toList_append, List.append_assoc]
  have htake : (scheme ++ gap ++ token).toList.take 6 = scheme.toList := by
    rw [hchars, List.take_left' hlength]
  have hdrop : (scheme ++ gap ++ token).toList.drop 6 = gap.toList ++ token.toList := by
    rw [hchars, List.drop_left' hlength]
  have hblank : (gap.toList ++ token.toList).head?.all Text.isBlank = true := by
    cases hfirst : gap.toList with
    | nil => exact absurd (String.toList_eq_nil_iff.1 hfirst) hne
    | cons first more => exact hgap first (hfirst ▸ List.mem_cons_self)
  have htrim : Text.trimChars (gap.toList ++ token.toList) = token.toList := by
    have hempty : Text.Blank "" := by
      intro c hc
      simp at hc
    have htext := congrArg String.toList (h.trimmed.trim_append hgap hempty)
    simpa [Text.toList_trim, String.toList_append] using htext
  rw [stripScheme, htake, hdrop, if_pos ⟨hlower, hblank⟩, htrim]

end Scheme

/-- What presents a token leaves it behind when it is trimmed and the scheme is taken away. -/
theorem stripScheme_of_presents {value : String} (h : IsToken token)
    (hvalue : Presents token value) :
    stripScheme (Text.trim value).toList = token.toList := by
  cases hvalue with
  | alone hbefore hafter => rw [h.trimmed.trim_append hbefore hafter, stripScheme_token h]
  | behindScheme hbefore hscheme hne hgap hafter =>
    rw [(trimmed_scheme h hscheme).trim_append hbefore hafter,
      stripScheme_scheme h hscheme hne hgap]

/-- A header with the name of the token header that presents a token gives it. -/
theorem headerToken?_of_presents {header : Header} (h : IsToken token)
    (hname : header.hasName carrier.tokenHeader = true) (hvalue : Presents token header.2) :
    carrier.headerToken? header = some token := by
  have hstrip := stripScheme_of_presents h hvalue
  refine (carrier.headerToken?_eq_some_iff).2 ⟨hname, fun hblank => ?_, ?_, ?_⟩
  · rw [Text.trim_of_blank hblank] at hstrip
    exact h.ne_nil hstrip.symm
  · rw [hstrip]
    exact h.ne_nil
  · rw [hstrip, String.ofList_toList]

/-- A header with another name gives no token. -/
theorem headerToken?_of_other {header : Header}
    (hname : header.hasName carrier.tokenHeader = false) : carrier.headerToken? header = none := by
  rw [headerToken?, hname]
  rfl

/-- Headers with other names give no token. -/
theorem filterMap_headerToken?_of_others {headers : List Header}
    (h : ∀ header ∈ headers, header.hasName carrier.tokenHeader = false) :
    headers.filterMap carrier.headerToken? = [] :=
  List.filterMap_eq_nil_iff.2 fun header hmem => headerToken?_of_other (h header hmem)

/-! ## In the query -/

/-- In a query, a value belongs to the first pair of its name. Question marks in front of the query
do not belong to its parts, which are pairs as far as they have an equals sign. -/
inductive FirstParameter (name : String) (value : List Char) : String → Prop
  | intro {marks : List Char} {before after : List (List Char)} (hmarks : ∀ c ∈ marks, c = '?')
      (hbegins : ∀ part ∈ before.head?, part.head? ≠ some '?')
      (hbefore : ∀ part ∈ before, '&' ∉ part ∧ ¬name.toList ++ ['='] <+: part)
      (hafter : ∀ part ∈ after, '&' ∉ part) :
      FirstParameter name value (String.ofList
        (marks ++ ['&'].intercalate (before ++ (name.toList ++ '=' :: value) :: after)))

/-- A name that a query can have: it ends before an equals sign, within one part, and does not begin
with a question mark. -/
structure IsParameterName (name : String) : Prop where
  no_separator : '&' ∉ name.toList
  no_equals : '=' ∉ name.toList
  no_mark : name.toList.head? ≠ some '?'

/-- What is joined of parts begins as the first part does, or with the joint. -/
theorem head?_intercalate {part : List Char} {rest : List (List Char)} {c : Char}
    (h : (['&'].intercalate (part :: rest)).head? = some c) : part.head? = some c ∨ c = '&' := by
  cases rest with
  | nil => exact .inl (by simpa using h)
  | cons next rest =>
    rw [List.intercalate_cons_cons, List.append_assoc, List.head?_append] at h
    cases part with
    | nil => exact .inr (by simpa using h.symm)
    | cons first more => exact .inl h

variable {name query : String} {value : List Char}

/-- The first pair of a name is found among the parts of a query. -/
theorem find?_pairs {before after : List (List Char)} (hname : IsParameterName name)
    (hbefore : ∀ part ∈ before, ¬name.toList ++ ['='] <+: part) :
    ((before ++ (name.toList ++ '=' :: value) :: after).filterMap (Text.cutAt? '=')).find?
      (·.1 = name.toList) = some (name.toList, value) := by
  have hother : (before.filterMap (Text.cutAt? '=')).find? (·.1 = name.toList) = none := by
    rw [List.find?_eq_none]
    intro pair hpair heq
    obtain ⟨part, hpart, hcut⟩ := List.mem_filterMap.1 hpair
    obtain ⟨key, rest⟩ := pair
    obtain rfl : key = name.toList := by simpa using heq
    refine hbefore part hpart ⟨rest, ?_⟩
    rw [Text.eq_of_cutAt? hcut, List.append_assoc, List.singleton_append]
  rw [List.filterMap_append, List.find?_append, hother, Option.none_or,
    List.filterMap_cons_some (Text.cutAt?_append hname.no_equals value),
    List.find?_cons_of_pos (by simp)]

/-- The value of the first pair of a name is read. -/
theorem queryParameter_of_first (hname : IsParameterName name) (hvalue : '&' ∉ value)
    (h : FirstParameter name value query) : queryParameter name query = decodeParameter value := by
  obtain @⟨marks, before, after, hmarks, hbegins, hbefore, hafter⟩ := h
  have hfirst : ∀ c ∈ (['&'].intercalate
      (before ++ (name.toList ++ '=' :: value) :: after)).head?, (c == '?') = false := by
    intro c hc
    refine beq_eq_false_iff_ne.2 ?_
    rintro rfl
    cases before with
    | nil =>
      rcases head?_intercalate hc with hpart | hjoint
      · rw [List.head?_append] at hpart
        cases hhead : name.toList.head? with
        | none => simp [hhead] at hpart
        | some d =>
          rw [hhead] at hpart
          exact hname.no_mark (hhead.trans hpart)
      · exact absurd hjoint (by decide)
    | cons part before =>
      rcases head?_intercalate hc with hpart | hjoint
      · exact hbegins part rfl hpart
      · exact absurd hjoint (by decide)
  have hparts : ∀ part ∈ before ++ (name.toList ++ '=' :: value) :: after, '&' ∉ part := by
    intro part hpart
    rcases List.mem_append.1 hpart with hin | hin
    · exact (hbefore part hin).1
    · rcases List.mem_cons.1 hin with rfl | hin
      · simp [hname.no_separator, hvalue]
      · exact hafter part hin
  have hpairs := @find?_pairs name value before after hname fun part hpart =>
    (hbefore part hpart).2
  have hmark : ∀ c ∈ marks, (c == '?') = true := fun c hc => beq_iff_eq.2 (hmarks c hc)
  rw [queryParameter, String.toList_ofList, (Text.span_append hmark hfirst).2,
    Text.splitAt_intercalate (by simp) hparts, hpairs, Option.bind_some]

/-- A percent-encoded token is read back. -/
theorem decodeParameter_of_writes {written : List Char} (h : IsToken token)
    (hwritten : Percent.Writes token.toList written) : decodeParameter written = some token := by
  have hplus : '+' ∉ written := hwritten.not_mem (h.not_mem (by decide)) (by decide) (by decide)
  have hspaced : written.map (fun c => if c = '+' then ' ' else c) = written := by
    have hsame : ∀ c ∈ written, (if c = '+' then ' ' else c) = id c := fun c hc =>
      if_neg (ne_of_mem_of_not_mem hc hplus)
    rw [List.map_congr_left hsame, List.map_id]
  have hdecode := hwritten.decode_eq (fun c hc => (h.symbols c hc).toNat_lt) (h.not_mem (by decide))
  rw [decodeParameter, hspaced, Bytes.ofText_ofList, hdecode, ← Bytes.ofText_eq,
    Bytes.toText?_ofText, Option.bind_some, Text.nonBlank?_eq_some_iff]
  exact ⟨h.not_blank, h.trimmed.trim_eq⟩

/-! ## Arrival -/

/-- A request brings a token: exactly one header has the name of the token header and presents it,
or no header has that name, and the token is the value of the first query parameter of its name,
where any of its characters may be percent-encoded. -/
inductive Brings (carrier : Carrier) (token : String) : Request → Prop
  | header {front back : List Header} {header : Header} {path : String} {query : Option String}
      (hname : header.hasName carrier.tokenHeader = true)
      (hothers : ∀ other ∈ front ++ back, other.hasName carrier.tokenHeader = false)
      (hvalue : Presents token header.2) :
      Brings carrier token ⟨front ++ header :: back, path, query⟩
  | parameter {headers : List Header} {path query : String} {written : List Char}
      (hothers : ∀ other ∈ headers, other.hasName carrier.tokenHeader = false)
      (hwritten : Percent.Writes token.toList written)
      (hfirst : FirstParameter carrier.tokenParam written query) :
      Brings carrier token ⟨headers, path, some query⟩

/-- Whatever else is in a request that brings a token, the token that is reported of the request is
the one that it brings. -/
theorem token_of_brings {request : Request} (hname : IsParameterName carrier.tokenParam)
    (h : IsToken token) (hbrings : carrier.Brings token request) :
    (carrier.extract request).token = some token := by
  rw [extract_eq]
  cases hbrings with
  | header hheader hothers hvalue =>
    obtain ⟨hfront, hback⟩ := List.forall_mem_append.1 hothers
    dsimp only
    rw [List.filterMap_append, filterMap_headerToken?_of_others hfront,
      List.filterMap_cons_some (headerToken?_of_presents h hheader hvalue),
      filterMap_headerToken?_of_others hback]
    rfl
  | @parameter headers path query written hothers hwritten hfirst =>
    have hseparator : '&' ∉ written :=
      hwritten.not_mem (h.not_mem (by decide)) (by decide) (by decide)
    dsimp only
    rw [filterMap_headerToken?_of_others hothers, List.getLast?_nil, Option.none_or,
      Option.bind_some, queryParameter_of_first hname hseparator hfirst,
      decodeParameter_of_writes h hwritten]

/-- A token that begins with the letters of the scheme, behind the scheme in a header and with two
of its characters percent-encoded in a query. -/
theorem token_of_brings_of_scheme_letters :
    (Carrier.standard.extract ⟨[("Accept", "*/*"), ("AUTHORIZATION", " Bearer\t bearer-42 ")], "/",
      some "access_token=other"⟩).token = some "bearer-42" ∧
    (Carrier.standard.extract ⟨[("Accept", "*/*")], "/",
      some "?a=1&access_token=%62earer%2d42&access_token=other"⟩).token = some "bearer-42" := by
  have hname : IsParameterName Carrier.standard.tokenParam :=
    ⟨by decide, by decide, by decide⟩
  have hsymbols : "bearer-42".toList.all (decide <| IsSymbol ·) = true := by decide
  have htoken : IsToken "bearer-42" := ⟨by decide, by simpa using hsymbols⟩
  have haccept : ∀ other ∈ [("Accept", "*/*")],
      Header.hasName Carrier.standard.tokenHeader other = false := by
    simp only [Header.hasName_eq]
    decide
  have hscheme : Text.toAsciiLower "Bearer" = "bearer" := by
    rw [← String.toList_inj, Text.toAsciiLower, String.toList_map]
    decide
  have hvalue : Presents "bearer-42" (" " ++ ("Bearer" ++ "\t " ++ "bearer-42") ++ " ") :=
    .behindScheme (by decide) hscheme (by decide) (by decide) (by decide)
  have hwritten : Percent.Writes "bearer-42".toList "%62earer%2d42".toList :=
    .encoded rfl rfl rfl <| .plain <| .plain <| .plain <| .plain <| .plain <|
      .encoded rfl rfl rfl <| .plain <| .plain .nil
  have hfirst : FirstParameter "access_token" "%62earer%2d42".toList
      (String.ofList (['?'] ++ ['&'].intercalate (["a=1".toList] ++
        ("access_token".toList ++ '=' :: "%62earer%2d42".toList) ::
          ["access_token=other".toList]))) :=
    .intro (by simp) (by decide) (by decide) (by decide)
  constructor
  · refine token_of_brings hname htoken
      (@Brings.header _ _ [("Accept", "*/*")] [] _ _ _ ?_ haccept hvalue)
    rw [Header.hasName_eq]
    decide
  · exact token_of_brings hname htoken (.parameter haccept hwritten hfirst)

end Carrier
end Session
end Turnstile
