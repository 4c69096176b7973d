import Mathlib.Logic.Relation
import Turnstile.Proofs.Text.Trimming
import Turnstile.Session.Carrier

/-!
# What the headers of a request say

Each header is read for itself: it gives a token, a device, a user id or nothing. Of several headers
that give the same, the last one counts. So it does not matter how headers of different names are
mixed, in which letter case their names are written, and how many headers are among them that give
nothing.
-/

namespace Turnstile.Session

/-- The texts that are reported of a request. -/
def Credentials.texts (credentials : Credentials) : List String :=
  credentials.token.toList ++ credentials.deviceId.toList ++ credentials.userId.toList

/-- A header, with its name and its value. -/
abbrev Header := String × String

/-- Whether a header has a name, in whatever letter case. -/
abbrev Header.hasName (name : String) (header : Header) : Bool :=
  Text.sameIgnoringCase header.1 name

/-- Names are compared letter by letter. -/
theorem Header.hasName_eq (name : String) (header : Header) : header.hasName name =
    decide (header.1.toList.map Char.toLower = name.toList.map Char.toLower) := by
  rw [hasName, Text.sameIgnoringCase, Text.toAsciiLower, Text.toAsciiLower, beq_eq_decide]
  simp only [← String.toList_inj, String.toList_map]

namespace Carrier

variable (carrier : Carrier) {header : Header} {headers headers' : List Header}

/-! ## One header -/

/-- The token that a header gives. -/
def headerToken? (header : Header) : Option String :=
  if header.hasName carrier.tokenHeader then
    (Text.nonBlank? header.2).bind fun value =>
      let token := stripScheme value.toList
      if token.isEmpty then none else some (String.ofList token)
  else none

/-- The device that a header gives, which is no token header. -/
def headerDevice? (header : Header) : Option String :=
  if header.hasName carrier.tokenHeader then none
  else if header.hasName carrier.deviceHeader then Text.nonBlank? header.2
  else none

/-- The user id that a header gives, which is neither a token header nor a device header. -/
def headerUser? (header : Header) : Option String :=
  if header.hasName carrier.tokenHeader || header.hasName carrier.deviceHeader then none
  else if header.hasName carrier.userIdHeader then Text.nonBlank? header.2
  else none

/-- What a header gives replaces what has been found before. -/
theorem readHeader_eq (found : Credentials) (header : Header) :
    carrier.readHeader found header =
      { token := (carrier.headerToken? header).or found.token
        deviceId := (carrier.headerDevice? header).or found.deviceId
        userId := (carrier.headerUser? header).or found.userId
        isLogin := found.isLogin } := by
  rw [readHeader, headerToken?, headerDevice?, headerUser?]
  cases Text.nonBlank? header.2 with
  | none => simp
  | some value =>
    by_cases htoken : Text.sameIgnoringCase header.1 carrier.tokenHeader = true
    · by_cases hempty : stripScheme value.toList = [] <;> simp [htoken, hempty]
    · by_cases hdevice : Text.sameIgnoringCase header.1 carrier.deviceHeader = true
      · simp [htoken, hdevice]
      · by_cases huser : Text.sameIgnoringCase header.1 carrier.userIdHeader = true <;>
          simp [htoken, hdevice, huser]

/-! ## All headers -/

/-- Of what the headers give, the last counts. -/
theorem getLast?_filterMap_cons {α β : Type} (give? : α → Option β) (first : α) (rest : List α)
    (found : Option β) :
    ((first :: rest).filterMap give?).getLast?.or found =
      (rest.filterMap give?).getLast?.or ((give? first).or found) := by
  cases hfirst : give? first with
  | none => simp [hfirst]
  | some value =>
    cases hrest : (rest.filterMap give?).getLast? <;> simp [hfirst, List.getLast?_cons, hrest]

/-- The headers are read one after another, and the last that gives something counts. -/
theorem foldl_readHeader (headers : List Header) (found : Credentials) :
    headers.foldl carrier.readHeader found =
      { token := (headers.filterMap carrier.headerToken?).getLast?.or found.token
        deviceId := (headers.filterMap carrier.headerDevice?).getLast?.or found.deviceId
        userId := (headers.filterMap carrier.headerUser?).getLast?.or found.userId
        isLogin := found.isLogin } := by
  induction headers generalizing found with
  | nil => simp
  | cons header headers ih =>
    rw [List.foldl_cons, ih, readHeader_eq]
    simp only [getLast?_filterMap_cons]

/-- What is reported of a request. -/
theorem extract_eq (request : Request) :
    carrier.extract request =
      { token := (request.headers.filterMap carrier.headerToken?).getLast?.or
          (request.query.bind (queryParameter carrier.tokenParam))
        deviceId := (request.headers.filterMap carrier.headerDevice?).getLast?
        userId := (request.headers.filterMap carrier.headerUser?).getLast?
        isLogin := carrier.isLoginPath request.path } := by
  rw [extract, foldl_readHeader]
  cases (request.headers.filterMap carrier.headerToken?).getLast? <;> simp

/-! ## What is reported -/

variable {carrier}

/-- What is left of a trimmed value without the scheme is trimmed, too. -/
theorem trimmed_stripScheme {value : String} (h : Text.Trimmed value) :
    Text.Trimmed (String.ofList (stripScheme value.toList)) := by
  rw [stripScheme]
  split
  · have htrim := Text.trimmed_trim (String.ofList (value.toList.drop 6))
    rwa [Text.trim, String.toList_ofList] at htrim
  · rwa [String.ofList_toList]

/-- Of a trimmed value nothing is left exactly if it is the scheme alone. -/
theorem stripScheme_eq_nil_iff {value : String} (h : Text.Trimmed value) (hne : value ≠ "") :
    stripScheme value.toList = [] ↔ Text.toAsciiLower value = "bearer" := by
  have hscheme : Text.toAsciiLower value = "bearer" ↔ value.toList.map Char.toLower = scheme := by
    rw [← String.toList_inj, Text.toAsciiLower, String.toList_map]
    rfl
  have halone (hvalue : value.toList.map Char.toLower = scheme) :
      value.toList.take 6 = value.toList ∧ value.toList.drop 6 = [] := by
    have hlength : value.toList.length = 6 := by simpa [scheme] using congrArg List.length hvalue
    exact ⟨List.take_of_length_le hlength.le, List.drop_of_length_le hlength.le⟩
  rw [hscheme, stripScheme]
  by_cases hbegins : (value.toList.take 6).map Char.toLower = scheme ∧
      ((value.toList.drop 6).head?.all Text.isBlank) = true
  · rw [if_pos hbegins]
    constructor
    · intro hnone
      -- The end of the value is no blank, so that no blanks can follow the scheme.
      have hblank : Text.Blank (String.ofList (value.toList.drop 6)) := by
        rw [← Text.isEmpty_trim_iff, Text.trim, String.toList_ofList, hnone]
        rfl
      rw [Text.Blank, String.toList_ofList] at hblank
      have hrest : value.toList.drop 6 = [] := by
        by_contra hsome
        have hlast := hblank _ (List.getLast_mem hsome)
        rw [List.getLast_drop hsome, h.2 _ (List.getLast?_eq_some_getLast _)] at hlast
        cases hlast
      have htake := List.take_append_drop 6 value.toList
      rw [hrest, List.append_nil] at htake
      rw [← hbegins.1, htake]
    · intro hvalue
      rw [(halone hvalue).2]
      rfl
  · rw [if_neg hbegins]
    constructor
    · intro hnone
      exact absurd (String.toList_eq_nil_iff.1 hnone) hne
    · intro hvalue
      obtain ⟨htake, hdrop⟩ := halone hvalue
      exact absurd ⟨htake.symm ▸ hvalue, by rw [hdrop]; rfl⟩ hbegins

/-- A header carries a token if it is a token header, and its value is neither blank nor the scheme
alone. -/
structure CarriesToken (carrier : Carrier) (header : Header) : Prop where
  hasName : header.hasName carrier.tokenHeader = true
  not_blank : ¬Text.Blank header.2
  not_bare : Text.toAsciiLower (Text.trim header.2) ≠ "bearer"

/-- The token that a header gives is what is left of its value without blanks and scheme. -/
theorem headerToken?_eq_some_iff {token : String} :
    carrier.headerToken? header = some token ↔ header.hasName carrier.tokenHeader = true ∧
      ¬Text.Blank header.2 ∧ stripScheme (Text.trim header.2).toList ≠ [] ∧
      String.ofList (stripScheme (Text.trim header.2).toList) = token := by
  rw [headerToken?]
  by_cases hname : header.hasName carrier.tokenHeader = true
  · by_cases hblank : Text.Blank header.2
    · simp [hname, Text.nonBlank?_eq_none_iff.2 hblank, hblank]
    · simp [hname, Text.nonBlank?_eq_some_iff.2 ⟨hblank, rfl⟩, hblank]
  · simp [hname]

/-- A header gives a token exactly if it carries one. -/
theorem exists_headerToken?_iff :
    (∃ token, carrier.headerToken? header = some token) ↔ carrier.CarriesToken header := by
  simp only [headerToken?_eq_some_iff, exists_and_left, exists_eq', and_true]
  have hleft (hblank : ¬Text.Blank header.2) :
      stripScheme (Text.trim header.2).toList = [] ↔
        Text.toAsciiLower (Text.trim header.2) = "bearer" := by
    refine stripScheme_eq_nil_iff (Text.trimmed_trim _) fun hempty => hblank ?_
    rw [← Text.isEmpty_trim_iff, hempty]
    rfl
  constructor
  · rintro ⟨hname, hblank, hsome⟩
    exact ⟨hname, hblank, (hleft hblank).not.1 hsome⟩
  · intro h
    exact ⟨h.hasName, h.not_blank, (hleft h.not_blank).not.2 h.not_bare⟩

/-- A token that a header gives is trimmed and not empty. -/
theorem trimmed_of_headerToken? {token : String} (h : carrier.headerToken? header = some token) :
    token ≠ "" ∧ Text.Trimmed token := by
  obtain ⟨-, -, hsome, rfl⟩ := headerToken?_eq_some_iff.1 h
  refine ⟨fun hempty => hsome ?_, trimmed_stripScheme (Text.trimmed_trim _)⟩
  simpa using congrArg String.toList hempty

/-- A value that is not blank is reported without the blanks around it. -/
theorem trimmed_of_nonBlank? {text trimmed : String} (h : Text.nonBlank? text = some trimmed) :
    trimmed ≠ "" ∧ Text.Trimmed trimmed := by
  obtain ⟨hblank, rfl⟩ := Text.nonBlank?_eq_some_iff.1 h
  refine ⟨fun hempty => hblank ?_, Text.trimmed_trim _⟩
  rw [← Text.isEmpty_trim_iff, hempty]
  rfl

/-- The value of a query parameter is trimmed and not empty. -/
theorem trimmed_of_queryParameter {name query token : String}
    (h : queryParameter name query = some token) : token ≠ "" ∧ Text.Trimmed token := by
  obtain ⟨pair, -, hdecode⟩ := Option.bind_eq_some_iff.1 h
  obtain ⟨text, -, htext⟩ := Option.bind_eq_some_iff.1 hdecode
  exact trimmed_of_nonBlank? htext

/-- Whatever is reported of a request is trimmed and not empty. -/
theorem trimmed_of_mem_texts {request : Request} {text : String}
    (h : text ∈ (carrier.extract request).texts) : text ≠ "" ∧ Text.Trimmed text := by
  have hgiven {give? : Header → Option String}
      (hgive : ∀ header value, give? header = some value → value ≠ "" ∧ Text.Trimmed value)
      (hlast : (request.headers.filterMap give?).getLast? = some text) :
      text ≠ "" ∧ Text.Trimmed text := by
    obtain ⟨header, -, hheader⟩ := List.mem_filterMap.1 (List.mem_of_getLast? hlast)
    exact hgive header text hheader
  simp only [extract_eq, Credentials.texts, List.mem_append, Option.mem_toList,
    Option.or_eq_some_iff, Option.bind_eq_some_iff] at h
  rcases h with ((htoken | ⟨-, query, -, hparameter⟩) | hdevice) | huser
  · exact hgiven (fun _ _ => trimmed_of_headerToken?) htoken
  · exact trimmed_of_queryParameter hparameter
  · refine hgiven (fun header value hvalue => ?_) hdevice
    rw [headerDevice?, Option.ite_none_left_eq_some, Option.ite_none_right_eq_some] at hvalue
    exact trimmed_of_nonBlank? hvalue.2.2
  · refine hgiven (fun header value hvalue => ?_) huser
    rw [headerUser?, Option.ite_none_left_eq_some, Option.ite_none_right_eq_some] at hvalue
    exact trimmed_of_nonBlank? hvalue.2.2

/-! ## What does not matter about the headers -/

/-- The names of the headers that are read. -/
def headerNames (carrier : Carrier) : List String :=
  [carrier.tokenHeader, carrier.deviceHeader, carrier.userIdHeader]

/-- The headers of a request are changed so that nothing that is read changes. -/
inductive Edit (carrier : Carrier) : List Header → List Header → Prop
  /-- Headers change places. Those of one name, in whatever letter case, keep their order. -/
  | permute {headers headers' : List Header} (hperm : headers.Perm headers')
      (h : ∀ name, headers.filter (Header.hasName name) = headers'.filter (Header.hasName name)) :
      Edit carrier headers headers'
  /-- Letters in the names of headers become capital or small. -/
  | recase {headers headers' : List Header}
      (h : List.Forall₂ (fun a b => a.hasName b.1 = true ∧ a.2 = b.2) headers headers') :
      Edit carrier headers headers'
  /-- A header without a value is put in, or one with a name that is not read. -/
  | insert (front : List Header) {header : Header} {back : List Header}
      (h : Text.Blank header.2 ∨ ∀ name ∈ carrier.headerNames, header.hasName name = false) :
      Edit carrier (front ++ back) (front ++ header :: back)

/-- Something is read from the values of the headers of one name, in whatever letter case, and
nothing from a blank value. -/
structure ReadsName (give? : Header → Option String) (name : String) : Prop where
  hasName : ∀ header value, give? header = some value → header.hasName name = true
  recase : ∀ header header' : Header, header.hasName header'.1 = true → header.2 = header'.2 →
    give? header = give? header'
  blank : ∀ header : Header, Text.Blank header.2 → give? header = none

/-- Headers whose names differ in letter case only have the same names. -/
theorem hasName_congr {header header' : Header} (h : header.hasName header'.1 = true)
    (name : String) : header.hasName name = header'.hasName name := by
  simp only [Header.hasName, Text.sameIgnoringCase, beq_iff_eq] at h ⊢
  rw [h]

theorem readsName_headerToken? : ReadsName carrier.headerToken? carrier.tokenHeader where
  hasName header token htoken := (headerToken?_eq_some_iff.1 htoken).1
  recase header header' hname hvalue := by
    rw [headerToken?, headerToken?, hasName_congr hname, hvalue]
  blank header hblank := by
    rw [headerToken?, Text.nonBlank?_eq_none_iff.2 hblank]
    simp

theorem readsName_headerDevice? : ReadsName carrier.headerDevice? carrier.deviceHeader where
  hasName header device hdevice := by
    rw [headerDevice?, Option.ite_none_left_eq_some, Option.ite_none_right_eq_some] at hdevice
    exact hdevice.2.1
  recase header header' hname hvalue := by
    simp only [headerDevice?, hasName_congr hname, hvalue]
  blank header hblank := by
    rw [headerDevice?, Text.nonBlank?_eq_none_iff.2 hblank]
    simp

theorem readsName_headerUser? : ReadsName carrier.headerUser? carrier.userIdHeader where
  hasName header user huser := by
    rw [headerUser?, Option.ite_none_left_eq_some, Option.ite_none_right_eq_some] at huser
    exact huser.2.1
  recase header header' hname hvalue := by
    simp only [headerUser?, hasName_congr hname, hvalue]
  blank header hblank := by
    rw [headerUser?, Text.nonBlank?_eq_none_iff.2 hblank]
    simp

/-- What is read of the headers is read of those of one name. -/
theorem ReadsName.filterMap_filter {give? : Header → Option String} {name : String}
    (h : ReadsName give? name) (headers : List Header) :
    (headers.filter (Header.hasName name)).filterMap give? = headers.filterMap give? := by
  rw [List.filterMap_filter]
  refine List.filterMap_congr fun header _ => ?_
  by_cases hname : header.hasName name = true
  · rw [if_pos hname]
  · rw [if_neg hname]
    cases hgive : give? header with
    | none => rfl
    | some value => exact absurd (h.hasName header value hgive) hname

/-- The change does not show in what is read. -/
theorem Edit.filterMap_eq {give? : Header → Option String} {name : String}
    (hreads : ReadsName give? name) (hname : name ∈ carrier.headerNames)
    (h : carrier.Edit headers headers') : headers'.filterMap give? = headers.filterMap give? := by
  cases h with
  | permute _ hfilter =>
    rw [← hreads.filterMap_filter headers', ← hfilter name, hreads.filterMap_filter]
  | recase hsame =>
    induction hsame with
    | nil => rfl
    | cons hfirst _ ih =>
      rw [List.filterMap_cons, List.filterMap_cons, ih, hreads.recase _ _ hfirst.1 hfirst.2]
  | insert front hsilent =>
    rename_i header back
    have hnone : give? header = none := by
      rcases hsilent with hblank | hother
      · exact hreads.blank header hblank
      · cases hgive : give? header with
        | none => rfl
        | some value =>
          have := hreads.hasName header value hgive
          simp [hother name hname] at this
    rw [List.filterMap_append, List.filterMap_append, List.filterMap_cons_none hnone]

/-- The changes do not show in what is reported. -/
theorem extract_of_edits {request : Request} {headers' : List Header}
    (h : Relation.ReflTransGen carrier.Edit request.headers headers') :
    carrier.extract { request with headers := headers' } = carrier.extract request := by
  have hread {give? : Header → Option String} {name : String} (hreads : ReadsName give? name)
      (hname : name ∈ carrier.headerNames) :
      headers'.filterMap give? = request.headers.filterMap give? := by
    induction h with
    | refl => rfl
    | tail _ hedit ih => exact (hedit.filterMap_eq hreads hname).trans ih
  rw [extract_eq, extract_eq]
  dsimp only
  rw [hread readsName_headerToken? (by simp [headerNames]),
    hread readsName_headerDevice? (by simp [headerNames]),
    hread readsName_headerUser? (by simp [headerNames])]

/-! ## What does not matter about the query and the path -/

/-- If a header carries a token, the query does not count. -/
theorem extract_of_carriesToken {request : Request} (hmem : header ∈ request.headers)
    (h : carrier.CarriesToken header) (query : Option String) :
    carrier.extract { request with query } = carrier.extract request := by
  obtain ⟨token, htoken⟩ := exists_headerToken?_iff.2 h
  have hgiven : token ∈ request.headers.filterMap carrier.headerToken? :=
    List.mem_filterMap.2 ⟨header, hmem, htoken⟩
  rw [extract_eq, extract_eq]
  cases hlast : (request.headers.filterMap carrier.headerToken?).getLast? with
  | none =>
    rw [List.getLast?_eq_none_iff.1 hlast] at hgiven
    cases hgiven
  | some last => rfl

/-- What follows a question mark does not belong to the path. -/
theorem isLoginPath_append (path text : String) :
    carrier.isLoginPath (path ++ "?" ++ text) = carrier.isLoginPath path := by
  have htake (chars rest : List Char) :
      (chars ++ '?' :: rest).takeWhile (· != '?') = chars.takeWhile (· != '?') := by
    induction chars with
    | nil => simp
    | cons c chars ih => by_cases hc : c = '?' <;> simp [hc, ih]
  have hchars : (path ++ "?" ++ text).toList = path.toList ++ '?' :: text.toList := by
    simp [String.toList_append]
  rw [isLoginPath, hchars, htake, isLoginPath]

/-- What a request says about its caller is trimmed and never empty. It does not depend on how
headers of different names are mixed, on the letter case of their names, on headers without a value
or with other names; nor on the query if a header carries a token, nor on what follows a question
mark in the path. -/
theorem extract_depends_on (carrier : Carrier) (request : Request) :
    (∀ text ∈ (carrier.extract request).texts, text ≠ "" ∧ Text.Trimmed text) ∧
    (∀ headers', Relation.ReflTransGen carrier.Edit request.headers headers' →
      carrier.extract { request with headers := headers' } = carrier.extract request) ∧
    (∀ header ∈ request.headers, carrier.CarriesToken header → ∀ query,
      carrier.extract { request with query } = carrier.extract request) ∧
    ∀ text, carrier.extract { request with path := request.path ++ "?" ++ text } =
      carrier.extract request := by
  refine ⟨fun text => trimmed_of_mem_texts, fun headers' => extract_of_edits,
    fun header => extract_of_carriesToken, fun text => ?_⟩
  rw [extract_eq, extract_eq]
  dsimp only
  rw [isLoginPath_append]

/-- A request that logs in from a device. -/
def loginRequest : Request where
  headers := [("authorization", "bearer\ttok"), ("X-Device-Id", " d ")]
  path := "/login"
  query := some "access_token=other"

/-- The headers come in another order and letter case, with one more among them, the path goes on,
and the query is gone: the same token is reported. -/
theorem extract_depends_on_of_login :
    "tok" ∈ (Carrier.standard.extract loginRequest).texts ∧ Text.Trimmed "tok" ∧
    Carrier.standard.extract ⟨[("x-device-id", " d "), ("Accept", "*/*"),
      ("Authorization", "bearer\ttok")], "/login" ++ "?" ++ "next=/", none⟩ =
    Carrier.standard.extract loginRequest := by
  have hpermute : Carrier.standard.Edit loginRequest.headers
      [("X-Device-Id", " d "), ("authorization", "bearer\ttok")] := by
    refine .permute (List.Perm.swap _ _ _) fun name => ?_
    simp only [loginRequest, List.filter_cons, List.filter_nil, Header.hasName_eq,
      decide_eq_true_eq]
    by_cases hname : "authorization".toList.map Char.toLower = name.toList.map Char.toLower
    · rw [← hname]
      decide
    · simp only [hname, if_false]
  have hrecase : Carrier.standard.Edit
      [("X-Device-Id", " d "), ("authorization", "bearer\ttok")]
      ([("x-device-id", " d ")] ++ [("Authorization", "bearer\ttok")]) := by
    refine .recase (.cons ⟨?_, rfl⟩ (.cons ⟨?_, rfl⟩ .nil)) <;>
    · rw [Header.hasName_eq]
      decide
  have hinsert : Carrier.standard.Edit
      ([("x-device-id", " d ")] ++ [("Authorization", "bearer\ttok")])
      ([("x-device-id", " d ")] ++ ("Accept", "*/*") :: [("Authorization", "bearer\ttok")]) := by
    refine .insert _ (.inr ?_)
    simp only [Header.hasName_eq]
    decide
  have hcarries : Carrier.standard.CarriesToken ("authorization", "bearer\ttok") := by
    refine ⟨?_, by decide, ?_⟩
    · rw [Header.hasName_eq]
      decide
    · rw [ne_eq, ← String.toList_inj, Text.toAsciiLower, String.toList_map]
      decide
  have hreports : "tok" ∈ (Carrier.standard.extract loginRequest).texts := by
    rw [extract_eq]
    simp only [loginRequest, List.filterMap_cons, List.filterMap_nil, headerToken?, headerDevice?,
      headerUser?, Header.hasName_eq]
    decide
  obtain ⟨htrimmed, -, hquery, -⟩ := extract_depends_on Carrier.standard loginRequest
  refine ⟨hreports, (htrimmed _ hreports).2,
    Eq.trans ?_ (hquery _ List.mem_cons_self hcarries none)⟩
  obtain ⟨-, -, -, hpath⟩ := extract_depends_on Carrier.standard { loginRequest with query := none }
  refine Eq.trans ?_ (hpath "next=/")
  obtain ⟨-, hheaders, -, -⟩ := extract_depends_on Carrier.standard
    ⟨loginRequest.headers, "/login" ++ "?" ++ "next=/", none⟩
  exact hheaders _ (.head hpermute (.head hrecase (.single hinsert)))

end Carrier
end Turnstile.Session
