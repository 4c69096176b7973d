import Mathlib.Logic.Relation
import Turnstile.Proofs.Key.Separation

/-!
# Arguments that default keys leave out

Opaque arguments do not come into default keys, nor do those whose types are on the ignore list by
the full name or by the short one. Whatever happens to them, the key stays the same, and so does
the fault if there is no key. Every other argument has to have a value, and the first one that has
none is reported.
-/

namespace Turnstile.Key

/-! ## Short names of types -/

/-- The last segment of a path: what follows the last double colon, or all of the path if there is
none. -/
inductive LastSegment : List Char → List Char → Prop
  | whole {path : List Char} (h : ¬[':', ':'] <:+: path) : LastSegment path path
  | behind {front segment : List Char} (h : ¬[':', ':'] <:+: ':' :: segment) :
      LastSegment (front ++ ':' :: ':' :: segment) segment

/-- The short name of a type: the last segment of its path. The path ends where the type parameters
begin, with the first angle bracket. -/
inductive ShortName : String → String → Prop
  | intro {path parameters segment : List Char} (hpath : '<' ∉ path)
      (hparameters : ∀ c ∈ parameters.head?, c = '<') (h : LastSegment path segment) :
      ShortName (String.ofList (path ++ parameters)) (String.ofList segment)

/-- A path has a last double colon if it has any. -/
theorem afterLastColons_eq_none_iff {cs : List Char} :
    afterLastColons cs = none ↔ ¬[':', ':'] <:+: cs := by
  fun_induction afterLastColons cs with
  | case1 => simp
  | case2 c rest segment hrest ih =>
    rw [hrest] at ih
    simp only [reduceCtorEq, false_iff, not_not] at ih ⊢
    exact List.infix_cons ih
  | case3 rest hrest ih => simp [List.infix_cons_iff]
  | case4 c rest hrest hother ih =>
    rw [hrest] at ih
    simp only [true_iff] at ih ⊢
    intro hcolons
    obtain ⟨more, hmore⟩ | hcolons := List.infix_cons_iff.1 hcolons
    · obtain ⟨rfl, rfl⟩ := List.cons.inj hmore
      exact hother more rfl rfl
    · exact ih hcolons

/-- What comes behind the last double colon comes behind one, and has no other. -/
theorem exists_of_afterLastColons {cs segment : List Char} (h : afterLastColons cs = some segment) :
    ∃ front, cs = front ++ ':' :: ':' :: segment ∧ ¬[':', ':'] <:+: ':' :: segment := by
  fun_induction afterLastColons cs with
  | case1 => cases h
  | case2 c rest segment' hrest ih =>
    obtain ⟨front, rfl, hlast⟩ := ih (hrest.trans h)
    exact ⟨c :: front, rfl, hlast⟩
  | case3 rest hrest ih =>
    cases h
    exact ⟨[], rfl, afterLastColons_eq_none_iff.1 hrest⟩
  | case4 => cases h

/-- A double colon is the last one if there is none behind its first colon. -/
theorem afterLastColons_append (front : List Char) {segment : List Char}
    (h : ¬[':', ':'] <:+: ':' :: segment) :
    afterLastColons (front ++ ':' :: ':' :: segment) = some segment := by
  induction front with
  | nil =>
    rw [List.nil_append, afterLastColons.eq_def]
    dsimp only
    rw [afterLastColons_eq_none_iff.2 h]
    rfl
  | cons c front ih =>
    rw [List.cons_append, afterLastColons.eq_def]
    dsimp only
    rw [ih]

/-- The last segment is what the last double colon leaves. -/
theorem lastSegment_iff {path segment : List Char} :
    LastSegment path segment ↔ segment = (afterLastColons path).getD path := by
  constructor
  · rintro (h | h)
    · rw [afterLastColons_eq_none_iff.2 h]
      rfl
    · rw [afterLastColons_append _ h]
      rfl
  · rintro rfl
    cases h : afterLastColons path with
    | none => exact .whole (afterLastColons_eq_none_iff.1 h)
    | some segment =>
      obtain ⟨front, rfl, hlast⟩ := exists_of_afterLastColons h
      exact .behind hlast

/-- Every type has one short name. -/
theorem shortName_iff {typeName short : String} :
    ShortName typeName short ↔ short = shortTypeName typeName := by
  constructor
  · rintro @⟨path, parameters, segment, hpath, hparameters, h⟩
    have hin : ∀ c ∈ path, (c != '<') = true := fun c hc =>
      bne_iff_ne.2 fun heq => hpath (heq ▸ hc)
    have hout : ∀ c ∈ parameters.head?, (c != '<') = false := fun c hc => by
      simp [hparameters c hc]
    rw [shortTypeName, String.toList_ofList, (Text.span_append hin hout).1, lastSegment_iff.1 h]
  · rintro rfl
    have hout : ∀ c ∈ (typeName.toList.dropWhile (· != '<')).head?, c = '<' := by
      intro c hc
      have hfirst := List.head?_dropWhile_not (· != '<') typeName.toList
      rw [hc] at hfirst
      simpa using hfirst
    have hin : '<' ∉ typeName.toList.takeWhile (· != '<') := fun hmem => by
      simpa using List.all_eq_true.1 List.all_takeWhile _ hmem
    have hshort := ShortName.intro hin hout (lastSegment_iff.2 rfl)
    rwa [List.takeWhile_append_dropWhile, String.ofList_toList] at hshort

namespace Deriver

variable {deriver : Deriver} {args args' : List Argument}

/-- Default keys leave out an argument that is opaque, or whose type is on the ignore list by its
full name or by its short name. -/
inductive LeavesOut (deriver : Deriver) (a : Argument) : Prop
  | resource (h : a.content = .resource)
  | fullName (h : a.typeName ∈ deriver.ignored)
  | shortName {short : String} (h : ShortName a.typeName short) (hshort : short ∈ deriver.ignored)

/-- What is left out can be decided. -/
theorem excludes_iff {a : Argument} : deriver.excludes a = true ↔ deriver.LeavesOut a := by
  simp only [excludes, Argument.isOpaque, isIgnored, Bool.or_eq_true, beq_iff_eq, List.any_eq_true]
  constructor
  · rintro (h | ⟨name, hname, rfl | h⟩)
    · exact .resource h
    · exact .fullName hname
    · exact .shortName (shortName_iff.2 h) hname
  · rintro (h | h | ⟨h, hshort⟩)
    · exact .inl h
    · exact .inr ⟨_, h, .inl rfl⟩
    · exact .inr ⟨_, hshort, .inr (shortName_iff.1 h)⟩

/-- One argument that default keys leave out is put in, taken away, put elsewhere among the others
or changed. -/
inductive Edit (deriver : Deriver) : List Argument → List Argument → Prop
  | insert (front : List Argument) {back : List Argument} {a : Argument} (h : deriver.LeavesOut a) :
      Edit deriver (front ++ back) (front ++ a :: back)
  | delete (front : List Argument) {back : List Argument} {a : Argument} (h : deriver.LeavesOut a) :
      Edit deriver (front ++ a :: back) (front ++ back)
  | later (front between : List Argument) {back : List Argument} {a : Argument}
      (h : deriver.LeavesOut a) :
      Edit deriver (front ++ a :: (between ++ back)) (front ++ (between ++ a :: back))
  | earlier (front between : List Argument) {back : List Argument} {a : Argument}
      (h : deriver.LeavesOut a) :
      Edit deriver (front ++ (between ++ a :: back)) (front ++ a :: (between ++ back))
  | change (front : List Argument) {back : List Argument} {a b : Argument}
      (h : deriver.LeavesOut a) (hb : deriver.LeavesOut b) :
      Edit deriver (front ++ a :: back) (front ++ b :: back)

theorem argumentPart_append_congr (front : List Argument)
    (h : deriver.argumentPart args = deriver.argumentPart args') :
    deriver.argumentPart (front ++ args) = deriver.argumentPart (front ++ args') := by
  induction front with
  | nil => exact h
  | cons a front ih => rw [List.cons_append, List.cons_append, argumentPart, argumentPart, ih]

/-- An argument that is left out makes no difference anywhere. -/
theorem argumentPart_insert (front back : List Argument) {a : Argument} (h : deriver.LeavesOut a) :
    deriver.argumentPart (front ++ a :: back) = deriver.argumentPart (front ++ back) :=
  argumentPart_append_congr front (argumentPart_cons_of_excludes (excludes_iff.2 h))

theorem Edit.argumentPart_eq (h : deriver.Edit args args') :
    deriver.argumentPart args' = deriver.argumentPart args := by
  cases h with
  | insert front h => exact argumentPart_insert front _ h
  | delete front h => exact (argumentPart_insert front _ h).symm
  | later front between h =>
    rw [← List.append_assoc, argumentPart_insert _ _ h, argumentPart_insert _ _ h,
      List.append_assoc]
  | earlier front between h =>
    rw [← List.append_assoc, argumentPart_insert _ _ h, argumentPart_insert _ _ h,
      List.append_assoc]
  | change front h hb => rw [argumentPart_insert _ _ h, argumentPart_insert _ _ hb]

theorem argumentPart_eq_of_edits (h : Relation.ReflTransGen deriver.Edit args args') :
    deriver.argumentPart args' = deriver.argumentPart args := by
  induction h with
  | refl => rfl
  | tail _ hedit ih => exact hedit.argumentPart_eq.trans ih

/-- Where and why a default key fails: at the first argument that is not left out and could not be
turned into JSON. -/
inductive FirstFault (deriver : Deriver) : List Argument → KeyError → Prop
  | here {a : Argument} {args : List Argument} {reason : String} (h : ¬deriver.LeavesOut a)
      (hcontent : a.content = .unserializable reason) :
      FirstFault deriver (a :: args) (.unserializable a.name reason)
  | behind {a : Argument} {args : List Argument} {error : KeyError}
      (h : deriver.LeavesOut a ∨ ∃ v, a.content = .value v) (rest : FirstFault deriver args error) :
      FirstFault deriver (a :: args) error

/-- An argument is passed over or has a value, or else it is at fault. -/
theorem passes_or_lacks (deriver : Deriver) (a : Argument) :
    (deriver.LeavesOut a ∨ ∃ v, a.content = .value v) ∨
      ¬deriver.LeavesOut a ∧ ∃ reason, a.content = .unserializable reason := by
  by_cases h : deriver.LeavesOut a
  · exact .inl (.inl h)
  · cases hcontent : a.content with
    | value v => exact .inl (.inr ⟨v, rfl⟩)
    | resource => exact absurd (.resource hcontent) h
    | unserializable reason => exact .inr ⟨h, reason, rfl⟩

/-- An argument that is passed over or has a value leaves the fault to those behind it. -/
theorem argumentPart_cons_eq_error_iff {a : Argument} {error : KeyError}
    (h : deriver.LeavesOut a ∨ ∃ v, a.content = .value v) :
    deriver.argumentPart (a :: args) = .error error ↔ deriver.argumentPart args = .error error := by
  rw [argumentPart]
  split
  · rfl
  · rename_i hexcludes
    obtain h | ⟨v, hcontent⟩ := h
    · exact absurd (excludes_iff.2 h) hexcludes
    · rw [Argument.value, hcontent]
      exact Text.bind_pure_eq_error_iff

/-- An argument that is included and has no value is reported. -/
theorem argumentPart_cons_of_lacks {a : Argument} {reason : String} (h : ¬deriver.LeavesOut a)
    (hcontent : a.content = .unserializable reason) :
    deriver.argumentPart (a :: args) = .error (.unserializable a.name reason) := by
  rw [argumentPart, if_neg (mt excludes_iff.1 h), Argument.value, hcontent]
  rfl

/-- The fault that is reported is the first one. -/
theorem argumentPart_eq_error_iff {error : KeyError} :
    deriver.argumentPart args = .error error ↔ deriver.FirstFault args error := by
  constructor
  · intro h
    induction args with
    | nil => cases h
    | cons a args ih =>
      obtain hpasses | ⟨hlacks, reason, hcontent⟩ := deriver.passes_or_lacks a
      · exact .behind hpasses (ih ((argumentPart_cons_eq_error_iff hpasses).1 h))
      · rw [argumentPart_cons_of_lacks hlacks hcontent] at h
        cases h
        exact .here hlacks hcontent
  · intro h
    induction h with
    | here h hcontent => exact argumentPart_cons_of_lacks h hcontent
    | behind h _ ih => exact (argumentPart_cons_eq_error_iff h).2 ih

/-- There is a first fault if any argument is at fault. -/
theorem exists_firstFault_iff :
    (∃ error, deriver.FirstFault args error) ↔
      ∃ a ∈ args, ¬deriver.LeavesOut a ∧ ∃ reason, a.content = .unserializable reason := by
  constructor
  · rintro ⟨error, h⟩
    induction h with
    | here h hcontent => exact ⟨_, List.mem_cons_self, h, _, hcontent⟩
    | behind _ _ ih =>
      obtain ⟨a, ha, h⟩ := ih
      exact ⟨a, List.mem_cons_of_mem _ ha, h⟩
  · rintro ⟨a, ha, h, reason, hcontent⟩
    -- Everything in front of the argument is at fault itself, or may be passed over.
    obtain ⟨front, back, rfl⟩ := List.append_of_mem ha
    clear ha
    induction front with
    | nil => exact ⟨_, .here h hcontent⟩
    | cons b front ih =>
      obtain hpasses | ⟨hlacks, reason, hother⟩ := deriver.passes_or_lacks b
      · obtain ⟨error, hrest⟩ := ih
        exact ⟨error, .behind hpasses hrest⟩
      · exact ⟨_, .here hlacks hother⟩

/-- A default key fails where the part of its arguments does. -/
theorem operationKey_eq_error_iff {operation : String} {error : KeyError} :
    deriver.operationKey ⟨operation, args⟩ none = .error error ↔
      deriver.argumentPart args = .error error := by
  unfold operationKey defaultKey
  exact Text.bind_pure_eq_error_iff

/-- Neither the default key nor the fault changes if arguments that default keys leave out are put
in, taken away, put elsewhere or changed. There is no key exactly if one of the other arguments
could not be turned into JSON, and the first of these is reported. -/
theorem operationKey_of_edits (deriver : Deriver) (operation : String) (args : List Argument) :
    (∀ args', Relation.ReflTransGen deriver.Edit args args' →
      deriver.operationKey ⟨operation, args'⟩ none =
        deriver.operationKey ⟨operation, args⟩ none) ∧
    ((∃ error, deriver.operationKey ⟨operation, args⟩ none = .error error) ↔
      ∃ a ∈ args, ¬deriver.LeavesOut a ∧ ∃ reason, a.content = .unserializable reason) ∧
    ∀ error, deriver.operationKey ⟨operation, args⟩ none = .error error ↔
      deriver.FirstFault args error := by
  refine ⟨fun args' h => ?_, ?_, fun error => ?_⟩
  · unfold operationKey defaultKey
    dsimp only
    rw [argumentPart_eq_of_edits h]
  · simp only [operationKey_eq_error_iff, argumentPart_eq_error_iff]
    exact exists_firstFault_iff
  · rw [operationKey_eq_error_iff, argumentPart_eq_error_iff]

end Deriver

/-- The account that a payment goes to. -/
def accountArgument : Argument := ⟨"account", "u64", .value (.ofInt 42)⟩

/-- The connection that a payment uses. -/
def connectionArgument : Argument := ⟨"connection", "std::net::tcp::TcpStream", .resource⟩

/-- The request that a payment comes from. Its type is a reference and has a type parameter. -/
def requestArgument (content : Content) : Argument :=
  ⟨"request", "&app::http::Request<app::http::Body>", content⟩

/-- The request goes behind the account, a connection comes between them, and the request can no
longer be turned into JSON. -/
theorem Deriver.operationKey_of_edits_of_request :
    (Deriver.mk ["Request"]).operationKey ⟨"pay", [accountArgument, connectionArgument,
        requestArgument (.unserializable "key must be a string")]⟩ none = .ok "pay:42" := by
  have hname : "Request" = shortTypeName "&app::http::Request<app::http::Body>" := by
    decide
  have hrequest (content : Content) :
      (Deriver.mk ["Request"]).LeavesOut (requestArgument content) :=
    .shortName (shortName_iff.2 hname) (List.mem_singleton.2 rfl)
  have hedits : Relation.ReflTransGen (Deriver.mk ["Request"]).Edit
      [requestArgument (.value .null), accountArgument]
      [accountArgument, connectionArgument,
        requestArgument (.unserializable "key must be a string")] :=
    .head (.later [] [accountArgument] (hrequest _)) <|
      .head (.insert [accountArgument] (.resource rfl)) <|
        .single (.change [accountArgument, connectionArgument] (hrequest _) (hrequest _))
  rw [((Deriver.mk ["Request"]).operationKey_of_edits "pay" _).1 _ hedits]
  decide

end Turnstile.Key
