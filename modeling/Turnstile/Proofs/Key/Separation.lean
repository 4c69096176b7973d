import Mathlib.Data.List.Forall2
import Turnstile.Key.Operation
import Turnstile.Proofs.Json.Nesting

/-!
# What default keys tell apart

A default key has a colon in front of every argument, and texts are in it as they are, without
quotes. So it does not always tell where a text ends, nor whether there is a text at all. Where at
most one argument leaves that open, the others can be read off the key from both of its ends, and
equal keys come from equal arguments.
-/

namespace Turnstile.Key

open Json (Value)

/-! ## Values in keys -/

/-- A text with the character that separates arguments. -/
def hasColon : Value → Bool
  | .string s => s.toList.contains ':'
  | _ => false

/-- Two values of one argument that a key cannot always tell where they end: one of them is a text
with a colon, or only one of them is a text. -/
def ambiguous (v w : Value) : Bool := hasColon v || hasColon w || v.text?.isSome != w.text?.isSome

/-- A text that is the JSON text of a value, which is no text itself. -/
def spells : Value → Value → Bool
  | .string s, w => w.text?.isNone && s.toList == w.render
  | _, _ => false

section Values

variable {v w : Value}

/-- Values that are not ambiguous are both texts without a colon or both no texts. -/
theorem cases_of_not_ambiguous (h : ambiguous v w = false) :
    (∃ s t, v = .string s ∧ w = .string t ∧ ':' ∉ s.toList ∧ ':' ∉ t.toList) ∨
      v.text? = none ∧ w.text? = none := by
  simp only [ambiguous, Bool.or_eq_false_iff, bne_eq_false_iff_eq] at h
  obtain ⟨⟨hcolon, hcolon'⟩, hsome⟩ := h
  cases hv : v.text? with
  | none =>
    rw [hv] at hsome
    exact .inr ⟨rfl, Option.not_isSome_iff_eq_none.1 (by rw [← hsome]; exact Bool.false_ne_true)⟩
  | some s =>
    rw [hv] at hsome
    obtain ⟨t, hw⟩ := Option.isSome_iff_exists.1 hsome.symm
    obtain rfl := Value.text?_eq_some_iff.1 hv
    obtain rfl := Value.text?_eq_some_iff.1 hw
    simp only [hasColon, List.contains_eq_mem, decide_eq_false_iff_not] at hcolon hcolon'
    exact .inl ⟨s, t, rfl, rfl, hcolon, hcolon'⟩

/-- The part of a value that is no text is its JSON text. -/
theorem segment_of_text?_eq_none (h : v.text? = none) : segment v = v.render := by
  cases v <;> first | rfl | cases h

/-- A colon comes next, or nothing at all. -/
def Separated (rest : List Char) : Prop := ∀ c ∈ rest.head?, c = ':'

/-- A text without a colon is a run of other characters. -/
theorem forall_ne_colon {text : List Char} (h : ':' ∉ text) : ∀ c ∈ text, (c != ':') = true :=
  fun _ hc => bne_iff_ne.2 fun heq => h (heq ▸ hc)

/-- The run ends with the colon. -/
theorem Separated.ne_colon {rest : List Char} (h : Separated rest) :
    ∀ c ∈ rest.head?, (c != ':') = false := by
  intro c hc
  rw [h c hc]
  rfl

/-- A number ends with the colon. -/
theorem Separated.ends {rest : List Char} (h : Separated rest) : Json.Ends rest := by
  intro c hc
  rw [h c hc]
  rfl

/-- The first value of a key ends where the next colon comes. -/
theorem eq_of_segment_append (hv : v.Finite) (hw : w.Finite) (hplain : ambiguous v w = false)
    {rest rest' : List Char} (hrest : Separated rest) (hrest' : Separated rest')
    (h : segment v ++ rest = segment w ++ rest') : v = w := by
  obtain ⟨s, t, rfl, rfl, hs, ht⟩ | ⟨hv', hw'⟩ := cases_of_not_ambiguous hplain
  · have hspan := Text.eq_of_span_append (forall_ne_colon hs) hrest.ne_colon (forall_ne_colon ht)
      hrest'.ne_colon h
    rw [String.toList_injective hspan.1]
  · rw [segment_of_text?_eq_none hv', segment_of_text?_eq_none hw'] at h
    exact Value.eq_of_render_append v w hv hw hrest.ends hrest'.ends h

/-- A JSON text that ends with another one behind a colon is that other one. -/
theorem eq_of_colon_append (hv : v.Finite) (hw : w.Finite) (htext : w.text? = none)
    {front : List Char} (h : ':' :: w.render = front ++ ':' :: v.render) : v = w := by
  cases front with
  | nil =>
    exact (Value.eq_of_render hw hv (List.cons.inj h).2).symm
  | cons c front =>
    exact absurd (List.cons.inj h).2 (Value.render_ne_append_colon hv hw htext front)

/-- The last value of a key begins behind the colon that separates it. -/
theorem eq_of_append_segment (hv : v.Finite) (hw : w.Finite) (hplain : ambiguous v w = false)
    {front front' : List Char} (h : front ++ ':' :: segment v = front' ++ ':' :: segment w) :
    v = w := by
  obtain ⟨s, t, rfl, rfl, hs, ht⟩ | ⟨hv', hw'⟩ := cases_of_not_ambiguous hplain
  · have hreverse : s.toList.reverse ++ ':' :: front.reverse =
        t.toList.reverse ++ ':' :: front'.reverse := by
      have := congrArg List.reverse h
      simpa [segment] using this
    have hcolon (rest : List Char) : Separated (':' :: rest) := fun c hc =>
      (Option.some.inj hc).symm
    have hspan := Text.eq_of_span_append
      (forall_ne_colon (mt List.mem_reverse.1 hs)) (hcolon _).ne_colon
      (forall_ne_colon (mt List.mem_reverse.1 ht)) (hcolon _).ne_colon hreverse
    rw [String.toList_injective (List.reverse_injective hspan.1)]
  · rw [segment_of_text?_eq_none hv', segment_of_text?_eq_none hw'] at h
    obtain ⟨more, -, hmore⟩ | ⟨more, -, hmore⟩ := List.append_eq_append_iff.1 h
    · exact (eq_of_colon_append hw hv hv' hmore).symm
    · exact eq_of_colon_append hv hw hw' hmore

/-- Values with one part in keys are the same, unless one of them is a text that spells the
other. -/
theorem eq_of_segment (hv : v.Finite) (hw : w.Finite) (hspells : spells v w = false)
    (hspells' : spells w v = false) (h : segment v = segment w) : v = w := by
  cases htext : v.text? with
  | none =>
    cases htext' : w.text? with
    | none =>
      rw [segment_of_text?_eq_none htext, segment_of_text?_eq_none htext'] at h
      exact Value.eq_of_render hv hw h
    | some t =>
      obtain rfl := Value.text?_eq_some_iff.1 htext'
      rw [segment_of_text?_eq_none htext] at h
      simp only [spells, htext, Option.isNone_none, Bool.true_and, beq_eq_false_iff_ne] at hspells'
      exact absurd h.symm hspells'
  | some s =>
    obtain rfl := Value.text?_eq_some_iff.1 htext
    cases htext' : w.text? with
    | none =>
      rw [segment_of_text?_eq_none htext'] at h
      simp only [spells, htext', Option.isNone_none, Bool.true_and, beq_eq_false_iff_ne] at hspells
      exact absurd h hspells
    | some t =>
      obtain rfl := Value.text?_eq_some_iff.1 htext'
      exact congrArg Value.string (String.toList_injective h)

end Values

/-! ## Arguments in keys -/

/-- Two arguments in one place of two calls of one operation. -/
structure Argument.Alike (a b : Argument) : Prop where
  name : a.name = b.name
  typeName : a.typeName = b.typeName
  isOpaque : a.isOpaque = b.isOpaque

/-- The value of an argument, if it has one, has a JSON text. -/
def Argument.Finite (argument : Argument) : Prop := ∀ v, argument.value = .ok v → v.Finite

/-- An argument has one value in two calls. -/
def Argument.Same (a b : Argument) : Prop := ∃ v, a.value = .ok v ∧ b.value = .ok v

namespace Deriver

variable (deriver : Deriver)

/-- A key cannot always tell where an argument ends that has these values in two calls. -/
def leavesOpen (a b : Argument) : Bool :=
  match a.value, b.value with
  | .ok v, .ok w => !deriver.excludes a && ambiguous v w
  | _, _ => false

/-- An argument is a text in one of two calls that spells its value in the other. -/
def mistakes (a b : Argument) : Bool :=
  match a.value, b.value with
  | .ok v, .ok w => !deriver.excludes a && (spells v w || spells w v)
  | _, _ => false

section Parts

variable {deriver} {a : Argument} {args : List Argument} {part : List Char}

/-- An argument that is left out adds nothing. -/
theorem argumentPart_cons_of_excludes (h : deriver.excludes a = true) :
    deriver.argumentPart (a :: args) = deriver.argumentPart args := by
  rw [argumentPart, if_pos h]

/-- An argument that is included adds a colon and its value. -/
theorem argumentPart_cons_eq_ok (h : deriver.excludes a = false)
    (hpart : deriver.argumentPart (a :: args) = .ok part) :
    ∃ v more, a.value = .ok v ∧ deriver.argumentPart args = .ok more ∧
      part = ':' :: (segment v ++ more) := by
  rw [argumentPart, h] at hpart
  cases hv : a.value with
  | error e =>
    rw [hv] at hpart
    cases hpart
  | ok v =>
    cases hmore : deriver.argumentPart args with
    | error e =>
      rw [hv, hmore] at hpart
      cases hpart
    | ok more =>
      rw [hv, hmore] at hpart
      cases hpart
      exact ⟨v, more, rfl, rfl, rfl⟩

/-- The part of the arguments begins with a colon if it is not empty. -/
theorem separated_argumentPart (h : deriver.argumentPart args = .ok part) : Separated part := by
  induction args with
  | nil =>
    cases h
    exact nofun
  | cons a args ih =>
    cases hexcludes : deriver.excludes a with
    | true =>
      rw [argumentPart_cons_of_excludes hexcludes] at h
      exact ih h
    | false =>
      obtain ⟨v, more, -, -, rfl⟩ := argumentPart_cons_eq_ok hexcludes h
      exact fun c hc => (Option.some.inj hc).symm

/-- Arguments that are alike are both left out or both included. -/
theorem excludes_eq {b : Argument} (h : a.Alike b) : deriver.excludes a = deriver.excludes b := by
  rw [excludes, excludes, h.typeName, h.isOpaque]

end Parts

section Calls

variable {deriver} {args args' : List Argument} {part part' : List Char}

/-- Where no argument leaves its end open, the arguments are read off the end of a key. -/
theorem same_of_append (halike : List.Forall₂ Argument.Alike args args')
    (hfinite : ∀ a ∈ args, a.Finite) (hfinite' : ∀ a ∈ args', a.Finite)
    (hclosed : ∀ p ∈ args.zip args', deriver.leavesOpen p.1 p.2 = false)
    (hpart : deriver.argumentPart args = .ok part) (hpart' : deriver.argumentPart args' = .ok part')
    {front front' : List Char} (h : front ++ part = front' ++ part') :
    front = front' ∧ ∀ p ∈ args.zip args', deriver.excludes p.1 = false → p.1.Same p.2 := by
  induction halike generalizing part part' front front' with
  | nil =>
    cases hpart
    cases hpart'
    rw [List.append_nil, List.append_nil] at h
    exact ⟨h, nofun⟩
  | @cons a b args args' hab halike ih =>
    have hrest := fun a ha => hfinite a (List.mem_cons_of_mem _ ha)
    have hrest' := fun a ha => hfinite' a (List.mem_cons_of_mem _ ha)
    have htail := fun p hp => hclosed p (List.mem_cons_of_mem _ hp)
    cases hexcludes : deriver.excludes a with
    | true =>
      rw [argumentPart_cons_of_excludes hexcludes] at hpart
      rw [argumentPart_cons_of_excludes ((excludes_eq hab).symm.trans hexcludes)] at hpart'
      obtain ⟨hfront, hsame⟩ := ih hrest hrest' htail hpart hpart' h
      refine ⟨hfront, List.forall_mem_cons.2 ⟨fun hincluded => ?_, hsame⟩⟩
      cases hexcludes.symm.trans hincluded
    | false =>
      obtain ⟨v, more, hv, hmore, rfl⟩ := argumentPart_cons_eq_ok hexcludes hpart
      obtain ⟨w, more', hw, hmore', rfl⟩ :=
        argumentPart_cons_eq_ok ((excludes_eq hab).symm.trans hexcludes) hpart'
      have hplain : ambiguous v w = false := by
        have hhead := hclosed (a, b) List.mem_cons_self
        simpa only [leavesOpen, hv, hw, hexcludes, Bool.not_false, Bool.true_and] using hhead
      rw [← List.cons_append, ← List.append_assoc, ← List.cons_append, ← List.append_assoc] at h
      obtain ⟨hfront, hsame⟩ := ih hrest hrest' htail hmore hmore' h
      have hvalue := eq_of_append_segment (hfinite a List.mem_cons_self v hv)
        (hfinite' b List.mem_cons_self w hw) hplain hfront
      subst hvalue
      exact ⟨List.append_cancel_right hfront, List.forall_mem_cons.2 ⟨fun _ => ⟨v, hv, hw⟩, hsame⟩⟩

/-- Where at most one argument leaves its end open, the others are read off both ends of a key, and
that one is what is between them. -/
theorem same_of_argumentPart (halike : List.Forall₂ Argument.Alike args args')
    (hfinite : ∀ a ∈ args, a.Finite) (hfinite' : ∀ a ∈ args', a.Finite)
    (hopen : (args.zip args').Pairwise fun p q =>
      ¬(deriver.leavesOpen p.1 p.2 = true ∧ deriver.leavesOpen q.1 q.2 = true))
    (hmistakes : ∀ p ∈ args.zip args', deriver.mistakes p.1 p.2 = false)
    (hpart : deriver.argumentPart args = .ok part)
    (hpart' : deriver.argumentPart args' = .ok part) :
    ∀ p ∈ args.zip args', deriver.excludes p.1 = false → p.1.Same p.2 := by
  induction halike generalizing part with
  | nil => exact nofun
  | @cons a b args args' hab halike ih =>
    obtain ⟨hhead, htail⟩ := List.pairwise_cons.1 hopen
    have hrest := fun a ha => hfinite a (List.mem_cons_of_mem _ ha)
    have hrest' := fun a ha => hfinite' a (List.mem_cons_of_mem _ ha)
    have hmistakes' := fun p hp => hmistakes p (List.mem_cons_of_mem _ hp)
    cases hexcludes : deriver.excludes a with
    | true =>
      rw [argumentPart_cons_of_excludes hexcludes] at hpart
      rw [argumentPart_cons_of_excludes ((excludes_eq hab).symm.trans hexcludes)] at hpart'
      have hsame := ih hrest hrest' htail hmistakes' hpart hpart'
      refine List.forall_mem_cons.2 ⟨fun hincluded => ?_, hsame⟩
      cases hexcludes.symm.trans hincluded
    | false =>
      obtain ⟨v, more, hv, hmore, rfl⟩ := argumentPart_cons_eq_ok hexcludes hpart
      obtain ⟨w, more', hw, hmore', h⟩ :=
        argumentPart_cons_eq_ok ((excludes_eq hab).symm.trans hexcludes) hpart'
      have hsegments := (List.cons.inj h).2
      have hfin := hfinite a List.mem_cons_self v hv
      have hfin' := hfinite' b List.mem_cons_self w hw
      cases hambiguous : ambiguous v w with
      | true =>
        -- No other argument leaves its end open, so those behind this one are read off the end.
        have hleaves : deriver.leavesOpen a b = true := by
          simp only [leavesOpen, hv, hw, hexcludes, hambiguous, Bool.not_false, Bool.true_and]
        have hclosed : ∀ p ∈ args.zip args', deriver.leavesOpen p.1 p.2 = false := fun p hp =>
          Bool.eq_false_iff.2 fun hp' => hhead p hp ⟨hleaves, hp'⟩
        obtain ⟨hsegment, hsame⟩ :=
          same_of_append halike hrest hrest' hclosed hmore hmore' hsegments
        have hspells := hmistakes (a, b) List.mem_cons_self
        simp only [mistakes, hv, hw, hexcludes, Bool.not_false, Bool.true_and,
          Bool.or_eq_false_iff] at hspells
        have hvalue := eq_of_segment hfin hfin' hspells.1 hspells.2 hsegment
        subst hvalue
        exact List.forall_mem_cons.2 ⟨fun _ => ⟨v, hv, hw⟩, hsame⟩
      | false =>
        have hvalue := eq_of_segment_append hfin hfin' hambiguous (separated_argumentPart hmore)
          (separated_argumentPart hmore') hsegments
        subst hvalue
        rw [← List.append_cancel_left hsegments] at hmore'
        exact List.forall_mem_cons.2
          ⟨fun _ => ⟨v, hv, hw⟩, ih hrest hrest' htail hmistakes' hmore hmore'⟩

/-- The key of a call is its operation and the part of its arguments. -/
theorem defaultKey_eq_ok {scope : Scope} {key : String} (h : deriver.defaultKey scope = .ok key) :
    ∃ part, deriver.argumentPart scope.arguments = .ok part ∧
      key.toList = scope.operation.toList ++ part := by
  unfold defaultKey at h
  cases hpart : deriver.argumentPart scope.arguments with
  | error e =>
    rw [hpart] at h
    cases h
  | ok part =>
    rw [hpart] at h
    cases h
    exact ⟨part, rfl, String.toList_ofList⟩

end Calls

/-- Two calls of one operation whose default keys are equal agree in every argument that is neither
a resource nor of an ignored type, if at most one of these leaves its end open and none is mistaken
for a text. -/
theorem operationKey_separates {first second : Scope}
    (hoperation : first.operation = second.operation)
    (halike : List.Forall₂ Argument.Alike first.arguments second.arguments)
    (hfinite : ∀ a ∈ first.arguments, a.Finite) (hfinite' : ∀ a ∈ second.arguments, a.Finite)
    (hopen : (first.arguments.zip second.arguments).Pairwise fun p q =>
      ¬(deriver.leavesOpen p.1 p.2 = true ∧ deriver.leavesOpen q.1 q.2 = true))
    (hmistakes : ∀ p ∈ first.arguments.zip second.arguments, deriver.mistakes p.1 p.2 = false)
    {key : String} (hkey : deriver.operationKey first none = .ok key)
    (hkey' : deriver.operationKey second none = .ok key) :
    ∀ p ∈ first.arguments.zip second.arguments, p.1.isOpaque = false →
      deriver.isIgnored p.1.typeName = false → p.1.Same p.2 := by
  obtain ⟨part, hpart, heq⟩ := defaultKey_eq_ok hkey
  obtain ⟨part', hpart', heq'⟩ := defaultKey_eq_ok hkey'
  rw [heq, hoperation] at heq'
  rw [← List.append_cancel_left heq'] at hpart'
  intro p hp hopaque hignored
  refine same_of_argumentPart halike hfinite hfinite' hopen hmistakes hpart hpart' p hp ?_
  rw [excludes, hopaque, hignored]
  rfl

/-- Two calls of one operation differ in an argument that is neither a resource nor of an ignored
type, and have one default key. -/
structure Collide (first second : Scope) : Prop where
  operation : first.operation = second.operation
  alike : List.Forall₂ Argument.Alike first.arguments second.arguments
  finite : (∀ a ∈ first.arguments, a.Finite) ∧ ∀ a ∈ second.arguments, a.Finite
  key : ∃ key, deriver.operationKey first none = .ok key ∧
    deriver.operationKey second none = .ok key
  differ : ∃ p ∈ first.arguments.zip second.arguments,
    p.1.isOpaque = false ∧ deriver.isIgnored p.1.typeName = false ∧ ¬p.1.Same p.2

end Deriver

/-! ## Calls that collide -/

/-- An argument with a value. -/
def argumentOf (typeName name : String) (v : Value) : Argument := ⟨name, typeName, .value v⟩

section Collisions

variable {typeName name : String} {v w : Value}

theorem alike_argumentOf : (argumentOf typeName name v).Alike (argumentOf typeName name w) :=
  ⟨rfl, rfl, rfl⟩

theorem finite_argumentOf (h : v.Finite) : (argumentOf typeName name v).Finite := by
  intro w hw
  cases hw
  exact h

theorem not_same_argumentOf (h : v ≠ w) :
    ¬(argumentOf typeName name v).Same (argumentOf typeName name w) := by
  rintro ⟨u, hv, hw⟩
  cases hv
  exact h (Except.ok.inj hw).symm

end Collisions

/-- A small number. -/
def oneDigit (n : Fin 10) : Value := .number (.whole ⟨n, by omega, by omega⟩)

/-- Default keys do not separate all calls: a colon in two texts, a text in the place of a number
that it spells, and two texts in the places of objects make them equal. -/
theorem colliding_calls :
    (Deriver.mk []).Collide
      ⟨"transfer", [argumentOf "String" "from" (.string "a:b"),
        argumentOf "String" "to" (.string "c")]⟩
      ⟨"transfer", [argumentOf "String" "from" (.string "a"),
        argumentOf "String" "to" (.string "b:c")]⟩ ∧
    (Deriver.mk []).Collide
      ⟨"read", [argumentOf "Value" "version" (.string "1")]⟩
      ⟨"read", [argumentOf "Value" "version" (oneDigit 1)]⟩ ∧
    (Deriver.mk []).Collide
      ⟨"merge", [argumentOf "Value" "left" (.string "\x7b\"a\""),
        argumentOf "Value" "middle" (.string "1\x7d"),
        argumentOf "Value" "right" (.object [("b", oneDigit 2)])]⟩
      ⟨"merge", [argumentOf "Value" "left" (.object [("a", oneDigit 1)]),
        argumentOf "Value" "middle" (.string "\x7b\"b\""),
        argumentOf "Value" "right" (.string "2\x7d")]⟩ := by
  have hfinite {args : List Argument} (h : ∀ a ∈ args, a.Finite) {typeName name : String}
      {v : Value} (hv : v.Finite) : ∀ a ∈ argumentOf typeName name v :: args, a.Finite :=
    List.forall_mem_cons.2 ⟨finite_argumentOf hv, h⟩
  have hnone : ∀ a ∈ ([] : List Argument), a.Finite := nofun
  have htext (s : String) : (Value.string s).Finite := trivial
  have hdigit (n : Fin 10) : (oneDigit n).Finite := trivial
  have hobject (k : String) (n : Fin 10) : (Value.object [(k, oneDigit n)]).Finite :=
    ⟨trivial, trivial⟩
  refine ⟨⟨rfl, ?_, ⟨?_, ?_⟩, ⟨"transfer:a:b:c", rfl, rfl⟩, ⟨_, List.mem_cons_self, rfl, rfl, ?_⟩⟩,
    ⟨rfl, ?_, ⟨?_, ?_⟩, ⟨"read:1", rfl, rfl⟩, ⟨_, List.mem_cons_self, rfl, rfl, ?_⟩⟩,
    ⟨rfl, ?_, ⟨?_, ?_⟩, ⟨"merge:\x7b\"a\":1\x7d:\x7b\"b\":2\x7d", rfl, rfl⟩,
      ⟨_, List.mem_cons_self, rfl, rfl, ?_⟩⟩⟩
  · exact .cons alike_argumentOf (.cons alike_argumentOf .nil)
  · exact hfinite (hfinite hnone (htext _)) (htext _)
  · exact hfinite (hfinite hnone (htext _)) (htext _)
  · exact not_same_argumentOf fun h => absurd (Value.string.inj h) (by decide)
  · exact .cons alike_argumentOf .nil
  · exact hfinite hnone (htext _)
  · exact hfinite hnone (hdigit 1)
  · exact not_same_argumentOf nofun
  · exact .cons alike_argumentOf (.cons alike_argumentOf (.cons alike_argumentOf .nil))
  · exact hfinite (hfinite (hfinite hnone (hobject "b" 2)) (htext _)) (htext _)
  · exact hfinite (hfinite (hfinite hnone (htext _)) (htext _)) (hobject "a" 1)
  · exact not_same_argumentOf nofun

/-- A transfer to an account whose name has a colon, with a request that keys leave out. -/
def transferCall (request : String) : Scope where
  operation := "transfer"
  arguments := [argumentOf "String" "account" (.string "acct:42"),
    argumentOf "u64" "amount" (oneDigit 5), argumentOf "Request" "request" (.string request)]

theorem operationKey_separates_transfers :
    (Deriver.mk ["Request"]).operationKey (transferCall "x") none = .ok "transfer:acct:42:5" ∧
    (Deriver.mk ["Request"]).operationKey (transferCall "y") none = .ok "transfer:acct:42:5" ∧
    ∀ p ∈ (transferCall "x").arguments.zip (transferCall "y").arguments, p.1.isOpaque = false →
      (Deriver.mk ["Request"]).isIgnored p.1.typeName = false → p.1.Same p.2 := by
  have hfinite (request : String) : ∀ a ∈ (transferCall request).arguments, a.Finite :=
    List.forall_mem_cons.2 ⟨finite_argumentOf trivial,
      List.forall_mem_cons.2 ⟨finite_argumentOf trivial,
        List.forall_mem_singleton.2 (finite_argumentOf trivial)⟩⟩
  have hkey : (Deriver.mk ["Request"]).operationKey (transferCall "x") none =
      .ok "transfer:acct:42:5" := rfl
  have hkey' : (Deriver.mk ["Request"]).operationKey (transferCall "y") none =
      .ok "transfer:acct:42:5" := rfl
  refine ⟨hkey, hkey', Deriver.operationKey_separates _ rfl ?_ (hfinite "x") (hfinite "y") ?_ ?_
    hkey hkey'⟩
  · exact .cons alike_argumentOf (.cons alike_argumentOf (.cons alike_argumentOf .nil))
  · decide
  · decide

end Turnstile.Key
