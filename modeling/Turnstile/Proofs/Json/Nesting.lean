import Turnstile.Proofs.Json.Texts

/-!
# Nesting of texts

A walk through a text keeps the number of open brackets and whether it is within a string. It
comes back to where it has started from over the text of a value, and it stays within a string if
it has started there as if the text were part of one. So the text of a value does not end with the
text of another one behind a colon.
-/

namespace Turnstile.Json

/-! ## Walks -/

/-- How the next character is to be taken. -/
inductive Mode
  | outside
  | inside
  | escaped
  deriving DecidableEq

/-- Where a walk has come to. -/
structure Place where
  depth : Nat
  mode : Mode

namespace Place

/-- A step over one character. A bracket that closes nothing ends the walk, and so does a backslash
outside of strings. -/
def step (place : Place) (c : Char) : Option Place :=
  match place.mode with
  | .outside =>
    if c = '"' then some ⟨place.depth, .inside⟩
    else if c = '\\' then none
    else if c = '[' ∨ c = '{' then some ⟨place.depth + 1, .outside⟩
    else if c = ']' ∨ c = '}' then
      if place.depth = 0 then none else some ⟨place.depth - 1, .outside⟩
    else some place
  | .inside =>
    if c = '"' then some ⟨place.depth, .outside⟩
    else if c = '\\' then some ⟨place.depth, .escaped⟩
    else some place
  | .escaped => some ⟨place.depth, .inside⟩

/-- A walk over a text. -/
def walk (place : Place) (text : List Char) : Option Place := text.foldlM step place

theorem walk_append (place : Place) (front back : List Char) :
    place.walk (front ++ back) = (place.walk front).bind fun next => next.walk back :=
  List.foldlM_append

theorem walk_cons (place : Place) (c : Char) (text : List Char) :
    place.walk (c :: text) = (place.step c).bind fun next => next.walk text := rfl

/-- A step that goes on from deeper down ends deeper down by as much. -/
theorem step_deeper {place next : Place} {c : Char} (h : place.step c = some next) (n : Nat) :
    step ⟨place.depth + n, place.mode⟩ c = some ⟨next.depth + n, next.mode⟩ := by
  obtain ⟨depth, mode⟩ := place
  cases mode <;> grind [step]

/-- A walk that goes on from deeper down ends deeper down by as much. -/
theorem walk_deeper {place last : Place} {text : List Char} (h : place.walk text = some last)
    (n : Nat) : walk ⟨place.depth + n, place.mode⟩ text = some ⟨last.depth + n, last.mode⟩ := by
  induction text generalizing place with
  | nil =>
    cases h
    rfl
  | cons c text ih =>
    rw [walk_cons] at h ⊢
    obtain ⟨next, hstep, hnext⟩ := Option.bind_eq_some_iff.1 h
    rw [step_deeper hstep]
    exact ih hnext

end Place

open Place (walk)

/-! ## Texts that walks come back over -/

/-- A walk comes back over the text. -/
def Balanced (text : List Char) : Prop :=
  ∀ depth, walk ⟨depth, .outside⟩ text = some ⟨depth, .outside⟩

/-- A walk over the text ends in the mode that it has started in, unless it ends before. -/
def Keeps (mode : Mode) (text : List Char) : Prop :=
  ∀ depth last, walk ⟨depth, mode⟩ text = some last → last.mode = mode

section Composition

variable {front back : List Char}

theorem Balanced.append (hfront : Balanced front) (hback : Balanced back) :
    Balanced (front ++ back) := by
  intro depth
  rw [Place.walk_append, hfront depth]
  exact hback depth

theorem Keeps.append {mode : Mode} (hfront : Keeps mode front) (hback : Keeps mode back) :
    Keeps mode (front ++ back) := by
  intro depth last h
  rw [Place.walk_append] at h
  obtain ⟨⟨depth', mode'⟩, hnext, hlast⟩ := Option.bind_eq_some_iff.1 h
  obtain rfl : mode' = mode := hfront depth _ hnext
  exact hback depth' last hlast

end Composition

/-- Whether walks pass over a character. -/
def isPlain (c : Char) : Bool :=
  !(c == '"' || c == '\\' || c == '[' || c == ']' || c == '{' || c == '}')

/-- A walk passes over plain characters. -/
theorem step_plain {c : Char} (h : isPlain c = true) {mode : Mode} (hmode : mode ≠ .escaped)
    (depth : Nat) : Place.step ⟨depth, mode⟩ c = some ⟨depth, mode⟩ := by
  simp only [isPlain, Bool.not_eq_true', Bool.or_eq_false_iff, beq_eq_false_iff_ne] at h
  obtain ⟨⟨⟨⟨⟨hquote, hescape⟩, hopen⟩, hclose⟩, hopen'⟩, hclose'⟩ := h
  cases mode with
  | outside =>
    simp only [Place.step, if_neg hquote, if_neg hescape, hopen, hopen', hclose, hclose', or_self,
      if_false]
  | inside => simp only [Place.step, if_neg hquote, if_neg hescape]
  | escaped => exact absurd rfl hmode

theorem walk_plain {text : List Char} (h : ∀ c ∈ text, isPlain c = true) {mode : Mode}
    (hmode : mode ≠ .escaped) (depth : Nat) : walk ⟨depth, mode⟩ text = some ⟨depth, mode⟩ := by
  induction text with
  | nil => rfl
  | cons c text ih =>
    rw [Place.walk_cons, step_plain (h c List.mem_cons_self) hmode]
    exact ih fun d hd => h d (List.mem_cons_of_mem _ hd)

theorem keeps_plain {text : List Char} (h : ∀ c ∈ text, isPlain c = true) {mode : Mode}
    (hmode : mode ≠ .escaped) : Keeps mode text := by
  intro depth last hlast
  rw [walk_plain h hmode] at hlast
  exact (Option.some.inj hlast) ▸ rfl

/-! ## Texts of values -/

/-- A walk comes back over what stands for a character within a string. -/
theorem walk_escapeChar (c : Char) (depth : Nat) :
    walk ⟨depth, .inside⟩ (escapeChar c) = some ⟨depth, .inside⟩ := by
  unfold escapeChar
  iterate 7
    split
    · rfl
  split
  · have hdigit : ∀ n < 16, isPlain (Hex.digit n) = true := by decide
    have hdigits : ∀ d ∈ ['0', '0', Hex.digit (c.toNat / 16), Hex.digit (c.toNat % 16)],
        isPlain d = true := by
      simp only [List.forall_mem_cons]
      exact ⟨hdigit 0 (by decide), hdigit 0 (by decide), hdigit _ (by omega), hdigit _ (by omega),
        nofun⟩
    have hinside : Mode.inside ≠ .escaped := by decide
    exact walk_plain hdigits hinside depth
  · rename_i hquote hescape _ _ _ _ _ _
    simp only [Place.walk_cons, Place.step, if_neg hquote, if_neg hescape]
    rfl

/-- Outside of strings what stands for a character ends the walk or keeps it there. -/
theorem keeps_escapeChar (c : Char) : Keeps .outside (escapeChar c) := by
  unfold escapeChar
  iterate 7
    split
    · exact nofun
  split
  · exact nofun
  · rename_i hquote hescape _ _ _ _ _ _
    intro depth last h
    rw [Place.walk_cons] at h
    obtain ⟨next, hstep, hlast⟩ := Option.bind_eq_some_iff.1 h
    cases hlast
    grind [Place.step]

/-- A walk comes back over a text in quotes. -/
theorem balanced_quoted (s : String) : Balanced (quoted s) := by
  have hbody (chars : List Char) (depth : Nat) :
      walk ⟨depth, .inside⟩ (chars.flatMap escapeChar) = some ⟨depth, .inside⟩ := by
    induction chars with
    | nil => rfl
    | cons c chars ih =>
      rw [List.flatMap_cons, Place.walk_append, walk_escapeChar]
      exact ih
  intro depth
  have hquote : Place.step ⟨depth, .outside⟩ '"' = some ⟨depth, .inside⟩ := rfl
  rw [quoted, Place.walk_cons, hquote, Option.bind_some, Place.walk_append, hbody]
  rfl

/-- Within a string a text in quotes keeps the walk there, as its quotes end and begin one. -/
theorem keeps_quoted (s : String) : Keeps .inside (quoted s) := by
  have hbody (chars : List Char) : Keeps .outside (chars.flatMap escapeChar) := by
    induction chars with
    | nil =>
      have hnone : ∀ c ∈ [], isPlain c = true := nofun
      exact keeps_plain hnone (by decide)
    | cons c chars ih => exact (keeps_escapeChar c).append ih
  intro depth last h
  have hquote : Place.step ⟨depth, .inside⟩ '"' = some ⟨depth, .outside⟩ := rfl
  rw [quoted, Place.walk_cons, hquote, Option.bind_some, Place.walk_append] at h
  obtain ⟨⟨depth', mode'⟩, hnext, hlast⟩ := Option.bind_eq_some_iff.1 h
  obtain rfl : mode' = .outside := hbody _ depth _ hnext
  cases hlast
  rfl

/-- The characters of numbers are plain. -/
theorem isPlain_of_isNumberChar {c : Char} (h : isNumberChar c = true) : isPlain c = true := by
  have hne (d : Char) (hd : isNumberChar d = false) : (c == d) = false := by
    rw [beq_eq_false_iff_ne]
    rintro rfl
    cases h.symm.trans hd
  rw [isPlain, hne _ rfl, hne _ rfl, hne _ rfl, hne _ rfl, hne _ rfl, hne _ rfl]
  rfl

/-- Two brackets of one kind. -/
inductive Brackets : Char → Char → Prop
  | array : Brackets '[' ']'
  | object : Brackets '{' '}'

/-- A property that texts of values have because their parts have it. -/
structure Compositional (P : List Char → Prop) : Prop where
  plain : ∀ {text}, (∀ c ∈ text, isPlain c = true) → P text
  quoted : ∀ s, P (quoted s)
  append : ∀ {front back}, P front → P back → P (front ++ back)
  nested : ∀ {opening closing text}, Brackets opening closing → P text →
    P (opening :: (text ++ [closing]))

namespace Compositional

variable {P : List Char → Prop} (hP : Compositional P)

include hP

theorem nil : P [] := hP.plain nofun

theorem comma {text : List Char} (h : P text) : P (',' :: text) := by
  have hcomma : P [','] := hP.plain (List.all_eq_true.1 rfl)
  exact hP.append hcomma h

theorem colon {text : List Char} (h : P text) : P (':' :: text) := by
  have hcolon : P [':'] := hP.plain (List.all_eq_true.1 rfl)
  exact hP.append hcolon h

mutual

/-- The text of a value has the property. -/
theorem render : ∀ v : Value, v.Finite → P v.render
  | .null, _ => hP.plain (List.all_eq_true.1 rfl)
  | .bool true, _ => hP.plain (List.all_eq_true.1 rfl)
  | .bool false, _ => hP.plain (List.all_eq_true.1 rfl)
  | .number _, h => hP.plain fun c hc =>
    isPlain_of_isNumberChar (Number.isNumberChar_render h c hc)
  | .string s, _ => hP.quoted s
  | .array [], _ => hP.nested .array hP.nil
  | .array (v :: items), h =>
    hP.nested .array (hP.append (render v h.1) (renderMoreItems items h.2))
  | .object [], _ => hP.nested .object hP.nil
  | .object ((k, v) :: members), h => hP.nested .object (hP.append (hP.quoted k)
    (hP.colon (hP.append (render v h.1) (renderMoreMembers members h.2))))

/-- The text of further items has the property. -/
theorem renderMoreItems : ∀ items : List Value, Value.ItemsFinite items →
    P (Value.renderMoreItems items)
  | [], _ => hP.nil
  | v :: items, h => hP.comma (hP.append (render v h.1) (renderMoreItems items h.2))

/-- The text of further members has the property. -/
theorem renderMoreMembers : ∀ members : List (String × Value), Value.MembersFinite members →
    P (Value.renderMoreMembers members)
  | [], _ => hP.nil
  | (k, v) :: members, h => hP.comma (hP.append (hP.quoted k)
    (hP.colon (hP.append (render v h.1) (renderMoreMembers members h.2))))

end

theorem renderItems : ∀ items : List Value, Value.ItemsFinite items → P (Value.renderItems items)
  | [], _ => hP.nil
  | v :: items, h => hP.append (hP.render v h.1) (hP.renderMoreItems items h.2)

theorem renderMembers : ∀ members : List (String × Value), Value.MembersFinite members →
    P (Value.renderMembers members)
  | [], _ => hP.nil
  | (k, v) :: members, h => hP.append (hP.quoted k)
    (hP.colon (hP.append (hP.render v h.1) (hP.renderMoreMembers members h.2)))

end Compositional

theorem compositional_balanced : Compositional Balanced where
  plain h depth := walk_plain h (by decide) depth
  quoted := balanced_quoted
  append := Balanced.append
  nested {opening closing text} hbrackets h depth := by
    cases hbrackets <;>
    · change walk ⟨depth + 1, .outside⟩ (text ++ [_]) = _
      rw [Place.walk_append, h (depth + 1)]
      rfl

theorem compositional_keeps : Compositional (Keeps .inside) where
  plain h := keeps_plain h (by decide)
  quoted := keeps_quoted
  append := Keeps.append
  nested {opening closing text} hbrackets h := by
    have hbracket {c : Char} (hc : c ≠ '"' ∧ c ≠ '\\') : Keeps .inside [c] := by
      intro depth last hlast
      rw [Place.walk_cons, Place.step] at hlast
      dsimp only at hlast
      rw [if_neg hc.1, if_neg hc.2] at hlast
      cases hlast
      rfl
    rw [← List.singleton_append]
    cases hbrackets <;>
    exact (hbracket (by decide)).append (h.append (hbracket (by decide)))

/-! ## Ends of texts -/

/-- A text in brackets does not end with the text of a value behind a colon: outside of strings the
bracket at the end would close nothing that is open, and inside of one it would not be reached
outside. -/
theorem nested_ne {opening closing : Char} (hbrackets : Brackets opening closing)
    {inner text : List Char} (hinner : Balanced inner) (hbalanced : Balanced text)
    (hkeeps : Keeps .inside text) (hne : text ≠ []) (front : List Char) :
    opening :: (inner ++ [closing]) ≠ front ++ ':' :: text := by
  intro heq
  obtain ⟨body, last, rfl⟩ : ∃ body last, text = body ++ [last] :=
    ⟨_, _, (List.dropLast_append_getLast hne).symm⟩
  cases front with
  | nil =>
    have hopening := (List.cons.inj heq).1
    cases hbrackets <;> exact absurd hopening (by decide)
  | cons c front =>
    have hrest : inner ++ [closing] = (front ++ ':' :: body) ++ [last] := by
      rw [List.append_assoc]
      exact (List.cons.inj heq).2
    obtain ⟨rfl, hlast⟩ := List.append_inj' hrest rfl
    obtain rfl := (List.cons.inj hlast).1
    have hwalk := hinner 0
    rw [Place.walk_append] at hwalk
    obtain ⟨⟨depth, mode⟩, -, hbody⟩ := Option.bind_eq_some_iff.1 hwalk
    by_cases hmode : mode = .outside
    · subst hmode
      have hback := hbalanced depth
      change walk ⟨depth, .outside⟩ body = _ at hbody
      rw [Place.walk_append, hbody] at hback
      cases hbrackets <;> cases hback
    · have hstep : Place.step ⟨depth, mode⟩ ':' = some ⟨depth, .inside⟩ := by
        cases mode with
        | outside => exact absurd rfl hmode
        | inside => rfl
        | escaped => rfl
      rw [Place.walk_cons, hstep, Option.bind_some] at hbody
      have hdeeper := Place.walk_deeper hbody 1
      have hend : walk ⟨depth + 1, .inside⟩ (body ++ [closing]) = some ⟨0, .outside⟩ := by
        rw [Place.walk_append, hdeeper]
        cases hbrackets <;> rfl
      exact absurd (hkeeps _ _ hend) (by decide)

namespace Value

variable {v w : Value}

theorem render_ne_nil (hv : v.Finite) : v.render ≠ [] := by
  obtain ⟨c, rest, hcons, -⟩ := kindOf_render hv
  rw [hcons]
  exact List.cons_ne_nil _ _

/-- The text of a value that is no text itself does not end with the text of a value behind a
colon. -/
theorem render_ne_append_colon (hv : v.Finite) (hw : w.Finite) (htext : w.text? = none)
    (front : List Char) : w.render ≠ front ++ ':' :: v.render := by
  have hbalanced := compositional_balanced.render v hv
  have hkeeps := compositional_keeps.render v hv
  have hne := render_ne_nil hv
  have hcolon : ':' ∈ front ++ ':' :: v.render :=
    List.mem_append_right _ List.mem_cons_self
  intro heq
  rw [← heq] at hcolon
  cases w with
  | null => exact absurd hcolon (by decide)
  | bool b => cases b <;> exact absurd hcolon (by decide)
  | number n => cases Number.isNumberChar_render hw ':' hcolon
  | string s => cases htext
  | array items =>
    rw [render] at heq
    exact nested_ne .array (compositional_balanced.renderItems items hw) hbalanced hkeeps hne
      front heq
  | object members =>
    rw [render] at heq
    exact nested_ne .object (compositional_balanced.renderMembers members hw) hbalanced hkeeps hne
      front heq

end Value
end Turnstile.Json
