import Mathlib.Data.List.Induction
import Turnstile.Key.Expression

/-!
# The grammar of key expressions

The texts that write a key expression, given by what they consist of and without any reader:
terms with a plus sign between them, blanks around terms and inside brackets, nothing else. Each
relation says of a text which part of an expression it writes.
-/

namespace Turnstile.Key.Grammar

/-- Blanks, as many as there may be. -/
def Blanks (cs : List Char) : Prop := ∀ c ∈ cs, Text.isBlank c = true

/-- A letter of ASCII, a digit or an underscore. -/
def NameChar (c : Char) : Prop :=
  'A' ≤ c ∧ c ≤ 'Z' ∨ 'a' ≤ c ∧ c ≤ 'z' ∨ '0' ≤ c ∧ c ≤ '9' ∨ c = '_'

/-- A name consists of one or more such characters. -/
def Name (cs : List Char) : Prop := cs ≠ [] ∧ ∀ c ∈ cs, NameChar c

/-- One or more decimal digits, and the number that they write. -/
inductive Decimal : List Char → Nat → Prop
  | digit {d : Nat} (h : d < 10) : Decimal [Nat.digitChar d] d
  | more {cs : List Char} {n d : Nat} (front : Decimal cs n) (h : d < 10) :
      Decimal (cs ++ [Nat.digitChar d]) (10 * n + d)

/-- A text in which every quote is written twice. -/
def doubled (quote : Char) (text : List Char) : List Char :=
  text.flatMap fun c => if c = quote then [quote, quote] else [c]

/-- A text in quotes of either kind. -/
inductive Quoted : List Char → String → Prop
  | single (text : String) : Quoted ('\'' :: (doubled '\'' text.toList ++ ['\''])) text
  | double (text : String) : Quoted ('"' :: (doubled '"' text.toList ++ ['"'])) text

/-- What may stand in brackets: the number of an item, or the quoted name of a member. -/
inductive Bracketed : List Char → Accessor → Prop
  | index {cs : List Char} {n : Nat} (h : Decimal cs n) (hn : n < UInt64.size) :
      Bracketed cs (.index n)
  | key {cs : List Char} {text : String} (h : Quoted cs text) : Bracketed cs (.field text)

/-- A step to a part of a value. -/
inductive Step : List Char → Accessor → Prop
  | field {name : List Char} (h : Name name) : Step ('.' :: name) (.field (String.ofList name))
  | bracket {before cs after : List Char} {accessor : Accessor} (hbefore : Blanks before)
      (h : Bracketed cs accessor) (hafter : Blanks after) :
      Step ('[' :: (before ++ (cs ++ (after ++ [']'])))) accessor

/-- Steps one right after the other. -/
inductive Path : List Char → List Accessor → Prop
  | nil : Path [] []
  | cons {cs more : List Char} {accessor : Accessor} {path : List Accessor}
      (h : Step cs accessor) (rest : Path more path) : Path (cs ++ more) (accessor :: path)

/-- A summand: a quoted text, a number of 64 bits with or without a minus sign, or a variable with
a path. -/
inductive Summand : List Char → Term → Prop
  | text {cs : List Char} {text : String} (h : Quoted cs text) : Summand cs (.text text)
  | natural {cs : List Char} {n : Nat} {i : Int64} (h : Decimal cs n) (hi : i.toInt = n) :
      Summand cs (.integer i)
  | negative {cs : List Char} {n : Nat} {i : Int64} (h : Decimal cs n) (hi : i.toInt = -n) :
      Summand ('-' :: cs) (.integer i)
  | variable {name steps : List Char} {path : List Accessor} (hname : Name name)
      (hpath : Path steps path) :
      Summand ('#' :: (name ++ steps)) (.variable (String.ofList name) path)

/-- Further summands, each with a plus sign before it. -/
inductive Summands : List Char → List Term → Prop
  | nil : Summands [] []
  | cons {before after cs more : List Char} {term : Term} {terms : List Term}
      (hbefore : Blanks before) (hafter : Blanks after) (h : Summand cs term)
      (rest : Summands more terms) :
      Summands (before ++ '+' :: (after ++ (cs ++ more))) (term :: terms)

/-- A whole expression. -/
inductive Phrase : List Char → List Term → Prop
  | intro {before cs more after : List Char} {term : Term} {terms : List Term}
      (hbefore : Blanks before) (h : Summand cs term) (rest : Summands more terms)
      (hafter : Blanks after) : Phrase (before ++ (cs ++ (more ++ after))) (term :: terms)

/-! ## Classes of characters -/

/-- The letters of ASCII. -/
theorem isAlpha_iff {c : Char} :
    c.isAlpha = true ↔ 'A' ≤ c ∧ c ≤ 'Z' ∨ 'a' ≤ c ∧ c ≤ 'z' := by
  have hletter : c.isAlpha = (decide (c ≥ 'A' ∧ c ≤ 'Z') ||
      (decide (c ≥ 'a') && decide (c ≤ 'z'))) := rfl
  simp only [hletter, Bool.or_eq_true, Bool.and_eq_true, decide_eq_true_eq]

/-- The characters that a reader takes into a name are those that the grammar allows. -/
theorem isIdentifierChar_iff {c : Char} : Expression.isIdentifierChar c = true ↔ NameChar c := by
  simp only [Expression.isIdentifierChar, NameChar, Char.isAlphanum, Char.isDigit, isAlpha_iff,
    Bool.or_eq_true, Bool.and_eq_true, decide_eq_true_eq, beq_iff_eq, ge_iff_le, Char.le_def,
    or_assoc]

/-- Whether a text that goes on like this has come to the end of a name, number or quoted text. -/
def Closes (rest : List Char) : Prop :=
  ∀ c ∈ rest.head?, Text.isBlank c = true ∨ c = '+' ∨ c = ']'

/-- A blank is neither a digit nor a letter. -/
theorem isAlphanum_of_isBlank {c : Char} (h : Text.isBlank c = true) : c.isAlphanum = false := by
  rw [Bool.eq_false_iff]
  intro halnum
  simp only [Char.isAlphanum, Char.isDigit, isAlpha_iff, Bool.or_eq_true, Bool.and_eq_true,
    decide_eq_true_eq, ge_iff_le, Char.le_def, UInt32.le_iff_toNat_le] at halnum
  simp only [Text.isBlank, Bool.or_eq_true, Bool.and_eq_true, decide_eq_true_eq, beq_iff_eq] at h
  have hval : c.val.toNat = c.toNat := rfl
  have hA : 'A'.val.toNat = 65 := rfl
  have hZ : 'Z'.val.toNat = 90 := rfl
  have ha : 'a'.val.toNat = 97 := rfl
  have hz : 'z'.val.toNat = 122 := rfl
  have h0 : '0'.val.toNat = 48 := rfl
  have h9 : '9'.val.toNat = 57 := rfl
  omega

/-- A character at which names, numbers and quoted texts end belongs to none of them. -/
theorem not_part_of_closing {c : Char} (h : Text.isBlank c = true ∨ c = '+' ∨ c = ']') :
    Expression.isIdentifierChar c = false ∧ c.isDigit = false ∧ Expression.isQuote c = false ∧
      c ≠ '.' ∧ c ≠ '[' := by
  rcases h with hblank | rfl | rfl
  · have hne (d : Char) (hd : Text.isBlank d = false) : c ≠ d := by
      rintro rfl
      exact Bool.false_ne_true (hd.symm.trans hblank)
    have halnum := isAlphanum_of_isBlank hblank
    simp only [Char.isAlphanum, Bool.or_eq_false_iff] at halnum
    refine ⟨?_, halnum.2, ?_, hne _ (by decide), hne _ (by decide)⟩
    · simp [Expression.isIdentifierChar, Char.isAlphanum, halnum, hne '_' (by decide)]
    · simp [Expression.isQuote, hne '\'' (by decide), hne '"' (by decide)]
  · decide
  · decide

/-! ## Numbers -/

/-- The number of digits with one more behind them. -/
theorem decimal_append (digits : List Char) (d : Char) :
    Expression.decimal (digits ++ [d]) = Expression.decimal digits * 10 + (d.toNat - 48) := by
  simp [Expression.decimal]

/-- The digits and their values. -/
theorem digit_cases {c : Char} :
    c.isDigit = true ↔ ∃ d < 10, Nat.digitChar d = c ∧ c.toNat - 48 = d := by
  have hdigits : ∀ d < 10, (Nat.digitChar d).isDigit = true ∧ (Nat.digitChar d).toNat - 48 = d ∧
      Nat.digitChar d = Char.ofNat (d + 48) := by decide
  constructor
  · intro h
    simp only [Char.isDigit, Bool.and_eq_true, decide_eq_true_eq, ge_iff_le,
      UInt32.le_iff_toNat_le] at h
    have hrange : 48 ≤ c.toNat ∧ c.toNat ≤ 57 := h
    have hd : c.toNat - 48 < 10 := by omega
    refine ⟨c.toNat - 48, hd, ?_, rfl⟩
    rw [(hdigits _ hd).2.2, Nat.sub_add_cancel hrange.1, Char.ofNat_toNat]
  · rintro ⟨d, hd, rfl, -⟩
    exact (hdigits d hd).1

/-- Decimal digits write the number that a reader makes of them. -/
theorem decimal_iff {cs : List Char} {n : Nat} :
    Decimal cs n ↔ cs ≠ [] ∧ (∀ c ∈ cs, c.isDigit = true) ∧ Expression.decimal cs = n := by
  have hvalue : ∀ d < 10, (Nat.digitChar d).isDigit = true ∧ (Nat.digitChar d).toNat - 48 = d := by
    decide
  constructor
  · intro h
    induction h with
    | @digit d hd =>
      obtain ⟨hdigit, htoNat⟩ := hvalue d hd
      simp [Expression.decimal, hdigit, htoNat]
    | @more cs n d front hd ih =>
      obtain ⟨hne, hdigits, rfl⟩ := ih
      obtain ⟨hdigit, htoNat⟩ := hvalue d hd
      refine ⟨by simp, ?_, ?_⟩
      · intro c hc
        rcases List.mem_append.1 hc with hc | hc
        · exact hdigits c hc
        · rw [List.mem_singleton.1 hc]
          exact hdigit
      · rw [decimal_append, htoNat, Nat.mul_comm]
  · rintro ⟨hne, hdigits, rfl⟩
    -- The last digit comes on top of the number of those before it.
    induction cs using List.reverseRecOn with
    | nil => exact absurd rfl hne
    | append_singleton front c ih =>
      obtain ⟨d, hd, rfl, htoNat⟩ := digit_cases.1 (hdigits c (by simp))
      cases front with
      | nil =>
        have hone : Expression.decimal [Nat.digitChar d] = d := by simp [Expression.decimal, htoNat]
        rw [List.nil_append, hone]
        exact .digit hd
      | cons first front =>
        rw [decimal_append, htoNat, Nat.mul_comm]
        exact .more (ih (by simp) fun c hc => hdigits c (List.mem_append_left _ hc)) hd

end Turnstile.Key.Grammar
