import Turnstile.Key.Evaluation
import Turnstile.Proofs.Key.Recognition

/-!
# Sums of key expressions

Two expressions with a plus sign between them are one expression, for no summand reaches across
the plus sign. Its key is the key of the first followed by that of the second. The terms are
evaluated from left to right, so the first expression without a key says what is wrong.
-/

namespace Turnstile.Key

/-! ## Texts -/

namespace Grammar

variable {cs cs' : List Char} {terms terms' : List Term}

/-- Summands may be followed by further ones. -/
theorem Summands.append (h : Summands cs terms) (h' : Summands cs' terms') :
    Summands (cs ++ cs') (terms ++ terms') := by
  induction h with
  | nil => exact h'
  | cons hbefore hafter hnext _ ih =>
    rw [List.append_assoc, List.cons_append, List.append_assoc, List.append_assoc]
    exact .cons hbefore hafter hnext ih

/-- A plus sign makes one expression of two. -/
theorem Phrase.plus (h : Phrase cs terms) (h' : Phrase cs' terms') :
    Phrase (cs ++ '+' :: cs') (terms ++ terms') := by
  obtain ⟨hbefore, hfirst, hmore, hafter⟩ := h
  obtain ⟨hbefore', hfirst', hmore', hafter'⟩ := h'
  -- The blanks behind the one and before the other come to stand around the plus sign.
  have hnext := Summands.cons hafter hbefore' hfirst' hmore'
  have hsum := Phrase.intro hbefore hfirst (hmore.append hnext) hafter'
  simpa only [List.append_assoc, List.cons_append] using hsum

end Grammar

/-! ## Keys -/

/-- The key of terms in two parts is the key of the one part and then that of the other, and the
first fault is reported. -/
theorem evaluateTerms_append (scope : Scope) (terms terms' : List Term) :
    evaluateTerms scope (terms ++ terms') = do
      return (← evaluateTerms scope terms) ++ (← evaluateTerms scope terms') := by
  induction terms with
  | nil =>
    rw [List.nil_append, evaluateTerms]
    exact (bind_pure _).symm
  | cons term terms ih =>
    simp only [List.cons_append, evaluateTerms, ih, bind_assoc, pure_bind, List.append_assoc]

namespace Expression

open Grammar (Phrase)

/-- An expression is read from the texts that write it. -/
theorem parse_eq_ok_iff {source : String} {expression : Expression} :
    parse source = .ok expression ↔
      expression.source = source ∧ Phrase source.toList expression.terms := by
  obtain ⟨source', terms⟩ := expression
  rw [← allTerms_iff, parse]
  cases hread : allTerms source.toList with
  | error stop => simp
  | ok found =>
    obtain ⟨terms', rest⟩ := found
    obtain rfl := allTerms_eq_ok hread
    simp [eq_comm]

/-- The sum of two expressions. -/
def plus (left right : Expression) : Expression :=
  ⟨left.source ++ "+" ++ right.source, left.terms ++ right.terms⟩

variable {source source' : String} {left right : Expression}

/-- A sum is read from the texts of its parts with a plus sign between them. -/
theorem parse_plus (hleft : parse source = .ok left) (hright : parse source' = .ok right) :
    parse (source ++ "+" ++ source') = .ok (left.plus right) := by
  obtain ⟨rfl, hphrase⟩ := parse_eq_ok_iff.1 hleft
  obtain ⟨rfl, hphrase'⟩ := parse_eq_ok_iff.1 hright
  refine parse_eq_ok_iff.2 ⟨rfl, ?_⟩
  have htext : (left.source ++ "+" ++ right.source).toList =
      left.source.toList ++ '+' :: right.source.toList := by
    simp [String.toList_append]
  rw [htext]
  exact hphrase.plus hphrase'

/-- The key of a sum. -/
theorem evaluate_plus (left right : Expression) (scope : Scope) :
    (left.plus right).evaluate scope =
      match left.evaluate scope, right.evaluate scope with
      | .ok key, .ok key' => .ok (key ++ key')
      | .error fault, _ => .error fault
      | .ok _, .error fault => .error fault := by
  unfold evaluate plus
  rw [evaluateTerms_append]
  cases evaluateTerms scope left.terms with
  | error fault => rfl
  | ok key =>
    cases evaluateTerms scope right.terms with
    | error fault => rfl
    | ok key' => exact congrArg Except.ok String.ofList_append

/-- A plus sign between two expressions makes an expression of them. For every call its key is the
key of the first followed by the key of the second; if the first has none it is the fault of the
first, and otherwise that of the second. -/
theorem parse_sum (hleft : parse source = .ok left) (hright : parse source' = .ok right) :
    ∃ sum, parse (source ++ "+" ++ source') = .ok sum ∧ ∀ scope,
      sum.evaluate scope =
        match left.evaluate scope, right.evaluate scope with
        | .ok key, .ok key' => .ok (key ++ key')
        | .error fault, _ => .error fault
        | .ok _, .error fault => .error fault :=
  ⟨left.plus right, parse_plus hleft hright, evaluate_plus left right⟩

end Expression

/-- A call whose last argument is a number, or something that has no value. -/
def stockCall (content : Content) : Scope where
  operation := "stock::take"
  arguments := [⟨"item", "String", .value (.string "bolt")⟩, ⟨"amount", "u64", content⟩]

/-- Quotes and digits next to the plus sign keep their meaning. -/
theorem parse_sum_of_quotes : ∃ sum, Expression.parse "#item + 'it''s'+-3 + #p1" = .ok sum ∧
    sum.evaluate (stockCall (.value (.ofInt 7))) = .ok "boltit's-37" ∧
    sum.evaluate (stockCall .resource) = .error (.opaqueArgument "amount") := by
  have hleft : Expression.parse "#item + 'it''s'" =
      .ok ⟨"#item + 'it''s'", [.variable "item" [], .text "it's"]⟩ := by decide +kernel
  have hright : Expression.parse "-3 + #p1" =
      .ok ⟨"-3 + #p1", [.integer (-3), .variable "p1" []]⟩ := by decide +kernel
  obtain ⟨sum, hsum, hkey⟩ := Expression.parse_sum hleft hright
  refine ⟨sum, hsum, ?_, ?_⟩
  · rw [hkey]
    decide +kernel
  · rw [hkey]
    decide +kernel

end Turnstile.Key
