import Turnstile.Proofs.Key.Grammar
import Turnstile.Proofs.Text.Readers

/-!
# Key expressions are read by their grammar

Every reader takes a piece off the front of the text, and what it yields is what the grammar says
of that piece; where it stops, it stops within the text.
-/

namespace Turnstile.Key.Expression

open Grammar
open Text (bind_eq_ok get_bind set_bind)

/-! ## What a reader takes -/

/-- What has been read stands for the result, and a reader stops within what there was to read. -/
structure Reads {α : Type} (Stands : List Char → α → Prop) (cs : List Char)
    (result : Except Stop (α × List Char)) : Prop where
  ok : ∀ a rest, result = .ok (a, rest) → ∃ read, cs = read ++ rest ∧ Stands read a
  error : ∀ stop, result = .error stop → stop.unread <:+ cs

section Rules

variable {α β : Type} {P : List Char → α → Prop} {Q : List Char → β → Prop} {cs rest : List Char}

/-- A reader that yields something has taken a piece off the front. -/
theorem Reads.of_ok {a : α} (read : List Char) (h : cs = read ++ rest) (hread : P read a) :
    Reads P cs (.ok (a, rest)) := by
  refine ⟨?_, by simp⟩
  intro a' rest' he
  cases he
  exact ⟨read, h, hread⟩

/-- A reader that stops has left the rest unread. -/
theorem Reads.of_error {stop : Stop} (h : stop.unread <:+ cs) : Reads P cs (.error stop) := by
  constructor
  · intro a rest he
    cases he
  · intro stop' he
    cases he
    exact h

/-- A reader may stop where it is. -/
theorem reads_stop (fault : SyntaxFault) : Reads P cs (stop fault cs) :=
  .of_error List.suffix_rfl

/-- A reader that yields something without taking any piece. -/
theorem reads_pure {a : α} (h : P [] a) : Reads P cs ((pure a : Scan α) cs) :=
  .of_ok [] rfl h

theorem Reads.imp {P' : List Char → α → Prop} {result : Except Stop (α × List Char)}
    (h : Reads P cs result) (himp : ∀ read a, P read a → P' read a) : Reads P' cs result := by
  refine ⟨?_, h.error⟩
  intro a rest he
  obtain ⟨read, hcs, hread⟩ := h.ok a rest he
  exact ⟨read, hcs, himp read a hread⟩

/-- A character that has been passed over belongs to what has been read. -/
theorem Reads.cons (c : Char) {result : Except Stop (α × List Char)}
    (h : Reads (fun read a => P (c :: read) a) rest result) : Reads P (c :: rest) result := by
  constructor
  · intro a behind he
    obtain ⟨read, rfl, hread⟩ := h.ok a behind he
    exact ⟨c :: read, rfl, hread⟩
  · intro stop he
    exact (h.error stop he).trans (List.suffix_cons c rest)

/-- Two readers in a row take one piece after the other. -/
theorem Reads.bind {scan : Scan α} {next : α → Scan β} (h : Reads P cs (scan cs))
    (hnext : ∀ a read rest, cs = read ++ rest → P read a →
      Reads (fun more b => Q (read ++ more) b) rest (next a rest)) :
    Reads Q cs ((scan >>= next) cs) := by
  have hrun : (scan >>= next) cs = scan cs >>= fun x => next x.1 x.2 := rfl
  rw [hrun]
  cases hscan : scan cs with
  | error stop => exact .of_error (h.error stop hscan)
  | ok found =>
    obtain ⟨a, rest⟩ := found
    obtain ⟨read, rfl, hread⟩ := h.ok a rest hscan
    have hbehind := hnext a read rest rfl hread
    constructor
    · intro b behind he
      obtain ⟨more, rfl, hmore⟩ := hbehind.ok b behind he
      exact ⟨read ++ more, (List.append_assoc ..).symm, hmore⟩
    · intro stop he
      exact (hbehind.error stop he).trans (List.suffix_append read rest)

/-- What a reader yields can be worked on. -/
theorem Reads.map {scan : Scan α} (f : α → β) (h : Reads P cs (scan cs))
    (himp : ∀ read a, P read a → Q read (f a)) : Reads Q cs ((f <$> scan) cs) := by
  have hbind : f <$> scan = scan >>= fun a => pure (f a) := rfl
  rw [hbind]
  refine h.bind fun a read rest _ hread => reads_pure ?_
  rw [List.append_nil]
  exact himp read a hread

/-- A reader may go on behind the blanks. -/
theorem skipBlanks_bind (next : Unit → Scan β) (cs : List Char) :
    (skipBlanks >>= next) cs = next () (cs.dropWhile Text.isBlank) := rfl

end Rules

/-! ## The readers -/

theorem reads_skipBlanks (cs : List Char) :
    Reads (fun read _ => Blanks read) cs (skipBlanks cs) := by
  refine .of_ok (cs.takeWhile Text.isBlank) List.takeWhile_append_dropWhile.symm ?_
  exact fun c hc => List.all_eq_true.1 List.all_takeWhile c hc

/-- A name is the longest run of its characters, which must not be empty. -/
theorem identifier_eq (cs : List Char) : identifier cs =
    if cs.takeWhile isIdentifierChar = [] then .error ⟨.expectedIdentifier, cs⟩
    else .ok (String.ofList (cs.takeWhile isIdentifierChar), cs.dropWhile isIdentifierChar) := by
  rw [identifier, get_bind]
  cases cs.takeWhile isIdentifierChar with
  | nil => rfl
  | cons c name => rfl

theorem reads_identifier (cs : List Char) :
    Reads (fun read name => Name read ∧ name = String.ofList read) cs (identifier cs) := by
  rw [identifier_eq]
  split
  · exact reads_stop .expectedIdentifier
  · rename_i hne
    refine .of_ok _ List.takeWhile_append_dropWhile.symm ⟨⟨hne, ?_⟩, rfl⟩
    exact fun c hc => isIdentifierChar_iff.1 (List.all_eq_true.1 List.all_takeWhile c hc)

/-- A character of a quoted text comes before what the rest of the text is read as. -/
theorem Reads.quotedText_cons {quote c : Char} {read cs : List Char}
    (hc : doubled quote [c] = read)
    (h : Reads (fun read text => read = doubled quote text ++ [quote]) cs (quotedText quote cs)) :
    Reads (fun more text => read ++ more = doubled quote text ++ [quote]) cs
      (((c :: ·) <$> quotedText quote : Scan (List Char)) cs) := by
  refine h.map (c :: ·) fun more text hmore => ?_
  rw [hmore, ← hc, ← List.append_assoc]
  simp [doubled]

theorem reads_quotedText (quote : Char) (cs : List Char) :
    Reads (fun read text => read = doubled quote text ++ [quote]) cs (quotedText quote cs) := by
  fun_induction quotedText quote cs with
  | case1 => exact .of_error List.suffix_rfl
  | case2 => exact .of_ok [quote] rfl rfl
  | case3 c hc => exact .of_error List.nil_suffix
  | case4 rest ih =>
    have hdoubled : doubled quote [quote] = [quote, quote] := by simp [doubled]
    exact .cons quote (.cons quote (.quotedText_cons hdoubled ih))
  | case5 d rest hd => exact .of_ok [quote] rfl rfl
  | case6 c d rest hc ih =>
    have hsingle : doubled quote [c] = [c] := by simp [doubled, hc]
    exact .cons c (.quotedText_cons hsingle ih)

/-- What begins with a quote is read as a quoted text. -/
theorem reads_quoted {c : Char} (hc : isQuote c = true) (rest : List Char) :
    Reads Quoted (c :: rest) (quoted (c :: rest)) := by
  refine .cons c ?_
  refine Reads.map String.ofList (reads_quotedText c rest) fun read text hread => ?_
  have hquote : c = '\'' ∨ c = '"' := by simpa [isQuote] using hc
  rw [hread, ← String.toList_ofList (l := text)]
  rcases hquote with rfl | rfl
  · simpa using Quoted.single (String.ofList text)
  · simpa using Quoted.double (String.ofList text)

/-- What comes behind the content of brackets: blanks and the closing bracket. -/
def closing (accessor : Accessor) : Scan Accessor := do
  skipBlanks
  match ← get with
  | ']' :: rest => do
    set rest
    pure accessor
  | _ => stop .expectedBracket

/-- What stands in brackets, after the blanks before it. -/
def content : Scan Accessor := do
  match ← get with
  | c :: _ =>
    if isQuote c then .field <$> quoted
    else if c.isDigit then
      let n := decimal (← run Char.isDigit)
      if n < UInt64.size then pure (.index n) else stop .indexRange
    else stop .expectedAccessor
  | [] => stop .expectedAccessor

/-- Brackets hold blanks, their content, and blanks again. -/
theorem bracketed_eq : bracketed = skipBlanks >>= fun _ => content >>= closing := by
  funext cs
  rw [bracketed, skipBlanks_bind, skipBlanks_bind, content, bind_assoc, get_bind, get_bind]
  cases cs.dropWhile Text.isBlank with
  | nil => rfl
  | cons c rest =>
    dsimp only
    split
    · rfl
    · split
      · rw [bind_assoc]
        refine congrArg (fun next => (run Char.isDigit >>= next) (c :: rest)) ?_
        funext digits
        split <;> rfl
      · rfl

theorem reads_closing (accessor : Accessor) (cs : List Char) :
    Reads (fun read a => a = accessor ∧ ∃ after, Blanks after ∧ read = after ++ [']']) cs
      (closing accessor cs) := by
  refine (reads_skipBlanks cs).bind fun _ blanks rest _ hblanks => ?_
  rw [get_bind]
  split
  · refine .cons ']' (.of_ok [] rfl ⟨rfl, _, hblanks, rfl⟩)
  · exact reads_stop .expectedBracket

/-- The longest run of digits, which begins with one, is a number. -/
theorem reads_digits {c : Char} (hc : c.isDigit = true) (rest : List Char) :
    Reads (fun read digits => Decimal read (decimal digits)) (c :: rest)
      (run Char.isDigit (c :: rest)) := by
  have hrun : (c :: rest).takeWhile Char.isDigit ≠ [] := by simp [hc]
  refine .of_ok _ List.takeWhile_append_dropWhile.symm (decimal_iff.2 ⟨hrun, ?_, rfl⟩)
  exact fun d hd => List.all_eq_true.1 List.all_takeWhile d hd

theorem reads_content (cs : List Char) : Reads Bracketed cs (content cs) := by
  rw [content, get_bind]
  cases cs with
  | nil => exact reads_stop .expectedAccessor
  | cons c rest =>
    dsimp only
    split
    · rename_i hquote
      exact (reads_quoted hquote rest).map Accessor.field fun read text h => .key h
    · split
      · rename_i hdigit
        refine (reads_digits hdigit rest).bind fun digits read behind _ hread => ?_
        split
        · rename_i hn
          refine reads_pure ?_
          rw [List.append_nil]
          exact .index hread hn
        · exact reads_stop .indexRange
      · exact reads_stop .expectedAccessor

theorem reads_bracketed (cs : List Char) :
    Reads (fun read accessor => Step ('[' :: read) accessor) cs (bracketed cs) := by
  rw [bracketed_eq]
  refine (reads_skipBlanks cs).bind fun _ before rest _ hbefore => ?_
  refine (reads_content rest).bind fun accessor inside rest' _ hinside => ?_
  refine (reads_closing accessor rest').imp ?_
  rintro read _ ⟨rfl, after, hafter, rfl⟩
  exact .bracket hbefore hinside hafter

/-- The text that bounds the number of steps does not have to be the one that is read. -/
theorem reads_accessors (bound cs : List Char) : Reads Path cs (accessors bound cs) := by
  induction bound generalizing cs with
  | nil => exact reads_pure .nil
  | cons _ bound ih =>
    have hmore {read rest : List Char} {accessor : Accessor} (h : Step read accessor) :
        Reads (fun more path => Path (read ++ more) path) rest
          ((accessors bound >>= fun path => pure (accessor :: path) : Scan (List Accessor)) rest) :=
      (ih rest).map (accessor :: ·) fun more path hpath => .cons h hpath
    rw [accessors, get_bind]
    split
    · rename_i rest
      rw [set_bind]
      refine .cons '.' ((reads_identifier rest).bind fun name read behind _ hname => ?_)
      obtain ⟨hname, rfl⟩ := hname
      exact hmore (.field hname)
    · rename_i rest
      rw [set_bind]
      refine .cons '[' ((reads_bracketed rest).bind fun accessor read behind _ hstep => ?_)
      exact hmore hstep
    · exact reads_pure .nil

/-- Digits make a number of 64 bits, or they are refused. -/
theorem reads_integerTerm {P : List Char → Term → Prop} {negative : Bool} {digits : List Char}
    (h : ∀ i : Int64, i.toInt = (if negative then -(decimal digits : Int) else decimal digits) →
      P [] (.integer i)) (cs : List Char) : Reads P cs (integerTerm negative digits cs) := by
  unfold integerTerm
  generalize (if negative then -(decimal digits : Int) else decimal digits) = n at h ⊢
  split
  · rename_i hrange
    exact reads_pure (h _ (Int64.toInt_ofInt_of_le hrange.1 hrange.2))
  · exact reads_stop .integerRange

theorem reads_term (cs : List Char) : Reads Summand cs (term cs) := by
  rw [term, get_bind]
  split
  · exact reads_stop .unexpectedEnd
  · rename_i rest
    rw [set_bind]
    refine .cons '#' ((reads_identifier rest).bind fun name read behind _ hname => ?_)
    obtain ⟨hname, rfl⟩ := hname
    rw [get_bind]
    exact (reads_accessors behind behind).map _ fun more path hpath => .variable hname hpath
  · rename_i rest
    split
    · exact reads_stop .expectedDigits
    · rename_i hdigits
      rw [set_bind]
      cases rest with
      | nil => exact absurd rfl hdigits
      | cons c rest =>
        have hc : c.isDigit = true := by
          by_contra hc
          exact hdigits (by simp [hc])
        refine .cons '-' ((reads_digits hc rest).bind fun digits read behind _ hread => ?_)
        refine reads_integerTerm (fun i hi => ?_) behind
        rw [List.append_nil]
        exact .negative hread hi
  · rename_i c rest _ _
    split
    · rename_i hquote
      exact (reads_quoted hquote rest).map Term.text fun read text h => .text h
    · split
      · rename_i hdigit
        refine (reads_digits hdigit rest).bind fun digits read behind _ hread => ?_
        refine reads_integerTerm (fun i hi => ?_) behind
        rw [List.append_nil]
        exact .natural hread hi
      · exact reads_stop .expectedTerm

/-- What comes behind the first summand: further ones, and blanks. -/
def Tail (cs : List Char) (terms : List Term) : Prop :=
  ∃ more after, cs = more ++ after ∧ Summands more terms ∧ Blanks after

theorem reads_moreTerms (bound cs : List Char) : Reads Tail cs (moreTerms bound cs) := by
  induction bound generalizing cs with
  | nil => exact reads_pure ⟨[], [], rfl, .nil, by simp [Blanks]⟩
  | cons _ bound ih =>
    rw [moreTerms]
    refine (reads_skipBlanks cs).bind fun _ before rest _ hbefore => ?_
    rw [get_bind]
    split
    · exact reads_pure ⟨[], before, by simp, .nil, hbefore⟩
    · rename_i rest _
      rw [set_bind]
      refine .cons '+' ((reads_skipBlanks rest).bind fun _ between rest' _ hbetween => ?_)
      refine (reads_term rest').bind fun term read behind _ hterm => ?_
      refine (ih behind).map (term :: ·) ?_
      rintro _ terms ⟨more, after, rfl, hmore, hafter⟩
      exact ⟨_, after, by simp, .cons hbefore hbetween hterm hmore, hafter⟩
    · exact reads_stop .expectedPlus

/-- Nothing is left behind the last summand, if the bound is no shorter than the text. -/
theorem rest_of_moreTerms {bound cs rest : List Char} {terms : List Term}
    (hbound : cs.length ≤ bound.length) (h : moreTerms bound cs = .ok (terms, rest)) :
    rest = [] := by
  induction bound generalizing cs terms with
  | nil =>
    cases h
    exact List.length_eq_zero_iff.1 (Nat.le_zero.1 hbound)
  | cons _ bound ih =>
    rw [moreTerms, skipBlanks_bind, get_bind] at h
    have hblanks : (cs.dropWhile Text.isBlank).length ≤ cs.length :=
      (List.dropWhile_suffix _).length_le
    generalize cs.dropWhile Text.isBlank = unread at h hblanks
    split at h
    · cases h
      rfl
    · rename_i behind
      rw [set_bind, skipBlanks_bind] at h
      obtain ⟨term, mid, hterm, h⟩ := bind_eq_ok h
      obtain ⟨more, rest', hmore, h⟩ := bind_eq_ok h
      cases h
      obtain ⟨read, hread, -⟩ := (reads_term _).ok _ _ hterm
      refine ih ?_ hmore
      -- The plus sign at least has been taken.
      have htaken : mid.length ≤ behind.length := by
        have hsuffix : mid <:+ behind.dropWhile Text.isBlank := ⟨read, hread.symm⟩
        exact (hsuffix.trans (List.dropWhile_suffix _)).length_le
      rw [List.length_cons] at hblanks
      rw [List.length_cons] at hbound
      omega
    · cases h

theorem reads_allTerms (cs : List Char) : Reads Phrase cs (allTerms cs) := by
  rw [allTerms]
  refine (reads_skipBlanks cs).bind fun _ before rest _ hbefore => ?_
  rw [get_bind]
  split
  · exact reads_stop .emptyExpression
  · refine (reads_term rest).bind fun term read behind _ hterm => ?_
    rw [get_bind]
    refine (reads_moreTerms behind behind).map (term :: ·) ?_
    rintro _ terms ⟨more, after, rfl, hmore, hafter⟩
    exact .intro hbefore hterm hmore hafter

end Turnstile.Key.Expression
