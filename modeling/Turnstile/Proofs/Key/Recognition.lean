import Mathlib.Data.List.TakeWhile
import Turnstile.Proofs.Key.Reading
import Turnstile.Proofs.Text.Readers

/-!
# The grammar of key expressions is recognised

A piece that the grammar knows is read as what it writes, provided that what comes behind it
cannot belong to it. So an expression is read from exactly those texts that write it, a text
writes at most one, and a text that writes none is refused at a place within it.
-/

namespace Turnstile.Key.Expression

open Grammar
open Text (bind_eq_ok bind_of_ok get_bind map_of_ok)

/-- Blanks are passed over up to what does not begin with one. -/
theorem dropWhile_blanks {cs rest : List Char} (h : Blanks cs)
    (hrest : ∀ c ∈ rest.head?, Text.isBlank c = false) :
    (cs ++ rest).dropWhile Text.isBlank = rest :=
  (Text.span_append h hrest).2

/-! ## What pieces begin with -/

/-- A digit is not a blank. -/
theorem isBlank_of_isDigit {c : Char} (h : c.isDigit = true) : Text.isBlank c = false := by
  rw [Bool.eq_false_iff]
  intro hblank
  have halnum := isAlphanum_of_isBlank hblank
  simp [Char.isAlphanum, h] at halnum

/-- A digit is not a quote. -/
theorem isQuote_of_isDigit {c : Char} (h : c.isDigit = true) : isQuote c = false := by
  rw [Bool.eq_false_iff]
  intro hquote
  have hc : c = '\'' ∨ c = '"' := by simpa [isQuote] using hquote
  rcases hc with rfl | rfl
  · exact absurd h (by decide)
  · exact absurd h (by decide)

/-- A quote is not a blank. -/
theorem isBlank_of_isQuote {c : Char} (h : isQuote c = true) : Text.isBlank c = false := by
  have hc : c = '\'' ∨ c = '"' := by simpa [isQuote] using h
  rcases hc with rfl | rfl
  · decide
  · decide

/-- A number begins with a digit. -/
theorem head_of_decimal {cs : List Char} {n : Nat} (h : Decimal cs n) :
    ∃ c rest, cs = c :: rest ∧ c.isDigit = true := by
  obtain ⟨hne, hdigits, -⟩ := decimal_iff.1 h
  obtain ⟨c, rest, rfl⟩ := List.exists_cons_of_ne_nil hne
  exact ⟨c, rest, rfl, hdigits c (List.mem_cons_self ..)⟩

/-- A quoted text begins with a quote. -/
theorem head_of_quoted {cs : List Char} {text : String} (h : Quoted cs text) :
    ∃ c rest, cs = c :: rest ∧ isQuote c = true := by
  cases h with
  | single => exact ⟨_, _, rfl, by decide⟩
  | double => exact ⟨_, _, rfl, by decide⟩

/-- The content of brackets does not begin with a blank. -/
theorem head_of_bracketed {cs : List Char} {accessor : Accessor} (h : Bracketed cs accessor) :
    ∃ c rest, cs = c :: rest ∧ Text.isBlank c = false := by
  cases h with
  | index h _ =>
    obtain ⟨c, rest, rfl, hc⟩ := head_of_decimal h
    exact ⟨c, rest, rfl, isBlank_of_isDigit hc⟩
  | key h =>
    obtain ⟨c, rest, rfl, hc⟩ := head_of_quoted h
    exact ⟨c, rest, rfl, isBlank_of_isQuote hc⟩

/-- A summand does not begin with a blank. -/
theorem head_of_summand {cs : List Char} {term : Term} (h : Summand cs term) :
    ∃ c rest, cs = c :: rest ∧ Text.isBlank c = false := by
  cases h with
  | text h =>
    obtain ⟨c, rest, rfl, hc⟩ := head_of_quoted h
    exact ⟨c, rest, rfl, isBlank_of_isQuote hc⟩
  | natural h _ =>
    obtain ⟨c, rest, rfl, hc⟩ := head_of_decimal h
    exact ⟨c, rest, rfl, isBlank_of_isDigit hc⟩
  | negative => exact ⟨_, _, rfl, by decide⟩
  | «variable» => exact ⟨_, _, rfl, by decide⟩

/-- Where there is no further step, whatever closes a path follows; else a dot or a bracket. -/
theorem head_of_path {steps rest : List Char} {path : List Accessor} (h : Path steps path)
    (hrest : Closes rest) : ∀ c ∈ (steps ++ rest).head?, isIdentifierChar c = false := by
  intro c hc
  cases h with
  | nil => exact (not_part_of_closing (hrest c hc)).1
  | cons h _ =>
    cases h with
    | field =>
      obtain rfl : '.' = c := by simpa using hc
      decide
    | bracket =>
      obtain rfl : '[' = c := by simpa using hc
      decide

/-- Blanks close what comes before them, and so does what follows them. -/
theorem closes_append {blanks rest : List Char} (hblanks : Blanks blanks) (hrest : Closes rest) :
    Closes (blanks ++ rest) := by
  intro c hc
  cases blanks with
  | nil => exact hrest c hc
  | cons blank blanks =>
    obtain rfl : blank = c := by simpa using hc
    exact .inl (hblanks blank (List.mem_cons_self ..))

/-- Further summands begin with blanks or a plus sign. -/
theorem closes_of_summands {more after : List Char} {terms : List Term} (h : Summands more terms)
    (hafter : Blanks after) : Closes (more ++ after) := by
  have hend : Closes [] := by simp [Closes]
  cases h with
  | nil => simpa using closes_append hafter hend
  | cons hbefore =>
    rw [List.append_assoc, List.cons_append]
    refine closes_append hbefore ?_
    intro c hc
    obtain rfl : '+' = c := by simpa using hc
    exact .inr (.inl rfl)

/-! ## The readers -/

theorem identifier_append {name rest : List Char} (h : Name name)
    (hrest : ∀ c ∈ rest.head?, isIdentifierChar c = false) :
    identifier (name ++ rest) = .ok (String.ofList name, rest) := by
  obtain ⟨htake, hdrop⟩ :=
    Text.span_append (fun c hc => isIdentifierChar_iff.2 (h.2 c hc)) hrest
  rw [identifier_eq, htake, hdrop, if_neg h.1]

theorem run_append {digits rest : List Char} {n : Nat} (h : Decimal digits n)
    (hrest : Closes rest) : run Char.isDigit (digits ++ rest) = .ok (digits, rest) := by
  obtain ⟨htake, hdrop⟩ := Text.span_append (decimal_iff.1 h).2.1
    fun c hc => (not_part_of_closing (hrest c hc)).2.1
  rw [run, htake, hdrop]

theorem quotedText_append {quote : Char} (text : List Char) {rest : List Char}
    (hrest : ∀ c ∈ rest.head?, c ≠ quote) :
    quotedText quote (doubled quote text ++ quote :: rest) = .ok (text, rest) := by
  induction text with
  | nil =>
    cases rest with
    | nil => simp [doubled, quotedText]
    | cons c rest => simp [doubled, quotedText, hrest c rfl]
  | cons c text ih =>
    by_cases hc : c = quote
    · subst hc
      have hdoubled : doubled c (c :: text) = c :: c :: doubled c text := by simp [doubled]
      rw [hdoubled, List.cons_append, List.cons_append, quotedText, if_pos rfl, if_pos rfl, ih]
      rfl
    · have hdoubled : doubled quote (c :: text) = c :: doubled quote text := by simp [doubled, hc]
      rw [hdoubled, List.cons_append]
      cases htail : doubled quote text ++ quote :: rest with
      | nil => simp at htail
      | cons d tail =>
        rw [quotedText, if_neg hc, ← htail, ih]
        rfl

/-- A quoted text is read up to its closing quote. -/
theorem quoted_append {cs rest : List Char} {text : String} (h : Quoted cs text)
    (hrest : Closes rest) : quoted (cs ++ rest) = .ok (text, rest) := by
  have hread (quote : Char) (hquote : isQuote quote = true) :
      quoted (quote :: (doubled quote text.toList ++ [quote]) ++ rest) = .ok (text, rest) := by
    have hne : ∀ c ∈ rest.head?, c ≠ quote := by
      rintro c hc rfl
      exact Bool.false_ne_true ((not_part_of_closing (hrest c hc)).2.2.1.symm.trans hquote)
    rw [List.cons_append, List.append_assoc]
    change (quotedText quote (doubled quote text.toList ++ quote :: rest) >>=
      fun x => pure (String.ofList x.1, x.2)) = _
    rw [quotedText_append text.toList hne]
    simp [bind, Except.bind, pure, Except.pure]
  cases h with
  | single => exact hread '\'' (by decide)
  | double => exact hread '"' (by decide)

theorem closing_append (accessor : Accessor) {after : List Char} (hafter : Blanks after)
    (rest : List Char) : closing accessor (after ++ ']' :: rest) = .ok (accessor, rest) := by
  have hbracket : ∀ c ∈ (']' :: rest).head?, Text.isBlank c = false := by
    intro c hc
    obtain rfl : ']' = c := by simpa using hc
    decide
  rw [closing, skipBlanks_bind, dropWhile_blanks hafter hbracket, get_bind]
  rfl

theorem content_append {cs rest : List Char} {accessor : Accessor} (h : Bracketed cs accessor)
    (hrest : Closes rest) : content (cs ++ rest) = .ok (accessor, rest) := by
  rw [content, get_bind]
  cases h with
  | @index n h hn =>
    have hrun := run_append h hrest
    obtain ⟨c, digits, rfl, hc⟩ := head_of_decimal h
    have hvalue : decimal (c :: digits) = n := (decimal_iff.1 h).2.2
    rw [List.cons_append] at hrun ⊢
    dsimp only
    rw [if_neg (by simp [isQuote_of_isDigit hc]), if_pos hc, bind_of_ok hrun, hvalue, if_pos hn]
    rfl
  | key h =>
    have hquoted := quoted_append h hrest
    obtain ⟨c, inside, rfl, hc⟩ := head_of_quoted h
    rw [List.cons_append] at hquoted ⊢
    dsimp only
    rw [if_pos hc]
    exact map_of_ok Accessor.field hquoted

theorem bracketed_append {before cs after : List Char} {accessor : Accessor}
    (hbefore : Blanks before) (h : Bracketed cs accessor) (hafter : Blanks after)
    (rest : List Char) :
    bracketed (before ++ (cs ++ (after ++ ']' :: rest))) = .ok (accessor, rest) := by
  have hcloses : Closes (after ++ ']' :: rest) := by
    refine closes_append hafter ?_
    intro c hc
    obtain rfl : ']' = c := by simpa using hc
    exact .inr (.inr rfl)
  have hcontent := content_append h hcloses
  have hhead : ∀ c ∈ (cs ++ (after ++ ']' :: rest)).head?, Text.isBlank c = false := by
    obtain ⟨c, inside, rfl, hc⟩ := head_of_bracketed h
    simpa using hc
  rw [bracketed_eq, skipBlanks_bind, dropWhile_blanks hbefore hhead, bind_of_ok hcontent]
  exact closing_append accessor hafter rest

/-- Behind a dot comes the name of a member, and then further steps. -/
theorem accessors_dot (b : Char) (bound rest : List Char) :
    accessors (b :: bound) ('.' :: rest) =
      (identifier >>= fun name => accessors bound >>= fun path =>
        pure (.field name :: path)) rest := rfl

/-- Behind a bracket comes what it holds, and then further steps. -/
theorem accessors_bracket (b : Char) (bound rest : List Char) :
    accessors (b :: bound) ('[' :: rest) =
      (bracketed >>= fun accessor => accessors bound >>= fun path =>
        pure (accessor :: path)) rest := rfl

/-- A path is read to its end, if the bound is no shorter than its text. -/
theorem accessors_append {steps bound rest : List Char} {path : List Accessor}
    (h : Path steps path) (hbound : steps.length ≤ bound.length) (hrest : Closes rest) :
    accessors bound (steps ++ rest) = .ok (path, rest) := by
  induction h generalizing bound with
  | nil =>
    cases bound with
    | nil => rfl
    | cons =>
      rw [accessors, get_bind]
      cases rest with
      | nil => rfl
      | cons c rest =>
        obtain ⟨-, -, -, hdot, hbracket⟩ := not_part_of_closing (hrest c rfl)
        rw [List.nil_append]
        generalize hunread : c :: rest = unread
        split
        · cases hunread
          exact absurd rfl hdot
        · cases hunread
          exact absurd rfl hbracket
        · rfl
  | @cons cs more accessor path hstep hpath ih =>
    cases bound with
    | nil =>
      cases hstep with
      | field => simp at hbound
      | bracket => simp at hbound
    | cons b bound =>
      cases hstep with
      | @field name hname =>
        have hmore : more.length ≤ bound.length := by simp at hbound; omega
        rw [List.append_assoc, List.cons_append, accessors_dot,
          bind_of_ok (identifier_append hname (head_of_path hpath hrest)), bind_of_ok (ih hmore)]
        rfl
      | @bracket before cs after _ hbefore hinside hafter =>
        have hmore : more.length ≤ bound.length := by simp at hbound; omega
        have hread := bracketed_append hbefore hinside hafter (more ++ rest)
        simp only [List.cons_append, List.append_assoc, List.nil_append]
        rw [accessors_bracket, bind_of_ok hread, bind_of_ok (ih hmore)]
        rfl

/-- An integer that fits into 64 bits is not refused. -/
theorem integerTerm_eq {negative : Bool} {digits : List Char} {i : Int64}
    (h : i.toInt = if negative then -(decimal digits : Int) else decimal digits)
    (cs : List Char) : integerTerm negative digits cs = .ok (.integer i, cs) := by
  have hrange : -0x8000000000000000 ≤ i.toInt ∧ i.toInt < 0x8000000000000000 :=
    ⟨Int64.le_toInt i, Int64.toInt_lt i⟩
  unfold integerTerm
  rw [← h]
  rw [if_pos hrange, Int64.ofInt_toInt]
  rfl

/-- A variable is a name with the steps behind it. -/
theorem term_variable (rest : List Char) :
    term ('#' :: rest) =
      (identifier >>= fun name => get >>= fun unread => accessors unread >>= fun path =>
        pure (.variable name path)) rest := rfl

/-- Behind a minus sign comes a number. -/
theorem term_minus {c : Char} (hc : c.isDigit = true) (rest : List Char) :
    term ('-' :: c :: rest) = (run Char.isDigit >>= integerTerm true) (c :: rest) := by
  have hdigits : ((c :: rest).takeWhile Char.isDigit).isEmpty = false := by simp [hc]
  change (if ((c :: rest).takeWhile Char.isDigit).isEmpty = true then stop .expectedDigits
    else do
      set (c :: rest)
      integerTerm true (← run Char.isDigit) : Scan Term) ('-' :: c :: rest) = _
  rw [if_neg (by simp [hdigits])]
  rfl

/-- What begins a term that is neither a variable nor negative. -/
theorem term_cons {c : Char} (hvariable : c ≠ '#') (hminus : c ≠ '-') (rest : List Char) :
    term (c :: rest) =
      if isQuote c then (Term.text <$> quoted) (c :: rest)
      else if c.isDigit then (run Char.isDigit >>= integerTerm false) (c :: rest)
      else stop .expectedTerm (c :: rest) := by
  rw [term, get_bind]
  generalize hunread : c :: rest = unread
  split
  · cases hunread
  · cases hunread
    exact absurd rfl hvariable
  · cases hunread
    exact absurd rfl hminus
  · cases hunread
    split
    · rfl
    · split
      · rfl
      · rfl

theorem term_append {cs rest : List Char} {t : Term} (h : Summand cs t) (hrest : Closes rest) :
    term (cs ++ rest) = .ok (t, rest) := by
  cases h with
  | text h =>
    have hquoted := quoted_append h hrest
    obtain ⟨c, inside, rfl, hc⟩ := head_of_quoted h
    have hne (d : Char) (hd : isQuote d = false) : c ≠ d := by
      rintro rfl
      exact Bool.false_ne_true (hd.symm.trans hc)
    rw [List.cons_append, term_cons (hne '#' (by decide)) (hne '-' (by decide)), if_pos hc]
    exact map_of_ok Term.text hquoted
  | natural h hi =>
    have hrun := run_append h hrest
    have hvalue := (decimal_iff.1 h).2.2
    obtain ⟨c, digits, rfl, hc⟩ := head_of_decimal h
    have hne (d : Char) (hd : d.isDigit = false) : c ≠ d := by
      rintro rfl
      exact Bool.false_ne_true (hd.symm.trans hc)
    rw [List.cons_append] at hrun ⊢
    rw [term_cons (hne '#' (by decide)) (hne '-' (by decide)),
      if_neg (by simp [isQuote_of_isDigit hc]), if_pos hc, bind_of_ok hrun]
    exact integerTerm_eq (by simp [hvalue, hi]) rest
  | @negative digits n i h hi =>
    have hrun := run_append h hrest
    have hvalue := (decimal_iff.1 h).2.2
    obtain ⟨c, front, rfl, hc⟩ := head_of_decimal h
    rw [List.cons_append] at hrun ⊢
    rw [List.cons_append, term_minus hc, bind_of_ok hrun]
    exact integerTerm_eq (by simp [hvalue, hi]) rest
  | @«variable» name steps path hname hpath =>
    have hread : accessors (steps ++ rest) (steps ++ rest) = .ok (path, rest) :=
      accessors_append hpath (by simp) hrest
    rw [List.cons_append, List.append_assoc, term_variable,
      bind_of_ok (identifier_append hname (head_of_path hpath hrest)), get_bind, bind_of_ok hread]
    rfl

/-- Behind a plus sign comes a summand, and then further ones. -/
theorem moreTerms_plus (b : Char) {bound cs rest : List Char}
    (h : cs.dropWhile Text.isBlank = '+' :: rest) :
    moreTerms (b :: bound) cs =
      (skipBlanks >>= fun _ => term >>= fun next => moreTerms bound >>= fun terms =>
        pure (next :: terms)) rest := by
  rw [moreTerms, skipBlanks_bind, get_bind, h]
  rfl

/-- Further summands are read to the end of the text, if the bound is no shorter than that. -/
theorem moreTerms_append {more after bound : List Char} {terms : List Term}
    (h : Summands more terms) (hafter : Blanks after)
    (hbound : (more ++ after).length ≤ bound.length) :
    moreTerms bound (more ++ after) = .ok (terms, []) := by
  induction h generalizing bound with
  | nil =>
    cases bound with
    | nil =>
      obtain rfl : after = [] := by simpa using hbound
      rfl
    | cons =>
      have hblank : after.dropWhile Text.isBlank = [] := List.dropWhile_eq_nil_iff.2 hafter
      rw [moreTerms, skipBlanks_bind, List.nil_append, hblank]
      rfl
  | @cons before between cs more next terms hbefore hbetween hnext hmore ih =>
    cases bound with
    | nil => simp at hbound
    | cons b bound =>
      have hshort : (more ++ after).length ≤ bound.length := by simp at hbound ⊢; omega
      have hplus : ∀ c ∈ ('+' :: (between ++ (cs ++ (more ++ after)))).head?,
          Text.isBlank c = false := by
        intro c hc
        obtain rfl : '+' = c := by simpa using hc
        decide
      have hhead : ∀ c ∈ (cs ++ (more ++ after)).head?, Text.isBlank c = false := by
        obtain ⟨c, inside, rfl, hc⟩ := head_of_summand hnext
        simpa using hc
      have hread := term_append hnext (closes_of_summands hmore hafter)
      simp only [List.append_assoc, List.cons_append]
      rw [moreTerms_plus b (dropWhile_blanks hbefore hplus), skipBlanks_bind,
        dropWhile_blanks hbetween hhead, bind_of_ok hread, bind_of_ok (ih hshort)]
      rfl

theorem allTerms_of_phrase {cs : List Char} {terms : List Term} (h : Phrase cs terms) :
    allTerms cs = .ok (terms, []) := by
  cases h with
  | @intro before cs more after first terms hbefore hfirst hmore hafter =>
    have hread := term_append hfirst (closes_of_summands hmore hafter)
    have hnext : moreTerms (more ++ after) (more ++ after) = .ok (terms, []) :=
      moreTerms_append hmore hafter (Nat.le_refl _)
    have hhead : ∀ c ∈ (cs ++ (more ++ after)).head?, Text.isBlank c = false := by
      obtain ⟨c, inside, rfl, hc⟩ := head_of_summand hfirst
      simpa using hc
    have hne : (cs ++ (more ++ after)).isEmpty = false := by
      obtain ⟨c, inside, rfl, -⟩ := head_of_summand hfirst
      rfl
    rw [allTerms, skipBlanks_bind, dropWhile_blanks hbefore hhead, get_bind,
      if_neg (by simp [hne])]
    change (term >>= fun first => get >>= fun unread => moreTerms unread >>= fun terms =>
      pure (first :: terms)) (cs ++ (more ++ after)) = _
    rw [bind_of_ok hread, get_bind, bind_of_ok hnext]
    rfl

/-! ## Whole expressions -/

/-- All of a text is read, or reading stops. -/
theorem allTerms_eq_ok {cs rest : List Char} {terms : List Term}
    (h : allTerms cs = .ok (terms, rest)) : rest = [] := by
  rw [allTerms, skipBlanks_bind, get_bind] at h
  split at h
  · cases h
  · obtain ⟨first, behind, -, h⟩ := bind_eq_ok h
    rw [get_bind] at h
    obtain ⟨more, rest', hmore, h⟩ := bind_eq_ok h
    cases h
    exact rest_of_moreTerms (Nat.le_refl _) hmore

/-- The terms that are read from a text are those that it writes. -/
theorem allTerms_iff {cs : List Char} {terms : List Term} :
    allTerms cs = .ok (terms, []) ↔ Phrase cs terms := by
  refine ⟨fun h => ?_, allTerms_of_phrase⟩
  obtain ⟨read, hcs, hread⟩ := (reads_allTerms cs).ok terms [] h
  rw [hcs, List.append_nil]
  exact hread

/-- A text writes at most one list of terms. -/
theorem phrase_unique {cs : List Char} {terms terms' : List Term} (h : Phrase cs terms)
    (h' : Phrase cs terms') : terms = terms' := by
  have hboth := (allTerms_of_phrase h).symm.trans (allTerms_of_phrase h')
  simp only [Except.ok.injEq, Prod.mk.injEq] at hboth
  exact hboth.1

/-- An expression is read from exactly the texts that write it, and a text writes at most one list
of terms. A text that writes none is refused, with the text itself and the number of its characters
that come before the fault. -/
theorem parse_iff_phrase (source : String) :
    (∀ expression, parse source = .ok expression ↔
      expression.source = source ∧ Phrase source.toList expression.terms) ∧
    (∀ terms terms', Phrase source.toList terms → Phrase source.toList terms' → terms = terms') ∧
    ∀ error, parse source = .error error → ∃ before unread fault,
      source.toList = before ++ unread ∧ before.length ≤ source.length ∧
        error = .badSyntax source before.length fault := by
  refine ⟨fun expression => ?accepted, fun _ _ h h' => phrase_unique h h', fun error h => ?refused⟩
  case accepted =>
    rw [← allTerms_iff, parse]
    cases hread : allTerms source.toList with
    | error stop => simp
    | ok found =>
      obtain ⟨terms, rest⟩ := found
      obtain rfl := allTerms_eq_ok hread
      obtain ⟨source', terms'⟩ := expression
      constructor
      · intro h
        cases h
        exact ⟨rfl, rfl⟩
      · rintro ⟨rfl, h⟩
        cases h
        rfl
  case refused =>
    rw [parse] at h
    cases hread : allTerms source.toList with
    | ok found =>
      rw [hread] at h
      cases h
    | error stop =>
      rw [hread] at h
      cases h
      obtain ⟨before, hunread⟩ := (reads_allTerms source.toList).error stop hread
      have hlength : before.length + stop.unread.length = source.toList.length := by
        rw [← hunread, List.length_append]
      refine ⟨before, stop.unread, stop.fault, hunread.symm, ?_, ?_⟩
      · rw [← String.length_toList]
        omega
      · have hposition : source.toList.length - stop.unread.length = before.length := by omega
        rw [hposition]

end Turnstile.Key.Expression
