import Mathlib.Data.List.Infix
import Turnstile.Text.Replace

/-!
# Replacing a pattern

A text is cut at the occurrences of a pattern. An occurrence of another pattern that cannot overlap
with them stays within one of the pieces, so it is still there after a replacement. If the pattern
does occur, there are at least two pieces, and what joins them can be told from the result: the
length of the result gives its length, and then it stands behind the first piece.
-/

namespace Turnstile.Text

/-- A pattern occurs in a text as one piece of it. -/
theorem occursIn_iff {pattern text : List Char} :
    occursIn pattern text = true ↔ pattern <:+: text := by
  induction text with
  | nil => simp [occursIn]
  | cons c rest ih =>
    rw [occursIn, Bool.or_eq_true, ih, List.isPrefixOf_iff_prefix, List.infix_cons_iff]

/-! ## Joining pieces -/

section Joining

variable {α : Type} {sep : List α} {pieces : List (List α)}

/-- Each piece is found again in what is joined of them. -/
theorem infix_intercalate {piece : List α} (h : piece ∈ pieces) :
    piece <:+: sep.intercalate pieces := by
  induction pieces with
  | nil => simp at h
  | cons first others ih =>
    cases others with
    | nil => simp_all
    | cons second others =>
      rw [List.intercalate_cons_cons]
      rcases List.mem_cons.mp h with rfl | hin
      · exact ⟨[], _, by rw [List.nil_append, List.append_assoc]⟩
      · exact (ih hin).trans (List.suffix_append ..).isInfix

/-- The length of what is joined of some pieces: the joint comes once less than the pieces. -/
theorem length_intercalate :
    (sep.intercalate pieces).length =
      pieces.flatten.length + (pieces.length - 1) * sep.length := by
  induction pieces with
  | nil => simp
  | cons first others ih =>
    cases others with
    | nil => simp
    | cons second others =>
      rw [List.intercalate_cons_cons, List.length_append, ih]
      simp only [List.length_append, List.flatten_cons, List.length_cons]
      lia

/-- Joined with different texts, two pieces or more give different texts. -/
theorem intercalate_injective (h : 2 ≤ pieces.length) :
    Function.Injective fun sep : List α => sep.intercalate pieces := by
  intro x y hxy
  have hlen : x.length = y.length := by
    have hjoined := congrArg List.length hxy
    simp only [length_intercalate, Nat.add_left_cancel_iff] at hjoined
    exact Nat.eq_of_mul_eq_mul_left (by omega) hjoined
  match pieces, h with
  | first :: second :: others, _ =>
    simp only [List.intercalate_cons_cons, List.append_assoc, List.append_cancel_left_eq] at hxy
    exact List.append_inj_left hxy hlen

end Joining

/-! ## Cutting a text -/

variable {pattern text : List Char} {width passing : Nat} {piece : List Char}

/-- The first piece goes on from what there is of it. -/
theorem piecesFrom_eq_cons (pattern : List Char) (width passing : Nat) (piece text : List Char) :
    ∃ more others, piecesFrom pattern width passing piece text =
      (piece.reverse ++ more) :: others := by
  fun_induction piecesFrom pattern width passing piece text with
  | case1 => exact ⟨[], [], by rw [List.append_nil]⟩
  | case2 passing piece _ rest ih => exact ih
  | case3 piece c rest => exact ⟨[], _, by rw [List.append_nil]⟩
  | case4 piece c rest _ ih =>
    obtain ⟨more, others, h⟩ := ih
    exact ⟨c :: more, others, by simp [h]⟩

/-- Nothing is cut within characters other than the first one of the pattern. -/
theorem piecesFrom_append {a : Char} {tail run rest : List Char} (h : a ∉ run) :
    piecesFrom (a :: tail) width 0 piece (run ++ rest) =
      piecesFrom (a :: tail) width 0 (run.reverse ++ piece) rest := by
  induction run generalizing piece with
  | nil => rfl
  | cons c run ih =>
    obtain ⟨hc, hrun⟩ := not_or.mp (List.mem_cons.not.mp h)
    have hno : ¬(a :: tail).isPrefixOf (c :: (run ++ rest)) := by simp [hc]
    rw [List.cons_append, piecesFrom, if_neg hno, ih hrun]
    simp

/-- Nothing is cut within characters that the pattern does not occur in, up to one that is not in
the pattern. -/
theorem piecesFrom_append_cons {a sep : Char} {tail run rest : List Char} (hsep : sep ∉ a :: tail)
    (h : ¬a :: tail <:+: run) : piecesFrom (a :: tail) width 0 piece (run ++ sep :: rest) =
      piecesFrom (a :: tail) width 0 (sep :: (run.reverse ++ piece)) rest := by
  induction run generalizing piece with
  | nil =>
    have hne : ¬a = sep := fun heq => hsep (heq ▸ List.mem_cons_self)
    have hno : ¬(a :: tail).isPrefixOf (sep :: rest) := by simp [hne]
    rw [List.nil_append, piecesFrom, if_neg hno]
    rfl
  | cons c run ih =>
    rw [List.infix_cons_iff, not_or] at h
    have hno : ¬(a :: tail).isPrefixOf (c :: (run ++ sep :: rest)) := by
      rw [List.isPrefixOf_iff_prefix]
      intro hfound
      -- An occurrence would end before the separator or take it in.
      have hrun : (c :: run) ++ [sep] <+: c :: (run ++ sep :: rest) := ⟨rest, by simp⟩
      rcases List.prefix_or_prefix_of_prefix hfound hrun with hwithin | hbeyond
      · rcases List.prefix_concat_iff.mp hwithin with heq | hwithin
        · exact hsep (heq ▸ by simp)
        · exact h.1 hwithin
      · exact hsep (hbeyond.subset (by simp))
    rw [List.cons_append, piecesFrom, if_neg hno, ih h.2]
    simp

/-- A pattern that occurs cuts a text in at least two. -/
theorem two_le_length_pieces (hne : pattern ≠ []) (h : pattern <:+: text) :
    2 ≤ (pieces pattern text).length := by
  -- The piece so far does not matter, and up to the first occurrence nothing is passed over.
  suffices hcut : ∀ piece, 2 ≤ (piecesFrom pattern (pattern.length - 1) 0 piece text).length from
    hcut []
  induction text with
  | nil => exact absurd (List.infix_nil.mp h) hne
  | cons c rest ih =>
    intro piece
    by_cases hfound : pattern.isPrefixOf (c :: rest) = true
    · obtain ⟨more, others, hbehind⟩ :=
        piecesFrom_eq_cons pattern (pattern.length - 1) (pattern.length - 1) [] rest
      rw [piecesFrom, if_pos hfound, hbehind]
      simp
    · rw [List.isPrefixOf_iff_prefix] at hfound
      rw [piecesFrom, if_neg (by rwa [List.isPrefixOf_iff_prefix])]
      exact ih ((List.infix_cons_iff.mp h).resolve_left hfound) _

/-- If a pattern occurs, what it is replaced with can be told from the result. -/
theorem replaceAll_injective (hne : pattern ≠ []) (h : pattern <:+: text) :
    Function.Injective fun replacement => replaceAll pattern replacement text :=
  intercalate_injective (two_le_length_pieces hne h)

/-! ## Other patterns -/

section Other

/- Two patterns, neither of which can begin within the other or be the beginning of it. -/
variable {a b : Char} {tail other : List Char} (hbegin : a ∉ other) (hother : b ∉ tail)
  (hpre : ¬a :: tail <+: b :: other) (hpre' : ¬b :: other <+: a :: tail)

include hbegin hother hpre hpre' in
/-- An occurrence of the other pattern is not cut apart, unless what is being passed over reaches
into it. -/
theorem exists_infix_piecesFrom (hpass : b ∉ text.take passing) (h : b :: other <:+: text) :
    ∃ found ∈ piecesFrom (a :: tail) tail.length passing piece text, b :: other <:+: found := by
  fun_induction piecesFrom (a :: tail) tail.length passing piece text with
  | case1 => simp at h
  | case2 passing piece c rest ih =>
    obtain ⟨hc, hpass⟩ := not_or.mp (List.mem_cons.not.mp hpass)
    rcases List.infix_cons_iff.mp h with hhere | hlater
    · exact absurd (List.cons_prefix_cons.mp hhere).1 hc
    · exact ih hpass hlater
  | case3 piece c rest hfound ih =>
    rw [List.isPrefixOf_iff_prefix] at hfound
    -- The occurrence found is passed over, and the other pattern does not begin within it.
    have hpast : b ∉ rest.take tail.length := by
      rwa [← List.prefix_iff_eq_take.mp (List.cons_prefix_cons.mp hfound).2]
    rcases List.infix_cons_iff.mp h with hhere | hlater
    · exact ((List.prefix_or_prefix_of_prefix hfound hhere).elim hpre hpre').elim
    · obtain ⟨found, hmem, hin⟩ := ih hpast hlater
      exact ⟨found, List.mem_cons_of_mem _ hmem, hin⟩
  | case4 piece c rest _ ih =>
    rcases List.infix_cons_iff.mp h with hhere | hlater
    · obtain ⟨rfl, rest, rfl⟩ := List.cons_prefix_cons.mp hhere
      obtain ⟨more, others, hcut⟩ :=
        piecesFrom_eq_cons (a :: tail) tail.length 0 (other.reverse ++ b :: piece) rest
      rw [piecesFrom_append hbegin, hcut]
      exact ⟨_, List.mem_cons_self, piece.reverse, more, by simp⟩
    · exact ih (by simp) hlater

include hbegin hother hpre hpre' in
/-- What occurs in a text and cannot overlap with a pattern still occurs when the pattern has been
replaced, whatever it has been replaced with. -/
theorem infix_replaceAll (replacement : List Char) (h : b :: other <:+: text) :
    b :: other <:+: replaceAll (a :: tail) replacement text := by
  -- Nothing is being passed over in front of the text.
  have hpass : b ∉ text.take 0 := by simp
  obtain ⟨found, hmem, hin⟩ := exists_infix_piecesFrom hbegin hother hpre hpre' hpass h
  exact hin.trans (infix_intercalate hmem)

end Other

end Turnstile.Text
