/-!
# Splitting at a character

A text is cut at every occurrence of a separator, or only at the first one.
-/

namespace Turnstile.Text

/-- The parts of a text between occurrences of a character. -/
def splitAt (separator : Char) : List Char → List (List Char)
  | [] => [[]]
  | c :: rest =>
    if c = separator then [] :: splitAt separator rest
    else
      match splitAt separator rest with
      | first :: more => (c :: first) :: more
      | [] => [[c]]

/-- A text cut at the first occurrence of a character. -/
def cutAt? (separator : Char) (chars : List Char) : Option (List Char × List Char) :=
  match chars.dropWhile (· != separator) with
  | _ :: rest => some (chars.takeWhile (· != separator), rest)
  | [] => none

/-- Splitting leaves at least one part. -/
theorem splitAt_ne_nil (separator : Char) (chars : List Char) :
    splitAt separator chars ≠ [] := by
  cases chars with
  | nil => simp [splitAt]
  | cons c rest =>
    simp only [splitAt]
    split
    · simp
    · split <;> simp

/-- Without the separator there is one part only. -/
theorem splitAt_of_not_mem {separator : Char} {chars : List Char} (h : separator ∉ chars) :
    splitAt separator chars = [chars] := by
  induction chars with
  | nil => rfl
  | cons c rest ih =>
    rw [List.mem_cons, not_or] at h
    rw [splitAt, if_neg (Ne.symm h.1), ih h.2]

/-- A part without the separator ends at the first one. -/
theorem splitAt_append_cons {separator : Char} {part : List Char} (h : separator ∉ part)
    (rest : List Char) :
    splitAt separator (part ++ separator :: rest) = part :: splitAt separator rest := by
  induction part with
  | nil => simp [splitAt]
  | cons c part ih =>
    rw [List.mem_cons, not_or] at h
    rw [List.cons_append, splitAt, if_neg (Ne.symm h.1), ih h.2]

/-- Parts without the separator are found again in what is joined of them. -/
theorem splitAt_intercalate {separator : Char} {parts : List (List Char)} (hne : parts ≠ [])
    (h : ∀ part ∈ parts, separator ∉ part) :
    splitAt separator ([separator].intercalate parts) = parts := by
  induction parts with
  | nil => exact absurd rfl hne
  | cons part parts ih =>
    obtain ⟨hpart, hparts⟩ := List.forall_mem_cons.1 h
    cases parts with
    | nil => simp [splitAt_of_not_mem hpart]
    | cons next parts =>
      rw [List.intercalate_cons_cons, List.append_assoc, List.singleton_append,
        splitAt_append_cons hpart, ih (List.cons_ne_nil _ _) hparts]

/-- No part contains the separator. -/
theorem not_mem_of_mem_splitAt {separator : Char} {chars part : List Char}
    (h : part ∈ splitAt separator chars) : separator ∉ part := by
  induction chars generalizing part with
  | nil => simp_all [splitAt]
  | cons c rest ih =>
    simp only [splitAt] at h
    split at h
    · rcases List.mem_cons.1 h with rfl | h
      · simp
      · exact ih h
    · rename_i hc
      split at h
      · rename_i first more heq
        rcases List.mem_cons.1 h with rfl | h
        · have := ih (heq ▸ List.mem_cons_self : first ∈ splitAt separator rest)
          simp [Ne.symm hc, this]
        · exact ih (heq ▸ List.mem_cons_of_mem _ h)
      · rename_i heq
        exact absurd heq (splitAt_ne_nil separator rest)

/-- Joining the parts with the separator gives the text back. -/
theorem intercalate_splitAt (separator : Char) (chars : List Char) :
    [separator].intercalate (splitAt separator chars) = chars := by
  induction chars with
  | nil => simp [splitAt]
  | cons c rest ih =>
    simp only [splitAt]
    split
    · rename_i hc
      subst hc
      cases h : splitAt c rest with
      | nil => exact absurd h (splitAt_ne_nil c rest)
      | cons first more => simp_all
    · split
      · rename_i first more h
        rw [h] at ih
        cases more <;> simp_all
      · rename_i h
        exact absurd h (splitAt_ne_nil separator rest)

/-- A text is cut at a separator that the part before it does not contain. -/
theorem cutAt?_append {separator : Char} {before : List Char} (h : separator ∉ before)
    (after : List Char) :
    cutAt? separator (before ++ separator :: after) = some (before, after) := by
  have hb : ∀ c ∈ before, (c != separator) = true := by
    intro c hc
    simpa using fun heq : c = separator => h (heq ▸ hc)
  simp [cutAt?, List.dropWhile_append_of_pos hb, List.takeWhile_append_of_pos hb]

/-- A separator that comes first has nothing before it. -/
theorem cutAt?_cons_self (separator : Char) (chars : List Char) :
    cutAt? separator (separator :: chars) = some ([], chars) := by
  simp [cutAt?]

/-- Any other character that comes first belongs to what is before the separator. -/
theorem cutAt?_cons_of_ne {separator c : Char} (h : c ≠ separator) (chars : List Char) :
    cutAt? separator (c :: chars) =
      (cutAt? separator chars).map fun cut => (c :: cut.1, cut.2) := by
  simp only [cutAt?, List.dropWhile_cons, List.takeWhile_cons, bne_iff_ne.2 h, if_true]
  cases chars.dropWhile (· != separator) <;> rfl

/-- Where a separator follows, a text is cut at its own first one or at that one. -/
theorem map_fst_cutAt?_append (separator : Char) (chars rest : List Char) :
    (cutAt? separator (chars ++ separator :: rest)).map Prod.fst =
      some (chars.takeWhile (· != separator)) := by
  induction chars with
  | nil =>
    rw [List.nil_append, cutAt?_cons_self]
    rfl
  | cons c chars ih =>
    rw [List.cons_append, List.takeWhile_cons]
    by_cases hc : c = separator
    · rw [hc, cutAt?_cons_self, if_neg (by simp)]
      rfl
    · rw [cutAt?_cons_of_ne hc, if_pos (bne_iff_ne.2 hc), Option.map_map,
        ← Option.map_some, ← ih, Option.map_map]
      rfl

/-- What a text is cut into gives it back. -/
theorem eq_of_cutAt? {separator : Char} {chars before after : List Char}
    (h : cutAt? separator chars = some (before, after)) : chars = before ++ separator :: after := by
  rw [cutAt?] at h
  split at h
  · rename_i c rest hdrop
    obtain ⟨rfl, rfl⟩ := Prod.mk.inj (Option.some.inj h)
    have hc : c = separator := by
      have hfirst := List.head?_dropWhile_not (· != separator) chars
      rw [hdrop] at hfirst
      simpa using hfirst
    rw [← hc, ← hdrop, hc, List.takeWhile_append_dropWhile]
  · cases h

end Turnstile.Text
