import Mathlib.Data.List.DropRight
import Turnstile.Text.Basic

/-!
# Trimmed texts

What is left of a text without the blanks around it neither begins nor ends with one, and nothing is
left exactly of blanks. A text without blanks at its ends is left as it is.
-/

namespace Turnstile.Text

variable {text : String} {chars : List Char}

/-- A text of blanks alone, or an empty one. -/
def Blank (text : String) : Prop := ∀ c ∈ text.toList, isBlank c = true

instance (text : String) : Decidable (Blank text) :=
  List.decidableBAll (isBlank · = true) text.toList

/-- A text that neither begins nor ends with a blank. -/
def Trimmed (text : String) : Prop :=
  (∀ c ∈ text.toList.head?, isBlank c = false) ∧ ∀ c ∈ text.toList.getLast?, isBlank c = false

theorem toList_trim (text : String) : (trim text).toList = trimChars text.toList :=
  String.toList_ofList

/-- Blanks at the end are dropped from there. -/
theorem trimEnd_eq (chars : List Char) : trimEnd chars = chars.rdropWhile isBlank := rfl

/-- Trimming adds nothing to a text. -/
theorem mem_of_mem_trim {c : Char} (h : c ∈ (trim text).toList) : c ∈ text.toList := by
  rw [toList_trim, trimChars, trimEnd_eq] at h
  have hstart : c ∈ trimStart text.toList := (List.rdropWhile_prefix isBlank _).subset h
  exact (List.dropWhile_suffix isBlank).subset hstart

/-- A trimmed text has no blanks at its ends. -/
theorem trimmed_trim (text : String) : Trimmed (trim text) := by
  rw [Trimmed, toList_trim, trimChars, trimEnd_eq]
  constructor
  · intro c hc
    obtain ⟨rest, hrest⟩ := List.rdropWhile_prefix isBlank (trimStart text.toList)
    have hfirst : (trimStart text.toList).head? = some c := by
      rw [← hrest, List.head?_append, Option.mem_def.mp hc, Option.some_or]
    have hdropped := List.head?_dropWhile_not isBlank text.toList
    rw [← trimStart, hfirst] at hdropped
    exact hdropped
  · intro c hc
    obtain ⟨hne, rfl⟩ := List.mem_getLast?_eq_getLast hc
    simpa using List.rdropWhile_last_not isBlank _ hne

/-- Nothing is cut off in front of a text that does not begin with a blank. -/
theorem Trimmed.trimStart_eq (h : Trimmed text) : trimStart text.toList = text.toList := by
  refine List.dropWhile_eq_self_iff.mpr fun hlen => ?_
  have hfirst := h.1 text.toList[0] (List.head?_eq_getElem? ▸ List.getElem?_eq_getElem hlen)
  simp [hfirst]

/-- Nothing is cut off at the end of a text that does not end with a blank. -/
theorem Trimmed.trimEnd_eq (h : Trimmed text) : trimEnd text.toList = text.toList := by
  rw [Text.trimEnd_eq]
  refine List.rdropWhile_eq_self_iff.mpr fun hne => ?_
  have hlast := h.2 (text.toList.getLast hne) (List.getLast?_eq_some_getLast hne)
  simp [hlast]

/-- A text without blanks at its ends is left as it is. -/
theorem Trimmed.trim_eq (h : Trimmed text) : trim text = text := by
  rw [trim, trimChars, h.trimStart_eq, h.trimEnd_eq, String.ofList_toList]

/-- A second trimming changes nothing. -/
theorem trim_trim (text : String) : trim (trim text) = trim text := (trimmed_trim text).trim_eq

/-- Nothing is left of a text exactly if it is blank. -/
theorem isEmpty_trim_iff : (trim text).isEmpty = true ↔ Blank text := by
  rw [String.isEmpty_iff, ← String.toList_eq_nil_iff, toList_trim, trimChars, trimEnd_eq,
    List.rdropWhile_eq_nil_iff, Blank]
  constructor
  · intro hrest c hc
    rw [← List.takeWhile_append_dropWhile (p := isBlank) (l := text.toList)] at hc
    rcases List.mem_append.mp hc with hfront | hrest'
    · exact List.mem_takeWhile_imp hfront
    · exact hrest c hrest'
  · intro hall c hc
    exact hall c ((List.dropWhile_suffix isBlank).subset hc)

/-- A text without any blanks has none at its ends. -/
theorem trimmed_of_forall (h : ∀ c ∈ text.toList, isBlank c = false) : Trimmed text :=
  ⟨fun c hc => h c (List.mem_of_head? hc), fun c hc => h c (List.mem_of_getLast? hc)⟩

/-- Blanks at the end of a text do not count. -/
theorem trimEnd_append {blanks : List Char} (h : ∀ c ∈ blanks, isBlank c = true) :
    trimEnd (chars ++ blanks) = trimEnd chars := by
  have hreverse : ∀ c ∈ blanks.reverse, isBlank c = true := fun c hc => h c (List.mem_reverse.mp hc)
  rw [trimEnd, List.reverse_append, List.dropWhile_append_of_pos hreverse, trimEnd]

/-- Trimming takes away the blanks around a text that has none at its ends. -/
theorem Trimmed.trim_append {before after : String} (h : Trimmed text) (hbefore : Blank before)
    (hafter : Blank after) : trim (before ++ text ++ after) = text := by
  have hfront : trimStart (before.toList ++ text.toList ++ after.toList) =
      trimStart (text.toList ++ after.toList) := by
    rw [trimStart, List.append_assoc, List.dropWhile_append_of_pos hbefore, trimStart]
  rw [trim, trimChars, String.toList_append, String.toList_append, hfront]
  cases hchars : text.toList with
  | nil =>
    -- Nothing but blanks is left to be trimmed.
    have hnone : trimStart after.toList = [] := List.dropWhile_eq_nil_iff.mpr hafter
    rw [List.nil_append, hnone, ← String.ofList_toList (s := text), hchars]
    rfl
  | cons c chars =>
    have hc : isBlank c = false := h.1 c (by simp [hchars])
    have hstays : trimStart (c :: chars ++ after.toList) = c :: chars ++ after.toList :=
      List.dropWhile_cons_of_neg (by simp [hc])
    rw [hstays, trimEnd_append hafter, ← hchars, h.trimEnd_eq, String.ofList_toList]

/-- What is left of blanks is the empty text. -/
theorem trim_of_blank (h : Blank text) : trim text = "" :=
  String.isEmpty_iff.mp (isEmpty_trim_iff.mpr h)

/-- A text counts unless it is blank, and then without the blanks around it. -/
theorem nonBlank?_eq_some_iff {trimmed : String} :
    nonBlank? text = some trimmed ↔ ¬Blank text ∧ trim text = trimmed := by
  simp only [nonBlank?, isEmpty_trim_iff]
  by_cases h : Blank text <;> simp [h]

/-- A blank text does not count. -/
theorem nonBlank?_eq_none_iff : nonBlank? text = none ↔ Blank text := by
  simp only [nonBlank?, isEmpty_trim_iff]
  by_cases h : Blank text <;> simp [h]

end Turnstile.Text
