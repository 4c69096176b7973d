/-!
# Readers in a row

A reader takes a piece off the front of a text, or fails. What comes after a reader reads where
that one has stopped, and nothing comes after one that fails. A run of characters of one class ends
where a character outside of the class comes next, or nothing at all; so a text has at most one run
in front.
-/

namespace Turnstile.Text

/-! ## Runs of a class of characters -/

section Runs

variable {α : Type} {isIn : α → Bool} {front rest front' rest' : List α}

/-- A run of a class ends where the class does. -/
theorem span_append (h : ∀ c ∈ front, isIn c = true) (hrest : ∀ c ∈ rest.head?, isIn c = false) :
    (front ++ rest).takeWhile isIn = front ∧ (front ++ rest).dropWhile isIn = rest := by
  rw [List.takeWhile_append_of_pos h, List.dropWhile_append_of_pos h]
  cases rest with
  | nil => simp
  | cons c rest => simp [hrest c rfl]

/-- A text falls into a run and what comes behind it in only one way. -/
theorem eq_of_span_append (h : ∀ c ∈ front, isIn c = true)
    (hrest : ∀ c ∈ rest.head?, isIn c = false) (h' : ∀ c ∈ front', isIn c = true)
    (hrest' : ∀ c ∈ rest'.head?, isIn c = false) (heq : front ++ rest = front' ++ rest') :
    front = front' ∧ rest = rest' := by
  obtain ⟨htake, hdrop⟩ := span_append h hrest
  obtain ⟨htake', hdrop'⟩ := span_append h' hrest'
  rw [heq] at htake hdrop
  exact ⟨htake.symm.trans htake', hdrop.symm.trans hdrop'⟩

end Runs

/-! ## Outcomes and readers -/

variable {σ ε α β : Type}

/-- What is left of an outcome without its fault is what it yields. -/
theorem eq_ok_of_toOption {outcome : Except ε α} {x : α} (h : outcome.toOption = some x) :
    outcome = .ok x := by
  cases outcome with
  | error e => cases h
  | ok y =>
    cases h
    rfl

/-- Two steps succeed only if both do. -/
theorem except_bind_eq_ok {first : Except ε α} {next : α → Except ε β} {b : β}
    (h : first >>= next = .ok b) : ∃ a, first = .ok a ∧ next a = .ok b := by
  cases first with
  | error e => cases h
  | ok a => exact ⟨a, rfl, h⟩

/-- Two steps succeed exactly if both do. -/
theorem except_bind_eq_ok_iff {first : Except ε α} {next : α → Except ε β} {b : β} :
    first >>= next = .ok b ↔ ∃ a, first = .ok a ∧ next a = .ok b := by
  constructor
  · exact except_bind_eq_ok
  · rintro ⟨a, rfl, hnext⟩
    exact hnext

/-- Two steps fail if the first one does, or the second one behind it. -/
theorem except_bind_eq_error {first : Except ε α} {next : α → Except ε β} {e : ε}
    (h : first >>= next = .error e) :
    first = .error e ∨ ∃ a, first = .ok a ∧ next a = .error e := by
  cases first with
  | error e' =>
    cases h
    exact .inl rfl
  | ok a => exact .inr ⟨a, rfl, h⟩

/-- Two steps yield something exactly if both do. -/
theorem exists_bind_eq_ok_iff {first : Except ε α} {next : α → Except ε β} :
    (∃ b, first >>= next = .ok b) ↔ ∃ a, first = .ok a ∧ ∃ b, next a = .ok b := by
  simp only [except_bind_eq_ok_iff]
  exact exists_comm.trans (exists_congr fun a => exists_and_left)

section Results

variable {first : Except ε α} {f : α → β}

/-- To go on with a result makes no fault. -/
theorem bind_pure_eq_error_iff {e : ε} :
    (first >>= fun a => pure (f a)) = .error e ↔ first = .error e := by
  cases first <;> simp [bind, Except.bind, pure, Except.pure]

/-- To go on with a result yields what is made of it, and nothing else. -/
theorem bind_pure_eq_ok_iff {b : β} :
    (first >>= fun a => pure (f a)) = .ok b ↔ ∃ a, first = .ok a ∧ b = f a := by
  cases first <;> simp [bind, Except.bind, pure, Except.pure, eq_comm]

end Results

variable {reader : StateT σ (Except ε) α} {next : α → StateT σ (Except ε) β} {s rest : σ}

/-- What comes after a reader begins with what that one has left. -/
theorem bind_apply : (reader >>= next) s = reader s >>= fun x => next x.1 x.2 := rfl

/-- What comes after a reader reads where that one has stopped. -/
theorem bind_of_ok {a : α} (h : reader s = .ok (a, rest)) :
    (reader >>= next) s = next a rest := by
  rw [bind_apply, h]
  rfl

/-- Nothing comes after a reader that fails. -/
theorem bind_of_error {e : ε} (h : reader s = .error e) : (reader >>= next) s = .error e := by
  rw [bind_apply, h]
  rfl

/-- A reader in two parts succeeds with both of them. -/
theorem bind_eq_ok {b : β} (h : (reader >>= next) s = .ok (b, rest)) :
    ∃ a mid, reader s = .ok (a, mid) ∧ next a mid = .ok (b, rest) := by
  obtain ⟨⟨a, mid⟩, hreader, hnext⟩ := except_bind_eq_ok h
  exact ⟨a, mid, hreader, hnext⟩

/-- What a reader yields can be worked on. -/
theorem map_of_ok {a : α} (f : α → β) (h : reader s = .ok (a, rest)) :
    (f <$> reader) s = .ok (f a, rest) := by
  have hbind : f <$> reader = reader >>= fun a => pure (f a) := rfl
  rw [hbind]
  exact bind_of_ok h

/-- A reader may look at all that is left. -/
theorem get_bind (next : σ → StateT σ (Except ε) β) : (get >>= next) s = next s s := rfl

/-- A reader may go on with another rest. -/
theorem set_bind (next : PUnit → StateT σ (Except ε) β) :
    (set rest >>= next) s = next ⟨⟩ rest := rfl

end Turnstile.Text
