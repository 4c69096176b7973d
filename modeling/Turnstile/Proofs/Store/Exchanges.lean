import Turnstile.Store.Program

/-!
# What a program may ask

A program is told nothing but the answers to its calls. What it may ask next, and what it yields
in the end, is judged by the exchanges it has had, whatever the answers were. The judgement
follows the program part by part: `Obeys` of a program is computed from `Obeys` of its parts.
-/

namespace Turnstile.Store

/-- A call with its answer. -/
structure Exchange where
  call : Call
  answer : Except StoreError call.Answer

namespace Program

variable {α β : Type} {rule : List Exchange → Call → Prop} {told : List Exchange}

/-- Whether a program keeps to a rule for its calls, whatever they are answered, and ends as it
should. The rule and the goal see the exchanges so far, the latest first. -/
def Obeys (rule : List Exchange → Call → Prop) (goal : List Exchange → α → Prop) :
    Program α → List Exchange → Prop
  | .done a, told => goal told a
  | .ask call next, told =>
    rule told call ∧ ∀ answer, (next answer).Obeys rule goal (⟨call, answer⟩ :: told)
  | .tell _ next, told => next.Obeys rule goal told

@[simp] theorem obeys_done {goal : List Exchange → α → Prop} {a : α} :
    (Program.done a).Obeys rule goal told ↔ goal told a := .rfl

@[simp] theorem obeys_ask {goal : List Exchange → α → Prop} {call : Call}
    {next : Except StoreError call.Answer → Program α} :
    (Program.ask call next).Obeys rule goal told ↔
      rule told call ∧ ∀ answer, (next answer).Obeys rule goal (⟨call, answer⟩ :: told) := .rfl

@[simp] theorem obeys_tell {goal : List Exchange → α → Prop} {line : LogLine}
    {next : Program α} :
    (Program.tell line next).Obeys rule goal told ↔ next.Obeys rule goal told := .rfl

/-- A program that goes on with another one obeys if the first part does and ends so that the
second one does. -/
@[simp] theorem obeys_bind {goal : List Exchange → β → Prop} (p : Program α)
    (f : α → Program β) :
    (p.bind f).Obeys rule goal told ↔
      p.Obeys rule (fun told a => (f a).Obeys rule goal told) told := by
  induction p generalizing told with
  | done a => rfl
  | ask call next ih => simp [ih]
  | tell line next ih => simp [ih]

/-- A program that ends as it should also ends as it may by a weaker goal. -/
theorem Obeys.imp {goal weaker : List Exchange → α → Prop} {p : Program α}
    (h : p.Obeys rule goal told) (hgoal : ∀ told a, goal told a → weaker told a) :
    p.Obeys rule weaker told := by
  induction p generalizing told with
  | done a => exact hgoal told a h
  | ask call next ih => exact ⟨h.1, fun answer => ih answer (h.2 answer)⟩
  | tell line next ih => exact ih h

end Program

namespace Action

variable {ε ε' α β : Type} {rule : List Exchange → Call → Prop} {told : List Exchange}

/-- Whether an action keeps to a rule and ends as it should, with a result or an error. -/
abbrev Obeys (rule : List Exchange → Call → Prop) (goal : List Exchange → Except ε α → Prop)
    (action : Action ε α) (told : List Exchange) : Prop :=
  Program.Obeys rule goal action.run told

/-- An action in two parts goes on unless the first part fails. -/
@[simp] theorem obeys_bind {goal : List Exchange → Except ε β → Prop} (action : Action ε α)
    (next : α → Action ε β) :
    Obeys rule goal (action >>= next) told ↔
      Obeys rule (fun told outcome =>
        match outcome with
        | .ok a => Obeys rule goal (next a) told
        | .error e => goal told (.error e)) action told := by
  change (Program.bind action.run (ExceptT.bindCont next)).Obeys rule goal told ↔ _
  rw [Program.obeys_bind]
  apply iff_of_eq
  congr
  funext told outcome
  cases outcome <;> rfl

@[simp] theorem obeys_of {goal : List Exchange → Except ε α → Prop} (r : Except ε α) :
    Obeys rule goal (Action.of r) told ↔ goal told r := .rfl

@[simp] theorem obeys_ask (call : Call) (wrap : StoreError → ε)
    {goal : List Exchange → Except ε call.Answer → Prop} :
    Obeys rule goal (Action.ask call wrap) told ↔
      rule told call ∧ ∀ answer, goal (⟨call, answer⟩ :: told) (answer.mapError wrap) := .rfl

/-- An action that begins with a call goes on with its answer, unless the call fails. -/
theorem obeys_ask_bind {goal : List Exchange → Except ε α → Prop} (call : Call)
    (wrap : StoreError → ε) (next : call.Answer → Action ε α) :
    Obeys rule goal (Action.ask call wrap >>= next) told ↔
      rule told call ∧ (∀ answer, Obeys rule goal (next answer) (⟨call, .ok answer⟩ :: told)) ∧
        ∀ e, goal (⟨call, .error e⟩ :: told) (.error (wrap e)) := by
  rw [obeys_bind, obeys_ask]
  refine and_congr_right fun _ => ⟨fun h => ⟨fun answer => h (.ok answer), fun e => h (.error e)⟩,
    fun h answer => ?_⟩
  cases answer with
  | ok answer => exact h.1 answer
  | error e => exact h.2 e

/-- An action whose outcome is taken as it is. -/
@[simp] theorem obeys_lift {goal : List Exchange → Except ε' (Except ε α) → Prop}
    (action : Action ε α) :
    Obeys rule goal (liftM action.run : Action ε' (Except ε α)) told ↔
      Obeys rule (fun told outcome => goal told (.ok outcome)) action told := by
  change (Program.bind action.run fun r => .done (Except.ok r)).Obeys rule goal told ↔ _
  rw [Program.obeys_bind]
  rfl

end Action
end Turnstile.Store
