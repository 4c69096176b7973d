import Turnstile.Proofs.Store.Exchanges

/-!
# Stores that behave in any way

A behaviour answers every call as it likes, in view of all that it has been asked before: it may
fail any call, answer the same one differently, and make up any octets. What a program keeps to
whatever it is answered, it keeps to over every behaviour.
-/

namespace Turnstile.Store

/-- How a store answers a call after the exchanges so far, the latest first. -/
abbrev Behaviour := List Exchange → (call : Call) → Except StoreError call.Answer

namespace Behaviour

variable {ε α : Type} (behaviour : Behaviour)

/-- Serves a call, which is one more exchange. -/
def serve (call : Call) : StateM (List Exchange) (Except StoreError call.Answer) := fun told =>
  (behaviour told call, ⟨call, behaviour told call⟩ :: told)

/-- Performs an operation over a store that behaves so. Nobody reads what is logged. -/
def perform (action : Action ε α) : StateM (List Exchange) (Except ε α) :=
  (action.run : Program _).run behaviour.serve fun _ => pure ()

/-- Whether exchanges are had with a store that behaves so. -/
def Gave : List Exchange → Prop
  | [] => True
  | last :: told => last.answer = behaviour told last.call ∧ Gave told

/-- A program that obeys whatever it is answered ends as it should over a store that behaves so, and
its exchanges are had with that store. -/
theorem run_of_obeys {rule : List Exchange → Call → Prop} {goal : List Exchange → α → Prop}
    {p : Program α} {told : List Exchange} (h : p.Obeys rule goal told)
    (hgave : behaviour.Gave told) :
    goal (p.run behaviour.serve (fun _ => pure ()) told).2
        (p.run behaviour.serve (fun _ => pure ()) told).1 ∧
      behaviour.Gave (p.run behaviour.serve (fun _ => pure ()) told).2 := by
  induction p generalizing told with
  | done a => exact ⟨h, hgave⟩
  | ask call next ih => exact ih _ (h.2 _) ⟨rfl, hgave⟩
  | tell line next ih => exact ih h hgave

/-- An action that obeys whatever it is answered, from the first exchange on, ends as it should over
a store that behaves so. -/
theorem perform_of_obeys {rule : List Exchange → Call → Prop}
    {goal : List Exchange → Except ε α → Prop} {action : Action ε α}
    (h : Action.Obeys rule goal action []) :
    goal (behaviour.perform action []).2 (behaviour.perform action []).1 ∧
      behaviour.Gave (behaviour.perform action []).2 :=
  behaviour.run_of_obeys h trivial

end Behaviour
end Turnstile.Store
