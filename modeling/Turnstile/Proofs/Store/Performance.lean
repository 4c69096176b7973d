import Turnstile.Proofs.Store.Live
import Turnstile.Store.Observed

/-!
# Performing an operation over a store

An operation is performed call by call: every part of it takes the store it finds to the
store that the next part finds, and an error ends it there. Over a store of which no call
fails, what a call does is what the memory does.
-/

namespace Turnstile.Store

namespace Program

variable {α β : Type} {m : Type → Type} [Monad m] [LawfulMonad m]

/-- A program that goes on with another one is run after it. -/
theorem run_bind (serve : (call : Call) → m (Except StoreError call.Answer))
    (log : LogLine → m Unit) (p : Program α) (f : α → Program β) :
    (p.bind f).run serve log = p.run serve log >>= fun a => (f a).run serve log := by
  induction p with
  | done a => simp [Program.run]
  | ask call next ih => simp [Program.run, ih]
  | tell line next ih => simp [Program.run, ih]

end Program

namespace Observed

variable {ε α β : Type} (store : Observed)

/-- The live entry under a key. -/
def live (key : String) : Option Entry := store.memory.live store.now key

/-- The store after a call that the memory has served. -/
def served (call : Call) (memory : Memory) : Observed :=
  { store with calls := call :: store.calls, memory }

/-- The store after a line has been logged. -/
def logged (severity : Severity) (text : String) : Observed :=
  { store with log := ⟨severity, text⟩ :: store.log }

/-- What happens to a store first is seen by all that happens then. -/
theorem modify_bind (change : Observed → Observed) (next : PUnit → Run α) :
    ((modify change : Run PUnit) >>= next) store = next ⟨⟩ (change store) := rfl

/-- The store may be looked at. -/
theorem get_bind (next : Observed → Run α) :
    ((get : Run Observed) >>= next) store = next store store := rfl

/-- A call of a kind that fails changes nothing. -/
theorem serve_of_fails {call : Call} {e : StoreError}
    (h : store.failures.lookup call.name = some e) :
    serve call store = .ok (.error e, store.served call store.memory) := by
  obtain ⟨memory, now, failures, calls, log⟩ := store
  change failures.lookup call.name = some e at h
  rw [serve, modify_bind, get_bind, h]
  rfl

/-- A call of a kind that does not fail is answered by the memory. -/
theorem serve_of_serves {call : Call} (h : store.failures.lookup call.name = none) :
    serve call store =
      match store.memory.serve store.now call with
      | .ok (answer, memory) => .ok (.ok answer, store.served call memory)
      | .error crash => .error crash := by
  obtain ⟨memory, now, failures, calls, log⟩ := store
  change failures.lookup call.name = none at h
  rw [serve, modify_bind, get_bind, h]
  change ((memory.serve now call >>= fun x =>
    Except.ok (x, Observed.mk memory now failures (call :: calls) log)) >>= fun x =>
      Except.ok (Except.ok x.1.1, Observed.mk x.1.2 now failures (call :: calls) log)) = _
  cases memory.serve now call <;> rfl

/-- Over a store of which no call fails, a call is answered by the memory. -/
theorem serve_eq (h : store.failures = []) (call : Call) :
    serve call store =
      match store.memory.serve store.now call with
      | .ok (answer, memory) => .ok (.ok answer, store.served call memory)
      | .error crash => .error crash :=
  serve_of_serves store (by rw [h]; rfl)

theorem perform_of (r : Except ε α) : perform (Action.of r) store = .ok (r, store) := rfl

/-- What comes after an action is performed over the store that it leaves, unless it fails. -/
theorem perform_bind (action : Action ε α) (next : α → Action ε β) :
    perform (action >>= next) store =
      match perform action store with
      | .ok (.ok x, after) => perform (next x) after
      | .ok (.error e, after) => .ok (.error e, after)
      | .error crash => .error crash := by
  change (Program.bind action.run (ExceptT.bindCont next)).run serve keep store = _
  rw [Program.run_bind]
  change (perform action store >>= fun x => (ExceptT.bindCont next x.1).run serve keep x.2) = _
  cases perform action store with
  | error crash => rfl
  | ok result =>
    obtain ⟨_ | x, after⟩ := result <;> rfl

/-- An action in two parts that comes to an end fails in the first part or comes to its end in the
second one. -/
theorem perform_bind_eq_ok {store : Observed} {action : Action ε α} {next : α → Action ε β}
    {answer : Except ε β} {last : Observed}
    (h : perform (action >>= next) store = .ok (answer, last)) :
    (∃ e, perform action store = .ok (.error e, last) ∧ answer = .error e) ∨
      ∃ x mid, perform action store = .ok (.ok x, mid) ∧
        perform (next x) mid = .ok (answer, last) := by
  rw [perform_bind] at h
  split at h
  · exact .inr ⟨_, _, ‹_›, h⟩
  · cases h
    exact .inl ⟨_, ‹_›, rfl⟩
  · cases h

/-- An action that begins with a decision ends with its error or goes on with its result. -/
theorem perform_of_bind_eq_ok {store : Observed} {decision : Except ε α}
    {next : α → Action ε β} {answer : Except ε β} {last : Observed}
    (h : perform (Action.of decision >>= next) store = .ok (answer, last)) :
    (∃ e, decision = .error e ∧ answer = .error e ∧ last = store) ∨
      ∃ x, decision = .ok x ∧ perform (next x) store = .ok (answer, last) := by
  rw [perform_bind, perform_of] at h
  cases decision with
  | error e =>
    cases h
    exact .inl ⟨e, rfl, rfl, rfl⟩
  | ok x => exact .inr ⟨x, rfl, h⟩

/-- An action whose outcome is taken as it is. -/
theorem perform_lift {ε' : Type} (action : Action ε α) :
    perform (liftM action.run : Action ε' (Except ε α)) store =
      match perform action store with
      | .ok (r, after) => .ok (.ok r, after)
      | .error crash => .error crash := by
  change (Program.bind action.run fun r => .done (Except.ok r)).run serve keep store = _
  rw [Program.run_bind]
  change (perform action store >>= fun x => _) = _
  cases perform action store <;> rfl

/-- An action that goes on with the outcome of another one, whatever it is, comes to its end after
that one. -/
theorem perform_lift_bind_eq_ok {ε' : Type} {store : Observed} {action : Action ε α}
    {next : Except ε α → Action ε' β} {answer : Except ε' β} {last : Observed}
    (h : perform ((liftM action.run : Action ε' (Except ε α)) >>= next) store =
      .ok (answer, last)) :
    ∃ outcome mid, perform action store = .ok (outcome, mid) ∧
      perform (next outcome) mid = .ok (answer, last) := by
  rw [perform_bind, perform_lift] at h
  cases haction : perform action store with
  | error crash =>
    rw [haction] at h
    cases h
  | ok result =>
    rw [haction] at h
    exact ⟨result.1, result.2, rfl, h⟩

/-- A call is answered by the memory. -/
theorem perform_ask (h : store.failures = []) (call : Call) (wrap : StoreError → ε) :
    perform (Action.ask call wrap) store =
      match store.memory.serve store.now call with
      | .ok (answer, memory) => .ok (.ok answer, store.served call memory)
      | .error crash => .error crash := by
  change (serve call store >>= fun x => _) = _
  rw [serve_eq store h]
  cases store.memory.serve store.now call <;> rfl

/-- A call that may fail is answered by the memory. -/
theorem perform_attempt (h : store.failures = []) (call : Call) :
    perform (Action.attempt call : Action ε _) store =
      match store.memory.serve store.now call with
      | .ok (answer, memory) => .ok (.ok (.ok answer), store.served call memory)
      | .error crash => .error crash := by
  change (serve call store >>= fun x => _) = _
  rw [serve_eq store h]
  cases store.memory.serve store.now call <;> rfl

/-- A call of a kind that fails changes nothing. Any other one is answered by the memory. -/
theorem serve_eq_ok {store next : Observed} {call : Call} {answer : Except StoreError call.Answer}
    (h : serve call store = .ok (answer, next)) :
    (∃ e, store.failures.lookup call.name = some e ∧ answer = .error e ∧
      next = store.served call store.memory) ∨
    (store.failures.lookup call.name = none ∧ ∃ found memory,
      store.memory.serve store.now call = .ok (found, memory) ∧ answer = .ok found ∧
        next = store.served call memory) := by
  cases hlookup : store.failures.lookup call.name with
  | some e =>
    rw [serve_of_fails store hlookup] at h
    cases h
    exact .inl ⟨e, rfl, rfl, rfl⟩
  | none =>
    rw [serve_of_serves store hlookup] at h
    cases hmemory : store.memory.serve store.now call with
    | error crash =>
      rw [hmemory] at h
      cases h
    | ok found =>
      rw [hmemory] at h
      cases h
      exact .inr ⟨rfl, _, _, rfl, rfl, rfl⟩

/-- A call whose failure ends the action ends as it is served. -/
theorem perform_ask_of_serve {store next : Observed} {call : Call}
    {outcome : Except StoreError call.Answer} (h : serve call store = .ok (outcome, next))
    (wrap : StoreError → ε) :
    perform (Action.ask call wrap) store = .ok (outcome.mapError wrap, next) := by
  change (serve call store >>= _) = _
  rw [h]
  rfl

/-- A call that stops the program stops the action. -/
theorem perform_ask_of_crash {store : Observed} {call : Call} {crash : Crash}
    (h : serve call store = .error crash) (wrap : StoreError → ε) :
    perform (Action.ask call wrap) store = .error crash := by
  change (serve call store >>= _) = _
  rw [h]
  rfl

/-- A call that may fail ends as it is served. -/
theorem perform_attempt_of_serve {store next : Observed} {call : Call}
    {outcome : Except StoreError call.Answer} (h : serve call store = .ok (outcome, next)) :
    perform (Action.attempt call : Action ε _) store = .ok (.ok outcome, next) := by
  change (serve call store >>= _) = _
  rw [h]
  rfl

/-- A call whose failure ends the action is served. -/
theorem perform_ask_eq_ok {store next : Observed} {call : Call} {wrap : StoreError → ε}
    {answer : Except ε call.Answer}
    (h : perform (Action.ask call wrap) store = .ok (answer, next)) :
    ∃ outcome, serve call store = .ok (outcome, next) ∧ answer = outcome.mapError wrap := by
  change (serve call store >>= _) = _ at h
  cases hserve : serve call store with
  | error crash =>
    rw [hserve] at h
    cases h
  | ok outcome =>
    rw [hserve] at h
    cases h
    exact ⟨_, rfl, rfl⟩

/-- A call that may fail is served. -/
theorem perform_attempt_eq_ok {store next : Observed} {call : Call}
    {answer : Except ε (Except StoreError call.Answer)}
    (h : perform (Action.attempt call) store = .ok (answer, next)) :
    ∃ outcome, serve call store = .ok (outcome, next) ∧ answer = .ok outcome := by
  change (serve call store >>= _) = _ at h
  cases hserve : serve call store with
  | error crash =>
    rw [hserve] at h
    cases h
  | ok outcome =>
    rw [hserve] at h
    cases h
    exact ⟨_, rfl, rfl⟩

end Observed
end Turnstile.Store
