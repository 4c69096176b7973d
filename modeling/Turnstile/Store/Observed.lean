import Turnstile.Store.Memory
import Turnstile.Store.Program

/-!
# A store under observation

A store in memory that keeps the calls made to it and the lines logged beside them. Each
kind of call can be made to fail; a call that fails is kept like any other and changes
nothing. Time passes only between operations.
-/

namespace Turnstile.Store

/-- A store in memory with what has been observed of it. -/
structure Observed where
  memory : Memory
  now : Instant
  /-- How calls fail that do, by their names. -/
  failures : List (String × StoreError)
  /-- The calls that were made, the latest first. -/
  calls : List Call
  /-- The lines that were logged, the latest first. -/
  log : List LogLine

namespace Observed

/-- A store without entries at the beginning of time, of which no call fails. -/
def start : Observed := ⟨.empty, 0, [], [], []⟩

/-- What happens to a store under observation. -/
abbrev Run := StateT Observed (Except Crash)

/-- Serves a call. -/
def serve (call : Call) : Run (Except StoreError call.Answer) := do
  modify fun store => { store with calls := call :: store.calls }
  let store ← get
  match store.failures.lookup call.name with
  | some error => return .error error
  | none =>
    let (answer, memory) ← store.memory.serve store.now call
    set { store with memory }
    return .ok answer

/-- Keeps a logged line. -/
def keep (line : LogLine) : Run Unit :=
  modify fun store => { store with log := line :: store.log }

/-- Performs an operation over the store. -/
def perform {ε α : Type} (action : Action ε α) : Run (Except ε α) :=
  (action.run : Program _).run serve keep

/-- Lets time pass. -/
def wait (span : Duration) : Run Unit :=
  modify fun store => { store with now := store.now + span }

/-- The number of live entries. -/
def liveCount (store : Observed) : Nat := store.memory.liveCount store.now

end Observed
end Turnstile.Store
