import Turnstile.LogLine
import Turnstile.Store.Call

/-!
# Programs over the store

An operation on sessions is a tree of the store calls it makes, one after another, with
the log lines it writes in between. It does not say who serves the calls: a program runs
in any monad that can answer them, and two programs may be interleaved call by call.
-/

namespace Turnstile.Store

/-- A program that makes store calls and yields a value. -/
inductive Program (α : Type) : Type
  | done (a : α)
  | ask (call : Call) (next : Except StoreError call.Answer → Program α)
  | tell (line : LogLine) (next : Program α)

namespace Program

variable {α β : Type}

/-- The program that goes on with another one. -/
def bind (p : Program α) (f : α → Program β) : Program β :=
  match p with
  | .done a => f a
  | .ask call next => .ask call fun answer => (next answer).bind f
  | .tell line next => .tell line (next.bind f)

instance : Monad Program where
  pure := .done
  bind := .bind

@[simp] theorem pure_eq (a : α) : (pure a : Program α) = .done a := rfl

@[simp] theorem bind_eq (p : Program α) (f : α → Program β) : p >>= f = p.bind f := rfl

@[simp] theorem done_bind (a : α) (f : α → Program β) : (Program.done a).bind f = f a := rfl

@[simp] theorem ask_bind (call : Call) (next : Except StoreError call.Answer → Program α)
    (f : α → Program β) :
    (Program.ask call next).bind f = .ask call fun answer => (next answer).bind f := rfl

@[simp] theorem tell_bind (line : LogLine) (next : Program α) (f : α → Program β) :
    (Program.tell line next).bind f = .tell line (next.bind f) := rfl

/-- Going on with nothing changes nothing. -/
theorem bind_done (p : Program α) : p.bind .done = p := by
  induction p with
  | done => rfl
  | ask call next ih => simp [ih]
  | tell line next ih => simp [ih]

/-- It does not matter how a sequence of programs is grouped. -/
theorem bind_assoc {γ : Type} (p : Program α) (f : α → Program β) (g : β → Program γ) :
    (p.bind f).bind g = p.bind fun a => (f a).bind g := by
  induction p with
  | done => rfl
  | ask call next ih => simp [ih]
  | tell line next ih => simp [ih]

instance : LawfulMonad Program := LawfulMonad.mk' Program bind_done (fun _ _ => rfl) bind_assoc

/-- Runs a program where calls can be served and lines be logged. -/
def run {m : Type → Type} [Monad m]
    (serve : (call : Call) → m (Except StoreError call.Answer)) (log : LogLine → m Unit) :
    Program α → m α
  | .done a => pure a
  | .ask call next => do (next (← serve call)).run serve log
  | .tell line next => do
    log line
    next.run serve log

end Program

/-- A program that may end in an error. -/
abbrev Action (ε : Type) := ExceptT ε Program

namespace Action

variable {ε : Type} {α : Type}

/-- Goes on with a result or its error. -/
def of (r : Except ε α) : Action ε α := ExceptT.mk (.done r)

/-- Makes a call, whose failure ends the program. -/
def ask (call : Call) (wrap : StoreError → ε) : Action ε call.Answer :=
  ExceptT.mk (.ask call fun answer => .done (answer.mapError wrap))

/-- Makes a call and goes on whether it fails or not. -/
def attempt (call : Call) : Action ε (Except StoreError call.Answer) :=
  ExceptT.mk (.ask call fun answer => .done (.ok answer))

/-- Writes a log line. -/
def tell (severity : Severity) (text : String) : Action ε Unit :=
  ExceptT.mk (.tell ⟨severity, text⟩ (.done (.ok ())))

end Action
end Turnstile.Store
