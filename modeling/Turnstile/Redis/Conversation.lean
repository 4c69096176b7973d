import Turnstile.Redis.Script

/-!
# Conversations with a server

What a caller says to a server is a tree: each command is followed by what is done with
the reply. Every conversation ends after finitely many commands.
-/

namespace Turnstile.Redis

/-- Commands that are sent one after another, and the value or error at their end. -/
inductive Conversation (α : Type) : Type
  | done (result : Except RedisError α)
  | send (command : Command) (next : Except RedisError Reply → Conversation α)

namespace Conversation

variable {α β : Type}

/-- The conversation that goes on with another one unless it fails. -/
def bind : Conversation α → (α → Conversation β) → Conversation β
  | .done (.ok a), f => f a
  | .done (.error e), _ => .done (.error e)
  | .send command next, f => .send command fun reply => (next reply).bind f

instance : Monad Conversation where
  pure a := .done (.ok a)
  bind := .bind

/-- Going on with nothing changes nothing. -/
theorem bind_pure (c : Conversation α) : c.bind (fun a => .done (.ok a)) = c := by
  induction c with
  | done result => cases result <;> rfl
  | send command next ih => simp [bind, ih]

/-- It does not matter how a sequence of conversations is grouped. -/
theorem bind_assoc {γ : Type} (c : Conversation α) (f : α → Conversation β)
    (g : β → Conversation γ) : (c.bind f).bind g = c.bind fun a => (f a).bind g := by
  induction c with
  | done result => cases result <;> rfl
  | send command next ih => simp [bind, ih]

instance : LawfulMonad Conversation :=
  LawfulMonad.mk' Conversation bind_pure (fun _ _ => rfl) bind_assoc

/-- Sends a command and reads its reply. -/
def ask (command : Command) (read : Reply → Except RedisError α) : Conversation α :=
  .send command fun reply => .done (reply.bind read)

/-- Calls a script. If the server does not know it, it is made known and called once more. -/
def call (script : ScriptCall) (read : Reply → Except RedisError α) : Conversation α :=
  .send script.evaluate fun reply =>
    match reply.bind read with
    | .error (.server code detail) =>
      if code = noScript then .bind (ask script.load Reply.done) fun _ => ask script.evaluate read
      else .done (.error (.server code detail))
    | result => .done result

/-- Holds a conversation where commands are answered. -/
def run {m : Type → Type} [Monad m] (answer : Command → m (Except RedisError Reply)) :
    Conversation α → m (Except RedisError α)
  | .done result => pure result
  | .send command next => do (next (← answer command)).run answer

end Conversation
end Turnstile.Redis
