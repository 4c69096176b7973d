import Turnstile.Proofs.Text.Readers
import Turnstile.Proofs.Token.Comparison
import Turnstile.Redis.Acquire

/-!
# What a lock client says

A conversation may send only so many different commands, whatever it is answered. A lock client that
asks for a lock says nothing but what asks for it, and one that gives up its place nothing but what
gives it up. All of it names the owner, except that a script which the server does not know is
loaded first.
-/

namespace Turnstile.Redis

open Lock (LockToken Kind)

/-! ## Conversations -/

namespace Conversation

variable {α β : Type} {P Q : Command → Prop}

/-- Whatever a conversation is answered, all that it sends has a property. -/
inductive Says (P : Command → Prop) : Conversation α → Prop
  | done (result : Except RedisError α) : Says P (.done result)
  | send {command : Command} {next : Except RedisError Reply → Conversation α}
      (hcommand : P command) (hnext : ∀ reply, Says P (next reply)) : Says P (.send command next)

/-- What is sent has whatever its property entails. -/
theorem Says.mono {c : Conversation α} (h : c.Says P) (hPQ : ∀ command, P command → Q command) :
    c.Says Q := by
  induction h with
  | done result => exact .done result
  | send hcommand _ ih => exact .send (hPQ _ hcommand) ih

/-- What a conversation says that goes on with another one. -/
theorem Says.bind {c : Conversation α} {f : α → Conversation β} (h : c.Says P)
    (hf : ∀ a, (f a).Says P) : (c.bind f).Says P := by
  induction h with
  | done result =>
    cases result with
    | ok a => exact hf a
    | error e => exact .done _
  | send hcommand _ ih => exact .send hcommand ih

/-- A command that is asked is all that is said. -/
theorem says_ask {command : Command} {read : Reply → Except RedisError α} (h : P command) :
    (ask command read).Says P := .send h fun _ => .done _

/-- A script is called, and perhaps loaded. -/
theorem says_call {script : ScriptCall} {read : Reply → Except RedisError α}
    (hcall : P script.evaluate) (hload : P script.load) : (call script read).Says P := by
  refine .send hcall fun reply => ?_
  split
  · split
    · exact (says_ask hload).bind fun _ => says_ask hcall
    · exact .done _
  · exact .done _

/-- What comes of a conversation whose commands are answered in turn, and the commands. The number
of commands that have been sent before tells which answers it is given. -/
def exchange (replies : Nat → Except RedisError Reply) :
    Conversation α → Nat → Except RedisError α × List Command
  | .done result, _ => (result, [])
  | .send command next, before =>
    let (result, commands) := exchange replies (next (replies (before + 1))) (before + 1)
    (result, command :: commands)

/-- The server never says that it does not know a script. -/
def KnowsScripts (replies : Nat → Except RedisError Reply) : Prop :=
  ∀ n detail, (replies n).bind Reply.integer? ≠ .error (.server noScript detail)

/-- A script that the server knows is called once. -/
theorem exchange_call {script : ScriptCall} {read : Int → α}
    {replies : Nat → Except RedisError Reply} (hknown : KnowsScripts replies) (before : Nat) :
    ((call script fun reply => do return read (← reply.integer?)).exchange replies before).2 =
      [script.evaluate] := by
  have hread (detail : Option String) : ((replies (before + 1)).bind fun reply => do
      return read (← reply.integer?)) ≠ .error (.server noScript detail) := by
    intro herror
    refine hknown (before + 1) detail ?_
    cases hreply : replies (before + 1) with
    | error e =>
      rw [hreply] at herror
      exact congrArg Except.error (Except.error.inj herror)
    | ok reply =>
      rw [hreply] at herror
      exact Text.bind_pure_eq_error_iff.1 herror
  rw [call, exchange]
  generalize (replies (before + 1)).bind _ = result at hread ⊢
  cases result with
  | ok a => rfl
  | error e =>
    cases e with
    | server code detail =>
      have hcode : code ≠ noScript := by
        rintro rfl
        exact hread detail rfl
      simp only [if_neg hcode, exchange]
    | _ => rfl

/-- A script that the server does not know is loaded and called once more. -/
theorem exchange_call_of_unknown {script : ScriptCall} {read : Reply → Except RedisError α}
    {replies : Nat → Except RedisError Reply} {before : Nat} {detail : Option String}
    (hunknown : (replies (before + 1)).bind read = .error (.server noScript detail))
    (hloaded : (replies (before + 2)).bind Reply.done = .ok ()) :
    (call script read).exchange replies before =
      ((replies (before + 3)).bind read, [script.evaluate, script.load, script.evaluate]) := by
  rw [call, exchange, hunknown]
  dsimp only
  rw [if_pos rfl, ask, bind, exchange, hloaded]
  rfl

end Conversation

/-! ## Commands for a lock -/

namespace Acquire

variable (acquire : Acquire)

/-- The command with which an attempt begins. -/
def asking : Command :=
  match acquire.kind with
  | .exclusive => .ofTexts (["SET", acquire.client.lockKey acquire.token.key, acquire.token.owner,
      "NX"] ++ match acquire.lease with
        | some lease => ["PX", toString (wireMillis lease)]
        | none => [])
  | .fair => (acquire.client.fairAttempt acquire.token acquire.lease).evaluate

/-- The command with which a waiter gives up its place. -/
def quitting : Command := (acquire.client.fairCancel acquire.token).evaluate

/-- A waiter gives up its place under the names of the list and of the heartbeats of its lock, and
under its own name. -/
theorem quitting_eq : acquire.quitting = .ofTexts ["EVALSHA",
    (acquire.client.fairCancel acquire.token).digest, "2",
    acquire.client.queueKey acquire.token.key, acquire.client.waitersKey acquire.token.key,
    acquire.token.owner] := by
  have hkeys : (acquire.client.fairCancel acquire.token).keys.length = 2 := rfl
  rw [quitting, ScriptCall.evaluate, hkeys]
  rfl

/-- A command asks for the lock, or loads the script that does. -/
def Asks (command : Command) : Prop :=
  command = acquire.asking ∨
    acquire.kind = .fair ∧
      command = (acquire.client.fairAttempt acquire.token acquire.lease).load

/-- A command gives up the waiter's place, or loads the script that does. -/
def Quits (command : Command) : Prop :=
  command = acquire.quitting ∨ command = (acquire.client.fairCancel acquire.token).load

/-- An attempt says nothing but what asks for the lock. -/
theorem says_attempt :
    (acquire.client.attempt acquire.kind acquire.token acquire.lease).Says acquire.Asks := by
  obtain ⟨client, token, kind, lease, deadline⟩ := acquire
  cases kind with
  | exclusive => exact Conversation.says_ask (.inl rfl)
  | fair => exact Conversation.says_call (.inl rfl) (.inr ⟨rfl, rfl⟩)

/-- A cancellation says nothing but what gives up the place. -/
theorem says_cancel : (acquire.client.cancel acquire.token).Says acquire.Quits :=
  Conversation.says_call (.inl rfl) (.inr rfl)

/-- An attempt is one command, if it calls no script or the server knows it. -/
theorem exchange_attempt {replies : Nat → Except RedisError Reply}
    (hknown : acquire.kind = .fair → Conversation.KnowsScripts replies) (before : Nat) :
    ((acquire.client.attempt acquire.kind acquire.token acquire.lease).exchange replies before).2 =
      [acquire.asking] := by
  rw [asking]
  cases hkind : acquire.kind with
  | exclusive => rfl
  | fair => exact Conversation.exchange_call (hknown hkind) before

/-- A cancellation is one command, if the server knows its script. -/
theorem exchange_cancel {replies : Nat → Except RedisError Reply}
    (hknown : Conversation.KnowsScripts replies) (before : Nat) :
    ((acquire.client.cancel acquire.token).exchange replies before).2 = [acquire.quitting] :=
  Conversation.exchange_call hknown before

/-- The first thing that a cancellation says gives up the place. -/
theorem exists_cancel_eq : ∃ next, acquire.client.cancel acquire.token =
    .send acquire.quitting next ∧ ∀ reply, (next reply).Says acquire.Quits := by
  cases acquire.says_cancel with
  | send _ hnext => exact ⟨_, rfl, hnext⟩

/-! ## Telling them apart -/

/-- A command that takes a waiter out of line, whoever it is. -/
def Cancels (command : Command) : Prop :=
  ∃ token, command = (acquire.client.fairCancel token).evaluate

/-- Commands differ that differ in one of their parts. -/
theorem ofTexts_ne {parts parts' : List String} {i : Nat} (h : parts[i]? ≠ parts'[i]?) :
    Command.ofTexts parts ≠ Command.ofTexts parts' := by
  intro heq
  refine h ?_
  have hpart := congrArg (·[i]?) heq
  simp only [Command.ofTexts, List.getElem?_map] at hpart
  exact Option.map_injective (fun _ _ => Bytes.ofText_inj.1) hpart

/-- The parts of a command are its texts. -/
theorem mem_ofTexts {text : String} {parts : List String} :
    Bytes.ofText text ∈ Command.ofTexts parts ↔ text ∈ parts := by
  simp only [Command.ofTexts, List.mem_map, Bytes.ofText_inj, exists_eq_right]

/-- The calls that ask and those that give up differ in their numbers of keys. -/
theorem evaluate_ne (token token' : LockToken) (lease : Option Duration) :
    (acquire.client.fairCancel token).evaluate ≠
      (acquire.client.fairAttempt token' lease).evaluate := by
  refine @ofTexts_ne _ _ 2 fun heq => ?_
  have hnumbers : toString 2 = toString 3 := Option.some.inj heq
  exact absurd hnumbers (by decide)

/-- To ask for a lock is not to take anybody out of line. -/
theorem not_cancels_of_asks {command : Command} (h : acquire.Asks command) :
    ¬acquire.Cancels command := by
  rintro ⟨token, rfl⟩
  rcases h with h | ⟨-, h⟩
  · rw [asking] at h
    split at h
    · exact @ofTexts_ne _ _ 0 (by simp) h
    · exact acquire.evaluate_ne _ _ _ h
  · exact @ofTexts_ne _ _ 0 (by simp) h

/-- To give up a place is not to ask for the lock. -/
theorem not_asks_of_quits {command : Command} (hkind : acquire.kind = .fair)
    (h : acquire.Quits command) : ¬acquire.Asks command := by
  have hscripts : fairCancelScript ≠ fairAcquireScript := by
    simp [fairCancelScript, fairAcquireScript]
  rw [Asks, asking, hkind]
  rcases h with rfl | rfl
  · rintro (h | ⟨-, h⟩)
    · exact acquire.evaluate_ne _ _ _ h
    · exact @ofTexts_ne _ _ 0 (by simp) h
  · rintro (h | ⟨-, h⟩)
    · exact @ofTexts_ne _ _ 0 (by simp) h
    · exact @ofTexts_ne _ _ 2 (fun heq => hscripts (Option.some.inj heq)) h

/-- Whether a command names an owner, or is one that loads a script. -/
def Owned (owner : Lock.Owner) (command : Command) : Prop :=
  Bytes.ofText owner ∈ command ∨ ∃ call : ScriptCall, command = call.load

/-- Whatever asks for the lock names its owner, unless it only loads a script. -/
theorem owned_of_asks {command : Command} (h : acquire.Asks command) :
    Owned acquire.token.owner command := by
  rcases h with rfl | ⟨-, rfl⟩
  · left
    rw [asking]
    split <;> simp [mem_ofTexts, LockClient.fairAttempt, ScriptCall.evaluate]
  · exact .inr ⟨_, rfl⟩

/-- Whatever gives up a place names its owner, unless it only loads a script. -/
theorem owned_of_quits {command : Command} (h : acquire.Quits command) :
    Owned acquire.token.owner command := by
  rcases h with rfl | rfl
  · left
    simp [quitting_eq, mem_ofTexts]
  · exact .inr ⟨_, rfl⟩

end Acquire
end Turnstile.Redis
