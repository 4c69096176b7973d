import Mathlib.Logic.Function.Basic
import Turnstile.Guard.Call
import Turnstile.Proofs.Lock.Events

/-!
# Guarded calls in any order

Calls that share one waiting room, each in the middle of its own course. Every step is one
that cannot be divided: the clock goes on, a call carries out the next of its effects, a
waiter looks or gives up, an operation ends, a call is dropped, a release goes through.
Which of the steps that are possible comes next is left open. A step reads the clock
before it gets to the room, so the instant that it works with may have passed.

Nothing is said of the log, for no step depends on it.
-/

namespace Turnstile.Guard

open Lock (LockToken Room Owner)

/-- What is called: an operation with its arguments, behind an interceptor. -/
structure Invocation where
  interceptor : Interceptor
  spec : Spec
  arguments : List Key.Argument

namespace Invocation

variable (invocation : Invocation)

/-- The key of the call. -/
def key : Except Key.KeyError String :=
  invocation.interceptor.deriveKey invocation.spec invocation.arguments

/-- How the lock of the call is to be taken. -/
def plan : Except Key.KeyError Plan :=
  invocation.interceptor.plan invocation.spec invocation.arguments

/-- A plan is made for the key of the call. -/
theorem key_of_plan {invocation : Invocation} {plan : Plan} (h : invocation.plan = .ok plan) :
    invocation.key = .ok plan.key := by
  simp only [Invocation.plan, Interceptor.plan] at h
  simp only [key]
  cases hkey : invocation.interceptor.deriveKey invocation.spec invocation.arguments with
  | error e =>
    rw [hkey] at h
    cases h
  | ok key =>
    rw [hkey] at h
    cases h
    rfl

end Invocation

variable {ι τ ε : Type}

/-- A call on its way. -/
structure Passage (τ ε : Type) where
  phase : CallPhase τ ε
  /-- What it wants done before anything else happens to it. -/
  todo : List Effect
  /-- Whether its operation is running. -/
  isRunning : Bool
  /-- When the lease that it was let in with lapses, if it does. -/
  lapsesAt : Option Instant

namespace Passage

variable (passage : Passage τ ε)

/-- A call that begins. -/
def start (plan : Except Key.KeyError Plan) : Passage τ ε where
  phase := (CallPhase.start plan).1
  todo := (CallPhase.start (τ := τ) (ε := ε) plan).2
  isRunning := false
  lapsesAt := none

/-- The call after something has happened to it. -/
def react (event : Event τ ε) : Passage τ ε :=
  { passage with
    phase := (passage.phase.react event).1
    todo := passage.todo ++ (passage.phase.react event).2 }

/-- The call after it has taken its lock. -/
def enter (now : Instant) (token : LockToken) (lease : Option Duration) : Passage τ ε :=
  { passage.react (.acquired (.ok (some token))) with lapsesAt := lease.map (now + ·) }

end Passage

/-- A waiting room with a clock and the calls around it. -/
structure Scene (ι τ ε : Type) where
  clock : Instant
  room : Room
  /-- The calls that have begun. -/
  calls : ι → Option (Passage τ ε)
  /-- The tokens whose locks are to be freed by tasks of their own. -/
  detached : List LockToken
  /-- The keys whose locks have been freed by force. -/
  forced : List String

namespace Scene

variable [DecidableEq ι] (scene : Scene ι τ ε)

/-- An empty room before any call. -/
def start : Scene ι τ ε := ⟨0, .empty, fun _ => none, [], []⟩

/-- The scene with a call as it is now. -/
def put (i : ι) (passage : Passage τ ε) : Scene ι τ ε :=
  { scene with calls := Function.update scene.calls i (some passage) }

/-- Carries out an effect for a call that has nothing else to do before the rest of its effects.
A release is only sent on its way. -/
def carryOut (now : Instant) (i : ι) (owner : Owner) (passage : Passage τ ε) :
    Effect → Scene ι τ ε
  | .log _ | .release _ | .abandonRelease => scene.put i passage
  | .tryAcquire key lease =>
    let (answer, room) := scene.room.tryAcquire now ⟨key, owner⟩ lease
    let passage := match answer with
      | .ok true => passage.enter now ⟨key, owner⟩ lease
      | .ok false => passage.react (.acquired (.ok none))
      | .error _ => passage.react .crashed
    { scene with room }.put i passage
  | .acquire key kind wait lease =>
    match scene.room.enter now ⟨key, owner⟩ kind wait lease with
    | .ok room => { scene with room }.put i passage
    | .error _ => scene.put i (passage.react .crashed)
  | .abandonAcquire => { scene with room := scene.room.leave owner }.put i passage
  | .startOperation => scene.put i { passage with isRunning := true }
  | .dropOperation => scene.put i { passage with isRunning := false }
  | .detachRelease token => { scene with detached := token :: scene.detached }.put i passage

/-- The scene after a call has looked at its slot. -/
def look (now : Instant) (i : ι) (passage : Passage τ ε) (waiter : Lock.Waiter) : Scene ι τ ε :=
  let (outcome, room) := scene.room.look now waiter.token.owner
  let passage := match outcome with
    | .admitted => passage.enter now waiter.token waiter.lease
    | .crashes _ => passage.react .crashed
    | .waits | .givesUp | .gone => passage
  { scene with room }.put i passage

/-- The scene after a release of a call has reached the locks. -/
def release (now : Instant) (i : ι) (passage : Passage τ ε) (token : LockToken) : Scene ι τ ε :=
  let (released, room) := scene.room.release now token
  { scene with room }.put i (passage.react (.released (.ok released)))

/-- Whether the operation of a call with a key is running. -/
def Runs (invocations : ι → Invocation) (i : ι) (key : String) : Prop :=
  (invocations i).key = .ok key ∧ ∃ passage, scene.calls i = some passage ∧ passage.isRunning = true

/-- Whether the lease that a call was let in with has not lapsed. -/
def InTime (i : ι) : Prop :=
  ∀ passage, scene.calls i = some passage → ∀ expiry ∈ passage.lapsesAt, scene.clock < expiry

end Scene

/-- The steps that are possible in a scene. -/
inductive Scene.Step [DecidableEq ι] (owners : ι → Owner) (invocations : ι → Invocation)
    (scene : Scene ι τ ε) : Scene ι τ ε → Prop
  /-- Time passes. -/
  | wait (span : Duration) :
      Step owners invocations scene { scene with clock := scene.clock + span }
  /-- A call begins. -/
  | begin {i : ι} (hi : scene.calls i = none) :
      Step owners invocations scene (scene.put i (.start (invocations i).plan))
  /-- A call carries out the first of its effects. -/
  | carryOut {i : ι} {now : Instant} {passage : Passage τ ε} {effect : Effect} {rest : List Effect}
      (hi : scene.calls i = some passage) (hnow : now ≤ scene.clock)
      (htodo : passage.todo = effect :: rest) :
      Step owners invocations scene
        (scene.carryOut now i (owners i) { passage with todo := rest } effect)
  /-- A call that waits looks at its slot. -/
  | look {i : ι} {now : Instant} {passage : Passage τ ε} {plan : Plan} {waiter : Lock.Waiter}
      (hi : scene.calls i = some passage) (hnow : now ≤ scene.clock) (htodo : passage.todo = [])
      (hphase : passage.phase = .acquiring plan)
      (hwaiter : scene.room.waiter? (owners i) = some waiter) :
      Step owners invocations scene (scene.look now i passage waiter)
  /-- A call whose time is over gives up. -/
  | giveUp {i : ι} {passage : Passage τ ε} {plan : Plan} {waiter : Lock.Waiter}
      (hi : scene.calls i = some passage) (htodo : passage.todo = [])
      (hphase : passage.phase = .acquiring plan)
      (hwaiter : scene.room.waiter? (owners i) = some waiter) (hleaving : waiter.leaving = true) :
      Step owners invocations scene
        ({ scene with room := scene.room.leave (owners i) }.put i
          (passage.react (.acquired (.ok none))))
  /-- An operation ends. -/
  | finish {i : ι} {passage : Passage τ ε} {event : Event τ ε}
      (hi : scene.calls i = some passage) (htodo : passage.todo = [])
      (hrunning : passage.isRunning = true)
      (hevent : event = .panicked ∨ ∃ outcome, event = .ended outcome) :
      Step owners invocations scene (scene.put i { passage.react event with isRunning := false })
  /-- A call is dropped while it waits for something. -/
  | drop {i : ι} {passage : Passage τ ε}
      (hi : scene.calls i = some passage) (htodo : passage.todo = []) :
      Step owners invocations scene (scene.put i (passage.react .dropped))
  /-- The release of a call reaches the locks. -/
  | release {i : ι} {now : Instant} {passage : Passage τ ε} {token : LockToken}
      {outcome : Except ε τ} (hi : scene.calls i = some passage) (hnow : now ≤ scene.clock)
      (htodo : passage.todo = []) (hphase : passage.phase = .releasing token outcome) :
      Step owners invocations scene (scene.release now i passage token)
  /-- A task of its own frees a lock. -/
  | free {now : Instant} {token : LockToken} (hnow : now ≤ scene.clock)
      (htoken : token ∈ scene.detached) :
      Step owners invocations scene
        { scene with
          room := (scene.room.release now token).2, detached := scene.detached.erase token }
  /-- Somebody frees a lock by force. -/
  | force (key : String) :
      Step owners invocations scene
        { scene with room := (scene.room.forceRelease key).2, forced := key :: scene.forced }
  /-- Somebody asks whether a lock has a holder. -/
  | probe {now : Instant} (hnow : now ≤ scene.clock) (key : String) :
      Step owners invocations scene { scene with room := (scene.room.isHeld now key).2 }

/-- The scenes that steps lead to. -/
inductive Scene.Reachable [DecidableEq ι] (owners : ι → Owner) (invocations : ι → Invocation) :
    Scene ι τ ε → Prop
  | start : Reachable owners invocations .start
  | step {scene next : Scene ι τ ε} (reachable : Reachable owners invocations scene)
      (step : Step owners invocations scene next) : Reachable owners invocations next

end Turnstile.Guard
