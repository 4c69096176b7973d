import Turnstile.Agenda
import Turnstile.Guard.Call
import Turnstile.Lock.Room

/-!
# Guarded calls in time

Calls, locks held without a call, and releases that go on by themselves, as jobs over one
waiting room with a clock. Operations take the time that is laid down for them, and every
job goes on as soon as it can: the course of events in which nothing is left open. What
is told of each job is kept with its instant, next to the log.
-/

namespace Turnstile.Guard

open Lock (LockToken LockError Room Owner)

/-- A call to the lock client. -/
inductive ClientCall
  | tryAcquire
  | acquire
  | release
  deriving DecidableEq, Repr

/-- The name of a call to the lock client. -/
def ClientCall.name : ClientCall → String
  | .tryAcquire => "try_acquire"
  | .acquire => "acquire"
  | .release => "release"

/-- The call of a name. -/
def ClientCall.ofName? (name : String) : Option ClientCall :=
  [.tryAcquire, .acquire, .release].find? fun call : ClientCall => call.name == name

/-- The failure of a call that is refused. -/
def ClientCall.refusal (call : ClientCall) : LockError := .unavailable (call.name ++ " refused")

/-- How the lock client behaves: how long a release takes to reach the locks, and which calls are
refused. -/
structure Service where
  releaseDelay : Duration
  refused : List ClientCall
  deriving DecidableEq, Repr

variable {τ ε : Type}

/-- How an operation ends. -/
inductive OperationEnd (τ ε : Type)
  | outcome (r : Except ε τ)
  | panic

/-- How long an operation takes, and how it ends. -/
structure Operation (τ ε : Type) where
  span : Duration
  ending : OperationEnd τ ε

/-- What happens to the call when its operation ends. -/
def Operation.event (operation : Operation τ ε) : Event τ ε :=
  match operation.ending with
  | .outcome r => .ended r
  | .panic => .panicked

/-- What is told of a job. -/
inductive Tidings (τ ε : Type)
  /-- The operation of a call has begun. -/
  | entered
  /-- A call has ended. -/
  | called (ending : CallEnd τ ε)
  /-- A lock has been taken, or not. -/
  | held (result : Except (GuardError ε) LockToken)
  /-- The lock client has crashed instead. -/
  | crashed
  /-- A lock has been freed, or was not held any more. -/
  | freed (released : Bool)

/-- Something that goes on in time. -/
inductive Job (τ ε : Type)
  | call (phase : CallPhase τ ε) (operation : Operation τ ε)
  | hold (plan : Plan)
  | free (token : LockToken)

/-- What becomes of a job when something happens to it: how it goes on, if it does, what it wants
done, and what is told of it. -/
def Job.react (job : Job τ ε) (event : Event τ ε) :
    Option (Job τ ε) × List Effect × List (Tidings τ ε) :=
  match job, event with
  | .call phase operation, event =>
    match phase.react event with
    | (.over ending, effects) => (none, effects, [.called ending])
    | (phase, effects) => (some (.call phase operation), effects, [])
  | .hold plan, .acquired answer =>
    let (result, lines) := plan.conclude answer
    (none, lines.map .log, [.held result])
  | .hold _, .crashed => (none, [], [.crashed])
  | .free token, .released answer =>
    let (released, lines) := Release.conclude token answer
    (none, lines.map .log, [.freed released])
  | .hold _, .dropped => (none, [.abandonAcquire], [])
  | .free _, .dropped => (none, [.abandonRelease], [])
  | job, _ => (some job, [], [])

/-- Identifies a job. -/
abbrev JobId := Nat

/-- A job with what it still wants done at its first turn and what it waits for. -/
structure Task (τ ε : Type) where
  id : JobId
  job : Job τ ε
  todo : List Effect
  /-- Its place in the waiting room. -/
  waiter : Option LockToken
  /-- When it goes on: its operation ends, or its release reaches the locks. -/
  resumeAt : Option Instant

/-- A waiting room with the jobs around it, and what has been told and logged, the latest first. -/
structure Floor (τ ε : Type) where
  room : Room
  service : Service
  tasks : List (Task τ ε)
  /-- How many owner names have been given out. -/
  owners : Nat
  /-- How many jobs there have been. -/
  jobs : Nat
  news : List (JobId × Instant × Tidings τ ε)
  log : List LogLine

namespace Floor

variable (floor : Floor τ ε)

/-- The task of a job that has not ended. -/
def task? (id : JobId) : Option (Task τ ε) := floor.tasks.find? (·.id = id)

/-- The floor with a task as it is now. -/
def put (task : Task τ ε) : Floor τ ε :=
  { floor with tasks := task :: floor.tasks.filter (·.id != task.id) }

/-- The floor without a task. -/
def remove (id : JobId) : Floor τ ε := { floor with tasks := floor.tasks.filter (·.id != id) }

/-- Keeps what is told of a job. -/
def tell (now : Instant) (id : JobId) (tidings : List (Tidings τ ε)) : Floor τ ε :=
  { floor with news := (tidings.map (id, now, ·)).reverse ++ floor.news }

/-- A new name for the acquisition of a lock. -/
def freshToken (key : String) : LockToken × Floor τ ε :=
  (⟨key, toString floor.owners⟩, { floor with owners := floor.owners + 1 })

/-- Adds a job that has not had a turn yet. -/
def add (job : Job τ ε) (todo : List Effect) : JobId × Floor τ ε :=
  (floor.jobs, { floor.put ⟨floor.jobs, job, todo, none, none⟩ with jobs := floor.jobs + 1 })

/-- Frees a lock, if the lock client lets it. -/
def release (now : Instant) (token : LockToken) : Except LockError Bool × Floor τ ε :=
  if floor.service.refused.contains .release then (.error ClientCall.release.refusal, floor)
  else
    let (released, room) := floor.room.release now token
    (.ok released, { floor with room })

end Floor

/-- A task in the middle of its turn: the floor, the task, what has happened to it at once, and the
jobs it has started. -/
structure Step (τ ε : Type) where
  floor : Floor τ ε
  task : Task τ ε
  event : Option (Event τ ε)
  started : List JobId

namespace Step

variable (step : Step τ ε) (now : Instant)

/-- Lets the task look at the lock it waits for. -/
def look (token : LockToken) : Step τ ε :=
  match step.floor.room.look now token.owner with
  | (.waits, room) => { step with
      floor := { step.floor with room }, task := { step.task with waiter := some token } }
  | (.admitted, room) => { step with
      floor := { step.floor with room }, task := { step.task with waiter := none }
      event := some (.acquired (.ok (some token))) }
  | (.crashes _, room) => { step with
      floor := { step.floor with room }, task := { step.task with waiter := none }
      event := some .crashed }
  | (_, room) => { step with
      floor := { step.floor with room := room.leave token.owner }
      task := { step.task with waiter := none }
      event := some (.acquired (.ok none)) }

/-- Carries out an effect. -/
def perform (effect : Effect) : Step τ ε :=
  let floor := step.floor
  match effect with
  | .log line => { step with floor := { floor with log := line :: floor.log } }
  | .tryAcquire key lease =>
    if floor.service.refused.contains .tryAcquire then
      { step with event := some (.acquired (.error ClientCall.tryAcquire.refusal)) }
    else
      let (token, floor) := floor.freshToken key
      match floor.room.tryAcquire now token lease with
      | (.ok taken, room) => { step with
          floor := { floor with room }
          event := some (.acquired (.ok (if taken then some token else none))) }
      | (.error _, room) => { step with floor := { floor with room }, event := some .crashed }
  | .acquire key kind wait lease =>
    if floor.service.refused.contains .acquire then
      { step with event := some (.acquired (.error ClientCall.acquire.refusal)) }
    else
      let (token, floor) := floor.freshToken key
      match floor.room.enter now token kind wait lease with
      | .ok room => look { step with floor := { floor with room } } now token
      | .error _ => { step with floor, event := some .crashed }
  | .abandonAcquire =>
    match step.task.waiter with
    | some token => { step with floor := { floor with room := floor.room.leave token.owner } }
    | none => step
  | .startOperation =>
    let step := { step with floor := floor.tell now step.task.id [.entered] }
    match step.task.job with
    | .call _ operation =>
      if operation.span = 0 then { step with event := some operation.event }
      else { step with task := { step.task with resumeAt := some (now + operation.span) } }
    | _ => step
  | .dropOperation | .abandonRelease => { step with task := { step.task with resumeAt := none } }
  | .release token =>
    if floor.service.releaseDelay = 0 then
      let (answer, floor) := floor.release now token
      { step with floor, event := some (.released answer) }
    else { step with
      task := { step.task with resumeAt := some (now + floor.service.releaseDelay) } }
  | .detachRelease token =>
    let (id, floor) := floor.add (.free token) (Release.opening token)
    { step with floor, started := step.started ++ [id] }

/-- Carries out effects in order. -/
def performAll (effects : List Effect) : Step τ ε :=
  effects.foldl (fun step effect => step.perform now effect) step

/-- Goes on with what has happened to the task, until nothing more happens to it at once. The task
has no more turns than so many events lead to. -/
def drive : Nat → Step τ ε → Floor τ ε × List JobId × TurnEnd
  | 0, step => (step.floor.put step.task, step.started, .waits)
  | events + 1, step =>
    match step.event with
    | none => (step.floor.put step.task, step.started, .waits)
    | some event =>
      let (job, effects, tidings) := step.task.job.react event
      let task := { step.task with job := job.getD step.task.job }
      let step := performAll { step with task, event := none } now effects
      let step := { step with floor := step.floor.tell now task.id tidings }
      match job with
      | some _ => drive events step
      | none => (step.floor.remove task.id, step.started, .over)

/-- A job comes to its end within so many events. -/
def patience : Nat := 4

end Step

namespace Floor

/-- The turn of a job: it begins, looks at its lock, or goes on when its time has come. -/
def turn (now : Instant) (floor : Floor τ ε) (id : JobId) : Floor τ ε × List JobId × TurnEnd :=
  match floor.task? id with
  | none => (floor, [], .over)
  | some task =>
    let step : Step τ ε := ⟨floor, { task with todo := [], resumeAt := none }, none, []⟩
    let go (step : Step τ ε) := step.drive now Step.patience
    match task.todo, task.waiter, task.job with
    | effect :: more, _, _ => go (step.performAll now (effect :: more))
    | [], some token, _ => go (step.look now token)
    | [], none, .call (.running _) operation => go { step with event := some operation.event }
    | [], none, .call (.releasing token _) _ | [], none, .free token =>
      let (answer, floor) := floor.release now token
      go { step with floor, event := some (.released answer) }
    | _, _, _ => (floor, [], .over)

/-- How jobs behave. -/
def rules : Rules (Floor τ ε) JobId where
  turn
  wakeAt floor id := (floor.task? id).bind fun task =>
    match task.waiter with
    | some token => (floor.room.waiter? token.owner).map (·.wakeAt)
    | none => task.resumeAt
  isNotified floor id := ((floor.task? id).bind (·.waiter)).any fun token =>
    (floor.room.waiter? token.owner).any (·.notified)

end Floor

/-- A floor with a clock and the turns of its jobs. -/
abbrev Timeline (τ ε : Type) := Stage (Floor τ ε) JobId

namespace Timeline

/-- An empty floor at the beginning of time. -/
def start (service : Service) : Timeline τ ε :=
  ⟨0, ⟨.empty, service, [], 0, 0, [], []⟩, .empty⟩

variable (timeline : Timeline τ ε)

/-- More turns than the jobs can take at one instant, and more wake-ups than they can have. -/
def patience : Nat := 16 * Nat.pow (timeline.agenda.size + 2) 2

/-- Gives the turns that a change of the floor leads to. -/
def change (floor : Floor τ ε) (started : List JobId) : Timeline τ ε :=
  let changed := Stage.wakeDue Floor.rules { timeline with world := floor }
  let timeline := { changed with agenda := changed.agenda.start started }
  Stage.settle Floor.rules (patience timeline) timeline

/-- Begins a job. -/
def begin (job : Job τ ε) (todo : List Effect) : JobId × Timeline τ ε :=
  let (id, floor) := timeline.world.add job todo
  (id, change timeline floor [id])

/-- Begins a call. -/
def invoke (plan : Except Key.KeyError Plan) (operation : Operation τ ε) : JobId × Timeline τ ε :=
  match CallPhase.start plan with
  | (.over ending, _) =>
    let id := timeline.world.jobs
    let floor := timeline.world.tell timeline.now id [.called ending]
    (id, { timeline with world := { floor with jobs := id + 1 } })
  | (phase, effects) => begin timeline (.call phase operation) effects

/-- Begins to take a lock for whoever holds it afterwards. -/
def hold (plan : Plan) : JobId × Timeline τ ε := begin timeline (.hold plan) plan.opening

/-- Begins to free a lock. -/
def free (token : LockToken) : JobId × Timeline τ ε :=
  begin timeline (.free token) (Release.opening token)

/-- What has been told last of a job. -/
def lastOf? (id : JobId) : Option (Tidings τ ε) :=
  (timeline.world.news.find? (·.1 = id)).map (·.2.2)

/-- Lets time pass until a job has ended. -/
def await (id : JobId) : Timeline τ ε :=
  let ended (floor : Floor τ ε) : Bool := (floor.task? id).isNone
  let patience := patience timeline
  Stage.advanceUntil Floor.rules patience ended patience timeline

/-- Drops a job, and tells whether it was still going on. -/
def drop (id : JobId) : Bool × Timeline τ ε :=
  match timeline.world.task? id with
  | none => (false, timeline)
  | some task =>
    let step : Step τ ε := ⟨timeline.world, task, some .dropped, []⟩
    let (floor, started, _) := step.drive timeline.now Step.patience
    (true, change { timeline with agenda := timeline.agenda.drop id } floor started)

/-- Frees a lock whoever owns it. -/
def forceRelease (key : String) : Bool × Timeline τ ε :=
  let (released, room) := timeline.world.room.forceRelease key
  (released, change timeline { timeline.world with room } [])

/-- Whether a lock has a holder. -/
def isHeld (key : String) : Bool × Timeline τ ε :=
  let (held, room) := timeline.world.room.isHeld timeline.now key
  (held, change timeline { timeline.world with room } [])

/-- From now on exactly these calls to the lock client are refused. -/
def refuse (calls : List ClientCall) : Timeline τ ε :=
  let service := { timeline.world.service with refused := calls }
  { timeline with world := { timeline.world with service } }

/-- Writes to the log. -/
def log (line : LogLine) : Timeline τ ε :=
  { timeline with world := { timeline.world with log := line :: timeline.world.log } }

/-- Lets time pass. -/
def sleep (span : Duration) : Timeline τ ε :=
  let patience := patience timeline
  Stage.advance Floor.rules patience (timeline.now + span) patience timeline

end Timeline
end Turnstile.Guard
