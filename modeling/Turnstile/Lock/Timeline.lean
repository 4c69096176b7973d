import Turnstile.Agenda
import Turnstile.Lock.Room

/-!
# A waiting room in time

The room with a clock and with waiters that look in turn, as soon as they have reason to:
the course of events in which nothing is left open. Each wait ends in a lock or in
nothing, and the instant of its end is kept; what crashes instead is put down.
-/

namespace Turnstile.Lock

/-- How a wait ended. -/
structure WaitEnd where
  token : LockToken
  acquired : Bool
  instant : Instant
  deriving DecidableEq, Repr

/-- A room, the waits that have ended in it, and the acquisitions that have crashed. -/
structure Watch where
  room : Room
  ended : List WaitEnd
  crashed : List (LockToken × Crash)

namespace Watch

/-- A waiter's turn: it looks, and leaves if its time is over. -/
def turn (now : Instant) (watch : Watch) (token : LockToken) : Watch × List LockToken × TurnEnd :=
  let done (room : Room) (acquired : Bool) : Watch :=
    { watch with room, ended := ⟨token, acquired, now⟩ :: watch.ended }
  match watch.room.look now token.owner with
  | (.admitted, room) => (done room true, [], .over)
  | (.waits, room) => ({ watch with room }, [], .waits)
  | (.givesUp, room) => (done (room.leave token.owner) false, [], .over)
  | (.crashes crash, room) =>
    ({ watch with room, crashed := (token, crash) :: watch.crashed }, [], .over)
  | (.gone, room) => ({ watch with room }, [], .over)

/-- How waiters behave. -/
def rules : Rules Watch LockToken where
  turn
  wakeAt watch token := (watch.room.waiter? token.owner).map (·.wakeAt)
  isNotified watch token := (watch.room.waiter? token.owner).any (·.notified)

end Watch

/-- A room with a clock and its waiters' turns. -/
structure Timeline where
  stage : Stage Watch LockToken
  /-- How many owner names have been given out. -/
  issued : Nat

namespace Timeline

/-- An empty room at the beginning of time. -/
def start : Timeline := ⟨⟨0, ⟨.empty, [], []⟩, .empty⟩, 0⟩

variable (timeline : Timeline)

/-- The clock. -/
def now : Instant := timeline.stage.now

/-- The room. -/
def room : Room := timeline.stage.world.room

/-- More turns than the tasks can take at one instant: each notifies the others once at most. -/
def patience : Nat := 8 * Nat.pow (timeline.stage.agenda.size + 2) 2

/-- A new name for the acquisition of a lock. -/
def freshToken (key : String) : LockToken × Timeline :=
  (⟨key, toString timeline.issued⟩, { timeline with issued := timeline.issued + 1 })

/-- Gives the turns that a change of the room leads to. -/
def settleWith (room : Room) (agenda : Agenda LockToken) : Timeline :=
  let stage := Stage.wakeDue Watch.rules
    { timeline.stage with world := { timeline.stage.world with room }, agenda }
  let turns := patience { timeline with stage }
  { timeline with stage := Stage.settle Watch.rules turns stage }

/-- The room after a step that somebody outside takes. -/
def change (room : Room) : Timeline := timeline.settleWith room timeline.stage.agenda

/-- Puts down that an acquisition has crashed. -/
def crash (token : LockToken) (crash : Crash) : Timeline :=
  let world := timeline.stage.world
  let world := { world with crashed := (token, crash) :: world.crashed }
  { timeline with stage := { timeline.stage with world } }

/-- Takes a lock without waiting. -/
def tryAcquire (key : String) (lease : Option Duration) : Option LockToken × Timeline :=
  let (token, timeline) := timeline.freshToken key
  match timeline.room.tryAcquire timeline.now token lease with
  | (.ok taken, room) => (if taken then some token else none, timeline.change room)
  | (.error crash, room) => (none, (timeline.change room).crash token crash)

/-- Begins to wait for a lock. -/
def beginAcquire (key : String) (kind : Kind) (wait : Duration) (lease : Option Duration) :
    LockToken × Timeline :=
  let (token, timeline) := timeline.freshToken key
  match timeline.room.enter timeline.now token kind wait lease with
  | .ok room => (token, timeline.settleWith room (timeline.stage.agenda.start [token]))
  | .error crash => (token, timeline.crash token crash)

/-- How a wait ended, if it has. -/
def ending? (token : LockToken) : Option WaitEnd :=
  timeline.stage.world.ended.find? (·.token = token)

/-- Lets time pass until a wait has ended or crashed. -/
def await (token : LockToken) : Timeline :=
  let ended (watch : Watch) : Bool :=
    watch.ended.any (·.token = token) || watch.crashed.any (·.1 = token)
  let patience := timeline.patience
  { timeline with stage := Stage.advanceUntil Watch.rules patience ended patience timeline.stage }

/-- Calls a wait off, and tells whether it was still going on. -/
def callOff (token : LockToken) : Bool × Timeline :=
  match timeline.room.waiter? token.owner with
  | none => (false, timeline)
  | some _ => (true, timeline.settleWith (timeline.room.leave token.owner)
      (timeline.stage.agenda.drop token))

/-- Frees a lock that the token still owns. -/
def release (token : LockToken) : Bool × Timeline :=
  let (released, room) := timeline.room.release timeline.now token
  (released, timeline.change room)

/-- Frees a lock whoever owns it. -/
def forceRelease (key : String) : Bool × Timeline :=
  let (released, room) := timeline.room.forceRelease key
  (released, timeline.change room)

/-- Whether a lock has a holder. -/
def isHeld (key : String) : Bool × Timeline :=
  let (held, room) := timeline.room.isHeld timeline.now key
  (held, timeline.change room)

/-- Lets time pass. -/
def sleep (span : Duration) : Timeline :=
  let patience := timeline.patience
  { timeline with stage :=
      Stage.advance Watch.rules patience (timeline.now + span) patience timeline.stage }

end Timeline
end Turnstile.Lock
