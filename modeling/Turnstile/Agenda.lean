import Turnstile.Time

/-!
# Taking turns

Tasks that share a world take turns: those that are ready in the order in which they
became so, each until it has to wait. A waiting task becomes ready when it is notified or
when its wake-up comes; of several that become ready together, the one that began to wait
first goes first. When nobody is ready, time passes to the next wake-up.
-/

namespace Turnstile

/-- The tasks that take turns. -/
structure Agenda (ι : Type) where
  /-- In the order of their turns. -/
  ready : List ι
  /-- In the order in which they last began to wait. -/
  waiting : List ι
  deriving Repr

namespace Agenda

variable {ι : Type}

/-- An agenda without tasks. -/
def empty : Agenda ι := ⟨[], []⟩

variable (agenda : Agenda ι)

/-- The number of tasks. -/
def size : Nat := agenda.ready.length + agenda.waiting.length

/-- Lets tasks have turns after those that are ready. -/
def start (tasks : List ι) : Agenda ι := { agenda with ready := agenda.ready ++ tasks }

/-- Lets a task wait. -/
def park (task : ι) : Agenda ι := { agenda with waiting := agenda.waiting ++ [task] }

/-- Makes some of the waiting tasks ready. -/
def wake (isDue : ι → Bool) : Agenda ι where
  ready := agenda.ready ++ agenda.waiting.filter isDue
  waiting := agenda.waiting.filter (!isDue ·)

/-- Drops a task. -/
def drop [BEq ι] (task : ι) : Agenda ι where
  ready := agenda.ready.filter (· != task)
  waiting := agenda.waiting.filter (· != task)

end Agenda

/-- How a task's turn ends. -/
inductive TurnEnd
  | waits
  | over
  deriving DecidableEq, Repr

/-- How the tasks of a world behave. -/
structure Rules (σ ι : Type) where
  /-- A task's turn: the world after it, the tasks it has started, and how it ends. -/
  turn : Instant → σ → ι → σ × List ι × TurnEnd
  /-- When a waiting task becomes ready on its own. -/
  wakeAt : σ → ι → Option Instant
  /-- Whether a waiting task has been notified. -/
  isNotified : σ → ι → Bool

/-- A world at a point of time, with its tasks. -/
structure Stage (σ ι : Type) where
  now : Instant
  world : σ
  agenda : Agenda ι

namespace Stage

variable {σ ι : Type} (rules : Rules σ ι)

/-- Makes the tasks ready that have been notified or whose wake-up has come. -/
def wakeDue (stage : Stage σ ι) : Stage σ ι :=
  { stage with agenda := stage.agenda.wake fun task =>
      rules.isNotified stage.world task || (rules.wakeAt stage.world task).any (· ≤ stage.now) }

/-- Gives the first ready task its turn. -/
def turn (stage : Stage σ ι) (task : ι) (others : List ι) : Stage σ ι :=
  let (world, started, ending) := rules.turn stage.now stage.world task
  let after := wakeDue rules { stage with world, agenda := { stage.agenda with ready := others } }
  let agenda := after.agenda.start started
  { after with agenda := match ending with
      | .waits => agenda.park task
      | .over => agenda }

/-- Gives turns until nobody is ready, but no more than so many. -/
def settle : Nat → Stage σ ι → Stage σ ι
  | 0, stage => stage
  | turns + 1, stage =>
    match stage.agenda.ready with
    | [] => stage
    | task :: others => settle turns (turn rules stage task others)

/-- The next wake-up of a waiting task. -/
def nextWake? (stage : Stage σ ι) : Option Instant :=
  (stage.agenda.waiting.filterMap (rules.wakeAt stage.world)).min?

/-- Lets time pass to an instant, and gives all turns that come then. -/
def passTo (turns : Nat) (instant : Instant) (stage : Stage σ ι) : Stage σ ι :=
  settle rules turns (wakeDue rules { stage with now := max stage.now instant })

/-- Lets time pass to an instant through all wake-ups before it, of which there are no more than
`wakes`. -/
def advance (turns : Nat) (target : Instant) : Nat → Stage σ ι → Stage σ ι
  | 0, stage => passTo rules turns target stage
  | wakes + 1, stage =>
    match nextWake? rules stage with
    | some instant =>
      if instant ≤ target then advance turns target wakes (passTo rules turns instant stage)
      else passTo rules turns target stage
    | none => passTo rules turns target stage

/-- Lets time pass from one wake-up to the next until the world is as wanted, through no more than
`wakes` of them. -/
def advanceUntil (turns : Nat) (wanted : σ → Bool) : Nat → Stage σ ι → Stage σ ι
  | 0, stage => stage
  | wakes + 1, stage =>
    if wanted stage.world then stage
    else
      match nextWake? rules stage with
      | some instant => advanceUntil turns wanted wakes (passTo rules turns instant stage)
      | none => stage

end Stage
end Turnstile
