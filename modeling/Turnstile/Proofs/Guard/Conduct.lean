import Turnstile.Proofs.Guard.Scene

/-!
# What a call does with its lock

One call on its way, with everything that has happened to it and everything that it has done. The
lock client may answer anything, or nothing, or crash over a request, and the call may be dropped
wherever it waits for something. A lock that is left behind is freed by a task of its own, at any
time.

What a call may do is judged by what has come before: `Act.Fits`. How far it has come is told by
what it will have met and made once it has nothing left to do: `Stage`.
-/

namespace Turnstile.Guard

open Lock (LockToken)

variable {τ ε : Type}

/-- Something that happens to a call, or that is done for it. -/
inductive Act (τ ε : Type)
  | met (event : Event τ ε)
  | made (effect : Effect)

/-- The token whose lock is to be freed by a task of its own. -/
def Effect.detached? : Effect → Option LockToken
  | .detachRelease token => some token
  | _ => none

namespace Act

/-- The token that the lock client hands over. -/
@[simp] def handed? : Act τ ε → Option LockToken
  | .met (.acquired (.ok token?)) => token?
  | _ => none

/-- The token that the lock client is told to free. -/
@[simp] def freed? : Act τ ε → Option LockToken
  | .made (.release token) => some token
  | _ => none

/-- The outcome of the operation, if it ends with one. -/
@[simp] def outcome? : Act τ ε → Option (Except ε τ)
  | .met (.ended outcome) => some outcome
  | _ => none

/-- Whether the operation comes to its end, in whatever way. -/
@[simp] def isStop : Act τ ε → Bool
  | .met (.ended _) | .met .panicked | .made .dropOperation => true
  | _ => false

end Act

/-! ## What has been done, the latest first -/

/-- The tokens that the lock client has handed over. -/
def handed (acts : List (Act τ ε)) : List LockToken := acts.filterMap Act.handed?

/-- The tokens that the lock client has been told to free. -/
def freed (acts : List (Act τ ε)) : List LockToken := acts.filterMap Act.freed?

/-- The outcomes that the operation has ended with. -/
def outcomes (acts : List (Act τ ε)) : List (Except ε τ) := acts.filterMap Act.outcome?

/-- Whether the operation has come to its end. -/
def Stopped (acts : List (Act τ ε)) : Prop := ∃ act ∈ acts, act.isStop = true

/-- Whether an act may come after what has been done before. A token is handed over once. The
operation starts once, for a call that has asked for the lock of its key and has been handed over
a token. The lock of that token is freed when the operation has come to its end, and once more
only if the first release has been cancelled. -/
def Act.Fits (invocation : Invocation) (before : List (Act τ ε)) : Act τ ε → Prop
  | .met (.acquired (.ok (some _))) => handed before = []
  | .made .startOperation =>
    (∃ plan, invocation.plan = .ok plan ∧ .made plan.request ∈ before) ∧
      (∃ token, handed before = [token]) ∧ .made .startOperation ∉ before
  | .made (.release token) =>
    handed before = [token] ∧ Stopped before ∧
      (freed before = [] ∨ freed before = [token] ∧ .made .abandonRelease ∈ before)
  | _ => True

/-- Whether every act has come when it might. -/
def Orderly (invocation : Invocation) : List (Act τ ε) → Prop
  | [] => True
  | act :: before => act.Fits invocation before ∧ Orderly invocation before

section Acts

variable {invocation : Invocation} {acts before : List (Act τ ε)} {act : Act τ ε}

@[simp] theorem handed_nil : handed ([] : List (Act τ ε)) = [] := rfl

@[simp] theorem freed_nil : freed ([] : List (Act τ ε)) = [] := rfl

/-- What the latest act adds to what is gathered from the acts. -/
theorem filterMap_cons_eq {α : Type} (f : Act τ ε → Option α) :
    (act :: acts).filterMap f = (f act).toList ++ acts.filterMap f := by
  cases h : f act with
  | none => rw [List.filterMap_cons_none h, Option.toList_none, List.nil_append]
  | some a => rw [List.filterMap_cons_some h, Option.toList_some, List.singleton_append]

@[simp] theorem handed_cons : handed (act :: acts) = act.handed?.toList ++ handed acts :=
  filterMap_cons_eq _

@[simp] theorem freed_cons : freed (act :: acts) = act.freed?.toList ++ freed acts :=
  filterMap_cons_eq _

@[simp] theorem outcomes_cons : outcomes (act :: acts) = act.outcome?.toList ++ outcomes acts :=
  filterMap_cons_eq _

@[simp] theorem stopped_cons : Stopped (act :: acts) ↔ act.isStop = true ∨ Stopped acts := by
  simp [Stopped]

@[simp] theorem handed_append : handed (acts ++ before) = handed acts ++ handed before :=
  List.filterMap_append

@[simp] theorem freed_append : freed (acts ++ before) = freed acts ++ freed before :=
  List.filterMap_append

@[simp] theorem outcomes_append : outcomes (acts ++ before) = outcomes acts ++ outcomes before :=
  List.filterMap_append

/-- No effect hands over a token. -/
@[simp] theorem handed_made (effects : List Effect) :
    handed ((effects.map .made).reverse : List (Act τ ε)) = [] :=
  List.filterMap_eq_nil_iff.2 (by simp)

/-- No effect is an outcome of the operation. -/
@[simp] theorem outcomes_made (effects : List Effect) :
    outcomes ((effects.map .made).reverse : List (Act τ ε)) = [] :=
  List.filterMap_eq_nil_iff.2 (by simp)

/-- Writing to the log hands over no token. -/
@[simp] theorem handed_logs (lines : List LogLine) :
    handed ((lines.map (.made ∘ .log)).reverse : List (Act τ ε)) = [] :=
  List.filterMap_eq_nil_iff.2 (by simp)

/-- Writing to the log frees no lock. -/
@[simp] theorem freed_logs (lines : List LogLine) :
    freed ((lines.map (.made ∘ .log)).reverse : List (Act τ ε)) = [] :=
  List.filterMap_eq_nil_iff.2 (by simp)

/-- Writing to the log is no outcome of the operation. -/
@[simp] theorem outcomes_logs (lines : List LogLine) :
    outcomes ((lines.map (.made ∘ .log)).reverse : List (Act τ ε)) = [] :=
  List.filterMap_eq_nil_iff.2 (by simp)

/-- Writing to the log may come at any time. -/
theorem Orderly.logs (h : Orderly invocation acts) (lines : List LogLine) :
    Orderly invocation (((lines.map .log).map .made).reverse ++ acts) := by
  induction lines generalizing acts with
  | nil => exact h
  | cons line lines ih =>
    have hline : Orderly invocation (.made (.log line) :: acts) := ⟨trivial, h⟩
    simpa [List.append_assoc] using ih hline

@[simp] theorem stopped_append : Stopped (acts ++ before) ↔ Stopped acts ∨ Stopped before := by
  simp only [Stopped, List.mem_append, or_and_right, exists_or]

/-- If all acts have come when they might, so have the earlier ones. -/
theorem Orderly.of_append (h : Orderly invocation (acts ++ before)) :
    Orderly invocation before := by
  induction acts with
  | nil => exact h
  | cons act acts ih => exact ih h.2

/-- Every act fits what has come before it. -/
theorem Orderly.fits {later : List (Act τ ε)}
    (h : Orderly invocation (later ++ act :: before)) : act.Fits invocation before :=
  (Orderly.of_append h).1

/-- A lock is freed at most twice, and it is the one of the token that has been handed over. -/
theorem Orderly.freed_cases (h : Orderly invocation acts) :
    freed acts = [] ∨ ∃ token, handed acts = [token] ∧
      (freed acts = [token] ∨
        freed acts = [token, token] ∧ .made .abandonRelease ∈ acts) := by
  induction acts with
  | nil => exact .inl rfl
  | cons act before ih =>
    obtain ⟨hfits, hbefore⟩ := h
    have hkeeps (hfreed : act.freed? = none) (hhanded : act.handed? = none) :
        freed (act :: before) = [] ∨ ∃ token, handed (act :: before) = [token] ∧
          (freed (act :: before) = [token] ∨
            freed (act :: before) = [token, token] ∧ .made .abandonRelease ∈ act :: before) := by
      simp only [freed_cons, handed_cons, hfreed, hhanded, Option.toList_none, List.nil_append]
      rcases ih hbefore with h | ⟨token, h, h' | ⟨h', hcancelled⟩⟩
      · exact .inl h
      · exact .inr ⟨token, h, .inl h'⟩
      · exact .inr ⟨token, h, .inr ⟨h', List.mem_cons_of_mem _ hcancelled⟩⟩
    rcases act with event | effect
    · rcases event with (e | (_ | token)) | _ | _ | _ | _
      case acquired.ok.some =>
        change handed before = [] at hfits
        rcases ih hbefore with h | ⟨_, h, -⟩
        · exact .inl (by simp [h])
        · rw [hfits] at h
          cases h
      all_goals exact hkeeps rfl rfl
    · cases effect with
      | release token =>
        obtain ⟨hhanded, -, h | ⟨h, hcancelled⟩⟩ := hfits
        · exact .inr ⟨token, by simp [hhanded], .inl (by simp [h])⟩
        · exact .inr ⟨token, by simp [hhanded],
            .inr ⟨by simp [h], List.mem_cons_of_mem _ hcancelled⟩⟩
      | _ => exact hkeeps rfl rfl

end Acts

/-! ## Calls on their way -/

/-- A call on its way. -/
structure Conduct (τ ε : Type) where
  phase : CallPhase τ ε
  /-- What it wants done before anything else happens to it. -/
  todo : List Effect
  /-- The tokens whose locks are to be freed by tasks of their own. -/
  detached : List LockToken
  /-- What has happened to it and what has been done for it, the latest first. -/
  acts : List (Act τ ε)

/-- Whether a call waits for an event. It may be dropped whenever it waits for something. -/
def CallPhase.Awaits : CallPhase τ ε → Event τ ε → Prop
  | .acquiring _, .acquired _ | .acquiring _, .crashed | .running _, .ended _
  | .running _, .panicked | .releasing .., .released _ => True
  | .acquiring _, .dropped | .running _, .dropped | .releasing .., .dropped => True
  | _, _ => False

namespace Conduct

/-- A call that begins. -/
def start (plan : Except Key.KeyError Plan) : Conduct τ ε where
  phase := (CallPhase.start plan).1
  todo := (CallPhase.start (τ := τ) (ε := ε) plan).2
  detached := []
  acts := []

/-- A call that is dropped before it has begun. -/
def unbegun : Conduct τ ε := ⟨.over .dropped, [], [], []⟩

variable (conduct : Conduct τ ε)

/-- The call after the first of its effects has been carried out. -/
def carryOut (effect : Effect) (rest : List Effect) : Conduct τ ε where
  phase := conduct.phase
  todo := rest
  detached := conduct.detached ++ effect.detached?.toList
  acts := .made effect :: conduct.acts

/-- The call after something has happened to it. -/
def meet (event : Event τ ε) : Conduct τ ε where
  phase := (conduct.phase.react event).1
  todo := conduct.todo ++ (conduct.phase.react event).2
  detached := conduct.detached
  acts := .met event :: conduct.acts

/-- The call after a task of its own has begun to free a lock that it has left behind. -/
def free (token : LockToken) : Conduct τ ε where
  phase := conduct.phase
  todo := conduct.todo
  detached := conduct.detached.erase token
  acts := ((Release.opening token).map .made).reverse ++ conduct.acts

/-- The steps that come about without any event. -/
inductive Proceeds : Conduct τ ε → Prop
  | carryOut {effect : Effect} {rest : List Effect} (htodo : conduct.todo = effect :: rest) :
      Proceeds (conduct.carryOut effect rest)
  | free {token : LockToken} (htoken : token ∈ conduct.detached) : Proceeds (conduct.free token)

/-- The ways in which a call goes on. -/
inductive Step : Conduct τ ε → Prop
  | proceeds {next : Conduct τ ε} (h : conduct.Proceeds next) : Step next
  | meet (event : Event τ ε) (htodo : conduct.todo = []) (hawaits : conduct.phase.Awaits event) :
      Step (conduct.meet event)

/-- How a call can have gone on. -/
inductive Reachable (invocation : Invocation) : Conduct τ ε → Prop
  | start : Reachable invocation (.start invocation.plan)
  | unbegun : Reachable invocation .unbegun
  | step {conduct next : Conduct τ ε} (reachable : Reachable invocation conduct)
      (step : conduct.Step next) : Reachable invocation next

/-- What will have happened and been done once the call has nothing left to do. -/
def outline : List (Act τ ε) := (conduct.todo.map .made).reverse ++ conduct.acts

/-- The tokens whose locks tasks of their own are still to free then. -/
def owed : List LockToken := conduct.detached ++ conduct.todo.filterMap Effect.detached?

/-- No more than so many steps come about without any event. -/
def remaining : Nat := 2 * conduct.todo.length + conduct.detached.length

variable {conduct}

/-- Without any event, a call comes to rest. -/
theorem Proceeds.remaining_lt {next : Conduct τ ε} (h : conduct.Proceeds next) :
    next.remaining < conduct.remaining := by
  cases h with
  | @carryOut effect rest htodo =>
    have hone : effect.detached?.toList.length ≤ 1 := by cases effect.detached? <;> simp
    simp only [remaining, Conduct.carryOut, htodo, List.length_cons, List.length_append]
    omega
  | @free token htoken =>
    have := List.length_pos_of_mem htoken
    simp only [remaining, Conduct.free, List.length_erase_of_mem htoken]
    omega

end Conduct

/-! ## How far a call has come -/

/-- How far a call has come, by what it will have met and made once it has nothing left to do, and
by what tasks of their own are still to free then. -/
inductive Stage (invocation : Invocation) :
    CallPhase τ ε → List (Act τ ε) → List LockToken → Prop
  | acquiring {plan : Plan} {acts : List (Act τ ε)} (hplan : invocation.plan = .ok plan)
      (hasked : .made plan.request ∈ acts) (hhanded : handed acts = [])
      (hidle : .made .startOperation ∉ acts) (hgoing : ¬Stopped acts) (hfreed : freed acts = [])
      (hopen : outcomes acts = []) : Stage invocation (.acquiring plan) acts []
  | running {token : LockToken} {acts : List (Act τ ε)} (hhanded : handed acts = [token])
      (hgoing : ¬Stopped acts) (hfreed : freed acts = []) (hopen : outcomes acts = []) :
      Stage invocation (.running token) acts []
  | releasing {token : LockToken} {outcome : Except ε τ} {acts : List (Act τ ε)}
      (hhanded : handed acts = [token]) (hstopped : Stopped acts) (hfreed : freed acts = [token])
      (hended : outcomes acts = [outcome]) : Stage invocation (.releasing token outcome) acts []
  /-- It has come to its end without a lock. -/
  | empty {ending : CallEnd τ ε} {acts : List (Act τ ε)} (hhanded : handed acts = [])
      (hidle : .made .startOperation ∉ acts) (hfreed : freed acts = []) :
      Stage invocation (.over ending) acts []
  /-- It has freed its lock itself. -/
  | complete {token : LockToken} {outcome : Except ε τ} {acts : List (Act τ ε)}
      (hhanded : handed acts = [token]) (hstopped : Stopped acts) (hfreed : freed acts = [token])
      (hended : outcomes acts = [outcome]) :
      Stage invocation (.over (.returned (outcome.mapError .operation))) acts []
  /-- Its operation has been cut short, and it has left the lock behind. -/
  | cutShort {token : LockToken} {ending : CallEnd τ ε} {acts : List (Act τ ε)}
      (hending : ∀ result, ending ≠ .returned result) (hhanded : handed acts = [token])
      (hstopped : Stopped acts) (hfreed : freed acts = []) :
      Stage invocation (.over ending) acts [token]
  /-- Its release has been cancelled, and it has left the lock behind. -/
  | cancelled {token : LockToken} {acts : List (Act τ ε)} (hhanded : handed acts = [token])
      (hstopped : Stopped acts) (hcancelled : .made .abandonRelease ∈ acts)
      (hfreed : freed acts = [token]) : Stage invocation (.over .dropped) acts [token]
  /-- The lock that it has left behind has been freed. -/
  | tidied {token : LockToken} {ending : CallEnd τ ε} {acts : List (Act τ ε)}
      (hending : ∀ result, ending ≠ .returned result) (hhanded : handed acts = [token])
      (hstopped : Stopped acts) (hfreed : token ∈ freed acts) :
      Stage invocation (.over ending) acts []

namespace Conduct

/-- What holds of a call as long as it is on its way. -/
structure Sound (invocation : Invocation) (conduct : Conduct τ ε) : Prop where
  orderly : Orderly invocation conduct.outline
  stage : Stage invocation conduct.phase conduct.outline conduct.owed
  /-- The last thing that a call does is to leave its lock behind. -/
  last : ∀ effect ∈ conduct.todo.dropLast, effect.detached? = none
  detached : conduct.detached ≠ [] → conduct.todo = []
  /-- A call that is over frees no lock itself. -/
  finished : ∀ ending, conduct.phase = .over ending →
    ∀ effect ∈ conduct.todo, (Act.made effect : Act τ ε).freed? = none

namespace Sound

variable {invocation : Invocation} {conduct : Conduct τ ε}

/-- A call begins. -/
theorem start (invocation : Invocation) :
    (Conduct.start invocation.plan : Conduct τ ε).Sound invocation := by
  cases hplan : invocation.plan with
  | error e =>
    exact ⟨trivial, .empty rfl (by rintro ⟨⟩) rfl, by rintro _ ⟨⟩, by simp [Conduct.start],
      by rintro _ _ _ ⟨⟩⟩
  | ok plan =>
    obtain ⟨key, lease, attempt⟩ := plan
    cases attempt <;>
    · refine ⟨⟨trivial, trivial, trivial⟩, .acquiring hplan List.mem_cons_self rfl ?_ ?_ rfl rfl,
        ?_, nofun, nofun⟩
      · simp [outline, Conduct.start, CallPhase.start, Plan.opening, Plan.request]
      · simp [outline, Conduct.start, CallPhase.start, Plan.opening, Plan.request, Stopped]
      · simp [Conduct.start, CallPhase.start, Plan.opening, Effect.detached?]

/-- A call is dropped before it has begun. -/
theorem unbegun (invocation : Invocation) : (unbegun : Conduct τ ε).Sound invocation :=
  ⟨trivial, .empty rfl (by rintro ⟨⟩) rfl, by rintro _ ⟨⟩, by simp [Conduct.unbegun],
    by rintro _ _ _ ⟨⟩⟩

/-- A call that is over and has nothing left to do but to write to the log. -/
theorem of_logs {ending : CallEnd τ ε} {lines : List LogLine} {acts : List (Act τ ε)}
    (horderly : Orderly invocation acts)
    (hstage : Stage invocation (.over ending) (((lines.map .log).map .made).reverse ++ acts) []) :
    Sound invocation ⟨.over ending, lines.map .log, [], acts⟩ := by
  have hnone : ∀ effect ∈ lines.map Effect.log, effect.detached? = none := by
    simp [Effect.detached?]
  have howed : (⟨.over ending, lines.map .log, [], acts⟩ : Conduct τ ε).owed = [] :=
    List.filterMap_eq_nil_iff.2 hnone
  refine ⟨horderly.logs lines, ?_, fun effect heffect => ?_, nofun, ?_⟩
  · rw [howed]
    exact hstage
  · exact hnone effect (List.dropLast_subset _ heffect)
  · simp

/-- The call carries out the first of its effects. -/
theorem carryOut (h : conduct.Sound invocation) {effect : Effect} {rest : List Effect}
    (htodo : conduct.todo = effect :: rest) : (conduct.carryOut effect rest).Sound invocation := by
  have houtline : (conduct.carryOut effect rest).outline = conduct.outline := by
    simp [outline, Conduct.carryOut, htodo]
  have howed : (conduct.carryOut effect rest).owed = conduct.owed := by
    cases heffect : effect.detached? <;>
      simp [owed, Conduct.carryOut, htodo, heffect]
  have hlast := h.last
  rw [htodo] at hlast
  constructor
  · rw [houtline]
    exact h.orderly
  · rw [houtline, howed]
    exact h.stage
  · intro other hother
    cases rest with
    | nil => cases hother
    | cons next rest => exact hlast other (List.mem_cons_of_mem _ hother)
  · intro hdetached
    change rest = []
    cases rest with
    | nil => rfl
    | cons next rest =>
      have hnone : effect.detached? = none := hlast effect List.mem_cons_self
      have hsome : conduct.detached ≠ [] := by
        simpa [Conduct.carryOut, hnone] using hdetached
      have := h.detached hsome
      rw [htodo] at this
      cases this
  · intro ending hover other hother
    exact h.finished ending hover other (by rw [htodo]; exact List.mem_cons_of_mem _ hother)

/-- Something happens to a call that waits for its lock. -/
theorem meet_of_acquiring {plan : Plan} {acts : List (Act τ ε)}
    (horderly : Orderly invocation acts) (hstage : Stage invocation (.acquiring plan) acts [])
    {event : Event τ ε} (hawaits : (CallPhase.acquiring plan).Awaits event) :
    (Conduct.meet ⟨.acquiring plan, [], [], acts⟩ event).Sound invocation := by
  cases hstage with | acquiring hplan hasked hhanded hidle hgoing hfreed hopen
  have hturnedAway (error : GuardError ε) (lines : List LogLine)
      {answer : Except Lock.LockError (Option LockToken)}
      (hfits : (Act.met (.acquired answer) : Act τ ε).Fits invocation acts)
      (hnone : (Act.met (.acquired answer) : Act τ ε).handed? = none) :
      Sound invocation ⟨.over (.returned (.error error)), lines.map .log, [],
        .met (.acquired answer) :: acts⟩ := by
    refine of_logs ⟨hfits, horderly⟩ (.empty ?_ ?_ ?_)
    · rw [handed_append, handed_cons, hnone, hhanded]
      simp
    · simp [hidle]
    · simp [hfreed]
  cases event with
  | acquired answer =>
    rcases answer with e | (_ | token)
    · exact hturnedAway _ [_, _] trivial rfl
    · obtain ⟨key, lease, attempt⟩ := plan
      cases attempt
      · exact hturnedAway _ [_] trivial rfl
      · exact hturnedAway _ [_] trivial rfl
    · change Sound invocation ⟨.running token, [.log _, .startOperation], [], _ :: acts⟩
      refine ⟨⟨⟨⟨plan, hplan, ?_⟩, ⟨token, ?_⟩, ?_⟩, trivial, hhanded, horderly⟩,
        .running ?_ ?_ ?_ ?_, ?_, nofun, nofun⟩
      · simp [hasked]
      · simp [hhanded]
      · simp [hidle]
      · simp [outline, hhanded]
      · simp [outline, hgoing]
      · simp [outline, hfreed]
      · simp [outline, hopen]
      · simp [Effect.detached?]
  | dropped =>
    change Sound invocation ⟨.over .dropped, [.abandonAcquire], [], _ :: acts⟩
    refine ⟨⟨trivial, trivial, horderly⟩, .empty ?_ ?_ ?_, nofun, nofun, ?_⟩
    · simp [outline, hhanded]
    · simp [outline, hidle]
    · simp [outline, hfreed]
    · simp
  | crashed =>
    change Sound invocation ⟨.over .panicked, [], [], _ :: acts⟩
    refine ⟨⟨trivial, horderly⟩, .empty ?_ ?_ ?_, nofun, nofun, ?_⟩
    · simp [outline, hhanded]
    · simp [outline, hidle]
    · simp [outline, hfreed]
    · simp
  | ended | panicked | released => cases hawaits

/-- Something happens to a call whose operation runs. -/
theorem meet_of_running {token : LockToken} {acts : List (Act τ ε)}
    (horderly : Orderly invocation acts) (hstage : Stage invocation (.running token) acts [])
    {event : Event τ ε} (hawaits : (CallPhase.running token).Awaits event) :
    (Conduct.meet ⟨.running token, [], [], acts⟩ event).Sound invocation := by
  cases hstage with | running hhanded _ hfreed hopen
  cases event with
  | ended outcome =>
    change Sound invocation ⟨.releasing token outcome, [.log _, .release token], [], _ :: acts⟩
    refine ⟨⟨⟨?_, ?_, .inl ?_⟩, trivial, trivial, horderly⟩, .releasing ?_ ?_ ?_ ?_, ?_, nofun,
      nofun⟩
    · simp [hhanded]
    · simp
    · simp [hfreed]
    · simp [outline, hhanded]
    · simp [outline]
    · simp [outline, hfreed]
    · simp [outline, hopen]
    · simp [Effect.detached?]
  | panicked =>
    change Sound invocation ⟨.over .panicked, [.detachRelease token], [], _ :: acts⟩
    refine ⟨⟨trivial, trivial, horderly⟩, .cutShort nofun ?_ ?_ ?_, nofun, nofun, ?_⟩
    · simp [outline, hhanded]
    · simp [outline]
    · simp [outline, hfreed]
    · simp
  | dropped =>
    change Sound invocation ⟨.over .dropped, [.dropOperation, .detachRelease token], [], _ :: acts⟩
    refine ⟨⟨trivial, trivial, trivial, horderly⟩, .cutShort nofun ?_ ?_ ?_, ?_, nofun, ?_⟩
    · simp [outline, hhanded]
    · simp [outline]
    · simp [outline, hfreed]
    · simp [Effect.detached?]
    · simp
  | acquired | crashed | released => cases hawaits

/-- Something happens to a call that waits for its release. -/
theorem meet_of_releasing {token : LockToken} {outcome : Except ε τ} {acts : List (Act τ ε)}
    (horderly : Orderly invocation acts)
    (hstage : Stage invocation (.releasing token outcome) acts []) {event : Event τ ε}
    (hawaits : (CallPhase.releasing token outcome).Awaits event) :
    (Conduct.meet ⟨.releasing token outcome, [], [], acts⟩ event).Sound invocation := by
  cases hstage with | releasing hhanded hstopped hfreed hended
  cases event with
  | released answer =>
    have hbefore : Orderly invocation (.met (.released answer) :: acts) := ⟨trivial, horderly⟩
    refine of_logs hbefore (@Stage.complete _ _ _ token _ _ ?_ ?_ ?_ ?_)
    · simp [hhanded]
    · simp [hstopped]
    · simp [hfreed]
    · simp [hended]
  | dropped =>
    change Sound invocation ⟨.over .dropped, [.abandonRelease, .detachRelease token], [], _ :: acts⟩
    refine ⟨⟨trivial, trivial, trivial, horderly⟩, .cancelled ?_ ?_ ?_ ?_, ?_, nofun, ?_⟩
    · simp [outline, hhanded]
    · simp [outline, hstopped]
    · simp [outline]
    · simp [outline, hfreed]
    · simp [Effect.detached?]
    · simp
  | acquired | crashed | ended | panicked => cases hawaits

/-- Something happens to the call that it has waited for. -/
theorem meet (h : conduct.Sound invocation) (htodo : conduct.todo = []) {event : Event τ ε}
    (hawaits : conduct.phase.Awaits event) : (conduct.meet event).Sound invocation := by
  obtain ⟨phase, todo, detached, acts⟩ := conduct
  obtain ⟨horderly, hstage, -, -, -⟩ := h
  change todo = [] at htodo
  subst htodo
  simp only [outline, owed, List.map_nil, List.reverse_nil, List.nil_append, List.filterMap_nil,
    List.append_nil] at horderly hstage
  cases phase with
  | acquiring plan =>
    obtain rfl : detached = [] := by cases hstage; rfl
    exact meet_of_acquiring horderly hstage hawaits
  | running token =>
    obtain rfl : detached = [] := by cases hstage; rfl
    exact meet_of_running horderly hstage hawaits
  | releasing token outcome =>
    obtain rfl : detached = [] := by cases hstage; rfl
    exact meet_of_releasing horderly hstage hawaits
  | _ => cases hawaits

/-- A task begins to free the lock that the call has left behind. -/
theorem free (h : conduct.Sound invocation) {token : LockToken}
    (htoken : token ∈ conduct.detached) : (conduct.free token).Sound invocation := by
  have htodo := h.detached (List.ne_nil_of_mem htoken)
  obtain ⟨phase, todo, detached, acts⟩ := conduct
  obtain ⟨horderly, hstage, -, -, -⟩ := h
  change todo = [] at htodo
  subst htodo
  change token ∈ detached at htoken
  simp only [outline, owed, List.map_nil, List.reverse_nil, List.nil_append, List.filterMap_nil,
    List.append_nil] at horderly hstage
  have htidied {ending : CallEnd τ ε} (hending : ∀ result, ending ≠ .returned result)
      (hhanded : handed acts = [token]) (hstopped : Stopped acts)
      (hfreed : freed acts = [] ∨ freed acts = [token] ∧ .made .abandonRelease ∈ acts) :
      (Conduct.free ⟨.over ending, [], [token], acts⟩ token).Sound invocation := by
    change Sound invocation ⟨_, [], [token].erase token, .made (.release token) ::
      .made (.log _) :: acts⟩
    rw [List.erase_cons_head]
    refine ⟨⟨⟨?_, ?_, ?_⟩, trivial, horderly⟩, @Stage.tidied _ _ _ token _ _ hending ?_ ?_ ?_,
      nofun, nofun, nofun⟩
    · simp [hhanded]
    · simp [hstopped]
    · simpa using hfreed
    · simp [outline, hhanded]
    · simp [outline, hstopped]
    · simp [outline]
  cases hstage with
  | acquiring | running | releasing | empty | complete | tidied => cases htoken
  | cutShort hending hhanded hstopped hfreed =>
    obtain rfl := List.mem_singleton.1 htoken
    exact htidied hending hhanded hstopped (.inl hfreed)
  | cancelled hhanded hstopped hcancelled hfreed =>
    obtain rfl := List.mem_singleton.1 htoken
    exact htidied nofun hhanded hstopped (.inr ⟨hfreed, hcancelled⟩)

/-- Every step keeps what holds. -/
theorem step (h : conduct.Sound invocation) {next : Conduct τ ε} (step : conduct.Step next) :
    next.Sound invocation := by
  cases step with
  | proceeds hproceeds =>
    cases hproceeds with
    | carryOut htodo => exact h.carryOut htodo
    | free htoken => exact h.free htoken
  | meet event htodo hawaits => exact h.meet htodo hawaits

end Sound

/-! ## What is promised of a call -/

/-- What is promised of a call, whatever the lock client answers and wherever it is dropped. -/
structure Proper (invocation : Invocation) (conduct : Conduct τ ε) : Prop where
  /-- The operation starts at most once, when the lock of the derived key has been asked for and a
  token has been handed over. -/
  starts : ∀ later earlier, conduct.acts = later ++ .made .startOperation :: earlier →
    (∃ plan : Plan, invocation.key = .ok plan.key ∧ .made plan.request ∈ earlier) ∧
      (∃ token, handed earlier = [token]) ∧ .made .startOperation ∉ earlier
  /-- Only the lock of that token is freed, when the operation has come to its end: once, and
  once more only if the first release has been cancelled. -/
  frees : ∀ later earlier token, conduct.acts = later ++ .made (.release token) :: earlier →
    handed earlier = [token] ∧ Stopped earlier ∧
      (freed earlier = [] ∨ freed earlier = [token] ∧ .made .abandonRelease ∈ earlier)
  /-- It is freed at most twice in all. -/
  frees_twice : (freed conduct.acts).length ≤ 2
  /-- Without a token the operation does not start, and no lock is freed. -/
  idles : handed conduct.acts = [] →
    .made .startOperation ∉ conduct.acts ∧ freed conduct.acts = []
  /-- A call that returns with a token in hand has freed the lock once, leaves nobody to free it
  again, and returns the outcome of its operation. -/
  returns : ∀ result, conduct.phase = .over (.returned result) → ∀ token ∈ handed conduct.acts,
    freed conduct.acts = [token] ∧ conduct.owed = [] ∧
      ∃ outcome, outcomes conduct.acts = [outcome] ∧ result = outcome.mapError .operation
  /-- Once nothing is left to do, the operation still runs or the lock has been freed. -/
  settles : conduct.todo = [] → conduct.detached = [] → ∀ token ∈ handed conduct.acts,
    ¬Stopped conduct.acts ∧ conduct.phase = .running token ∨
      Stopped conduct.acts ∧ token ∈ freed conduct.acts
  /-- As long as something is left to do, it can be done. -/
  goes_on : conduct.todo ≠ [] ∨ conduct.detached ≠ [] → ∃ next, conduct.Proceeds next
  /-- There comes a time when nothing is left to do. -/
  comes_to_rest : Acc (fun next conduct : Conduct τ ε => conduct.Proceeds next) conduct

namespace Sound

variable {invocation : Invocation} {conduct : Conduct τ ε}

/-- What has been handed over does not depend on what is left to do. -/
theorem handed_outline : handed conduct.outline = handed conduct.acts := by
  rw [outline, handed_append, handed_made, List.nil_append]

/-- The operation's outcome does not depend on what is left to do. -/
theorem outcomes_outline : outcomes conduct.outline = outcomes conduct.acts := by
  rw [outline, outcomes_append, outcomes_made, List.nil_append]

/-- A call that is over has freed what it was to free itself. -/
theorem freed_outline (h : conduct.Sound invocation) {ending : CallEnd τ ε}
    (hphase : conduct.phase = .over ending) : freed conduct.outline = freed conduct.acts := by
  have hnone : freed ((conduct.todo.map .made).reverse : List (Act τ ε)) = [] := by
    refine List.filterMap_eq_nil_iff.2 fun act hact => ?_
    obtain ⟨effect, heffect, rfl⟩ := List.mem_map.1 (List.mem_reverse.1 hact)
    exact h.finished ending hphase effect heffect
  rw [outline, freed_append, hnone, List.nil_append]

/-- What has been done has come when it might. -/
theorem orderly_acts (h : conduct.Sound invocation) : Orderly invocation conduct.acts :=
  Orderly.of_append h.orderly

/-- A call that returns with a token in hand has done everything that it had to do. -/
theorem returns (h : conduct.Sound invocation) {result : Except (GuardError ε) τ}
    (hphase : conduct.phase = .over (.returned result)) {token : LockToken}
    (htoken : token ∈ handed conduct.acts) :
    freed conduct.acts = [token] ∧ conduct.owed = [] ∧
      ∃ outcome, outcomes conduct.acts = [outcome] ∧ result = outcome.mapError .operation := by
  have hstage := h.stage
  rw [← handed_outline] at htoken
  rw [← h.freed_outline hphase, ← outcomes_outline]
  rw [hphase] at hstage
  generalize conduct.outline = acts at htoken hstage ⊢
  generalize conduct.owed = owed at hstage ⊢
  cases hstage with
  | empty hhanded =>
    rw [hhanded] at htoken
    cases htoken
  | complete hhanded _ hfreed hended =>
    rw [hhanded] at htoken
    obtain rfl := List.mem_singleton.1 htoken
    exact ⟨hfreed, rfl, _, hended, rfl⟩
  | cutShort hending => exact absurd rfl (hending _)
  | tidied hending => exact absurd rfl (hending _)

/-- A call that has nothing left to do runs its operation, or its lock has been freed. -/
theorem settles (h : conduct.Sound invocation) (htodo : conduct.todo = [])
    (hdetached : conduct.detached = []) {token : LockToken} (htoken : token ∈ handed conduct.acts) :
    ¬Stopped conduct.acts ∧ conduct.phase = .running token ∨
      Stopped conduct.acts ∧ token ∈ freed conduct.acts := by
  obtain ⟨phase, todo, detached, acts⟩ := conduct
  obtain ⟨-, hstage, -, -, -⟩ := h
  change todo = [] at htodo
  change detached = [] at hdetached
  subst htodo hdetached
  change Stage invocation phase acts [] at hstage
  change token ∈ handed acts at htoken
  cases hstage with
  | acquiring _ _ hhanded | empty hhanded =>
    rw [hhanded] at htoken
    cases htoken
  | running hhanded hgoing =>
    rw [hhanded] at htoken
    obtain rfl := List.mem_singleton.1 htoken
    exact .inl ⟨hgoing, rfl⟩
  | releasing hhanded hstopped hfreed | complete hhanded hstopped hfreed =>
    refine .inr ⟨hstopped, ?_⟩
    rw [hhanded] at htoken
    rw [hfreed]
    exact htoken
  | tidied _ hhanded hstopped hfreed =>
    rw [hhanded] at htoken
    obtain rfl := List.mem_singleton.1 htoken
    exact .inr ⟨hstopped, hfreed⟩

/-- A call of which everything holds keeps what is promised. -/
theorem proper_of_sound (h : conduct.Sound invocation) : conduct.Proper invocation where
  starts later earlier hacts := by
    obtain ⟨⟨plan, hplan, hasked⟩, hhanded, honce⟩ := Orderly.fits (hacts ▸ h.orderly_acts)
    exact ⟨⟨plan, Invocation.key_of_plan hplan, hasked⟩, hhanded, honce⟩
  frees later earlier token hacts := by
    have hfits := Orderly.fits (hacts ▸ h.orderly_acts)
    exact hfits
  frees_twice := by
    rcases h.orderly_acts.freed_cases with hfreed | ⟨token, -, hfreed | ⟨hfreed, -⟩⟩ <;>
      simp [hfreed]
  idles hnone := by
    constructor
    · intro hstart
      obtain ⟨later, earlier, hacts⟩ := List.append_of_mem hstart
      obtain ⟨-, ⟨token, hhanded⟩, -⟩ := Orderly.fits (hacts ▸ h.orderly_acts)
      rw [hacts, handed_append, handed_cons, hhanded] at hnone
      simp at hnone
    · rcases h.orderly_acts.freed_cases with hfreed | ⟨token, hhanded, -⟩
      · exact hfreed
      · rw [hnone] at hhanded
        cases hhanded
  returns _ hphase _ htoken := h.returns hphase htoken
  settles htodo hdetached _ htoken := h.settles htodo hdetached htoken
  goes_on hleft := by
    cases htodo : conduct.todo with
    | cons effect rest => exact ⟨_, .carryOut htodo⟩
    | nil =>
      obtain ⟨token, htoken⟩ := List.exists_mem_of_ne_nil _ (hleft.resolve_left (absurd htodo))
      exact ⟨_, .free htoken⟩
  comes_to_rest :=
    (Subrelation.wf Proceeds.remaining_lt (InvImage.wf remaining Nat.lt_wfRel.wf)).apply conduct

end Sound

variable {invocation : Invocation} {conduct : Conduct τ ε}

/-- Whatever has become of a call, everything holds. -/
theorem Reachable.sound (h : Reachable invocation conduct) : conduct.Sound invocation := by
  induction h with
  | start => exact .start invocation
  | unbegun => exact .unbegun invocation
  | step _ step ih => exact ih.step step

/-- Whatever the lock client answers, if it answers at all, and wherever a call ends or is dropped,
the operation runs at most once and under a lock, and the lock is freed after it: once if the call
returns, and at most once more if a release has been cancelled. -/
theorem Reachable.proper (h : Reachable invocation conduct) : conduct.Proper invocation :=
  h.sound.proper_of_sound

/-- A call that is dropped while it waits for its release: the first release is cancelled, and a
task of its own frees the lock once more. -/
theorem Reachable.proper_of_cancelled_release :
    ∃ (conduct : Conduct Unit Unit) (invocation : Invocation) (later earlier : List (Act Unit Unit))
      (token : LockToken), Reachable invocation conduct ∧
      conduct.acts = later ++ .made (.release token) :: earlier ∧
      freed earlier = [token] ∧ .made .abandonRelease ∈ earlier := by
  have begun := @Reachable.start Unit Unit ⟨⟨⟨[]⟩, ⟨20, some 10, .fair⟩⟩, .idempotent "submit", []⟩
  have logged := begun.step (.proceeds (.carryOut rfl))
  have asked := logged.step (.proceeds (.carryOut rfl))
  have held := asked.step (.meet (.acquired (.ok (some ⟨"submit", "a"⟩))) rfl trivial)
  have told := held.step (.proceeds (.carryOut rfl))
  have running := told.step (.proceeds (.carryOut rfl))
  have ended := running.step (.meet (.ended (.ok ())) rfl trivial)
  have closing := ended.step (.proceeds (.carryOut rfl))
  have freeing := closing.step (.proceeds (.carryOut rfl))
  have dropped := freeing.step (.meet .dropped rfl trivial)
  have abandoned := dropped.step (.proceeds (.carryOut rfl))
  have detached := abandoned.step (.proceeds (.carryOut rfl))
  have freed := detached.step (.proceeds (.free List.mem_cons_self))
  obtain ⟨-, -, hnone | hagain⟩ := freed.proper.frees [] _ ⟨"submit", "a"⟩ rfl
  · cases hnone
  · exact ⟨_, _, [], _, _, freed, rfl, hagain⟩

end Conduct
end Turnstile.Guard
