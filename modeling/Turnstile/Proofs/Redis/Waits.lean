import Turnstile.Proofs.Redis.Conversations

/-!
# What a wait leaves behind

One wait for a lock on its way, with all commands that have been sent for it. The server may reply
anything or nothing, the connection may fail at any time, and the wait may be dropped wherever it
waits for something. What it leaves to the background is said by a task of its own, over a
connection that comes about.

A fair wait that has asked for the lock and ends without it takes itself out of line when it has
asked for the last time, by itself or by its task; one that gets the lock does not, and neither does
an exclusive one.
-/

namespace Turnstile.Redis

open Lock (LockToken LockError Kind)

/-- The command that is sent, if it is. -/
def AcquireEffect.command? : AcquireEffect → Option Command
  | .send command => some command
  | _ => none

/-- What a task in the background is to say, if there is to be one. -/
def AcquireEffect.task? (client : LockClient) : AcquireEffect → Option (Conversation Unit)
  | .cancelInBackground token => some (client.cancel token)
  | _ => none

/-- Whether a wait waits for an event. It may be dropped whenever it waits for something. -/
def AcquirePhase.Awaits : AcquirePhase → AcquireEvent → Prop
  | .connecting, .connected | .connecting, .refused _ | .attempting _, .replied _
  | .pausing, .resumed | .cancelling _, .replied _ => True
  | .connecting, .dropped | .attempting _, .dropped | .pausing, .dropped
  | .cancelling _, .dropped => True
  | _, _ => False

/-- A wait on its way. -/
structure Wait where
  now : Instant
  phase : AcquirePhase
  /-- What it has asked for last. -/
  asked : List AcquireEffect
  /-- What the task that it has left to the background has still to say. -/
  task : Option (Conversation Unit)
  /-- The commands that have been sent for it, the latest first. -/
  sent : List (Instant × Command)

namespace Wait

variable (acquire : Acquire) (wait : Wait)

/-- A wait that begins. -/
def start (now : Instant) : Wait where
  now
  phase := Acquire.start.1
  asked := Acquire.start.2
  task := none
  sent := []

/-- A wait that is dropped before it has begun. -/
def unbegun (now : Instant) : Wait := ⟨now, .over .dropped, [], none, []⟩

/-- The wait after it has come to a phase with effects. -/
def after (now : Instant) (reaction : AcquirePhase × List AcquireEffect) : Wait where
  now
  phase := reaction.1
  asked := reaction.2
  task := (reaction.2.findSome? (AcquireEffect.task? acquire.client)).or wait.task
  sent := ((reaction.2.filterMap AcquireEffect.command?).map (now, ·)).reverse ++ wait.sent

/-- The wait after something has happened to it. -/
def meet (now : Instant) (event : AcquireEvent) : Wait :=
  wait.after acquire now (acquire.react now wait.phase event)

/-- The steps that its task takes. -/
inductive Proceeds : Wait → Prop
  | send {command : Command} {next : Except RedisError Reply → Conversation Unit}
      (htask : wait.task = some (.send command next)) {now : Instant} (hnow : wait.now ≤ now)
      (reply : Except RedisError Reply) :
      Proceeds { wait with now, task := some (next reply), sent := (now, command) :: wait.sent }

/-- The ways in which a wait goes on. -/
inductive Step : Wait → Prop
  | meet {now : Instant} (hnow : wait.now ≤ now) (event : AcquireEvent)
      (hawaits : wait.phase.Awaits event) : Step (wait.meet acquire now event)
  | proceeds {next : Wait} (h : wait.Proceeds next) : Step next

/-- How a wait can have gone on. -/
inductive Reachable : Wait → Prop
  | start (now : Instant) : Reachable (.start now)
  | unbegun (now : Instant) : Reachable (.unbegun now)
  | step {wait next : Wait} (reachable : Reachable wait) (step : wait.Step acquire next) :
      Reachable next

/-! ## How far a wait has come -/

/-- Only asking commands have been sent. -/
def Asking (sent : List (Instant × Command)) : Prop := ∀ entry ∈ sent, acquire.Asks entry.2

/-- First only asking commands have been sent, and then, from the command on by which the waiter
gives up its place, only such commands. -/
inductive Resigned : List (Instant × Command) → Prop
  | intro {later earlier : List (Instant × Command)} {instant : Instant}
      (hlater : ∀ entry ∈ later, acquire.Quits entry.2) (hearlier : Asking acquire earlier) :
      Resigned (later ++ (instant, acquire.quitting) :: earlier)

/-- How far a wait has come, by what its task has still to say and by what has been sent. -/
inductive Stage : AcquirePhase → Option (Conversation Unit) → List (Instant × Command) → Prop
  | connecting : Stage .connecting none []
  | attempting {next : Except RedisError Reply → Conversation Bool}
      {sent : List (Instant × Command)} (hnext : ∀ reply, (next reply).Says acquire.Asks)
      (hasking : Asking acquire sent) : Stage (.attempting next) none sent
  | pausing {sent : List (Instant × Command)} (hasking : Asking acquire sent) :
      Stage .pausing none sent
  | cancelling {next : Except RedisError Reply → Conversation Unit}
      {sent : List (Instant × Command)} (hkind : acquire.kind = .fair)
      (hnext : ∀ reply, (next reply).Says acquire.Quits) (hresigned : Resigned acquire sent) :
      Stage (.cancelling next) none sent
  /-- It has the lock. -/
  | acquired {sent : List (Instant × Command)} (hasking : Asking acquire sent) :
      Stage (.over (.acquired acquire.token)) none sent
  /-- It has come to its end before it has asked for the lock. -/
  | unasked {ending : AcquireEnd} (hending : ∀ token, ending ≠ .acquired token) :
      Stage (.over ending) none []
  /-- There is no line that it would stand in. -/
  | exclusive {ending : AcquireEnd} {sent : List (Instant × Command)}
      (hkind : acquire.kind = .exclusive) (hending : ∀ token, ending ≠ .acquired token)
      (hasking : Asking acquire sent) : Stage (.over ending) none sent
  /-- Its task has still to take it out of line. -/
  | abandoned {ending : AcquireEnd} {sent : List (Instant × Command)}
      (hkind : acquire.kind = .fair) (hending : ∀ token, ending ≠ .acquired token)
      (hasking : Asking acquire sent) :
      Stage (.over ending) (some (acquire.client.cancel acquire.token)) sent
  /-- It has been taken out of line, and its task may do so once more. -/
  | resigned {ending : AcquireEnd} {task : Option (Conversation Unit)}
      {sent : List (Instant × Command)} (hkind : acquire.kind = .fair)
      (hending : ∀ token, ending ≠ .acquired token)
      (htask : ∀ c ∈ task, c.Says acquire.Quits) (hresigned : Resigned acquire sent) :
      Stage (.over ending) task sent

/-- How far a wait has come. -/
def Staged : Prop := Stage acquire wait.phase wait.task wait.sent

/-- What is promised of a wait, whatever the server replies and wherever it is dropped. -/
structure Tidy : Prop where
  /-- A fair wait that has asked for the lock and has ended without it has been taken out of line as
  soon as its task has nothing more to say, by a command that names its own owner and line, and it
  has not asked since. -/
  gives_up {ending : AcquireEnd} (hkind : acquire.kind = .fair) (hphase : wait.phase = .over ending)
    (hending : ∀ token, ending ≠ .acquired token)
    (hasked : ∃ instant, (instant, acquire.asking) ∈ wait.sent)
    (hdone : ∀ c ∈ wait.task, ∃ result, c = .done result) :
    ∃ later instant earlier, wait.sent = later ++ (instant, .ofTexts ["EVALSHA",
        (acquire.client.fairCancel acquire.token).digest, "2",
        acquire.client.queueKey acquire.token.key, acquire.client.waitersKey acquire.token.key,
        acquire.token.owner]) :: earlier ∧
      ∀ entry ∈ later, ¬acquire.Asks entry.2
  /-- A wait that has got the lock hands out its own token, and nobody is taken out of line. -/
  keeps {token : LockToken} (hphase : wait.phase = .over (.acquired token)) :
    token = acquire.token ∧ wait.task = none ∧ ∀ entry ∈ wait.sent, ¬acquire.Cancels entry.2
  /-- An exclusive wait takes nobody out of line, however it ends. -/
  exclusive (hkind : acquire.kind = .exclusive) :
    wait.task = none ∧ ∀ entry ∈ wait.sent, ¬acquire.Cancels entry.2
  /-- As long as its task has something to say, it can say it. -/
  goes_on {c : Conversation Unit} (htask : wait.task = some c)
      (hdone : ∀ result, c ≠ .done result) :
    ∃ next, wait.Proceeds next
  /-- Its task has something to say only finitely many times. -/
  comes_to_rest : Acc (fun next wait => Proceeds wait next) wait

variable {acquire wait}

/-- One more asking command. -/
theorem Asking.cons {sent : List (Instant × Command)} (h : Asking acquire sent) {now : Instant}
    {command : Command} (hcommand : acquire.Asks command) :
    Asking acquire ((now, command) :: sent) := by
  intro entry hentry
  rcases List.mem_cons.1 hentry with rfl | hentry
  · exact hcommand
  · exact h entry hentry

/-- One more command that gives up the place. -/
theorem Resigned.cons {sent : List (Instant × Command)} (h : Resigned acquire sent) {now : Instant}
    {command : Command} (hcommand : acquire.Quits command) :
    Resigned acquire ((now, command) :: sent) := by
  obtain ⟨hlater, hearlier⟩ := h
  rw [← List.cons_append]
  refine .intro (fun entry hentry => ?_) hearlier
  rcases List.mem_cons.1 hentry with rfl | hentry
  · exact hcommand
  · exact hlater entry hentry

/-- The command that gives up the place comes behind the asking ones. -/
theorem Asking.resigned {sent : List (Instant × Command)} (h : Asking acquire sent)
    (now : Instant) : Resigned acquire ((now, acquire.quitting) :: sent) :=
  @Resigned.intro _ [] _ _ nofun h

namespace Staged

/-- A wait that has only asked and ends without the lock leaves its place to its task. -/
theorem abandon {now : Instant} {ending : AcquireEnd} (htask : wait.task = none)
    (hasking : Asking acquire wait.sent) (hending : ∀ token, ending ≠ .acquired token) :
    (wait.after acquire now (.over ending, acquire.abandonment)).Staged acquire := by
  rw [Staged, after, Acquire.abandonment, htask]
  cases hkind : acquire.kind with
  | exclusive => exact .exclusive hkind hending hasking
  | fair => exact .abandoned hkind hending hasking

/-- A wait that is cut short while it gives up its place leaves it to its task to do so again. -/
theorem cutShort {now : Instant} {ending : AcquireEnd} (hkind : acquire.kind = .fair)
    (hresigned : Resigned acquire wait.sent) (hending : ∀ token, ending ≠ .acquired token) :
    (wait.after acquire now (.over ending, acquire.abandonment)).Staged acquire := by
  rw [Staged, after, Acquire.abandonment, hkind]
  refine .resigned hkind hending ?_ hresigned
  rintro c ⟨⟩
  exact acquire.says_cancel

/-- A wait goes on giving up its place. -/
theorem proceedCancel {now : Instant} {c : Conversation Unit} (hkind : acquire.kind = .fair)
    (htask : wait.task = none) (hsaid : c.Says acquire.Quits)
    (hresigned : Resigned acquire wait.sent) :
    (wait.after acquire now (acquire.proceedCancel c)).Staged acquire := by
  cases hsaid with
  | send hcommand hnext =>
    rw [Staged, after, htask]
    exact .cancelling hkind hnext (hresigned.cons hcommand)
  | done result =>
    cases result with
    | ok =>
      rw [Staged, after, htask]
      exact .resigned hkind nofun nofun hresigned
    | error e => exact cutShort hkind hresigned nofun

/-- A wait goes on with an attempt. -/
theorem proceedAttempt {now : Instant} {c : Conversation Bool} (htask : wait.task = none)
    (hsaid : c.Says acquire.Asks) (hasking : Asking acquire wait.sent) :
    (wait.after acquire now (acquire.proceedAttempt now c)).Staged acquire := by
  cases hsaid with
  | send hcommand hnext =>
    rw [Staged, after, htask]
    exact .attempting hnext (hasking.cons hcommand)
  | done result =>
    match result with
    | .error e => exact abandon htask hasking nofun
    | .ok true =>
      rw [Staged, after, htask]
      exact .acquired hasking
    | .ok false =>
      rw [Acquire.proceedAttempt]
      by_cases hlt : now < acquire.deadline
      · rw [if_pos hlt, Staged, after, htask]
        exact .pausing hasking
      · rw [if_neg hlt]
        cases hkind : acquire.kind with
        | exclusive =>
          rw [Staged, after, htask]
          exact .exclusive hkind nofun hasking
        | fair =>
          obtain ⟨next, hcancel, hnext⟩ := acquire.exists_cancel_eq
          rw [Staged, after, hcancel, htask]
          exact .cancelling hkind hnext (hasking.resigned now)

/-- Wherever a wait has come to, what happens to it brings it to where it can be. -/
theorem meet {now : Instant} {event : AcquireEvent} (h : wait.Staged acquire)
    (hawaits : wait.phase.Awaits event) : (wait.meet acquire now event).Staged acquire := by
  obtain ⟨_, phase, asked, task, sent⟩ := wait
  cases h with
  | connecting =>
    cases event with
    | connected => exact proceedAttempt rfl acquire.says_attempt nofun
    | refused e => exact .unasked nofun
    | dropped => exact .unasked nofun
    | replied | resumed => cases hawaits
  | attempting hnext hasking =>
    cases event with
    | replied reply => exact proceedAttempt rfl (hnext reply) hasking
    | dropped => exact abandon rfl hasking nofun
    | connected | refused | resumed => cases hawaits
  | pausing hasking =>
    cases event with
    | resumed => exact proceedAttempt rfl acquire.says_attempt hasking
    | dropped => exact abandon rfl hasking nofun
    | connected | refused | replied => cases hawaits
  | cancelling hkind hnext hresigned =>
    cases event with
    | replied reply => exact proceedCancel hkind rfl (hnext reply) hresigned
    | dropped => exact cutShort hkind hresigned nofun
    | connected | refused | resumed => cases hawaits
  | acquired | unasked | exclusive | abandoned | resigned => cases hawaits

/-- What the task of a wait does takes it from one stage to the next. -/
theorem proceeds {next : Wait} (h : wait.Staged acquire) (step : wait.Proceeds next) :
    next.Staged acquire := by
  obtain ⟨_, phase, asked, task, sent⟩ := wait
  obtain ⟨htask, _, reply⟩ := step
  cases htask
  generalize htask : some _ = task at h
  cases h with
  | abandoned hkind hending hasking =>
    obtain ⟨next, hcancel, hnext⟩ := acquire.exists_cancel_eq
    rw [hcancel] at htask
    cases htask
    refine .resigned hkind hending ?_ (hasking.resigned _)
    rintro c ⟨⟩
    exact hnext reply
  | resigned hkind hending hsaid hresigned =>
    cases hsaid _ htask.symm with
    | send hcommand hnext =>
      refine .resigned hkind hending ?_ (hresigned.cons hcommand)
      rintro c ⟨⟩
      exact hnext reply
  | connecting | attempting | pausing | cancelling | acquired | unasked | exclusive => cases htask

end Staged

/-- Every wait is as far as its commands tell. -/
theorem Reachable.staged (h : Reachable acquire wait) : wait.Staged acquire := by
  induction h with
  | start now => exact .connecting
  | unbegun now => exact .unasked nofun
  | step _ step ih =>
    cases step with
    | meet _ event hawaits => exact ih.meet hawaits
    | proceeds step => exact ih.proceeds step

/-! ## What comes of it -/

/-- Only asking commands have been sent, so nobody has been taken out of line. -/
theorem Asking.not_cancels {sent : List (Instant × Command)} (h : Asking acquire sent) :
    ∀ entry ∈ sent, ¬acquire.Cancels entry.2 :=
  fun entry hentry => acquire.not_cancels_of_asks (h entry hentry)

/-- Commands that ask for a lock name the owner who asks. -/
theorem Asking.owned {sent : List (Instant × Command)} (h : Asking acquire sent) :
    ∀ entry ∈ sent, Acquire.Owned acquire.token.owner entry.2 :=
  fun entry hentry => acquire.owned_of_asks (h entry hentry)

/-- The commands of a wait that has given up its place name its owner. -/
theorem Resigned.owned {sent : List (Instant × Command)} (h : Resigned acquire sent) :
    ∀ entry ∈ sent, Acquire.Owned acquire.token.owner entry.2 := by
  obtain ⟨hlater, hearlier⟩ := h
  intro entry hentry
  rcases List.mem_append.1 hentry with hentry | hentry
  · exact acquire.owned_of_quits (hlater entry hentry)
  · rcases List.mem_cons.1 hentry with rfl | hentry
    · exact acquire.owned_of_quits (.inl rfl)
    · exact hearlier.owned entry hentry

/-- A task says what it has to say, one command after another, and then it is done. -/
theorem acc_proceeds (wait : Wait) : Acc (fun next wait => Proceeds wait next) wait := by
  cases htask : wait.task with
  | none =>
    refine ⟨_, ?_⟩
    rintro _ ⟨hsend, _, _⟩
    rw [htask] at hsend
    cases hsend
  | some c =>
    induction c generalizing wait with
    | done result =>
      refine ⟨_, ?_⟩
      rintro _ ⟨hsend, _, _⟩
      rw [htask] at hsend
      cases hsend
    | send command next ih =>
      refine ⟨_, ?_⟩
      rintro _ ⟨hsend, _, reply⟩
      rw [htask] at hsend
      cases hsend
      exact ih reply _ rfl

/-- A wait that is as far as its commands tell keeps what is promised. -/
theorem tidy_of_staged (h : wait.Staged acquire) : wait.Tidy acquire where
  gives_up {ending} hkind hphase hending hasked hdone := by
    obtain ⟨_, phase, asked, task, sent⟩ := wait
    obtain ⟨instant, hasked⟩ := hasked
    cases hphase
    cases h with
    | acquired => exact absurd rfl (hending _)
    | unasked => cases hasked
    | exclusive hexclusive => cases hexclusive.symm.trans hkind
    | abandoned =>
      obtain ⟨next, hcancel, -⟩ := acquire.exists_cancel_eq
      obtain ⟨result, hresult⟩ := hdone _ rfl
      cases hcancel.symm.trans hresult
    | resigned _ _ _ hresigned =>
      obtain ⟨hlater, -⟩ := hresigned
      rw [← acquire.quitting_eq]
      exact ⟨_, _, _, rfl,
        fun entry hentry => acquire.not_asks_of_quits hkind (hlater entry hentry)⟩
  keeps {token} hphase := by
    obtain ⟨_, phase, asked, task, sent⟩ := wait
    cases hphase
    cases h with
    | acquired hasking => exact ⟨rfl, rfl, hasking.not_cancels⟩
    | unasked hending => exact absurd rfl (hending _)
    | exclusive _ hending | abandoned _ hending | resigned _ hending => exact absurd rfl (hending _)
  exclusive hkind := by
    obtain ⟨_, phase, asked, task, sent⟩ := wait
    cases h with
    | connecting | unasked => exact ⟨rfl, nofun⟩
    | attempting _ hasking | pausing hasking | acquired hasking | exclusive _ _ hasking =>
      exact ⟨rfl, hasking.not_cancels⟩
    | cancelling hfair | abandoned hfair | resigned hfair => cases hfair.symm.trans hkind
  goes_on {c} htask hdone := by
    cases c with
    | done result => exact absurd rfl (hdone result)
    | send command next => exact ⟨_, .send htask (Nat.le_refl _) (.ok .nil)⟩
  comes_to_rest := wait.acc_proceeds

/-- Whatever is sent for a wait names its owner, and so does what its task has still to say. -/
theorem Staged.owned (h : wait.Staged acquire) :
    (∀ entry ∈ wait.sent, Acquire.Owned acquire.token.owner entry.2) ∧
      ∀ c ∈ wait.task, c.Says (Acquire.Owned acquire.token.owner) := by
  obtain ⟨_, phase, asked, task, sent⟩ := wait
  cases h with
  | connecting | unasked => exact ⟨nofun, nofun⟩
  | attempting _ hasking | pausing hasking | acquired hasking | exclusive _ _ hasking =>
    exact ⟨hasking.owned, nofun⟩
  | cancelling _ _ hresigned => exact ⟨hresigned.owned, nofun⟩
  | abandoned _ _ hasking =>
    refine ⟨hasking.owned, ?_⟩
    rintro _ ⟨⟩
    exact acquire.says_cancel.mono fun _ => acquire.owned_of_quits
  | resigned _ _ hsaid hresigned =>
    exact ⟨hresigned.owned, fun c hc => (hsaid c hc).mono fun _ => acquire.owned_of_quits⟩

/-- Whatever the server replies, wherever the connection fails and wherever a wait is dropped: a
fair wait that does not get the lock has been taken out of line after it has asked for the last
time, one that gets it has not, and neither has an exclusive one. -/
theorem Reachable.tidy (h : Reachable acquire wait) : wait.Tidy acquire :=
  tidy_of_staged h.staged

/-- A fair wait that does not get the lock, is refused when it gives up its place and has its task
give it up once more. -/
theorem Reachable.tidy_of_refused_cancel :
    ∃ (acquire : Acquire) (wait : Wait) (error : LockError)
      (later earlier : List (Instant × Command)) (instant : Instant),
      Reachable acquire wait ∧ wait.phase = .over (.failed error) ∧
      (0, acquire.asking) ∈ wait.sent ∧
      wait.sent = later ++ (instant, .ofTexts ["EVALSHA",
        (acquire.client.fairCancel acquire.token).digest, "2", "lock:\x7bk\x7d:queue",
        "lock:\x7bk\x7d:waiters", "o"]) :: earlier ∧
      ∀ entry ∈ later, ¬acquire.Asks entry.2 := by
  have begun := @Reachable.start ⟨.ofPrefix "lock:", ⟨"k", "o"⟩, .fair, none, 0⟩ 0
  have asked := begun.step (.meet (Nat.le_refl _) .connected trivial)
  have quitted := asked.step (.meet (Nat.le_refl _) (.replied (.ok (.integer 0))) trivial)
  have refused := quitted.step (.meet (Nat.le_refl _) (.replied (.ok (.error "ERR no"))) trivial)
  have done := refused.step (.proceeds (.send rfl (Nat.le_refl _) (.ok (.integer 1))))
  obtain ⟨later, instant, earlier, hsent, hlater⟩ :=
    done.tidy.gives_up rfl rfl nofun ⟨0, List.mem_of_getLast? rfl⟩ (by rintro _ ⟨⟩; exact ⟨_, rfl⟩)
  exact ⟨_, _, _, later, earlier, instant, done, rfl, List.mem_of_getLast? rfl, hsent, hlater⟩

end Wait
end Turnstile.Redis
