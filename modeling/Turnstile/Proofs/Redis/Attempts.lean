import Mathlib.Algebra.Order.Floor.Div
import Mathlib.Logic.Relation
import Turnstile.Proofs.Redis.Waits

/-!
# How often a wait asks

A wait whose connection comes about, whose server replies at once and whose pauses last exactly as
long as they should. It asks when it begins and then after every poll interval, and for the last
time at its deadline. The first attempt that is not in vain decides how it ends; if there is none, a
fair wait has still to take itself out of line.
-/

namespace Turnstile.Redis

open Lock (LockToken LockError Kind)

/-! ## The attempts -/

namespace Acquire

variable (acquire : Acquire) (now : Instant) (replies : Nat → Except RedisError Reply)

/-- When an attempt is made by a wait that begins now. The first one has the number zero. -/
def turn (k : Nat) : Instant := min (now + k * acquire.client.pollInterval) acquire.deadline

/-- The commands of the attempts before one, the latest first. -/
def made : Nat → List (Instant × Command)
  | 0 => []
  | k + 1 =>
    let commands := ((acquire.client.attempt acquire.kind acquire.token acquire.lease).exchange
      replies (made k).length).2
    (commands.map (acquire.turn now k, ·)).reverse ++ made k

/-- What comes of an attempt if those before it have been in vain. -/
def outcome (k : Nat) : Except RedisError Bool :=
  ((acquire.client.attempt acquire.kind acquire.token acquire.lease).exchange replies
    (acquire.made now replies k).length).1

/-- What comes of the cancellation after an attempt, and its commands. -/
def farewell (k : Nat) : Except RedisError Unit × List Command :=
  (acquire.client.cancel acquire.token).exchange replies (acquire.made now replies (k + 1)).length

variable {acquire now} {span : Duration}

/-- The attempts up to one are all in vain, or there is a first one that is not. -/
theorem exists_decisive (acquire : Acquire) (now : Instant)
    (replies : Nat → Except RedisError Reply) (n : Nat) :
    (∀ i < n, acquire.outcome now replies i = .ok false) ∨
      ∃ k < n, (∀ i < k, acquire.outcome now replies i = .ok false) ∧
        acquire.outcome now replies k ≠ .ok false := by
  induction n with
  | zero => exact .inl nofun
  | succ n ih =>
    rcases ih with hvain | ⟨k, hk, hfirst⟩
    · by_cases hn : acquire.outcome now replies n = .ok false
      · left
        intro i hi
        rcases Nat.lt_succ_iff_lt_or_eq.1 hi with hi | rfl
        · exact hvain i hi
        · exact hn
      · exact .inr ⟨n, Nat.lt_succ_self n, hvain, hn⟩
    · exact .inr ⟨k, Nat.lt_succ_of_lt hk, hfirst⟩

/-- Each attempt is one command, if it calls no script or the server knows it. -/
theorem made_eq {replies : Nat → Except RedisError Reply}
    (hknown : acquire.kind = .fair → Conversation.KnowsScripts replies) (n : Nat) :
    acquire.made now replies n =
      ((List.range n).map fun i => (acquire.turn now i, acquire.asking)).reverse := by
  induction n with
  | zero => rfl
  | succ n ih => simp [made, acquire.exchange_attempt hknown, ih, List.range_succ]

/-- As long as the poll intervals do not fill the wait, the deadline has not come. -/
theorem turn_lt (hpoll : 0 < acquire.client.pollInterval)
    (hdeadline : acquire.deadline = now + span) {k : Nat}
    (hk : k < span ⌈/⌉ acquire.client.pollInterval) :
    acquire.turn now k < acquire.deadline := by
  have hspan : k * acquire.client.pollInterval < span := by
    rw [Nat.mul_comm]
    exact not_le.1 fun hle => not_le.2 hk ((ceilDiv_le_iff_le_mul hpoll).2 hle)
  rw [turn, hdeadline]
  exact lt_of_le_of_lt (min_le_left _ _) (Nat.add_lt_add_left hspan now)

/-- When they fill it, it has. -/
theorem turn_eq (hpoll : 0 < acquire.client.pollInterval)
    (hdeadline : acquire.deadline = now + span) :
    acquire.turn now (span ⌈/⌉ acquire.client.pollInterval) = acquire.deadline := by
  have hspan : span ≤ (span ⌈/⌉ acquire.client.pollInterval) * acquire.client.pollInterval := by
    rw [Nat.mul_comm]
    exact (ceilDiv_le_iff_le_mul hpoll).1 le_rfl
  rw [turn, hdeadline]
  exact min_eq_right (Nat.add_le_add_left hspan now)

/-- A pause lasts until the next attempt. -/
theorem turn_succ {k : Nat} (hturn : acquire.turn now k < acquire.deadline) :
    max (acquire.turn now k)
        (min (acquire.turn now k + acquire.client.pollInterval) acquire.deadline) =
      acquire.turn now (k + 1) := by
  have hlt : now + k * acquire.client.pollInterval < acquire.deadline := by
    simpa [turn] using hturn
  have hle : now + k * acquire.client.pollInterval ≤ min (now + k * acquire.client.pollInterval +
      acquire.client.pollInterval) acquire.deadline := le_min (Nat.le_add_right _ _) hlt.le
  rw [turn, turn, min_eq_left hlt.le, max_eq_right hle, Nat.succ_mul, Nat.add_assoc]

end Acquire

namespace Wait

variable (acquire : Acquire) (now : Instant) (replies : Nat → Except RedisError Reply) (wait : Wait)

/-- What happens next to a wait when the connection comes about, the server replies at once, its
replies being numbered from one, and pauses last exactly as long as they should. -/
def next? : Option Wait :=
  match wait.phase, wait.asked with
  | .connecting, [.connect] => some (wait.meet acquire wait.now .connected)
  | .attempting _, [.send _] | .cancelling _, [.send _] =>
    some (wait.meet acquire wait.now (.replied (replies wait.sent.length)))
  | .pausing, [.pauseUntil instant] => some (wait.meet acquire (max wait.now instant) .resumed)
  | _, _ => none

/-- One wait goes on to be another one. -/
def Runs : Wait → Wait → Prop :=
  Relation.ReflTransGen fun wait next => wait.next? acquire replies = some next

/-- The wait after more commands have been sent. -/
def say (commands : List Command) : Wait :=
  { wait with sent := (commands.map (now, ·)).reverse ++ wait.sent }

/-- The wait as it begins an attempt. -/
def trying (k : Nat) : Wait :=
  (⟨acquire.turn now k, .pausing, [], none, acquire.made now replies k⟩ : Wait).after acquire
    (acquire.turn now k) (acquire.attempt (acquire.turn now k))

/-- The wait as it ends an attempt. -/
def tried (k : Nat) : Wait :=
  (⟨acquire.turn now k, .pausing, [], none, acquire.made now replies (k + 1)⟩ : Wait).after acquire
    (acquire.turn now k)
    (acquire.proceedAttempt (acquire.turn now k) (.done (acquire.outcome now replies k)))

/-- The wait as it has given up its place after an attempt. -/
def left (k : Nat) : Wait :=
  let tried : Wait := ⟨acquire.turn now k, .pausing, [], none, acquire.made now replies (k + 1)⟩
  (tried.say (acquire.turn now k) (acquire.farewell now replies k).2).after acquire
    (acquire.turn now k) (acquire.proceedCancel (.done (acquire.farewell now replies k).1))

/-- A wait that can make an attempt with a given number, but none after it, has ended as the
outcomes of its attempts want it. -/
structure Concluded (n : Nat) (last : Wait) : Prop where
  ends : ∃ ending, last.phase = .over ending
  /-- All its commands name its owner, except those that load a script; so do those of its task. -/
  owned : (∀ entry ∈ last.sent, Acquire.Owned acquire.token.owner entry.2) ∧
    ∀ c ∈ last.task, c.Says (Acquire.Owned acquire.token.owner)
  /-- With the first attempt that is admitted its token is handed out, and nothing more is sent. -/
  admitted {k : Nat} (hk : k ≤ n) (hvain : ∀ i < k, acquire.outcome now replies i = .ok false)
      (hadmitted : acquire.outcome now replies k = .ok true) :
    last.phase = .over (.acquired acquire.token) ∧ last.sent = acquire.made now replies (k + 1) ∧
      last.task = none
  /-- The first attempt that fails is the last one, too. -/
  failed {k : Nat} {error : RedisError} (hk : k ≤ n)
      (hvain : ∀ i < k, acquire.outcome now replies i = .ok false)
      (hfailed : acquire.outcome now replies k = .error error) :
    last.phase = .over (.failed (LockClient.failure error)) ∧
      last.sent = acquire.made now replies (k + 1)
  /-- The last attempt that there can be is made at the deadline. -/
  turn_last : acquire.turn now n = acquire.deadline
  /-- An exclusive wait sends nothing after it. -/
  exclusive (hkind : acquire.kind = .exclusive)
      (hvain : ∀ i ≤ n, acquire.outcome now replies i = .ok false) :
    last.phase = .over .timedOut ∧ last.sent = acquire.made now replies (n + 1)
  /-- A fair one takes itself out of line at once. If that fails, so does the wait. -/
  fair (hkind : acquire.kind = .fair)
      (hvain : ∀ i ≤ n, acquire.outcome now replies i = .ok false) :
    last.phase = .over (match (acquire.farewell now replies n).1 with
        | .ok () => .timedOut
        | .error error => .failed (LockClient.failure error)) ∧
      last.sent = ((acquire.farewell now replies n).2.map (acquire.deadline, ·)).reverse ++
        acquire.made now replies (n + 1)
  /-- Each attempt is one command, if it calls no script or the server knows it. -/
  asks_once (hknown : acquire.kind = .fair → Conversation.KnowsScripts replies) :
    acquire.made now replies (n + 1) =
      ((List.range (n + 1)).map fun i => (acquire.turn now i, acquire.asking)).reverse
  /-- The farewell of a fair wait is one command, if the server knows the script. -/
  cancels_once (hknown : Conversation.KnowsScripts replies) :
    (acquire.farewell now replies n).2 = [acquire.quitting]

variable {acquire now replies wait}

/-- What happens next is a way in which a wait goes on. -/
theorem step_of_next? {next : Wait} (h : wait.next? acquire replies = some next) :
    wait.Step acquire next := by
  obtain ⟨_, phase, asked, task, sent⟩ := wait
  dsimp only [next?] at h
  split at h
  · cases h
    exact .meet le_rfl _ trivial
  · cases h
    exact .meet le_rfl _ trivial
  · cases h
    exact .meet le_rfl _ trivial
  · cases h
    exact .meet (le_max_left _ _) _ trivial
  · cases h

/-- Whatever a wait goes on to be is what it can have gone on to be. -/
theorem Reachable.runs {next : Wait} (h : Reachable acquire wait)
    (hruns : Runs acquire replies wait next) : Reachable acquire next := by
  induction hruns with
  | refl => exact h
  | tail _ hnext ih => exact ih.step (step_of_next? hnext)

/-- Commands that are sent at one time may be sent one by one. -/
theorem say_say (commands more : List Command) :
    (wait.say now commands).say now more = wait.say now (commands ++ more) := by
  simp [say]

/-- A conversation is held at one time. -/
theorem runs_exchange {α : Type} {proceed : Conversation α → AcquirePhase × List AcquireEffect}
    (hproceed : ∀ (wait : Wait) (command : Command)
        (next : Except RedisError Reply → Conversation α),
      (wait.after acquire now (proceed (.send command next))).next? acquire replies =
        some ((wait.say now [command]).after acquire now
          (proceed (next (replies (wait.sent.length + 1))))))
    (c : Conversation α) (wait : Wait) :
    Runs acquire replies (wait.after acquire now (proceed c))
      ((wait.say now (c.exchange replies wait.sent.length).2).after acquire now
        (proceed (.done (c.exchange replies wait.sent.length).1))) := by
  induction c generalizing wait with
  | done result => exact .refl
  | send command next ih =>
    refine .head (hproceed wait command next) ?_
    have hruns := ih (replies (wait.sent.length + 1)) (wait.say now [command])
    rw [say_say] at hruns
    exact hruns

/-- An attempt is made. -/
theorem runs_tried (k : Nat) :
    Runs acquire replies (trying acquire now replies k) (tried acquire now replies k) :=
  runs_exchange (fun _ _ _ => rfl) _ _

/-- After an attempt in vain before the deadline, the next one is made. -/
theorem runs_trying_succ {k : Nat} (hturn : acquire.turn now k < acquire.deadline)
    (hvain : acquire.outcome now replies k = .ok false) :
    Runs acquire replies (trying acquire now replies k) (trying acquire now replies (k + 1)) := by
  refine (runs_tried k).tail ?_
  rw [tried, trying, hvain, Acquire.proceedAttempt, if_pos hturn, ← acquire.turn_succ hturn]
  rfl

/-- Every attempt is made that has only attempts in vain before it. -/
theorem runs_trying {span : Duration} (hpoll : 0 < acquire.client.pollInterval)
    (hdeadline : acquire.deadline = now + span) {k : Nat}
    (hk : k ≤ span ⌈/⌉ acquire.client.pollInterval)
    (hvain : ∀ i < k, acquire.outcome now replies i = .ok false) :
    Runs acquire replies (start now) (trying acquire now replies k) := by
  induction k with
  | zero =>
    have hturn : acquire.turn now 0 = now := by
      rw [Acquire.turn, hdeadline]
      simp
    refine .single ?_
    rw [trying, hturn]
    rfl
  | succ k ih =>
    have hruns := ih (Nat.le_of_succ_le hk) fun i hi => hvain i (Nat.lt_succ_of_lt hi)
    exact hruns.trans (runs_trying_succ (acquire.turn_lt hpoll hdeadline hk)
      (hvain k (Nat.lt_succ_self k)))

/-- A wait that is over does nothing more. -/
theorem next?_eq_none {ending : AcquireEnd} (hphase : wait.phase = .over ending) :
    wait.next? acquire replies = none := by
  rw [next?, hphase]

/-- An attempt that is admitted ends a wait. -/
theorem tried_of_admitted {k : Nat} (hadmitted : acquire.outcome now replies k = .ok true) :
    (tried acquire now replies k).phase = .over (.acquired acquire.token) ∧
      (tried acquire now replies k).sent = acquire.made now replies (k + 1) ∧
      (tried acquire now replies k).task = none := by
  rw [tried, hadmitted]
  exact ⟨rfl, rfl, rfl⟩

/-- An attempt that fails ends a wait. What is left to the background has still to be sent. -/
theorem tried_of_failed {k : Nat} {error : RedisError}
    (hfailed : acquire.outcome now replies k = .error error) :
    (tried acquire now replies k).phase = .over (.failed (LockClient.failure error)) ∧
      (tried acquire now replies k).sent = acquire.made now replies (k + 1) := by
  rw [tried, hfailed, Acquire.proceedAttempt, Acquire.fail, Acquire.abandonment]
  cases acquire.kind <;> exact ⟨rfl, rfl⟩

/-- The first attempt that is not in vain concludes a wait. -/
theorem concluded_of_decisive {span : Duration} (hpoll : 0 < acquire.client.pollInterval)
    (hdeadline : acquire.deadline = now + span) {k : Nat}
    (hk : k ≤ span ⌈/⌉ acquire.client.pollInterval)
    (hvain : ∀ i < k, acquire.outcome now replies i = .ok false)
    (hdecides : acquire.outcome now replies k ≠ .ok false) :
    Concluded acquire now replies (span ⌈/⌉ acquire.client.pollInterval)
      (tried acquire now replies k) := by
  have hruns := (runs_trying hpoll hdeadline hk hvain).trans (runs_tried k)
  have hunique {i : Nat} (hvain' : ∀ j < i, acquire.outcome now replies j = .ok false)
      (hdecides' : acquire.outcome now replies i ≠ .ok false) : i = k := by
    rcases Nat.lt_trichotomy i k with hlt | heq | hlt
    · exact absurd (hvain i hlt) hdecides'
    · exact heq
    · exact absurd (hvain' k hlt) hdecides
  refine ⟨?ends, ((Reachable.start now).runs hruns).staged.owned, ?admitted, ?failed,
    acquire.turn_eq hpoll hdeadline, ?exclusive, ?fair,
    fun hknown => acquire.made_eq hknown _, fun hknown => acquire.exchange_cancel hknown _⟩
  case ends =>
    match houtcome : acquire.outcome now replies k with
    | .ok true => exact ⟨_, (tried_of_admitted houtcome).1⟩
    | .ok false => exact absurd houtcome hdecides
    | .error e => exact ⟨_, (tried_of_failed houtcome).1⟩
  case admitted =>
    intro i hi hvain' hadmitted
    obtain rfl := hunique hvain' (by simp [hadmitted])
    exact tried_of_admitted hadmitted
  case failed =>
    intro i error hi hvain' hfailed
    obtain rfl := hunique hvain' (by simp [hfailed])
    exact tried_of_failed hfailed
  case exclusive => exact fun _ hvain' => absurd (hvain' k hk) hdecides
  case fair => exact fun _ hvain' => absurd (hvain' k hk) hdecides

/-- An exclusive wait ends with an attempt in vain at the deadline. -/
theorem tried_of_exclusive {k : Nat} (hkind : acquire.kind = .exclusive)
    (hdone : ¬acquire.turn now k < acquire.deadline)
    (hvain : acquire.outcome now replies k = .ok false) :
    (tried acquire now replies k).phase = .over .timedOut ∧
      (tried acquire now replies k).sent = acquire.made now replies (k + 1) := by
  rw [tried, hvain, Acquire.proceedAttempt, if_neg hdone, hkind]
  exact ⟨rfl, rfl⟩

/-- A fair one gives up its place after it. -/
theorem runs_left {k : Nat} (hkind : acquire.kind = .fair)
    (hdone : ¬acquire.turn now k < acquire.deadline)
    (hvain : acquire.outcome now replies k = .ok false) :
    Runs acquire replies (tried acquire now replies k) (left acquire now replies k) := by
  rw [tried, hvain, Acquire.proceedAttempt, if_neg hdone, hkind]
  exact runs_exchange (fun _ _ _ => rfl) _ _

/-- If it cannot give up its place, it fails. -/
theorem left_eq (k : Nat) :
    (left acquire now replies k).phase = .over (match (acquire.farewell now replies k).1 with
        | .ok () => .timedOut
        | .error error => .failed (LockClient.failure error)) ∧
      (left acquire now replies k).sent =
        ((acquire.farewell now replies k).2.map (acquire.turn now k, ·)).reverse ++
          acquire.made now replies (k + 1) := by
  rw [left]
  cases (acquire.farewell now replies k).1 with
  | ok => exact ⟨rfl, rfl⟩
  | error error =>
    rw [Acquire.proceedCancel, Acquire.fail, Acquire.abandonment]
    cases acquire.kind <;> exact ⟨rfl, rfl⟩

/-- A wait whose attempts are all in vain is concluded by the last one, or by what it says then. -/
theorem exists_concluded_of_vain {span : Duration} (hpoll : 0 < acquire.client.pollInterval)
    (hdeadline : acquire.deadline = now + span)
    (hvain : ∀ i ≤ span ⌈/⌉ acquire.client.pollInterval,
      acquire.outcome now replies i = .ok false) :
    ∃ last, Runs acquire replies (start now) last ∧
      Concluded acquire now replies (span ⌈/⌉ acquire.client.pollInterval) last := by
  have hturn := acquire.turn_eq hpoll hdeadline
  have hruns := (runs_trying hpoll hdeadline le_rfl fun i hi => hvain i hi.le).trans
    (runs_tried (span ⌈/⌉ acquire.client.pollInterval))
  generalize span ⌈/⌉ acquire.client.pollInterval = n at hvain hturn hruns ⊢
  have hdone : ¬acquire.turn now n < acquire.deadline := by
    rw [hturn]
    exact lt_irrefl _
  -- What a decisive attempt entails does not matter; the two kinds differ in how they end.
  have hconcluded {last : Wait} (hruns : Runs acquire replies (start now) last)
      (hends : ∃ ending, last.phase = .over ending) hexclusive hfair :
      Concluded acquire now replies n last :=
    { ends := hends
      owned := ((Reachable.start now).runs hruns).staged.owned
      admitted := fun hk _ hadmitted => nomatch (hvain _ hk).symm.trans hadmitted
      failed := fun hk _ hfailed => nomatch (hvain _ hk).symm.trans hfailed
      turn_last := hturn
      exclusive := hexclusive
      fair := hfair
      asks_once := fun hknown => acquire.made_eq hknown _
      cancels_once := fun hknown => acquire.exchange_cancel hknown _ }
  cases hkind : acquire.kind with
  | exclusive =>
    have hended := tried_of_exclusive hkind hdone (hvain n le_rfl)
    exact ⟨_, hruns, hconcluded hruns ⟨_, hended.1⟩ (fun _ _ => hended)
      fun hfair => nomatch hkind.symm.trans hfair⟩
  | fair =>
    have hended := @left_eq acquire now replies n
    have hruns := hruns.trans (runs_left hkind hdone (hvain n le_rfl))
    rw [hturn] at hended
    exact ⟨_, hruns, hconcluded hruns ⟨_, hended.1⟩
      (fun hexclusive => nomatch hkind.symm.trans hexclusive) fun _ _ => hended⟩

/-- Every wait is concluded. -/
theorem exists_runs_concluded (replies : Nat → Except RedisError Reply) {span : Duration}
    (hpoll : 0 < acquire.client.pollInterval) (hdeadline : acquire.deadline = now + span) :
    ∃ last, Runs acquire replies (start now) last ∧
      Concluded acquire now replies (span ⌈/⌉ acquire.client.pollInterval) last := by
  rcases acquire.exists_decisive now replies (span ⌈/⌉ acquire.client.pollInterval + 1) with
    hvain | ⟨k, hk, hvain, hdecides⟩
  · exact exists_concluded_of_vain hpoll hdeadline fun i hi => hvain i (Nat.lt_succ_of_le hi)
  · have hk := Nat.le_of_lt_succ hk
    exact ⟨_, (runs_trying hpoll hdeadline hk hvain).trans (runs_tried k),
      concluded_of_decisive hpoll hdeadline hk hvain hdecides⟩

/-- Whatever the server replies, a wait comes to an end. It hands out its token right after the
first attempt that is admitted; if none is, it has asked when it began, once more for every poll
interval that it has begun, and for the last time at its deadline. What happens next is determined,
so this is the only end. -/
theorem exists_concluded {span : Duration} (hpoll : 0 < acquire.client.pollInterval)
    (hdeadline : acquire.deadline = now + span) :
    ∃ last, Runs acquire replies (start now) last ∧ last.next? acquire replies = none ∧
      Concluded acquire now replies (span ⌈/⌉ acquire.client.pollInterval) last := by
  obtain ⟨last, hruns, hconcluded⟩ := exists_runs_concluded replies hpoll hdeadline
  obtain ⟨ending, hphase⟩ := hconcluded.ends
  exact ⟨last, hruns, next?_eq_none hphase, hconcluded⟩

/-- A fair wait of 120 milliseconds that asks every 50 and is never admitted asks four times. -/
theorem exists_concluded_of_never_admitted :
    let acquire : Acquire := ⟨.ofPrefix "lock:", ⟨"k", "o"⟩, .fair, none, 120000000⟩
    ∃ last, Runs acquire (fun _ => .ok (.integer 0)) (start 0) last ∧
      last.phase = .over .timedOut ∧
      last.sent = [(120000000, acquire.quitting), (120000000, acquire.asking),
        (100000000, acquire.asking), (50000000, acquire.asking), (0, acquire.asking)] := by
  intro acquire
  have hpoll : acquire.client.pollInterval = 50000000 := by
    simp [acquire, LockClient.ofPrefix, Duration.ofMillis]
  have hdeadline : acquire.deadline = 120000000 := rfl
  have hknown : Conversation.KnowsScripts fun _ => .ok (.integer 0) := by
    intro n detail herror
    cases herror
  have hn : 120000000 ⌈/⌉ acquire.client.pollInterval = 3 := by
    simp [hpoll, Nat.ceilDiv_eq_add_pred_div]
  have hturns : (List.range 4).map (fun i => (acquire.turn 0 i, acquire.asking)) =
      [(0, acquire.asking), (50000000, acquire.asking), (100000000, acquire.asking),
        (120000000, acquire.asking)] := by
    simp [List.range_succ, Acquire.turn, hpoll, hdeadline]
  obtain ⟨last, hruns, -, hconcluded⟩ := @exists_concluded acquire 0 (fun _ => .ok (.integer 0))
    120000000 (by simp [hpoll]) (Nat.zero_add _).symm
  rw [hn] at hconcluded
  obtain ⟨hphase, hsent⟩ := hconcluded.fair rfl fun _ _ => rfl
  rw [hconcluded.asks_once fun _ => hknown, hturns, hconcluded.cancels_once hknown] at hsent
  exact ⟨last, hruns, hphase, hsent⟩

/-- A fair wait that has asked in vain, though no attempt has failed, fails when it cannot give up
its place. -/
theorem exists_failed_of_refused_farewell :
    let acquire : Acquire := ⟨.ofPrefix "lock:", ⟨"k", "o"⟩, .fair, none, 0⟩
    let replies (n : Nat) : Except RedisError Reply :=
      .ok (if n = 1 then .integer 0 else .error "ERR no")
    (∀ i ≤ (0 : Duration) ⌈/⌉ acquire.client.pollInterval,
        acquire.outcome 0 replies i = .ok false) ∧
      ∃ last, Runs acquire replies (start 0) last ∧ last.next? acquire replies = none ∧
        last.phase = .over (.failed
          (.unavailable "An error was signalled by the server - ResponseError: no")) := by
  intro acquire replies
  have hvain : acquire.outcome 0 replies 0 = .ok false := rfl
  have hdone : ¬acquire.turn 0 0 < acquire.deadline := Nat.not_lt_zero _
  have hphase : (left acquire 0 replies 0).phase = .over (.failed
      (.unavailable "An error was signalled by the server - ResponseError: no")) := by
    have hfarewell : (acquire.farewell 0 replies 0).1 = .error (.server "ERR" (some "no")) := rfl
    rw [(left_eq 0).1, hfarewell]
    rfl
  refine ⟨fun i hi => ?_, left acquire 0 replies 0, ?_, next?_eq_none hphase, hphase⟩
  · rw [zero_ceilDiv] at hi
    rw [Nat.le_zero.1 hi]
    exact hvain
  · have hruns := @runs_trying acquire 0 replies 0 (by decide) rfl 0 (Nat.zero_le _) nofun
    exact (hruns.trans (runs_tried 0)).trans (runs_left rfl hdone hvain)

/-- A server that knows neither of the scripts has both of them loaded, by commands that name no
owner, and each called once more. So a wait with a single attempt, in vain but not failed, sends two
commands that ask for the lock and two that give up its place. -/
theorem exists_sent_of_unknown_scripts :
    let acquire : Acquire := ⟨.ofPrefix "lock:", ⟨"k", "o"⟩, .fair, none, 0⟩
    let replies (n : Nat) : Except RedisError Reply :=
      .ok (if n % 3 = 1 then .error "NOSCRIPT no" else if n % 3 = 2 then .bulk [] else .integer 0)
    acquire.outcome 0 replies 0 = .ok false ∧
      Bytes.ofText "o" ∉ (acquire.client.fairAttempt acquire.token acquire.lease).load ∧
      Bytes.ofText "o" ∉ (acquire.client.fairCancel acquire.token).load ∧
      ∃ last, Runs acquire replies (start 0) last ∧ last.phase = .over .timedOut ∧
        last.sent.map Prod.snd =
          [acquire.quitting, (acquire.client.fairCancel acquire.token).load, acquire.quitting,
            acquire.asking, (acquire.client.fairAttempt acquire.token acquire.lease).load,
            acquire.asking] := by
  intro acquire replies
  have hasked : (acquire.client.attempt acquire.kind acquire.token acquire.lease).exchange
      replies 0 = (.ok false, [acquire.asking,
        (acquire.client.fairAttempt acquire.token acquire.lease).load, acquire.asking]) :=
    @Conversation.exchange_call_of_unknown _ _ _ replies 0 (some "no") rfl rfl
  have hvain : acquire.outcome 0 replies 0 = .ok false := congrArg Prod.fst hasked
  have hmade : acquire.made 0 replies 1 = [(0, acquire.asking),
      (0, (acquire.client.fairAttempt acquire.token acquire.lease).load), (0, acquire.asking)] := by
    rw [Acquire.made, Acquire.made, List.length_nil, hasked]
    rfl
  have hfarewell : acquire.farewell 0 replies 0 = (.ok (), [acquire.quitting,
      (acquire.client.fairCancel acquire.token).load, acquire.quitting]) := by
    rw [Acquire.farewell, hmade]
    exact @Conversation.exchange_call_of_unknown _ _ _ replies 3 (some "no") rfl rfl
  have hdone : ¬acquire.turn 0 0 < acquire.deadline := Nat.not_lt_zero _
  have hruns := @runs_trying acquire 0 replies 0 (by decide) rfl 0 (Nat.zero_le _) nofun
  have hleft := @left_eq acquire 0 replies 0
  rw [hfarewell, hmade] at hleft
  refine ⟨hvain, ?_, ?_, left acquire 0 replies 0,
    (hruns.trans (runs_tried 0)).trans (runs_left rfl hdone hvain), hleft.1, ?_⟩
  · simp [ScriptCall.load, Acquire.mem_ofTexts, LockClient.fairAttempt, fairAcquireScript]
  · simp [ScriptCall.load, Acquire.mem_ofTexts, LockClient.fairCancel, fairCancelScript]
  · rw [hleft.2]
    rfl

end Wait
end Turnstile.Redis
