import Turnstile.Proofs.Redis.Attempts
import Turnstile.Redis.Peer

/-!
# Waits against a prepared server

A wait that is pursued against a server with prepared replies comes to its end within the patience
that it is given. It is one of the waits that can have gone on so, whether the server is within
reach or not and wherever the wait is dropped; and if nothing cuts it short, it is the one that the
server's replies conclude.
-/

namespace Turnstile.Redis

/-! ## How long a wait can last -/

namespace Conversation

variable {α : Type}

/-- A conversation sends no more than so many commands. -/
inductive Within : Nat → Conversation α → Prop
  | done {n : Nat} (result : Except RedisError α) : Within n (.done result)
  | send {n : Nat} {command : Command} {next : Except RedisError Reply → Conversation α}
      (hnext : ∀ reply, Within n (next reply)) : Within (n + 1) (.send command next)

/-- A command that is asked is all that is sent. -/
theorem within_ask {command : Command} {read : Reply → Except RedisError α} :
    Within 1 (ask command read) := .send fun _ => .done _

/-- To call a script takes three commands at most. -/
theorem within_call {script : ScriptCall} {read : Reply → Except RedisError α} :
    Within 3 (call script read) := by
  refine .send fun reply => ?_
  split
  · split
    · refine .send fun reply => ?_
      dsimp only
      cases reply.bind Reply.done with
      | ok => exact within_ask
      | error e => exact .done _
    · exact .done _
  · exact .done _

end Conversation

namespace Acquire

open Conversation (Within)

variable (acquire : Acquire)

/-- A wait that has come to a phase with effects goes through no more than so many events, the last
of which is its end. -/
inductive Lasts : Nat → Instant → AcquirePhase × List AcquireEffect → Prop
  | connecting {n : Nat} {now : Instant} (hnext : Lasts n now (acquire.attempt now)) :
      Lasts (n + 1) now (.connecting, [.connect])
  | attempting {n : Nat} {now : Instant} {command : Command}
      {next : Except RedisError Reply → Conversation Bool}
      (hnext : ∀ reply, Lasts n now (acquire.proceedAttempt now (next reply))) :
      Lasts (n + 1) now (.attempting next, [.send command])
  | pausing {n : Nat} {now instant : Instant} (hle : now ≤ instant)
      (hnext : Lasts n instant (acquire.attempt instant)) :
      Lasts (n + 1) now (.pausing, [.pauseUntil instant])
  | cancelling {n : Nat} {now : Instant} {command : Command}
      {next : Except RedisError Reply → Conversation Unit}
      (hnext : ∀ reply, Lasts n now (acquire.proceedCancel (next reply))) :
      Lasts (n + 1) now (.cancelling next, [.send command])
  | ended {n : Nat} {now : Instant} (ending : AcquireEnd) : Lasts (n + 1) now (.over ending, [])
  | logged {n : Nat} {now : Instant} (ending : AcquireEnd) (line : LogLine) :
      Lasts (n + 1) now (.over ending, [.log line])
  | abandoned {n : Nat} {now : Instant} (ending : AcquireEnd) :
      Lasts (n + 1) now (.over ending, [.cancelInBackground acquire.token])

variable {acquire} {now : Instant}

/-- A wait that goes through no more than so many events goes through no more than one more. -/
theorem Lasts.succ {n : Nat} {reaction : AcquirePhase × List AcquireEffect}
    (h : Lasts acquire n now reaction) : Lasts acquire (n + 1) now reaction := by
  induction h with
  | connecting _ ih => exact .connecting ih
  | attempting _ ih => exact .attempting ih
  | pausing hle _ ih => exact .pausing hle ih
  | cancelling _ ih => exact .cancelling ih
  | ended ending => exact .ended ending
  | logged ending line => exact .logged ending line
  | abandoned ending => exact .abandoned ending

/-- A wait goes through one event at least. -/
theorem Lasts.exists_succ {n : Nat} {reaction : AcquirePhase × List AcquireEffect}
    (h : Lasts acquire n now reaction) : ∃ m, n = m + 1 := by
  cases h <;> exact ⟨_, rfl⟩

theorem Lasts.mono {n m : Nat} {reaction : AcquirePhase × List AcquireEffect}
    (h : Lasts acquire n now reaction) (hle : n ≤ m) : Lasts acquire m now reaction := by
  induction hle with
  | refl => exact h
  | step _ ih => exact ih.succ

/-- A wait that ends without the lock and has not given up its place is over. -/
theorem lasts_abandonment {n : Nat} (ending : AcquireEnd) :
    Lasts acquire (n + 1) now (.over ending, acquire.abandonment) := by
  rw [abandonment]
  cases acquire.kind with
  | exclusive => exact .ended ending
  | fair => exact .abandoned ending

/-- A wait that gives up its place has as many replies before it as commands to send. -/
theorem lasts_proceedCancel {n : Nat} {c : Conversation Unit} (h : Within n c) :
    Lasts acquire (n + 1) now (acquire.proceedCancel c) := by
  induction h with
  | done result =>
    cases result with
    | ok => exact .logged _ _
    | error e => exact lasts_abandonment _
  | send _ ih => exact .cancelling ih

/-- A pause brings the deadline nearer by a poll interval, unless it ends there. -/
theorem le_pause_add {deadline now interval more : Nat} (h : deadline ≤ now + (more + interval)) :
    deadline ≤ min (now + interval) deadline + more := by
  omega

/-- An attempt takes three commands at most. -/
theorem within_attempt :
    Within 3 (acquire.client.attempt acquire.kind acquire.token acquire.lease) := by
  cases acquire.kind with
  | exclusive => exact .send fun _ => .done _
  | fair => exact Conversation.within_call

/-- What a wait does with an attempt comes after its commands. -/
theorem lasts_of_vain {n m : Nat} {c : Conversation Bool} (h : Within n c)
    (hvain : Lasts acquire (m + 1) now (acquire.proceedAttempt now (.done (.ok false)))) :
    Lasts acquire (n + m + 1) now (acquire.proceedAttempt now c) := by
  induction h with
  | @done n result =>
    match result with
    | .error e => exact lasts_abandonment _
    | .ok true => exact .ended _
    | .ok false => exact hvain.mono (by omega)
  | @send n command next _ ih =>
    have hsucc : n + 1 + m + 1 = n + m + 1 + 1 := by omega
    rw [hsucc]
    exact .attempting ih

/-- After an attempt in vain, a wait has a pause and an attempt before it for each poll interval
until its deadline, and then it gives up its place. -/
theorem lasts_vain (rounds : Nat)
    (hrounds : acquire.deadline ≤ now + rounds * acquire.client.pollInterval) :
    Lasts acquire (4 * rounds + 4) now (acquire.proceedAttempt now (.done (.ok false))) := by
  induction rounds generalizing now with
  | zero =>
    have hdone : ¬now < acquire.deadline := by simpa using hrounds
    rw [proceedAttempt, if_neg hdone]
    cases acquire.kind with
    | exclusive => exact .logged _ _
    | fair => exact lasts_proceedCancel Conversation.within_call
  | succ rounds ih =>
    rw [proceedAttempt]
    split
    case isTrue hlt =>
      rw [Nat.add_mul, Nat.one_mul] at hrounds
      have hlasts : Lasts acquire (3 + (4 * rounds + 3) + 1) _ (acquire.attempt _) :=
        lasts_of_vain acquire.within_attempt (ih (le_pause_add hrounds))
      exact .pausing (le_min (Nat.le_add_right _ _) hlt.le) (hlasts.mono (by omega))
    case isFalse =>
      cases acquire.kind with
      | exclusive => exact .logged _ _
      | fair =>
        exact (lasts_proceedCancel Conversation.within_call).mono (by omega)

/-- The patience that is shown to a wait is enough. -/
theorem lasts_start (hpoll : 0 < acquire.client.pollInterval) :
    Lasts acquire (Peer.patience acquire) 0 start := by
  have hrounds : acquire.deadline ≤
      0 + (acquire.deadline / acquire.client.pollInterval + 1) * acquire.client.pollInterval := by
    rw [Nat.zero_add, Nat.mul_comm]
    exact (Nat.lt_mul_div_succ _ hpoll).le
  have hlasts := Lasts.connecting (lasts_of_vain acquire.within_attempt (lasts_vain _ hrounds))
  refine hlasts.mono ?_
  rw [Peer.patience]
  omega

end Acquire

/-! ## What is pursued -/

namespace Peer

variable {acquire : Acquire} {peer : Peer}

/-- To answer a command is to have seen it, and nothing else changes that a wait could notice. -/
theorem answer_eq (peer : Peer) (command : Command) :
    (peer.answer command).2.seen = command :: peer.seen ∧
      (peer.answer command).2.outOfReach = peer.outOfReach ∧
      (peer.answer command).2.hasBackground = peer.hasBackground := by
  rw [answer]
  dsimp only
  split <;> exact ⟨rfl, rfl, rfl⟩

/-- The server after the task that a wait has left to the background, if it has left one. -/
def rested (peer : Peer) : Option (Conversation Unit) → Peer
  | some task => if peer.hasBackground then (peer.hold task).2 else peer
  | none => peer

/-- What comes of a wait that is pursued after so many replies: it has come to its end in a way in
which it can have gone on, and the server has seen its commands and then what its task has to say.
If the server is within reach and the wait is not dropped, it has gone on as the replies have
it. -/
structure Pursued (acquire : Acquire) (peer : Peer) (dropAfter : Option Nat) (before : List Command)
    (wait : Wait) (count : Nat) (result : AcquirePhase × Peer) (last : Wait) (mid : Peer) :
    Prop where
  reachable : Wait.Reachable acquire last
  ends : ∃ ending, last.phase = .over ending
  phase : result.1 = last.phase
  seen : mid.seen = last.sent.map Prod.snd ++ before
  rests : result.2 = mid.rested last.task
  outOfReach : mid.outOfReach = peer.outOfReach
  hasBackground : mid.hasBackground = peer.hasBackground
  runs (hkept : dropAfter = none) (hreach : peer.outOfReach = none) :
    ∃ answers : List Reply, ∀ replies : Nat → Except RedisError Reply,
      (∀ i, ∀ reply ∈ answers[i]?, replies (count + 1 + i) = .ok reply) →
        Wait.Runs acquire replies wait last

section Steps

variable {dropAfter : Option Nat} {before : List Command} {n : Nat} {now : Instant} {wait : Wait}

/-- A wait that has ended is pursued no further. -/
theorem pursued_over {effects : List AcquireEffect} {ending : AcquireEnd}
    (hreachable : Wait.Reachable acquire (wait.after acquire now (.over ending, effects)))
    (hseen : peer.seen = wait.sent.map Prod.snd ++ before)
    (hsilent : effects.filterMap AcquireEffect.command? = [])
    (hrests : (peer.pursue acquire dropAfter (n + 1) now (.over ending) effects).2 =
      peer.rested (wait.after acquire now (.over ending, effects)).task) :
    Pursued acquire peer dropAfter before (wait.after acquire now (.over ending, effects))
      wait.sent.length (peer.pursue acquire dropAfter (n + 1) now (.over ending) effects)
      (wait.after acquire now (.over ending, effects)) peer where
  reachable := hreachable
  ends := ⟨ending, rfl⟩
  phase := rfl
  seen := by rw [hseen, Wait.after, hsilent]; rfl
  rests := hrests
  outOfReach := rfl
  hasBackground := rfl
  runs _ _ := ⟨[], fun _ _ => .refl⟩

/-- A wait that has asked for nothing to be replied to is pursued as it will be next. -/
theorem Pursued.of_next {peer' : Peer} {next last : Wait} {mid : Peer} {count : Nat}
    {result : AcquirePhase × Peer} (hout : peer'.outOfReach = peer.outOfReach)
    (hback : peer'.hasBackground = peer.hasBackground)
    (h : Pursued acquire peer' dropAfter before next count result last mid)
    (hnext : dropAfter = none → peer.outOfReach = none →
      ∀ replies, wait.next? acquire replies = some next) :
    Pursued acquire peer dropAfter before wait count result last mid where
  reachable := h.reachable
  ends := h.ends
  phase := h.phase
  seen := h.seen
  rests := h.rests
  outOfReach := h.outOfReach.trans hout
  hasBackground := h.hasBackground.trans hback
  runs hkept hreach := by
    obtain ⟨answers, hruns⟩ := h.runs hkept (hout.trans hreach)
    exact ⟨answers, fun replies hreplies =>
      .head (hnext hkept hreach replies) (hruns replies hreplies)⟩

/-- A wait whose command is replied to is pursued as it will be with the reply. -/
theorem Pursued.of_reply {peer' : Peer} {next last : Wait} {mid : Peer} {count : Nat}
    {result : AcquirePhase × Peer} (hout : peer'.outOfReach = peer.outOfReach)
    (hback : peer'.hasBackground = peer.hasBackground)
    (h : Pursued acquire peer' dropAfter before next (count + 1) result last mid) {reply : Reply}
    (hnext : ∀ replies : Nat → Except RedisError Reply, replies (count + 1) = .ok reply →
      wait.next? acquire replies = some next) :
    Pursued acquire peer dropAfter before wait count result last mid where
  reachable := h.reachable
  ends := h.ends
  phase := h.phase
  seen := h.seen
  rests := h.rests
  outOfReach := h.outOfReach.trans hout
  hasBackground := h.hasBackground.trans hback
  runs hkept hreach := by
    obtain ⟨answers, hruns⟩ := h.runs hkept (hout.trans hreach)
    refine ⟨reply :: answers, fun replies hreplies => ?_⟩
    refine .head (hnext replies (hreplies 0 reply rfl)) (hruns replies fun i found hfound => ?_)
    rw [← hreplies (i + 1) found hfound]
    congr 1
    omega

/-- A wait that is cut short is pursued no further. -/
theorem exists_pursued_of_abandonment {ending : AcquireEnd} (htask : wait.task = none)
    (hreachable :
      Wait.Reachable acquire (wait.after acquire now (.over ending, acquire.abandonment)))
    (hseen : peer.seen = wait.sent.map Prod.snd ++ before) :
    ∃ last mid, Pursued acquire peer dropAfter before
      (wait.after acquire now (.over ending, acquire.abandonment)) wait.sent.length
      (peer.pursue acquire dropAfter (n + 1) now (.over ending) acquire.abandonment) last mid := by
  refine ⟨_, _, pursued_over hreachable hseen ?_ ?_⟩
  · rw [Acquire.abandonment]
    cases acquire.kind <;> rfl
  · rw [Wait.after, htask, Acquire.abandonment]
    cases acquire.kind <;> rfl

/-- However a wait is pursued that does not go through more events than there is patience for, it
comes to its end. -/
theorem exists_pursued {reaction : AcquirePhase × List AcquireEffect}
    (h : acquire.Lasts n now reaction) (htask : wait.task = none)
    (hreachable : Wait.Reachable acquire (wait.after acquire now reaction))
    (hseen : peer.seen = wait.sent.map Prod.snd ++ before) :
    ∃ last mid, Pursued acquire peer dropAfter before (wait.after acquire now reaction)
      wait.sent.length (peer.pursue acquire dropAfter n now reaction.1 reaction.2) last mid := by
  induction h generalizing wait peer with
  | @connecting n now hnext ih =>
    obtain ⟨n, rfl⟩ := hnext.exists_succ
    have hpursue : peer.pursue acquire dropAfter (n + 2) now .connecting [.connect] =
        let reaction := acquire.react now .connecting
          (peer.outOfReach.elim .connected .refused)
        peer.pursue acquire dropAfter (n + 1) now reaction.1 reaction.2 := rfl
    have hidle : (wait.after acquire now (.connecting, [.connect])).task = none := by
      rw [Wait.after, htask]
      rfl
    rw [hpursue]
    cases hout : peer.outOfReach with
    | none =>
      obtain ⟨last, mid, hpursued⟩ :=
        ih hidle (hreachable.step (.meet le_rfl .connected trivial)) hseen
      exact ⟨last, mid, hpursued.of_next rfl rfl fun _ _ _ => rfl⟩
    | some e =>
      have hended := hreachable.step (.meet le_rfl (.refused e) trivial)
      have hpursued := @pursued_over _ peer dropAfter before n now _ _ _ hended hseen rfl
        (by rw [Wait.after, hidle]; rfl)
      exact ⟨_, _, hpursued.of_next rfl rfl fun _ hreach =>
        absurd (hout.symm.trans hreach) (Option.some_ne_none e)⟩
  | @attempting n now command next _ ih =>
    obtain ⟨hheard, hout, hback⟩ := peer.answer_eq command
    have hstep := hreachable.step (.meet le_rfl (.replied (.ok (peer.answer command).1)) trivial)
    have hseen' : (peer.answer command).2.seen =
        (wait.after acquire now (.attempting next, [.send command])).sent.map Prod.snd ++
          before := by
      rw [hheard, hseen]
      rfl
    obtain ⟨last, mid, hpursued⟩ := ih _ (by rw [Wait.after, htask]; rfl) hstep hseen'
    exact ⟨last, mid, hpursued.of_reply hout hback fun replies hreply => by rw [← hreply]; rfl⟩
  | @pausing n now instant hle hnext ih =>
    obtain ⟨n, rfl⟩ := hnext.exists_succ
    have hpursue : peer.pursue acquire dropAfter (n + 2) now .pausing [.pauseUntil instant] =
        let reaction := acquire.react instant .pausing
          (if dropAfter.any (· ≤ peer.seen.length) then .dropped else .resumed)
        peer.pursue acquire dropAfter (n + 1) instant reaction.1 reaction.2 := rfl
    have hidle : (wait.after acquire now (.pausing, [.pauseUntil instant])).task = none := by
      rw [Wait.after, htask]
      rfl
    rw [hpursue]
    cases hdrops : dropAfter.any (· ≤ peer.seen.length) with
    | false =>
      obtain ⟨last, mid, hpursued⟩ :=
        ih hidle (hreachable.step (.meet hle .resumed trivial)) hseen
      refine ⟨last, mid, hpursued.of_next rfl rfl fun _ _ replies => ?_⟩
      have hresumes : (wait.after acquire now (.pausing, [.pauseUntil instant])).next? acquire
          replies = some (Wait.meet acquire (wait.after acquire now
            (.pausing, [.pauseUntil instant])) (max now instant) .resumed) := rfl
      rwa [max_eq_right hle] at hresumes
    | true =>
      have hended := hreachable.step (.meet hle .dropped trivial)
      obtain ⟨last, mid, hpursued⟩ :=
        @exists_pursued_of_abandonment _ peer dropAfter before n _ _ _ hidle hended hseen
      refine ⟨last, mid, hpursued.of_next rfl rfl fun hkept => ?_⟩
      rw [hkept] at hdrops
      cases hdrops
  | @cancelling n now command next _ ih =>
    obtain ⟨hheard, hout, hback⟩ := peer.answer_eq command
    have hstep := hreachable.step (.meet le_rfl (.replied (.ok (peer.answer command).1)) trivial)
    have hseen' : (peer.answer command).2.seen =
        (wait.after acquire now (.cancelling next, [.send command])).sent.map Prod.snd ++
          before := by
      rw [hheard, hseen]
      rfl
    obtain ⟨last, mid, hpursued⟩ := ih _ (by rw [Wait.after, htask]; rfl) hstep hseen'
    exact ⟨last, mid, hpursued.of_reply hout hback fun replies hreply => by rw [← hreply]; rfl⟩
  | ended ending => exact ⟨_, _, pursued_over hreachable hseen rfl (by rw [Wait.after, htask]; rfl)⟩
  | logged ending line =>
    exact ⟨_, _, pursued_over hreachable hseen rfl (by rw [Wait.after, htask]; rfl)⟩
  | abandoned ending => exact ⟨_, _, pursued_over hreachable hseen rfl rfl⟩

end Steps

/-! ## What the task has to say -/

/-- A server that is told all that a task has to say has heard the commands of a wait that can have
gone on so. -/
theorem exists_conversed {before : List Command} {wait : Wait} (c : Conversation Unit)
    (htask : wait.task = some c) (hreachable : Wait.Reachable acquire wait)
    (hseen : peer.seen = wait.sent.map Prod.snd ++ before) :
    ∃ last, Wait.Reachable acquire last ∧ last.phase = wait.phase ∧
      (peer.converse c).2.seen = last.sent.map Prod.snd ++ before ∧
      ∃ result, last.task = some (.done result) := by
  induction c generalizing wait peer with
  | done result => exact ⟨wait, hreachable, rfl, hseen, result, htask⟩
  | send command next ih =>
    have hstep := hreachable.step (.proceeds (.send htask le_rfl (.ok (peer.answer command).1)))
    have hheard : (peer.answer command).2.seen = command :: (wait.sent.map Prod.snd ++ before) := by
      rw [(peer.answer_eq command).1, hseen]
    obtain ⟨last, hlast, hphase, hheard, hdone⟩ :=
      @ih (.ok (peer.answer command).1) (peer.answer command).2 _ rfl hstep hheard
    exact ⟨last, hlast, hphase, hheard, hdone⟩

/-- The task of a wait is carried out if the server has a background and is within reach. -/
theorem exists_rested {before : List Command} {wait : Wait}
    (hreachable : Wait.Reachable acquire wait)
    (hseen : peer.seen = wait.sent.map Prod.snd ++ before) :
    ∃ last, Wait.Reachable acquire last ∧ last.phase = wait.phase ∧
      (peer.rested wait.task).seen = last.sent.map Prod.snd ++ before ∧
      (peer.hasBackground = true → peer.outOfReach = none →
        ∀ c ∈ last.task, ∃ result, c = .done result) := by
  cases htask : wait.task with
  | none => exact ⟨wait, hreachable, rfl, hseen, fun _ _ c hc => nomatch htask.symm.trans hc⟩
  | some task =>
    cases hback : peer.hasBackground with
    | false =>
      rw [rested, hback]
      exact ⟨wait, hreachable, rfl, hseen, nofun⟩
    | true =>
      rw [rested, hback, if_pos rfl, hold]
      cases hout : peer.outOfReach with
      | some e => exact ⟨wait, hreachable, rfl, hseen, fun _ hreach => nomatch hreach⟩
      | none =>
        obtain ⟨last, hlast, hphase, hheard, result, hdone⟩ :=
          exists_conversed task htask hreachable hseen
        exact ⟨last, hlast, hphase, hheard, fun _ _ c hc =>
          ⟨result, Option.some.inj (hc.symm.trans hdone)⟩⟩

/-! ## Waits from beginning to end -/

/-- What comes of a wait that is awaited. -/
theorem exists_pursued_start (peer : Peer) (dropAfter : Option Nat)
    (hpoll : 0 < acquire.client.pollInterval) :
    ∃ last mid, Pursued acquire peer (dropAfter.map (peer.seen.length + ·)) peer.seen (.start 0) 0
      (peer.await acquire dropAfter) last mid :=
  @exists_pursued acquire peer _ peer.seen _ 0 (.unbegun 0) _ (acquire.lasts_start hpoll) rfl
    (.start 0) rfl

/-- Whatever the server replies or is out of reach, and wherever the wait is dropped: the wait
comes to an end in which it can have gone on, and the server sees the commands that have been sent
for it. If it has a background and is within reach, the task that the wait has left there is
done. -/
theorem exists_awaited (peer : Peer) (dropAfter : Option Nat)
    (hpoll : 0 < acquire.client.pollInterval) :
    ∃ last ending, Wait.Reachable acquire last ∧ last.phase = .over ending ∧
      (peer.await acquire dropAfter).1 = .over ending ∧
      (peer.await acquire dropAfter).2.seen = last.sent.map Prod.snd ++ peer.seen ∧
      (peer.hasBackground = true → peer.outOfReach = none →
        ∀ c ∈ last.task, ∃ result, c = .done result) := by
  obtain ⟨ended, mid, hpursued⟩ := exists_pursued_start peer dropAfter hpoll
  obtain ⟨ending, hending⟩ := hpursued.ends
  obtain ⟨last, hreachable, hphase, hseen, hdone⟩ := exists_rested hpursued.reachable hpursued.seen
  rw [← hpursued.rests] at hseen
  rw [hpursued.outOfReach, hpursued.hasBackground] at hdone
  exact ⟨last, ending, hreachable, hphase.trans hending, hpursued.phase.trans hending, hseen, hdone⟩

/-- A wait for which nothing happens any more is the only one that another one goes on to be in the
end. -/
theorem eq_of_runs {replies : Nat → Except RedisError Reply} {wait last last' : Wait}
    (h : Wait.Runs acquire replies wait last) (h' : Wait.Runs acquire replies wait last')
    (hrests : last.next? acquire replies = none) (hrests' : last'.next? acquire replies = none) :
    last = last' := by
  have hunique : Relator.RightUnique
      fun wait next : Wait => wait.next? acquire replies = some next := by
    intro wait next next' hnext hnext'
    exact Option.some.inj (hnext.symm.trans hnext')
  -- Of two waits that one goes on to be, one goes on to be the other.
  rcases Relation.ReflTransGen.total_of_right_unique hunique h h' with hmore | hmore
  · obtain heq | ⟨next, hnext, -⟩ := hmore.cases_head
    · exact heq
    · cases hrests.symm.trans hnext
  · obtain heq | ⟨next, hnext, -⟩ := hmore.cases_head
    · exact heq.symm
    · cases hrests'.symm.trans hnext

/-- A wait that is not dropped, for a server within reach, ends as the server's replies conclude
it. -/
theorem exists_awaited_concluded (hreach : peer.outOfReach = none)
    (hpoll : 0 < acquire.client.pollInterval) :
    ∃ replies last, Wait.Runs acquire replies (.start 0) last ∧
      Wait.Concluded acquire 0 replies (acquire.deadline ⌈/⌉ acquire.client.pollInterval) last ∧
      (peer.await acquire none).1 = last.phase ∧
      (last.task = none →
        (peer.await acquire none).2.seen = last.sent.map Prod.snd ++ peer.seen) := by
  obtain ⟨last, mid, hpursued⟩ := exists_pursued_start peer none hpoll
  obtain ⟨answers, hruns⟩ := hpursued.runs rfl hreach
  -- The replies are numbered from one.
  have hruns := hruns (fun n => .ok (answers[n - 1]?.getD .nil)) fun i reply hreply => by
    rw [Nat.zero_add, Nat.add_sub_cancel_left, hreply]
    rfl
  obtain ⟨concluded, hruns', hconcluded⟩ :=
    Wait.exists_runs_concluded (fun n => .ok (answers[n - 1]?.getD .nil)) hpoll
      (Nat.zero_add acquire.deadline).symm
  obtain ⟨ending, hending⟩ := hpursued.ends
  obtain ⟨ending', hending'⟩ := hconcluded.ends
  obtain rfl := eq_of_runs hruns hruns' (Wait.next?_eq_none hending) (Wait.next?_eq_none hending')
  refine ⟨_, last, hruns, hconcluded, hpursued.phase, fun htask => ?_⟩
  rw [hpursued.rests, htask]
  exact hpursued.seen

end Peer
end Turnstile.Redis
