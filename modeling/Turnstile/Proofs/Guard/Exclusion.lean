import Turnstile.Proofs.Guard.Scene

/-!
# One operation at a time

A call claims its lock from the moment it is let in until its operation has come to an end,
in whatever way. As long as its lease has not lapsed and nobody forces the lock, a call that
claims it is the holder on record: no release can take the lock away, since a release
carries the token of a call that has resigned. There is one holder, so there is one call.
-/

namespace Turnstile.Guard

open Lock (LockToken Room Owner Happens)

variable {ι τ ε : Type}

/-! ## How far a call has come -/

/-- An effect that a call may leave behind: it takes no lock and runs nothing. -/
def Effect.TidiesUp (owner : Owner) : Effect → Prop
  | .log _ | .abandonAcquire | .abandonRelease | .release _ => True
  | .detachRelease token => token.owner = owner
  | .tryAcquire .. | .acquire .. | .startOperation | .dropOperation => False

namespace Passage

/-- A call that has not been let in yet. -/
inductive Seeks (plan : Plan) : Passage τ ε → Prop
  | acquiring {todo : List Effect} {lapsesAt : Option Instant}
      (htodo : todo = plan.opening ∨ todo = [plan.request] ∨ todo = []) :
      Seeks plan ⟨.acquiring plan, todo, false, lapsesAt⟩

/-- A call that has been let in and whose operation has not come to an end. -/
inductive Claims (token : LockToken) : Passage τ ε → Prop
  | admitted {lines : List LogLine} {lapsesAt : Option Instant} :
      Claims token ⟨.running token, lines.map .log ++ [.startOperation], false, lapsesAt⟩
  | running {lapsesAt : Option Instant} : Claims token ⟨.running token, [], true, lapsesAt⟩
  | stopping {ending : CallEnd τ ε} {lapsesAt : Option Instant} :
      Claims token ⟨.over ending, [.dropOperation, .detachRelease token], true, lapsesAt⟩

/-- A call that gives its lock back, or has no part in any lock any more. -/
inductive Resigned (owner : Owner) : Passage τ ε → Prop
  | releasing {token : LockToken} {outcome : Except ε τ} {todo : List Effect}
      {lapsesAt : Option Instant} (howner : token.owner = owner)
      (htodo : ∀ effect ∈ todo, effect.TidiesUp owner) :
      Resigned owner ⟨.releasing token outcome, todo, false, lapsesAt⟩
  | ended {ending : CallEnd τ ε} {todo : List Effect} {lapsesAt : Option Instant}
      (htodo : ∀ effect ∈ todo, effect.TidiesUp owner) :
      Resigned owner ⟨.over ending, todo, false, lapsesAt⟩

variable {passage : Passage τ ε} {plan : Plan} {token : LockToken} {owner : Owner}

/-- A call that has not been let in claims nothing. -/
theorem Seeks.not_claims (h : passage.Seeks plan) : ¬passage.Claims token := by
  cases h
  rintro ⟨⟩

/-- A call that has resigned claims nothing. -/
theorem Resigned.not_claims (h : passage.Resigned owner) : ¬passage.Claims token := by
  cases h <;> rintro ⟨⟩

/-- A call that has not been let in has not resigned. -/
theorem Seeks.not_resigned (h : passage.Seeks plan) : ¬passage.Resigned owner := by
  cases h
  rintro ⟨⟩

/-- A call begins by seeking its lock, if it has a key. -/
theorem seeks_start (plan : Plan) : (start (.ok plan) : Passage τ ε).Seeks plan :=
  .acquiring (.inl rfl)

/-- A call without a key is over at once. -/
theorem resigned_start (e : Key.KeyError) : (start (.error e) : Passage τ ε).Resigned owner :=
  .ended (by rintro effect ⟨⟩)

/-- A call that is let in claims its lock. -/
theorem Seeks.claims_enter (h : passage.Seeks plan) (htodo : passage.todo = []) (now : Instant)
    (token : LockToken) (lease : Option Duration) :
    (passage.enter now token lease).Claims token := by
  cases h
  change _ = [] at htodo
  subst htodo
  exact .admitted

/-- A call that is turned away resigns. -/
theorem Seeks.resigned_refused (h : passage.Seeks plan) (htodo : passage.todo = []) :
    (passage.react (.acquired (.ok none))).Resigned owner := by
  obtain ⟨-⟩ := h
  change _ = [] at htodo
  subst htodo
  cases hattempt : plan.attempt <;>
    simp only [react, CallPhase.react, Plan.conclude, hattempt] <;>
    exact .ended (by simp [Effect.TidiesUp])

/-- A call whose request for its lock crashes resigns. -/
theorem Seeks.resigned_crashed (h : passage.Seeks plan) (htodo : passage.todo = []) :
    (passage.react .crashed).Resigned owner := by
  obtain ⟨-⟩ := h
  change _ = [] at htodo
  subst htodo
  exact .ended (by simp [CallPhase.react])

/-- A call that is dropped while it waits resigns. -/
theorem Seeks.resigned_dropped (h : passage.Seeks plan) (htodo : passage.todo = []) :
    (passage.react .dropped).Resigned owner := by
  obtain ⟨-⟩ := h
  change _ = [] at htodo
  subst htodo
  exact .ended (by simp [CallPhase.react, Effect.TidiesUp])

/-- A call whose operation is dropped claims its lock until the operation has stopped. -/
theorem Claims.claims_dropped (h : passage.Claims token) (htodo : passage.todo = []) :
    (passage.react .dropped).Claims token := by
  cases h with
  | admitted => simp at htodo
  | running => exact .stopping
  | stopping => cases htodo

/-- A call whose operation has ended resigns. -/
theorem Claims.resigned_ended (h : passage.Claims token) (howner : token.owner = owner)
    (htodo : passage.todo = []) {event : Event τ ε}
    (hevent : event = .panicked ∨ ∃ outcome, event = .ended outcome) :
    ({ passage.react event with isRunning := false } : Passage τ ε).Resigned owner := by
  cases h with
  | admitted => simp at htodo
  | stopping => cases htodo
  | running =>
    rcases hevent with rfl | ⟨outcome, rfl⟩
    · exact .ended (by simp [react, CallPhase.react, Effect.TidiesUp, howner])
    · exact .releasing howner (by
        simp [react, CallPhase.react, Release.opening, Effect.TidiesUp])

/-- What a call that has resigned has to do first is to tidy up, and it stays resigned then. -/
theorem Resigned.rest (h : passage.Resigned owner) {effect : Effect} {rest : List Effect}
    (htodo : passage.todo = effect :: rest) :
    effect.TidiesUp owner ∧ ({ passage with todo := rest } : Passage τ ε).Resigned owner := by
  cases h with
  | releasing howner htidies =>
    change _ = _ at htodo
    subst htodo
    exact ⟨htidies effect List.mem_cons_self,
      .releasing howner fun other hmem => htidies other (List.mem_cons_of_mem _ hmem)⟩
  | ended htidies =>
    change _ = _ at htodo
    subst htodo
    exact ⟨htidies effect List.mem_cons_self,
      .ended fun other hmem => htidies other (List.mem_cons_of_mem _ hmem)⟩

/-- A call that has resigned stays so when it is dropped. -/
theorem Resigned.resigned_dropped (h : passage.Resigned owner) (htodo : passage.todo = []) :
    (passage.react .dropped).Resigned owner := by
  cases h with
  | releasing howner =>
    change _ = [] at htodo
    subst htodo
    exact .ended (by simp [CallPhase.react, Effect.TidiesUp, howner])
  | ended =>
    change _ = [] at htodo
    subst htodo
    exact .ended (by simp [CallPhase.react])

/-- A call that has resigned stays so when its release is answered. -/
theorem Resigned.resigned_released (h : passage.Resigned owner) (htodo : passage.todo = [])
    (released : Bool) : (passage.react (.released (.ok released))).Resigned owner := by
  cases h with
  | releasing howner =>
    change _ = [] at htodo
    subst htodo
    exact .ended (by
      cases released <;> simp [CallPhase.react, Release.conclude, Effect.TidiesUp])
  | ended =>
    change _ = [] at htodo
    subst htodo
    exact .ended (by simp [CallPhase.react])

end Passage

/-! ## What holds in every scene -/

/-- Who may wait: a call with its own token and the lease of its plan. -/
def Expected (owners : ι → Owner) (invocations : ι → Invocation) (token : LockToken)
    (lease : Option Duration) : Prop :=
  ∃ i plan, (invocations i).plan = .ok plan ∧ token = ⟨plan.key, owners i⟩ ∧ lease = plan.lease

/-- What holds in every scene that steps lead to. -/
structure Scene.Sound (owners : ι → Owner) (invocations : ι → Invocation) (scene : Scene ι τ ε) :
    Prop where
  /-- Every call seeks its lock, claims it, or has resigned. -/
  stands : ∀ i passage, scene.calls i = some passage →
    (∃ plan, (invocations i).plan = .ok plan ∧
      (passage.Seeks plan ∨ passage.Claims ⟨plan.key, owners i⟩)) ∨ passage.Resigned (owners i)
  /-- Only calls wait. -/
  waiters : ∀ waiter ∈ scene.room.waiters, Expected owners invocations waiter.token waiter.lease
  /-- Tokens are given to tasks of their own by calls that have resigned. -/
  detached : ∀ token ∈ scene.detached, ∃ i passage, scene.calls i = some passage ∧
    passage.Resigned (owners i) ∧ token.owner = owners i
  /-- A call that claims its lock in time is the holder, unless the lock has been forced. -/
  holder : ∀ i passage plan, scene.calls i = some passage → (invocations i).plan = .ok plan →
    passage.Claims ⟨plan.key, owners i⟩ → plan.key ∉ scene.forced →
    (∀ expiry ∈ passage.lapsesAt, scene.clock < expiry) →
    (scene.room.slot plan.key).holder = some ⟨owners i, passage.lapsesAt⟩

namespace Scene.Sound

variable {owners : ι → Owner} {invocations : ι → Invocation}
  {scene : Scene ι τ ε} {i : ι} {passage after : Passage τ ε}

/-- Everything holds before any call. -/
theorem start : Sound owners invocations (Scene.start : Scene ι τ ε) where
  stands := by rintro i passage ⟨⟩
  waiters := by rintro waiter ⟨⟩
  detached := by rintro token ⟨⟩
  holder := by rintro i passage plan ⟨⟩

/-- Time passes. -/
theorem wait (h : Sound owners invocations scene) (span : Duration) :
    Sound owners invocations { scene with clock := scene.clock + span } where
  stands := h.stands
  waiters := h.waiters
  detached := h.detached
  holder i passage plan hi hplan hclaims hforced hlive :=
    h.holder i passage plan hi hplan hclaims hforced fun expiry he =>
      Nat.lt_of_le_of_lt (Nat.le_add_right _ _) (hlive expiry he)

/-- Keys are put down as forced. -/
theorem force (h : Sound owners invocations scene) (key : String) :
    Sound owners invocations { scene with forced := key :: scene.forced } where
  stands := h.stands
  waiters := h.waiters
  detached := h.detached
  holder i passage plan hi hplan hclaims hforced :=
    h.holder i passage plan hi hplan hclaims fun hmem => hforced (List.mem_cons_of_mem _ hmem)

/-- A token is given to a task of its own by a call that has resigned. -/
theorem detach (h : Sound owners invocations scene) (hi : scene.calls i = some passage)
    (hresigned : passage.Resigned (owners i)) {token : LockToken}
    (howner : token.owner = owners i) :
    Sound owners invocations { scene with detached := token :: scene.detached } where
  stands := h.stands
  waiters := h.waiters
  detached other hmem := by
    rcases List.mem_cons.1 hmem with rfl | hmem
    · exact ⟨i, passage, hi, hresigned, howner⟩
    · exact h.detached other hmem
  holder := h.holder

/-- A task of its own is done with its token. -/
theorem erase (h : Sound owners invocations scene) (token : LockToken) :
    Sound owners invocations { scene with detached := scene.detached.erase token } where
  stands := h.stands
  waiters := h.waiters
  detached other hmem := h.detached other (List.mem_of_mem_erase hmem)
  holder := h.holder

/-- Something happens in the room that ends no claim. -/
theorem happens (h : Sound owners invocations scene) {now : Instant} {event : Lock.Event}
    {next : Room} (happens : Happens now scene.room event next) (hnow : now ≤ scene.clock)
    (hentered : ∀ token kind wait lease, event = .entered token kind wait lease →
      Expected owners invocations token lease)
    (hends : ∀ i passage plan, scene.calls i = some passage → (invocations i).plan = .ok plan →
      passage.Claims ⟨plan.key, owners i⟩ → plan.key ∉ scene.forced →
      ¬event.Ends ⟨plan.key, owners i⟩) :
    Sound owners invocations { scene with room := next } where
  stands := h.stands
  waiters waiter hw := by
    rcases happens.waiter_origin hw with ⟨w, hmem, htoken, -, hlease⟩ | ⟨wait, he⟩
    · rw [← htoken, ← hlease]
      exact h.waiters w hmem
    · exact hentered _ _ _ _ he
  detached := h.detached
  holder i passage plan hi hplan hclaims hforced hlive := by
    refine happens.holder_persists (h.holder i passage plan hi hplan hclaims hforced hlive) ?_
      (hends i passage plan hi hplan hclaims hforced)
    cases hl : passage.lapsesAt with
    | none => rfl
    | some expiry =>
      have hlt : scene.clock < expiry := hlive expiry hl
      simp only [Lock.Holder.hasLapsed, Option.any_some, decide_eq_false_iff_not, Nat.not_le]
      exact Nat.lt_of_le_of_lt hnow hlt

/-- Something happens in the room that neither brings in a waiter nor ends a hold. -/
theorem stir (h : Sound owners invocations scene) {now : Instant} {event : Lock.Event}
    {next : Room} (happens : Happens now scene.room event next) (hnow : now ≤ scene.clock)
    (hquiet : event.isQuiet = true) : Sound owners invocations { scene with room := next } :=
  h.happens happens hnow (by rintro _ _ _ _ rfl; cases hquiet)
    fun _ _ _ _ _ _ _ => Lock.Event.not_ends_of_isQuiet hquiet _

/-- Whoever is not in the room any more has left nothing there. -/
theorem leave (h : Sound owners invocations scene) (owner : Owner) :
    Sound owners invocations { scene with room := scene.room.leave owner } := by
  cases hw : scene.room.waiter? owner with
  | none =>
    have hsame : scene.room.leave owner = scene.room := by simp [Room.leave, hw]
    rw [hsame]
    exact h
  | some waiter =>
    exact h.stir (.left hw) (Nat.zero_le _) rfl

/-- A call that has resigned gives its lock back. -/
theorem release (h : Sound owners invocations scene) (hdistinct : Function.Injective owners)
    (hi : scene.calls i = some passage) (hresigned : passage.Resigned (owners i))
    {token : LockToken} (howner : token.owner = owners i) {now : Instant}
    (hnow : now ≤ scene.clock) :
    Sound owners invocations { scene with room := (scene.room.release now token).2 } := by
  refine h.happens (.released token) hnow (by rintro _ _ _ _ ⟨⟩) ?_
  intro j q plan hq hplan hclaims _ hends
  rw [Lock.Event.ends_released_iff] at hends
  have hj : j = i := hdistinct ((congrArg LockToken.owner hends).symm.trans howner)
  subst hj
  cases hi.symm.trans hq
  exact hresigned.not_claims hclaims

/-- A call whose lock is to be taken seeks it by its plan. -/
theorem seeks_of_acquiring (h : Sound owners invocations scene)
    (hi : scene.calls i = some passage) {plan : Plan} (hphase : passage.phase = .acquiring plan) :
    (invocations i).plan = .ok plan ∧ passage.Seeks plan := by
  rcases h.stands i passage hi with ⟨plan', hplan, hseeks | hclaims⟩ | hresigned
  · obtain ⟨htodo⟩ := id hseeks
    cases hphase
    exact ⟨hplan, hseeks⟩
  · cases hclaims <;> cases hphase
  · cases hresigned <;> cases hphase

/-- A call that waits waits with its own token and the lease of its plan. -/
theorem waiter_eq (h : Sound owners invocations scene) (hdistinct : Function.Injective owners)
    {plan : Plan} (hplan : (invocations i).plan = .ok plan) {waiter : Lock.Waiter}
    (hw : scene.room.waiter? (owners i) = some waiter) :
    waiter.token = ⟨plan.key, owners i⟩ ∧ waiter.lease = plan.lease := by
  obtain ⟨hmem, howner⟩ := Room.mem_of_waiter? hw
  obtain ⟨j, plan', hplan', htoken, hlease⟩ := h.waiters waiter hmem
  have hj : j = i := hdistinct ((congrArg LockToken.owner htoken).symm.trans howner)
  subst hj
  cases hplan.symm.trans hplan'
  exact ⟨htoken, hlease⟩

/-- A call whose operation runs in time holds its lock. -/
theorem holder_of_runs (h : Sound owners invocations scene) {i : ι} {key : String}
    (hi : scene.Runs invocations i key) (htime : scene.InTime i) (hforced : key ∉ scene.forced) :
    ∃ expiry, (scene.room.slot key).holder = some ⟨owners i, expiry⟩ := by
  obtain ⟨hkey, passage, hp, hrunning⟩ := hi
  rcases h.stands i passage hp with ⟨plan, hplan, hseeks | hclaims⟩ | hresigned
  · cases hseeks
    cases hrunning
  · cases (Invocation.key_of_plan hplan).symm.trans hkey
    exact ⟨_, h.holder i passage plan hp hplan hclaims hforced (htime passage hp)⟩
  · cases hresigned <;> cases hrunning

variable [DecidableEq ι]

/-- A call goes on, without a change of the room. -/
theorem put (h : Sound owners invocations scene) (hi : ∀ p ∈ scene.calls i,
      p.Resigned (owners i) → after.Resigned (owners i))
    (hstands : (∃ plan, (invocations i).plan = .ok plan ∧
      (after.Seeks plan ∨ after.Claims ⟨plan.key, owners i⟩)) ∨ after.Resigned (owners i))
    (hholder : ∀ plan, (invocations i).plan = .ok plan → after.Claims ⟨plan.key, owners i⟩ →
      plan.key ∉ scene.forced → (∀ expiry ∈ after.lapsesAt, scene.clock < expiry) →
      (scene.room.slot plan.key).holder = some ⟨owners i, after.lapsesAt⟩) :
    Sound owners invocations (scene.put i after) where
  stands j q hq := by
    by_cases hj : j = i
    · subst hj
      cases (Function.update_self j _ scene.calls).symm.trans hq
      exact hstands
    · exact h.stands j q ((Function.update_of_ne hj _ scene.calls).symm.trans hq)
  waiters := h.waiters
  detached token hmem := by
    obtain ⟨j, q, hq, hresigned, howner⟩ := h.detached token hmem
    by_cases hj : j = i
    · subst hj
      exact ⟨j, after, Function.update_self .., hi q hq hresigned, howner⟩
    · exact ⟨j, q, (Function.update_of_ne hj ..).trans hq, hresigned, howner⟩
  holder j q plan hq := by
    by_cases hj : j = i
    · subst hj
      cases (Function.update_self j _ scene.calls).symm.trans hq
      exact hholder plan
    · exact h.holder j q plan ((Function.update_of_ne hj _ scene.calls).symm.trans hq)

/-- A call resigns. -/
theorem resign (h : Sound owners invocations scene) (hresigned : after.Resigned (owners i)) :
    Sound owners invocations (scene.put i after) :=
  h.put (fun _ _ _ => hresigned) (.inr hresigned)
    fun _ _ hclaims => absurd hclaims hresigned.not_claims

/-- A call seeks its lock still. -/
theorem seek (h : Sound owners invocations scene) {plan : Plan}
    (hplan : (invocations i).plan = .ok plan)
    (hi : ∀ p ∈ scene.calls i, ¬p.Resigned (owners i)) (hseeks : after.Seeks plan) :
    Sound owners invocations (scene.put i after) :=
  h.put (fun p hp hresigned => absurd hresigned (hi p hp)) (.inl ⟨plan, hplan, .inl hseeks⟩)
    fun _ _ hclaims => absurd hclaims hseeks.not_claims

/-- A call claims its lock still. -/
theorem claim (h : Sound owners invocations scene) {plan : Plan}
    (hplan : (invocations i).plan = .ok plan) (hi : scene.calls i = some passage)
    (hbefore : passage.Claims ⟨plan.key, owners i⟩) (hclaims : after.Claims ⟨plan.key, owners i⟩)
    (hlapses : after.lapsesAt = passage.lapsesAt) :
    Sound owners invocations (scene.put i after) := by
  refine h.put ?_ (.inl ⟨plan, hplan, .inr hclaims⟩) ?_
  · intro p hp hresigned
    cases hi.symm.trans hp
    exact absurd hbefore hresigned.not_claims
  · intro plan' hplan' _ hforced hlive
    cases hplan.symm.trans hplan'
    rw [hlapses] at hlive ⊢
    exact h.holder i passage plan hi hplan hbefore hforced hlive

/-- A call is let in: it takes its lock in the room. -/
theorem enter (h : Sound owners invocations scene) {plan : Plan} {now : Instant}
    {event : Lock.Event} {next : Room} (hplan : (invocations i).plan = .ok plan)
    (hi : scene.calls i = some passage) (hseeks : passage.Seeks plan)
    (hafter : (after.enter now ⟨plan.key, owners i⟩ plan.lease).Claims ⟨plan.key, owners i⟩)
    (happens : Happens now scene.room event next) (hnow : now ≤ scene.clock)
    (hacq : event.acquisition? = some (⟨plan.key, owners i⟩, plan.lease)) :
    Sound owners invocations
      ({ scene with room := next }.put i (after.enter now ⟨plan.key, owners i⟩ plan.lease)) := by
  have hroom : Sound owners invocations { scene with room := next } :=
    h.stir happens hnow (Lock.Event.isQuiet_of_acquisition hacq)
  refine hroom.put ?_ (.inl ⟨plan, hplan, .inr hafter⟩) ?_
  · intro p hp hresigned
    cases hi.symm.trans hp
    exact absurd hresigned hseeks.not_resigned
  · intro plan' hplan' _ _ _
    cases hplan.symm.trans hplan'
    exact happens.holder_of_acquisition hacq

/-- A call asks for its lock. -/
theorem ask (h : Sound owners invocations scene) (hi : scene.calls i = some passage) {plan : Plan}
    (hplan : (invocations i).plan = .ok plan) (hseeks : passage.Seeks plan)
    (hafter : after.Seeks plan) (htodo : after.todo = []) {now : Instant}
    (hnow : now ≤ scene.clock) :
    Sound owners invocations (scene.carryOut now i (owners i) after plan.request) := by
  cases hattempt : plan.attempt with
  | once =>
    have htried := @Happens.tried now scene.room ⟨plan.key, owners i⟩ plan.lease
    simp only [Plan.request, hattempt, Scene.carryOut]
    cases ht : (scene.room.tryAcquire now ⟨plan.key, owners i⟩ plan.lease).1 with
    | ok taken =>
      cases taken with
      | true =>
        exact h.enter hplan hi hseeks (hafter.claims_enter htodo ..) htried hnow (by rw [ht]; rfl)
      | false => exact (h.stir htried hnow rfl).resign (hafter.resigned_refused htodo)
    | error crash => exact (h.stir htried hnow rfl).resign (hafter.resigned_crashed htodo)
  | waiting kind wait =>
    simp only [Plan.request, hattempt, Scene.carryOut]
    cases henter : scene.room.enter now ⟨plan.key, owners i⟩ kind wait plan.lease with
    | error crash => exact h.resign (hafter.resigned_crashed htodo)
    | ok next =>
      refine Scene.Sound.seek (h.happens (.entered henter) hnow ?_ ?_) hplan (fun p hp => ?_) hafter
      · rintro _ _ _ _ ⟨⟩
        exact ⟨i, plan, hplan, rfl, rfl⟩
      · intro _ _ _ _ _ _ _
        simp [Lock.Event.Ends]
      · cases hi.symm.trans hp
        exact hseeks.not_resigned

/-- A call that has not been let in says so in the log, and asks for its lock. -/
theorem carryOut_of_seeks (h : Sound owners invocations scene)
    (hi : scene.calls i = some passage) {plan : Plan} (hplan : (invocations i).plan = .ok plan)
    (hseeks : passage.Seeks plan) {now : Instant} (hnow : now ≤ scene.clock) {effect : Effect}
    {rest : List Effect} (htodo : passage.todo = effect :: rest) :
    Sound owners invocations
      (scene.carryOut now i (owners i) { passage with todo := rest } effect) := by
  obtain ⟨rfl | rfl | rfl⟩ := id hseeks
  · cases htodo
    refine h.seek hplan (fun p hp => ?_) (.acquiring (.inr (.inl rfl)))
    cases hi.symm.trans hp
    exact hseeks.not_resigned
  · cases htodo
    exact h.ask hi hplan hseeks (.acquiring (.inr (.inr rfl))) rfl hnow
  · cases htodo

/-- A call that claims its lock begins its operation, or stops it. -/
theorem carryOut_of_claims (h : Sound owners invocations scene)
    (hi : scene.calls i = some passage) {plan : Plan} (hplan : (invocations i).plan = .ok plan)
    (hclaims : passage.Claims ⟨plan.key, owners i⟩) (now : Instant) {effect : Effect}
    {rest : List Effect} (htodo : passage.todo = effect :: rest) :
    Sound owners invocations
      (scene.carryOut now i (owners i) { passage with todo := rest } effect) := by
  cases id hclaims with
  | @admitted lines =>
    cases lines with
    | nil =>
      cases htodo
      exact h.claim hplan hi hclaims .running rfl
    | cons line lines =>
      cases htodo
      exact h.claim hplan hi hclaims .admitted rfl
  | running => cases htodo
  | stopping =>
    cases htodo
    exact h.resign (.ended (by simp [Effect.TidiesUp]))

/-- A call that has resigned tidies up. -/
theorem carryOut_of_resigned (h : Sound owners invocations scene)
    (hresigned : passage.Resigned (owners i)) (now : Instant) {effect : Effect}
    {rest : List Effect} (htodo : passage.todo = effect :: rest) :
    Sound owners invocations
      (scene.carryOut now i (owners i) { passage with todo := rest } effect) := by
  obtain ⟨htidies, hrest⟩ := hresigned.rest htodo
  cases effect with
  | log | release | abandonRelease => exact h.resign hrest
  | abandonAcquire => exact (h.leave (owners i)).resign hrest
  | detachRelease token => exact (h.resign hrest).detach (Function.update_self ..) hrest htidies
  | tryAcquire | acquire | startOperation | dropOperation => cases htidies

/-- Whatever a call has to do first, it may do. -/
theorem carryOut (h : Sound owners invocations scene) (hi : scene.calls i = some passage)
    {now : Instant} (hnow : now ≤ scene.clock) {effect : Effect} {rest : List Effect}
    (htodo : passage.todo = effect :: rest) :
    Sound owners invocations
      (scene.carryOut now i (owners i) { passage with todo := rest } effect) := by
  rcases h.stands i passage hi with ⟨plan, hplan, hseeks | hclaims⟩ | hresigned
  · exact h.carryOut_of_seeks hi hplan hseeks hnow htodo
  · exact h.carryOut_of_claims hi hplan hclaims now htodo
  · exact h.carryOut_of_resigned hresigned now htodo

/-- A call that waits looks at its slot. -/
theorem look (h : Sound owners invocations scene) (hdistinct : Function.Injective owners)
    (hi : scene.calls i = some passage) {now : Instant} (hnow : now ≤ scene.clock)
    (htodo : passage.todo = []) {plan : Plan} (hphase : passage.phase = .acquiring plan)
    {waiter : Lock.Waiter} (hw : scene.room.waiter? (owners i) = some waiter) :
    Sound owners invocations (scene.look now i passage waiter) := by
  obtain ⟨hplan, hseeks⟩ := h.seeks_of_acquiring hi hphase
  obtain ⟨htoken, hlease⟩ := h.waiter_eq hdistinct hplan hw
  have hlooked := @Happens.looked now _ _ _ hw
  simp only [Scene.look, htoken, hlease]
  cases ha : (scene.room.look now (owners i)).1 with
  | admitted =>
    refine h.enter hplan hi hseeks (hseeks.claims_enter htodo ..) hlooked hnow ?_
    rw [ha, ← htoken, ← hlease]
    rfl
  | crashes => exact (h.stir hlooked hnow rfl).resign (hseeks.resigned_crashed htodo)
  | waits | givesUp | gone =>
    refine (h.stir hlooked hnow rfl).seek hplan (fun p hp => ?_) hseeks
    cases hi.symm.trans hp
    exact hseeks.not_resigned

/-- Every step keeps what holds. -/
theorem step (h : Sound owners invocations scene) (hdistinct : Function.Injective owners)
    {next : Scene ι τ ε} (step : Step owners invocations scene next) :
    Sound owners invocations next := by
  cases step with
  | wait span => exact h.wait span
  | @begin i hi =>
    cases hplan : (invocations i).plan with
    | ok plan =>
      refine h.seek hplan (fun p hp => ?_) (Passage.seeks_start plan)
      cases hi.symm.trans hp
    | error e => exact h.resign (Passage.resigned_start e)
  | carryOut hi hnow htodo => exact h.carryOut hi hnow htodo
  | look hi hnow htodo hphase hwaiter => exact h.look hdistinct hi hnow htodo hphase hwaiter
  | @giveUp i passage plan waiter hi htodo hphase hwaiter hleaving =>
    have hseeks := (h.seeks_of_acquiring hi hphase).2
    exact (h.leave (owners i)).resign (hseeks.resigned_refused htodo)
  | @finish i passage event hi htodo hrunning hevent =>
    rcases h.stands i passage hi with ⟨plan, hplan, hseeks | hclaims⟩ | hresigned
    · cases hseeks
      cases hrunning
    · exact h.resign (hclaims.resigned_ended rfl htodo hevent)
    · cases hresigned <;> cases hrunning
  | @drop i passage hi htodo =>
    rcases h.stands i passage hi with ⟨plan, hplan, hseeks | hclaims⟩ | hresigned
    · exact h.resign (hseeks.resigned_dropped htodo)
    · exact h.claim hplan hi hclaims (hclaims.claims_dropped htodo) rfl
    · exact h.resign (hresigned.resigned_dropped htodo)
  | @release i now passage token outcome hi hnow htodo hphase =>
    rcases h.stands i passage hi with ⟨plan, hplan, hseeks | hclaims⟩ | hresigned
    · cases hseeks
      cases hphase
    · cases hclaims <;> cases hphase
    · have howner : token.owner = owners i := by
        cases hresigned with
        | releasing howner =>
          cases hphase
          exact howner
        | ended => cases hphase
      exact (h.release hdistinct hi hresigned howner hnow).resign
        (hresigned.resigned_released htodo _)
  | @free now token hnow htoken =>
    obtain ⟨i, passage, hi, hresigned, howner⟩ := h.detached token htoken
    exact (h.release hdistinct hi hresigned howner hnow).erase token
  | force key =>
    refine (h.force key).happens (.forced key) (Nat.zero_le _) (by rintro _ _ _ _ ⟨⟩) ?_
    rintro i passage plan - - - hforced hends
    rw [Lock.Event.ends_forced_iff] at hends
    exact hforced (hends ▸ List.mem_cons_self)
  | probe hnow key => exact h.stir (.probed key) hnow rfl

end Scene.Sound

namespace Scene

variable [DecidableEq ι] {owners : ι → Owner} {invocations : ι → Invocation}
  {scene : Scene ι τ ε}

/-- In every scene that steps lead to, everything holds. -/
theorem Reachable.sound (h : Reachable owners invocations scene)
    (hdistinct : Function.Injective owners) : Sound owners invocations scene := by
  induction h with
  | start => exact .start
  | step _ step ih => exact ih.step hdistinct step

/-- Whatever the order of steps, no two operations with the same key run at the same time, as long
as they run within their leases and nobody frees the lock by force. -/
theorem Reachable.runs_alone (h : Reachable owners invocations scene)
    (hdistinct : Function.Injective owners) {key : String} (hforced : key ∉ scene.forced)
    {i j : ι} (hi : scene.Runs invocations i key) (hj : scene.Runs invocations j key)
    (htimei : scene.InTime i) (htimej : scene.InTime j) : i = j := by
  have hsound := h.sound hdistinct
  obtain ⟨_, hholderi⟩ := hsound.holder_of_runs hi htimei hforced
  obtain ⟨_, hholderj⟩ := hsound.holder_of_runs hj htimej hforced
  exact hdistinct (congrArg Lock.Holder.owner (Option.some.inj (hholderi.symm.trans hholderj)))

/-- Two calls with one key: while the operation of the first one runs, the second one waits, and its
operation does not run. -/
theorem Reachable.runs_alone_of_waiting :
    ∃ (owners : Bool → Owner) (invocations : Bool → Invocation) (scene : Scene Bool Unit Unit),
      Reachable owners invocations scene ∧ (∀ i, (invocations i).key = .ok "submit") ∧
      scene.Runs invocations false "submit" ∧ scene.room.waiters.length = 1 ∧
      ¬scene.Runs invocations true "submit" := by
  have begun := (@Reachable.start Bool Unit Unit _ (fun second => if second then "b" else "a")
    fun second => ⟨⟨⟨[]⟩, ⟨20, some 10, .fair⟩⟩,
      if second then .blocking "submit" else .idempotent "submit", []⟩).step
    (.begin (i := false) rfl)
  have logged := begun.step (.carryOut (i := false) rfl (Nat.zero_le _) rfl)
  have taken := logged.step (.carryOut (i := false) rfl (Nat.zero_le _) rfl)
  have held := taken.step (.carryOut (i := false) rfl (Nat.zero_le _) rfl)
  have running := held.step (.carryOut (i := false) rfl (Nat.zero_le _) rfl)
  have second := running.step (.begin (i := true) rfl)
  have asking := second.step (.carryOut (i := true) rfl (Nat.zero_le _) rfl)
  have entered := asking.step (.carryOut (i := true) rfl (Nat.zero_le _) rfl)
  have waiting := entered.step (.look (i := true) rfl (Nat.zero_le _) rfl rfl rfl)
  have later := waiting.step (.wait 5)
  have hdistinct : Function.Injective fun second : Bool => if second then "b" else "a" := by
    unfold Function.Injective
    decide
  refine ⟨_, _, _, later, fun i => by cases i <;> rfl, ⟨rfl, _, rfl, rfl⟩, rfl, fun hsecond => ?_⟩
  have hsame := later.runs_alone hdistinct (by decide) ⟨rfl, _, rfl, rfl⟩ hsecond
    (i := false) (by rintro _ ⟨⟩ _ ⟨⟩; decide) (by rintro _ ⟨⟩ _ ⟨⟩)
  cases hsame

end Scene
end Turnstile.Guard
