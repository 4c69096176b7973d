import Mathlib.Logic.Function.Basic
import Turnstile.Proofs.Store.Exchanges
import Turnstile.Proofs.Store.Live

/-!
# Programs side by side

Programs that share one store in memory, each in the middle of its own course. Only a single call
cannot be divided: between two calls of one program the others may make as many calls as they
like, and time may pass. What a program has read may therefore have been replaced when it makes
its next call, but by nothing else than a write under the same key.
-/

namespace Turnstile.Store

/-- The value of an entry that is live after a call was live before it, unless the call wrote
it. -/
theorem Memory.live_of_serve {memory next : Memory} {now : Instant} {call : Call}
    {answer : call.Answer} (h : memory.serve now call = .ok (answer, next)) {key : String}
    {entry : Entry} (hlive : next.live now key = some entry) :
    (∃ value ttl, call = .set key value ttl) ∨
      ∃ old, memory.live now key = some old ∧ old.value = entry.value := by
  cases call with
  | get probe =>
    obtain rfl : (memory.get now probe).2 = next := congrArg Prod.snd (Except.ok.inj h)
    rw [Memory.live_get] at hlive
    exact .inr ⟨entry, hlive, rfl⟩
  | set probe value ttl =>
    by_cases hk : probe = key
    · exact .inl ⟨value, ttl, by rw [hk]⟩
    · cases hset : memory.set now probe value ttl with
      | error crash =>
        rw [Memory.serve, hset] at h
        cases h
      | ok written =>
        rw [Memory.serve, hset] at h
        cases h
        rw [((Memory.set_eq_ok memory now).1 hset).2, Memory.live_insert, if_neg hk] at hlive
        exact .inr ⟨entry, hlive, rfl⟩
  | delete probe =>
    obtain rfl : (memory.delete now probe).2 = next := congrArg Prod.snd (Except.ok.inj h)
    rw [Memory.live_delete] at hlive
    split at hlive
    · cases hlive
    · exact .inr ⟨entry, hlive, rfl⟩
  | expire probe ttl =>
    change memory.expire now probe ttl = .ok (answer, next) at h
    cases hold : memory.live now probe with
    | none =>
      obtain ⟨lapsed, hlapsed, hsame⟩ := Memory.expire_of_lapsed hold ttl
      cases hlapsed.symm.trans h
      rw [hsame] at hlive
      exact .inr ⟨entry, hlive, rfl⟩
    | some old =>
      obtain ⟨-, -, rfl⟩ := (Memory.expire_of_live hold).1 h
      rw [Memory.live_insert] at hlive
      split at hlive
      · rename_i hk
        obtain ⟨hentry, -⟩ := Option.filter_eq_some_iff.1 hlive
        cases hentry
        exact .inr ⟨old, hk ▸ hold, rfl⟩
      · exact .inr ⟨entry, hlive, rfl⟩

/-- A call that has been served. -/
structure Served (ι : Type) where
  caller : ι
  now : Instant
  exchange : Exchange
  /-- The store that the call has found. -/
  found : Memory

namespace Served

variable {ι : Type} (x : Served ι)

/-- The live entry under a key that a call has found. -/
def live (key : String) : Option Entry := x.found.live x.now key

/-- Whether a call has written under a key. -/
def Writes (key : String) : Prop := ∃ value ttl, x.exchange.call = .set key value ttl

instance (key : String) : Decidable (x.Writes key) :=
  match h : x.exchange.call with
  | .set probe value ttl =>
    if hk : probe = key then .isTrue ⟨value, ttl, by rw [h, hk]⟩
    else .isFalse fun ⟨_, _, hset⟩ => hk (Call.set.inj (h.symm.trans hset)).1
  | .get _ | .delete _ | .expire .. =>
    .isFalse fun ⟨_, _, hset⟩ => Call.noConfusion (h.symm.trans hset)

end Served

/-- Programs around a store with a clock, and the calls that have been served, the latest first. -/
structure Pool (ι : Type) where
  now : Instant
  memory : Memory
  programs : ι → Program Unit
  history : List (Served ι)

namespace Pool

variable {ι : Type} [DecidableEq ι]

/-- What a program has been told. -/
def told (history : List (Served ι)) (i : ι) : List Exchange :=
  history.filterMap fun x => if x.caller = i then some x.exchange else none

/-- What a program has been told comes from a call of its own. -/
theorem exists_of_mem_told {history : List (Served ι)} {i : ι} {exchange : Exchange}
    (h : exchange ∈ told history i) :
    ∃ later x earlier, history = later ++ x :: earlier ∧ x.caller = i ∧
      x.exchange = exchange := by
  obtain ⟨x, hx, hexchange⟩ := List.mem_filterMap.1 h
  obtain ⟨later, earlier, hhistory⟩ := List.append_of_mem hx
  split at hexchange
  · exact ⟨later, x, earlier, hhistory, ‹_›, Option.some.inj hexchange⟩
  · cases hexchange

variable (pool : Pool ι)

/-- The live entry under a key. -/
def live (key : String) : Option Entry := pool.memory.live pool.now key

/-- The pool after a program has gone on without a call. -/
def goOn (i : ι) (next : Program Unit) : Pool ι :=
  { pool with programs := Function.update pool.programs i next }

/-- The pool after a call of a program has been served. -/
def serve (i : ι) (call : Call) (next : Except StoreError call.Answer → Program Unit)
    (answer : call.Answer) (memory : Memory) : Pool ι where
  now := pool.now
  memory := memory
  programs := Function.update pool.programs i (next (.ok answer))
  history := ⟨i, pool.now, ⟨call, .ok answer⟩, pool.memory⟩ :: pool.history

/-- The steps that are possible in a pool. -/
inductive Step : Pool ι → Prop
  /-- Time passes. -/
  | wait (span : Duration) : Step { pool with now := pool.now + span }
  /-- A program writes to the log. -/
  | tell {i : ι} {line : LogLine} {next : Program Unit} (hi : pool.programs i = .tell line next) :
      Step (pool.goOn i next)
  /-- A call of a program is served. -/
  | serve {i : ι} {call : Call} {next : Except StoreError call.Answer → Program Unit}
      {answer : call.Answer} {memory : Memory} (hi : pool.programs i = .ask call next)
      (hserve : pool.memory.serve pool.now call = .ok (answer, memory)) :
      Step (pool.serve i call next answer memory)

/-- The pools that steps lead to from some programs at any instant, over any store. -/
inductive Reachable (programs : ι → Program Unit) : Pool ι → Prop
  | start (now : Instant) (memory : Memory) : Reachable programs ⟨now, memory, programs, []⟩
  | step {pool next : Pool ι} (reachable : Reachable programs pool) (step : pool.Step next) :
      Reachable programs next

variable {pool} {programs : ι → Program Unit}

namespace Reachable

/-- A call that a program makes may be served. -/
theorem serve (h : Reachable programs pool) (i : ι) {call : Call}
    {next : Except StoreError call.Answer → Program Unit} {answer : call.Answer} {memory : Memory}
    (hi : pool.programs i = .ask call next)
    (hserve : pool.memory.serve pool.now call = .ok (answer, memory)) :
    Reachable programs (pool.serve i call next answer memory) :=
  h.step (.serve hi hserve)

/-- A program that keeps to a rule does so whatever the others do. -/
theorem obeys (h : Reachable programs pool) {i : ι} {rule : List Exchange → Call → Prop}
    {goal : List Exchange → Unit → Prop} (hi : (programs i).Obeys rule goal []) :
    (pool.programs i).Obeys rule goal (told pool.history i) := by
  induction h with
  | start => exact hi
  | step _ step ih =>
    cases step with
    | wait => exact ih
    | @tell j line next hj =>
      by_cases hij : i = j
      · subst hij
        rw [hj] at ih
        simpa [goOn] using ih
      · simpa [goOn, Function.update_of_ne hij] using ih
    | @serve j call next answer memory hj hserve =>
      by_cases hij : i = j
      · subst hij
        rw [hj] at ih
        simpa [Pool.serve, told] using ih.2 (.ok answer)
      · simpa [Pool.serve, told, Function.update_of_ne hij, Ne.symm hij] using ih

/-- Every call has been served in a pool that steps lead to. -/
theorem exists_serve (h : Reachable programs pool) {later earlier : List (Served ι)}
    {x : Served ι} (hhistory : pool.history = later ++ x :: earlier) :
    ∃ prior call next answer memory, Reachable programs prior ∧ prior.history = earlier ∧
      prior.programs x.caller = .ask call next ∧
      prior.memory.serve prior.now call = .ok (answer, memory) ∧
      x = ⟨x.caller, prior.now, ⟨call, .ok answer⟩, prior.memory⟩ := by
  induction h generalizing later with
  | start => simp at hhistory
  | @step pool _ reachable step ih =>
    cases step with
    | wait => exact ih hhistory
    | tell => exact ih hhistory
    | @serve i call next answer memory hi hserve =>
      cases later with
      | nil =>
        obtain ⟨rfl, rfl⟩ := List.cons.inj hhistory
        exact ⟨pool, call, next, answer, memory, reachable, rfl, hi, hserve, rfl⟩
      | cons y later => exact ih (List.cons.inj hhistory).2

/-- A program that keeps to a rule makes only calls that the rule permits. -/
theorem permitted (h : Reachable programs pool) {later earlier : List (Served ι)} {x : Served ι}
    (hhistory : pool.history = later ++ x :: earlier) {rule : List Exchange → Call → Prop}
    {goal : List Exchange → Unit → Prop} (hi : (programs x.caller).Obeys rule goal []) :
    rule (told earlier x.caller) x.exchange.call := by
  obtain ⟨prior, call, next, answer, memory, hprior, rfl, hasks, -, hx⟩ := h.exists_serve hhistory
  have hobeys := hprior.obeys hi
  rw [hasks] at hobeys
  rw [hx]
  exact hobeys.1

/-- A read is answered with the value of the live entry. -/
theorem answer_of_get (h : Reachable programs pool) {later earlier : List (Served ι)}
    {x : Served ι} (hhistory : pool.history = later ++ x :: earlier) {key : String}
    {found : Option Bytes} (hx : x.exchange = ⟨.get key, .ok found⟩) :
    found = (x.live key).map (·.value) := by
  obtain ⟨prior, call, next, answer, memory, -, -, -, hserve, he⟩ := h.exists_serve hhistory
  rw [he] at hx ⊢
  cases hx
  rw [Served.live, ← Memory.get_eq]
  exact (congrArg Prod.fst (Except.ok.inj hserve)).symm

/-- The value of a live entry has been there since any earlier call, unless that one or a later
one has written it. -/
theorem live_since (h : Reachable programs pool) {later earlier : List (Served ι)} {x : Served ι}
    (hhistory : pool.history = later ++ x :: earlier) {key : String}
    (hunwritten : ∀ y ∈ later ++ [x], ¬y.Writes key) {entry : Entry}
    (hlive : pool.live key = some entry) :
    ∃ old, x.live key = some old ∧ old.value = entry.value := by
  induction h generalizing later entry with
  | start => simp at hhistory
  | @step pool _ reachable step ih =>
    cases step with
    | wait span =>
      rw [Pool.live, pool.memory.live_later (Nat.le_add_right pool.now span)] at hlive
      exact ih hhistory hunwritten (Option.filter_eq_some_iff.1 hlive).1
    | tell => exact ih hhistory hunwritten hlive
    | @serve i call next answer memory hi hserve =>
      have hback : (∃ value ttl, call = .set key value ttl) ∨
          ∃ old, pool.live key = some old ∧ old.value = entry.value :=
        Memory.live_of_serve hserve hlive
      cases later with
      | nil =>
        obtain ⟨rfl, rfl⟩ := List.cons.inj hhistory
        exact hback.resolve_left (hunwritten _ List.mem_cons_self)
      | cons y later =>
        obtain ⟨rfl, hrest⟩ := List.cons.inj hhistory
        obtain ⟨old, hold, hvalue⟩ := hback.resolve_left (hunwritten _ List.mem_cons_self)
        obtain ⟨older, holder, hvalue'⟩ :=
          ih hrest (fun z hz => hunwritten z (List.mem_cons_of_mem _ hz)) hold
        exact ⟨older, holder, hvalue'.trans hvalue⟩

/-- What a call comes across is what an earlier read has found, unless it has been written since. -/
theorem live_of_read (h : Reachable programs pool) {later between earlier : List (Served ι)}
    {x check : Served ι} (hhistory : pool.history = later ++ x :: (between ++ check :: earlier))
    {key : String} {found : Option Bytes} (hcheck : check.exchange = ⟨.get key, .ok found⟩)
    (hunwritten : ∀ y ∈ between, ¬y.Writes key) {entry : Entry} (hlive : x.live key = some entry) :
    found = some entry.value := by
  obtain ⟨prior, call, next, answer, memory, hprior, hbefore, -, -, hx⟩ :=
    h.exists_serve hhistory
  have hread : ¬check.Writes key := by
    rintro ⟨value, ttl, hset⟩
    rw [hcheck] at hset
    cases hset
  rw [hx] at hlive
  obtain ⟨old, hold, hvalue⟩ := hprior.live_since hbefore (fun y hy => by
    rcases List.mem_append.1 hy with hy | hy
    · exact hunwritten y hy
    · exact List.mem_singleton.1 hy ▸ hread) hlive
  rw [hprior.answer_of_get hbefore hcheck, hold, ← hvalue]
  rfl

end Reachable
end Pool
end Turnstile.Store
