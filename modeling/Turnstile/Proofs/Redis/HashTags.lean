import Turnstile.Guard.Spec
import Turnstile.Redis.LockClient
import Turnstile.Text.Split

/-!
# Where a cluster keeps a lock

A cluster places a name by its hash tag: what stands between the first opening brace of the name and
the first closing brace behind it or, if that is nothing, the whole name. All names of a lock begin
with its key in braces. So they have one tag and stay together, unless the key leaves nothing in
front of its first closing brace: then each of them is placed by itself.
-/

namespace Turnstile

/-- Every text is the key of some call: that of an operation which goes by its first argument. -/
theorem Guard.Interceptor.exists_deriveKey (interceptor : Interceptor) (operation key : String) :
    ∃ spec arguments, (Spec.blocking operation).withExpression "#p0" = .ok spec ∧
      interceptor.deriveKey spec arguments = .ok key := by
  have hparse : Key.Expression.parse "#p0" = .ok ⟨"#p0", [.variable "p0" []]⟩ := rfl
  refine ⟨{ Spec.blocking operation with expression := some ⟨"#p0", [.variable "p0" []]⟩ },
    [⟨"item", "str", .value (.string key)⟩], ?_, ?_⟩
  · rw [Spec.withExpression, hparse]
    rfl
  · change Except.ok (String.ofList (key.toList ++ [])) = Except.ok key
    rw [List.append_nil, String.ofList_toList]

namespace Redis

/-! ## Hash tags -/

/-- What stands between the first opening brace of a name and the first closing brace behind it. -/
def braced? (name : List Char) : Option (List Char) :=
  (Text.cutAt? '{' name).bind fun cut => (Text.cutAt? '}' cut.2).map Prod.fst

/-- The part of a name by which a cluster places it. -/
def hashTag (name : String) : String :=
  match braced? name.toList with
  | some (c :: tag) => String.ofList (c :: tag)
  | some [] | none => name

/-- The first braces of a name hold what stands in front of the first closing brace. -/
theorem braced?_append {before : List Char} (hopen : '{' ∉ before) (inside rest : List Char) :
    braced? (before ++ '{' :: (inside ++ '}' :: rest)) = some (inside.takeWhile (· != '}')) := by
  rw [braced?, Text.cutAt?_append hopen, Option.bind_some, Text.map_fst_cutAt?_append]

example : hashTag "a\x7b\x7bb\x7dc\x7d" = "\x7bb" := by decide

example : hashTag "a\x7b\x7d\x7bb\x7d" = "a\x7b\x7d\x7bb\x7d" := by decide

/-! ## The names of a lock -/

namespace LockClient

variable {client : LockClient} {key name : String}

/-- The names under which a lock is kept: its own, that of its waiters, and that of their
heartbeats. -/
def names (client : LockClient) (key : String) : List String :=
  [client.lockKey key, client.queueKey key, client.waitersKey key]

/-- A cluster keeps a lock and its waiters in one place. -/
def KeptTogether (client : LockClient) (key : String) : Prop :=
  ∀ name ∈ client.names key, ∀ other ∈ client.names key, hashTag name = hashTag other

/-- The names of a lock are different. -/
theorem nodup_names : (client.names key).Nodup := by
  have hlonger {suffix : String} (h : suffix ≠ "") :
      client.lockKey key ≠ client.lockKey key ++ suffix := by
    intro heq
    have hchars := congrArg String.toList heq
    rw [String.toList_append, List.self_eq_append_right, String.toList_eq_nil_iff] at hchars
    exact h hchars
  simp [names, queueKey, waitersKey, hlonger]

/-- All names of a lock begin with its key in braces. -/
theorem exists_of_mem_names (h : name ∈ client.names key) :
    ∃ rest, name.toList = client.keyPrefix.toList ++ '{' :: (key.toList ++ '}' :: rest) := by
  simp only [names, List.mem_cons, List.not_mem_nil, or_false] at h
  obtain rfl | rfl | rfl := h
  · exact ⟨[], by simp [lockKey]⟩
  · exact ⟨":queue".toList, by simp [queueKey, lockKey]⟩
  · exact ⟨":waiters".toList, by simp [waitersKey, lockKey]⟩

/-- Under a prefix without braces, the names of a lock are placed by what its key holds in front of
the first closing brace, or each by itself if that is nothing. -/
theorem hashTag_of_mem_names (hplain : '{' ∉ client.keyPrefix.toList)
    (h : name ∈ client.names key) :
    hashTag name = if key.toList.takeWhile (· != '}') = [] then name
      else String.ofList (key.toList.takeWhile (· != '}')) := by
  obtain ⟨rest, hname⟩ := exists_of_mem_names h
  rw [hashTag, hname, braced?_append hplain]
  cases key.toList.takeWhile (· != '}') <;> rfl

/-- A key with nothing in front of its first closing brace is empty or begins with one. -/
theorem takeWhile_eq_nil_iff :
    key.toList.takeWhile (· != '}') = [] ↔ key = "" ∨ ['}'] <+: key.toList := by
  rw [← String.toList_eq_nil_iff]
  cases key.toList with
  | nil => simp
  | cons c rest =>
    by_cases hc : c = '}'
    · simp [hc]
    · simp [hc, Ne.symm hc]

/-- Whatever text is the key of a call, under a prefix without braces a cluster keeps all names of
its lock together exactly if the key is not empty and does not begin with a closing brace. Otherwise
no two of them have the same tag. -/
theorem keptTogether_iff (hplain : '{' ∉ client.keyPrefix.toList)
    (interceptor : Guard.Interceptor) (operation key : String) :
    (∃ spec arguments, (Guard.Spec.blocking operation).withExpression "#p0" = .ok spec ∧
      interceptor.deriveKey spec arguments = .ok key) ∧
    (client.KeptTogether key ↔ ¬(key = "" ∨ ['}'] <+: key.toList)) ∧
    (¬client.KeptTogether key → (client.names key).Pairwise fun a b => hashTag a ≠ hashTag b) := by
  refine ⟨interceptor.exists_deriveKey operation key, ?_⟩
  have htag {name : String} (h : name ∈ client.names key) := hashTag_of_mem_names hplain h
  rw [← takeWhile_eq_nil_iff]
  by_cases hnothing : key.toList.takeWhile (· != '}') = []
  case pos =>
    have hscattered : (client.names key).Pairwise fun a b => hashTag a ≠ hashTag b := by
      refine nodup_names.imp_of_mem fun ha hb hne => ?_
      rwa [htag ha, htag hb, if_pos hnothing, if_pos hnothing]
    have hnot : ¬client.KeptTogether key := fun htogether =>
      List.rel_of_pairwise_cons hscattered List.mem_cons_self
        (htogether _ List.mem_cons_self _ (List.mem_cons_of_mem _ List.mem_cons_self))
    exact ⟨iff_of_false hnot (not_not_intro hnothing), fun _ => hscattered⟩
  case neg =>
    have htogether : client.KeptTogether key := by
      intro a ha b hb
      rw [htag ha, htag hb, if_neg hnothing, if_neg hnothing]
    exact ⟨iff_of_true htogether hnothing, fun hnot => absurd htogether hnot⟩

/-- Under the standard prefix, a key in braces of its own is kept together, and one that only closes
a brace is scattered. -/
theorem keptTogether_iff_of_standard :
    let client := ofPrefix LockSettings.standard.keyPrefix
    '{' ∉ client.keyPrefix.toList ∧ client.KeptTogether "\x7bx\x7d" ∧
      (client.names "\x7dx").Pairwise fun a b => hashTag a ≠ hashTag b := by
  intro client
  have hplain : '{' ∉ client.keyPrefix.toList := by decide
  have htogether := keptTogether_iff hplain (.ofSettings .standard) "take" "\x7bx\x7d"
  obtain ⟨-, hiff, hscattered⟩ := keptTogether_iff hplain (.ofSettings .standard) "take" "\x7dx"
  exact ⟨hplain, htogether.2.1.2 (by decide), hscattered fun h => hiff.1 h (by decide)⟩

/-- Not every lock is kept together: a call that goes by its item has the empty key for an empty
item. -/
theorem scattered_of_empty_key :
    ¬∀ (interceptor : Guard.Interceptor) (operation source : String) (spec : Guard.Spec)
      (arguments : List Key.Argument) (key : String),
      (Guard.Spec.blocking operation).withExpression source = .ok spec →
        interceptor.deriveKey spec arguments = .ok key →
          (ofPrefix LockSettings.standard.keyPrefix).KeptTogether key := by
  intro h
  have hspec : (Guard.Spec.blocking "take").withExpression "#item" = .ok
      { Guard.Spec.blocking "take" with expression := some ⟨"#item", [.variable "item" []]⟩ } := rfl
  have hsame := h (.ofSettings .standard) _ _ _ [⟨"item", "str", .value (.string "")⟩] "" hspec rfl
    _ List.mem_cons_self _ (List.mem_cons_of_mem _ List.mem_cons_self)
  exact absurd hsame (by decide)

end LockClient
end Redis
end Turnstile
