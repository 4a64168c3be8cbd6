/-
**The session registry.**

`ShardedSessionRegistry` keeps the sessions in 32 hash maps, each behind a mutex of its own, by the
`id` of their handles; a lookup or a removal by a handle whose generation is another one finds
nothing.  `HandleAccept` takes the two numbers of a new handle from two counters, one after the
other, and then inserts the session; `Disconnect` removes one; the timer and `Stop` take a snapshot,
shard by shard.  Any number of threads do so at the same time.

The registry is compared with the set of the sessions that were inserted and not removed.  A lookup
answers for that set.  A snapshot is a sweep of `RealtimeEngine/ShardSweep.lean`: a session that is
registered while it is taken is in it, so the timer and `Stop` miss none, and a session that was not
registered at any moment of it is not.

The model carries the log of the insertions and removals, and what the snapshots have returned.  The
counters wrap at 2^64, and what is said here is about runs that are shorter.

Main definitions:

* `RealtimeEngine.ShardedSessionRegistry`, with `insert`, `find`, `remove` and `collect`, the
  critical section of `Snapshot` for one shard;
* `RealtimeEngine.SessionRegistry.program` — the registry under any number of threads;
* `RealtimeEngine.SessionRegistry.Kept` — the invariant.

Main results:

* `RealtimeEngine.ShardedSessionRegistry.find_eq_some_iff`,
  `RealtimeEngine.ShardedSessionRegistry.mem_collect` — what a lookup and a shard return;
* `RealtimeEngine.ShardedSessionRegistry.has_insert`,
  `RealtimeEngine.ShardedSessionRegistry.has_remove` — what the updates do;
* `RealtimeEngine.SessionRegistry.registry_sweeps` — **the run theorem**.
-/

import Mathlib.Data.List.AList
import RealtimeEngine.Basic
import RealtimeEngine.RunHistory
import RealtimeEngine.ShardSweep

set_option relaxedAutoImplicit false
set_option autoImplicit false

namespace RealtimeEngine

/-! ### The registry -/

/-- `ShardedSessionRegistry`: its shards, each of them a hash map in its iteration order. -/
structure ShardedSessionRegistry (V : Type*) where
  shards : ℕ → AList fun _ : UInt64 => V

namespace ShardedSessionRegistry

/-- `ShardCount`. -/
def shardCount : ℕ := 32

/-- The shard of a handle. -/
def shardOf (handle : SessionHandle) : ℕ := handle.id.toNat % shardCount

theorem shardOf_lt (handle : SessionHandle) : shardOf handle < shardCount :=
  Nat.mod_lt _ (by decide)

section Operations

variable {V : Type*} (handleOf : V → SessionHandle)

/-- The registry before the first connection. -/
def empty : ShardedSessionRegistry V := ⟨fun _ => ∅⟩

/-- `ShardedSessionRegistry::Insert`. -/
def insert (handle : SessionHandle) (value : V) (r : ShardedSessionRegistry V) :
    ShardedSessionRegistry V :=
  ⟨Function.update r.shards (shardOf handle) ((r.shards (shardOf handle)).insert handle.id value)⟩

/-- `ShardedSessionRegistry::Find`. -/
def find (handle : SessionHandle) (r : ShardedSessionRegistry V) : Option V :=
  match (r.shards (shardOf handle)).lookup handle.id with
  | none => none
  | some value => if (handleOf value).generation ≠ handle.generation then none else some value

/-- `ShardedSessionRegistry::Remove`. -/
def remove (handle : SessionHandle) (r : ShardedSessionRegistry V) : ShardedSessionRegistry V :=
  match (r.shards (shardOf handle)).lookup handle.id with
  | none => r
  | some value =>
      if (handleOf value).generation = handle.generation then
        ⟨Function.update r.shards (shardOf handle) ((r.shards (shardOf handle)).erase handle.id)⟩
      else r

/-- The critical section of `ShardedSessionRegistry::Snapshot` for one shard. -/
def collect (k : ℕ) (r : ShardedSessionRegistry V) : List V :=
  (r.shards k).entries.map Sigma.snd

/-- Every session is under its own number, in the shard of that number. -/
def WellFormed (r : ShardedSessionRegistry V) : Prop :=
  ∀ k id value, (r.shards k).lookup id = some value →
    (handleOf value).id = id ∧ shardOf (handleOf value) = k

/-- The session is registered. -/
def Has (r : ShardedSessionRegistry V) (value : V) : Prop :=
  (r.shards (shardOf (handleOf value))).lookup (handleOf value).id = some value

end Operations

section Facts

variable {V : Type*} {handleOf : V → SessionHandle} {r : ShardedSessionRegistry V}
  {handle : SessionHandle} {value : V}

theorem wellFormed_empty : (empty : ShardedSessionRegistry V).WellFormed handleOf := by
  intro k id value h
  rw [empty, AList.lookup_empty] at h
  cases h

theorem not_has_empty : ¬ (empty : ShardedSessionRegistry V).Has handleOf value := by
  intro h
  rw [Has, empty, AList.lookup_empty] at h
  cases h

/-- What is under a number is registered. -/
theorem WellFormed.has (h : r.WellFormed handleOf) {k : ℕ} {id : UInt64}
    (hlookup : (r.shards k).lookup id = some value) : r.Has handleOf value := by
  obtain ⟨rfl, rfl⟩ := h k id value hlookup
  exact hlookup

/-- **`Find` answers for the registered session of this very handle.** -/
theorem find_eq_some_iff (h : r.WellFormed handleOf) :
    r.find handleOf handle = some value ↔ handleOf value = handle ∧ r.Has handleOf value := by
  unfold find
  constructor
  · intro hfind
    split at hfind
    · cases hfind
    · next value' hlookup =>
        split at hfind
        · cases hfind
        · next hgeneration =>
            obtain rfl := Option.some.inj hfind
            obtain ⟨hid, -⟩ := h _ _ _ hlookup
            refine ⟨?_, h.has hlookup⟩
            have hsame : (handleOf value').generation = handle.generation := not_not.1 hgeneration
            cases hv : handleOf value'
            cases handle
            simp_all
  · rintro ⟨rfl, hhas⟩
    rw [hhas]
    simp

/-- **A shard has the registered sessions of its numbers**, each of them once. -/
theorem mem_collect (h : r.WellFormed handleOf) (k : ℕ) :
    value ∈ r.collect k ↔ shardOf (handleOf value) = k ∧ r.Has handleOf value := by
  unfold collect
  constructor
  · intro hmem
    obtain ⟨entry, hentry, rfl⟩ := List.mem_map.1 hmem
    have hlookup := AList.mem_lookup_iff.2 hentry
    exact ⟨(h k _ _ hlookup).2, h.has hlookup⟩
  · rintro ⟨rfl, hhas⟩
    exact List.mem_map.2 ⟨⟨_, value⟩, AList.mem_lookup_iff.1 hhas, rfl⟩

theorem nodup_collect (h : r.WellFormed handleOf) (k : ℕ) : (r.collect k).Nodup := by
  refine List.Nodup.map_on ?_ (List.NodupKeys.nodup (r.shards k).nodupKeys)
  rintro ⟨id, value⟩ hentry ⟨id', value'⟩ hentry' heq
  obtain rfl : value = value' := heq
  have hid := (h k id value (AList.mem_lookup_iff.2 hentry)).1
  have hid' := (h k id' value (AList.mem_lookup_iff.2 hentry')).1
  rw [← hid, ← hid']

/-- `Insert` under the handle of the session. -/
theorem WellFormed.insert (h : r.WellFormed handleOf) (value : V) :
    (r.insert (handleOf value) value).WellFormed handleOf := by
  intro k id value' hlookup
  unfold ShardedSessionRegistry.insert at hlookup
  by_cases hk : k = shardOf (handleOf value)
  · subst hk
    simp only [Function.update_self] at hlookup
    by_cases hid : id = (handleOf value).id
    · subst hid
      rw [AList.lookup_insert] at hlookup
      obtain rfl := Option.some.inj hlookup
      exact ⟨rfl, rfl⟩
    · rw [AList.lookup_insert_ne hid] at hlookup
      exact h _ _ _ hlookup
  · simp only [Function.update_of_ne hk] at hlookup
    exact h _ _ _ hlookup

/-- **`Insert` adds a session** whose number no registered session has. -/
theorem has_insert (h : r.WellFormed handleOf)
    (hfresh : ∀ value', r.Has handleOf value' → (handleOf value').id ≠ (handleOf value).id)
    (value' : V) :
    (r.insert (handleOf value) value).Has handleOf value' ↔ value' = value ∨ r.Has handleOf value' := by
  unfold Has ShardedSessionRegistry.insert
  by_cases hid : (handleOf value').id = (handleOf value).id
  · have hshard : shardOf (handleOf value') = shardOf (handleOf value) := by
      rw [shardOf, shardOf, hid]
    rw [hshard, hid]
    simp only [Function.update_self, AList.lookup_insert, Option.some.injEq]
    constructor
    · exact fun heq => Or.inl heq.symm
    · rintro (heq | hhas)
      · exact heq.symm
      · exact absurd hid (hfresh value' (h.has hhas))
  · have hne : value' ≠ value := fun heq => hid (heq ▸ rfl)
    by_cases hshard : shardOf (handleOf value') = shardOf (handleOf value)
    · rw [hshard]
      simp only [Function.update_self, AList.lookup_insert_ne hid, hne, false_or]
    · simp [Function.update_of_ne hshard, hne]

theorem WellFormed.remove (h : r.WellFormed handleOf) (handle : SessionHandle) :
    (r.remove handleOf handle).WellFormed handleOf := by
  unfold ShardedSessionRegistry.remove
  split
  · exact h
  · split
    · intro k id value' hlookup
      by_cases hk : k = shardOf handle
      · subst hk
        simp only [Function.update_self] at hlookup
        by_cases hid : id = handle.id
        · subst hid
          rw [AList.lookup_erase] at hlookup
          cases hlookup
        · rw [AList.lookup_erase_ne hid] at hlookup
          exact h _ _ _ hlookup
      · simp only [Function.update_of_ne hk] at hlookup
        exact h _ _ _ hlookup
    · exact h

/-- **`Remove` takes out the session of this very handle.** -/
theorem has_remove (h : r.WellFormed handleOf) (handle : SessionHandle) (value : V) :
    (r.remove handleOf handle).Has handleOf value ↔ handleOf value ≠ handle ∧ r.Has handleOf value := by
  unfold ShardedSessionRegistry.remove
  split
  · next hnone =>
      refine ⟨fun hhas => ⟨?_, hhas⟩, And.right⟩
      rintro rfl
      rw [Has, hnone] at hhas
      cases hhas
  · next value' hlookup =>
      obtain ⟨hid', hshard'⟩ := h _ _ _ hlookup
      split
      · next hgeneration =>
          -- the session that is erased has the handle
          have hhandle : handleOf value' = handle := by
            cases hv : handleOf value'
            cases handle
            simp_all
          unfold Has
          by_cases hid : (handleOf value).id = handle.id
          · have hshard : shardOf (handleOf value) = shardOf handle := by
              rw [shardOf, shardOf, hid]
            rw [hshard, hid]
            simp only [Function.update_self, AList.lookup_erase, hlookup]
            constructor
            · intro hnone
              cases hnone
            · rintro ⟨hne, heq⟩
              obtain rfl := Option.some.inj heq
              exact absurd hhandle hne
          · have hne : handleOf value ≠ handle := fun heq => hid (heq ▸ rfl)
            by_cases hshard : shardOf (handleOf value) = shardOf handle
            · rw [hshard]
              simp only [Function.update_self, AList.lookup_erase_ne hid, hne, ne_eq,
                not_false_eq_true, true_and]
            · simp [Function.update_of_ne hshard, hne]
      · next hgeneration =>
          refine ⟨fun hhas => ⟨?_, hhas⟩, And.right⟩
          rintro rfl
          rw [Has, hlookup] at hhas
          obtain rfl := Option.some.inj hhas
          exact hgeneration rfl

end Facts

end ShardedSessionRegistry

/-! ### Threads -/

namespace SessionRegistry

open Interleaving Sharding ShardedSessionRegistry

/-- What the threads share.  A session is known by its handle. -/
structure Shared where
  registry : ShardedSessionRegistry SessionHandle := .empty
  nextSessionId : UInt64 := 1
  nextGeneration : UInt64 := 1
  /-- The numbers that were taken from `nextSessionId`. -/
  taken : ℕ := 0
  log : List (Entry SessionHandle) := []
  /-- For every snapshot, where the log stood when it began and when it ended, and what it returned. -/
  snapshots : List (ℕ × ℕ × List SessionHandle) := []

/-- Where a thread stands. -/
inductive Task
  /-- The completion port, the timer, `Stop`: they start threads. -/
  | outside
  /-- `HandleAccept` at `next_session_id.fetch_add(1)`. -/
  | takeId
  /-- `HandleAccept` at `next_generation.fetch_add(1)`. -/
  | takeGeneration (id : UInt64)
  | insert (handle : SessionHandle)
  | remove (handle : SessionHandle)
  /-- `Snapshot`, before a shard. -/
  | snapshot (k : ℕ) (found : List SessionHandle) (begun : ℕ)
  deriving DecidableEq, Repr

/-- What a step leaves open: which thread is started. -/
inductive Choice
  | passes
  | accepts
  | removes (handle : SessionHandle)
  | snapshots
  deriving DecidableEq, Repr

/-- What each step does, and what its thread does next. -/
def exec (x : Choice) (task : Task) (sh : Shared) : Option (Outcome Shared Task) :=
  match task with
  | .outside =>
      match x with
      | .passes => some ⟨sh, [.outside], []⟩
      | .accepts => some ⟨sh, [.outside], [[.takeId]]⟩
      | .removes handle => some ⟨sh, [.outside], [[.remove handle]]⟩
      | .snapshots => some ⟨sh, [.outside], [[.snapshot 0 [] sh.log.length]]⟩
  | .takeId =>
      some ⟨{ sh with nextSessionId := sh.nextSessionId + 1, taken := sh.taken + 1 },
        [.takeGeneration sh.nextSessionId], []⟩
  | .takeGeneration id =>
      some ⟨{ sh with nextGeneration := sh.nextGeneration + 1 },
        [.insert ⟨id, sh.nextGeneration⟩], []⟩
  | .insert handle =>
      some ⟨{ sh with registry := sh.registry.insert handle handle
                      log := sh.log ++ [.inserted handle] }, [], []⟩
  | .remove handle =>
      some ⟨{ sh with registry := sh.registry.remove id handle
                      log := sh.log ++ [.removed handle] }, [], []⟩
  | .snapshot k found begun =>
      let found := found ++ sh.registry.collect k
      if k + 1 < shardCount then some ⟨sh, [.snapshot (k + 1) found begun], []⟩
      else some ⟨{ sh with snapshots := sh.snapshots ++ [(begun, sh.log.length, found)] }, [], []⟩

/-- The registry as a program of interleaving threads. -/
def program : Program Shared Task Choice := ⟨exec⟩

/-- The pool before any thread has been started. -/
def start : Config Shared Task := ⟨{}, [[.outside]]⟩

/-! ### The invariant -/

/-- The number that a new session will have. -/
def Task.id? : Task → Option UInt64
  | .takeGeneration id => some id
  | .insert handle => some handle.id
  | _ => none

/-- The number was taken, as one of the first so many. -/
def IsTaken (taken : ℕ) (id : UInt64) : Prop := ∃ m, 1 ≤ m ∧ m ≤ taken ∧ id = UInt64.ofNat m

/-- What a snapshot has collected. -/
def Collected (sh : Shared) : Task → Prop
  | .snapshot k found begun => k < shardCount ∧ Swept shardOf sh.log begun k found
  | _ => True

/-- **The invariant**, behind so many steps. -/
structure Kept (steps : ℕ) (sh : Shared) (P : Multiset Task) : Prop where
  wellFormed : sh.registry.WellFormed id
  /-- The registry has what the log says. -/
  has : ∀ handle, sh.registry.Has id handle ↔ handle ∈ contents sh.log
  counter : sh.nextSessionId = UInt64.ofNat (sh.taken + 1)
  taken : sh.taken ≤ steps
  /-- The numbers of registered sessions were taken, and no two of them have the same. -/
  registered : ∀ handle ∈ contents sh.log, IsTaken sh.taken handle.id
  distinct : ∀ handle ∈ contents sh.log, ∀ other ∈ contents sh.log, handle.id = other.id →
    handle = other
  /-- Neither has a session that is about to be inserted. -/
  pending : (holders Task.id? P).Nodup
  fresh : ∀ id ∈ holders Task.id? P, IsTaken sh.taken id ∧
    ∀ handle ∈ contents sh.log, handle.id ≠ id
  collected : ∀ t ∈ P, Collected sh t
  snapshots : ∀ snapshot ∈ sh.snapshots, snapshot.2.1 ≤ sh.log.length ∧
    Regular (sh.log.take snapshot.2.1) snapshot.1 snapshot.2.2

theorem IsTaken.mono {taken taken' : ℕ} {id : UInt64} (h : IsTaken taken id)
    (hle : taken ≤ taken') : IsTaken taken' id := by
  obtain ⟨m, hone, hm, heq⟩ := h
  exact ⟨m, hone, hm.trans hle, heq⟩

/-- A number that was taken is not the next one, before the counter wraps. -/
theorem IsTaken.ne_next {taken : ℕ} {id : UInt64} (h : IsTaken taken id)
    (hwrap : taken + 1 < 2 ^ 64) : id ≠ UInt64.ofNat (taken + 1) := by
  obtain ⟨m, hone, hm, rfl⟩ := h
  intro heq
  have hnat := congrArg UInt64.toNat heq
  simp only [UInt64.toNat_ofNat'] at hnat
  rw [Nat.mod_eq_of_lt (by omega), Nat.mod_eq_of_lt (by omega)] at hnat
  omega

section Steps

variable {steps : ℕ} {sh : Shared} {task : Task} {R : Multiset Task}

/-- What was collected stays so when the registry changes. -/
theorem Collected.change {sh' : Shared} {t : Task} (h : Collected sh t)
    {e : Entry SessionHandle} (hlog : sh'.log = sh.log ++ [e]) : Collected sh' t := by
  cases t with
  | snapshot k found begun =>
      refine ⟨h.1, ?_⟩
      rw [hlog]
      exact h.2.change e
  | _ => trivial

/-- What the snapshots have returned stays so, too. -/
theorem Kept.snapshots_change (h : Kept steps sh (task ::ₘ R)) (e : Entry SessionHandle) :
    ∀ snapshot ∈ sh.snapshots, snapshot.2.1 ≤ (sh.log ++ [e]).length ∧
      Regular ((sh.log ++ [e]).take snapshot.2.1) snapshot.1 snapshot.2.2 := by
  intro snapshot hmem
  obtain ⟨hended, hregular⟩ := h.snapshots snapshot hmem
  refine ⟨?_, ?_⟩
  · rw [List.length_append]
    exact hended.trans (Nat.le_add_right _ _)
  · rwa [List.take_append_of_le_length hended]

/-- A step that leaves the registry alone and takes no number. -/
theorem Kept.same (h : Kept steps sh (task ::ₘ R)) {new : List Task} {sh' : Shared}
    (hregistry : sh'.registry = sh.registry) (hlog : sh'.log = sh.log)
    (hcounter : sh'.nextSessionId = sh.nextSessionId) (htaken : sh'.taken = sh.taken)
    (hids : new.filterMap Task.id? = task.id?.toList) (hnew : ∀ t ∈ new, Collected sh' t)
    (hsnapshots : ∀ snapshot ∈ sh'.snapshots, snapshot.2.1 ≤ sh.log.length ∧
      Regular (sh.log.take snapshot.2.1) snapshot.1 snapshot.2.2) :
    Kept (steps + 1) sh' (new + R) where
  wellFormed := by rw [hregistry]; exact h.wellFormed
  has := by rw [hregistry, hlog]; exact h.has
  counter := by rw [hcounter, htaken]; exact h.counter
  taken := by rw [htaken]; exact h.taken.trans (Nat.le_succ _)
  registered := by rw [hlog, htaken]; exact h.registered
  distinct := by rw [hlog]; exact h.distinct
  pending := by rw [holders_step hids]; exact h.pending
  fresh := by rw [holders_step hids, hlog, htaken]; exact h.fresh
  collected t ht := by
    rcases Multiset.mem_add.1 ht with ht | ht
    · exact hnew t ht
    · have hold := h.collected t (Multiset.mem_cons_of_mem ht)
      cases t with
      | snapshot k found begun =>
          refine ⟨hold.1, ?_⟩
          rw [hlog]
          exact hold.2
      | _ => trivial
  snapshots := by rw [hlog]; exact hsnapshots

/-- `HandleAccept` takes a number. -/
theorem Kept.takeId (h : Kept steps sh (.takeId ::ₘ R)) (hwrap : steps + 1 < 2 ^ 64) :
    Kept (steps + 1)
      { sh with nextSessionId := sh.nextSessionId + 1, taken := sh.taken + 1 }
      (([.takeGeneration sh.nextSessionId] : List Task) + R) := by
  have htaken := h.taken
  have hids : holders Task.id? (([.takeGeneration sh.nextSessionId] : List Task) + R) =
      sh.nextSessionId ::ₘ holders Task.id? (.takeId ::ₘ R) := by
    rw [coe_singleton_add, holders_cons_some (f := Task.id?) rfl,
      holders_cons_none (f := Task.id?) rfl]
  have hnext : IsTaken (sh.taken + 1) sh.nextSessionId :=
    ⟨sh.taken + 1, Nat.le_add_left _ _, le_rfl, h.counter⟩
  have hnew : ∀ id, IsTaken sh.taken id → id ≠ sh.nextSessionId := by
    intro id hid
    rw [h.counter]
    exact hid.ne_next (by omega)
  refine ⟨h.wellFormed, h.has, ?_, Nat.succ_le_succ htaken,
    fun handle hmem => (h.registered handle hmem).mono (Nat.le_succ _), h.distinct, ?_, ?_, ?_,
    h.snapshots⟩
  · rw [h.counter]
    exact (UInt64.ofNat_add _ 1).symm
  · rw [hids]
    refine Multiset.nodup_cons.2 ⟨fun hmem => ?_, h.pending⟩
    exact hnew _ (h.fresh _ hmem).1 rfl
  · rw [hids]
    intro id hmem
    rcases Multiset.mem_cons.1 hmem with rfl | hold
    · exact ⟨hnext, fun handle hhandle => hnew _ (h.registered handle hhandle)⟩
    · exact ⟨(h.fresh id hold).1.mono (Nat.le_succ _), (h.fresh id hold).2⟩
  · intro t ht
    rcases Multiset.mem_add.1 ht with ht | ht
    · rw [List.mem_singleton.1 ht]
      trivial
    · have hold := h.collected t (Multiset.mem_cons_of_mem ht)
      cases t with
      | snapshot k found begun => exact hold
      | _ => trivial

/-- `HandleAccept` inserts its session. -/
theorem Kept.insert {handle : SessionHandle} (h : Kept steps sh (.insert handle ::ₘ R)) :
    Kept (steps + 1)
      { sh with registry := sh.registry.insert handle handle
                log := sh.log ++ [.inserted handle] } R := by
  have hids : holders Task.id? (.insert handle ::ₘ R) = handle.id ::ₘ holders Task.id? R :=
    holders_cons_some (f := Task.id?) rfl R
  have hpending := h.pending
  rw [hids] at hpending
  obtain ⟨htaken, hfree⟩ := h.fresh handle.id (by rw [hids]; exact Multiset.mem_cons_self _ _)
  have hmem : ∀ other, other ∈ contents (sh.log ++ [.inserted handle]) ↔
      other = handle ∨ other ∈ contents sh.log := by
    intro other
    rw [contents_concat]
    exact Finset.mem_insert
  refine ⟨h.wellFormed.insert handle, fun other => ?_, h.counter, h.taken.trans (Nat.le_succ _),
    fun other hother => ?_, fun first hfirst second hsecond heq => ?_,
    (Multiset.nodup_cons.1 hpending).2, fun id hid => ?_, fun t ht => ?_, h.snapshots_change _⟩
  · rw [hmem, ← h.has]
    exact has_insert h.wellFormed (fun value hvalue => hfree value ((h.has value).1 hvalue)) other
  · rcases (hmem other).1 hother with rfl | hold
    · exact htaken
    · exact h.registered other hold
  · rcases (hmem first).1 hfirst with hnew | hold <;> rcases (hmem second).1 hsecond with hnew' | hold'
    · exact hnew.trans hnew'.symm
    · exact absurd (heq.symm.trans (congrArg SessionHandle.id hnew)) (hfree second hold')
    · exact absurd (heq.trans (congrArg SessionHandle.id hnew')) (hfree first hold)
    · exact h.distinct first hold second hold' heq
  · obtain ⟨hid', hothers⟩ := h.fresh id (by rw [hids]; exact Multiset.mem_cons_of_mem hid)
    refine ⟨hid', fun other hother heq => ?_⟩
    rcases (hmem other).1 hother with rfl | hold
    · exact (Multiset.nodup_cons.1 hpending).1 (heq ▸ hid)
    · exact hothers other hold heq
  · exact (h.collected t (Multiset.mem_cons_of_mem ht)).change rfl

/-- `Disconnect` removes a session. -/
theorem Kept.remove {handle : SessionHandle} (h : Kept steps sh (.remove handle ::ₘ R)) :
    Kept (steps + 1)
      { sh with registry := sh.registry.remove id handle
                log := sh.log ++ [.removed handle] } R := by
  have hids : holders Task.id? (.remove handle ::ₘ R) = holders Task.id? R :=
    holders_cons_none (f := Task.id?) rfl R
  have hmem : ∀ other, other ∈ contents (sh.log ++ [.removed handle]) ↔
      other ≠ handle ∧ other ∈ contents sh.log := by
    intro other
    rw [contents_concat]
    exact Finset.mem_erase
  refine ⟨h.wellFormed.remove handle, fun other => ?_, h.counter, h.taken.trans (Nat.le_succ _),
    fun other hother => h.registered other ((hmem other).1 hother).2,
    fun first hfirst second hsecond =>
      h.distinct first ((hmem first).1 hfirst).2 second ((hmem second).1 hsecond).2,
    hids ▸ h.pending, fun id hid => ?_, fun t ht => ?_, h.snapshots_change _⟩
  · rw [hmem, ← h.has]
    exact has_remove h.wellFormed handle other
  · obtain ⟨hid', hothers⟩ := h.fresh id (by rw [hids]; exact hid)
    exact ⟨hid', fun other hother => hothers other ((hmem other).1 hother).2⟩
  · exact (h.collected t (Multiset.mem_cons_of_mem ht)).change rfl

/-- **Every step keeps the invariant**, before the counter wraps. -/
theorem Kept.step (h : Kept steps sh (task ::ₘ R)) (hwrap : steps + 1 < 2 ^ 64) {x : Choice}
    {o : Outcome Shared Task} (hexec : exec x task sh = some o) :
    Kept (steps + 1) o.shared ((o.next ++ o.forked.flatten : List Task) + R) := by
  have houtside : ∀ t ∈ [Task.outside], Collected sh t := by
    intro t ht
    rw [List.mem_singleton.1 ht]
    trivial
  cases task with
  | outside =>
      cases x with
      | passes =>
          obtain rfl := Option.some.inj hexec
          exact h.same rfl rfl rfl rfl rfl houtside h.snapshots
      | accepts =>
          obtain rfl := Option.some.inj hexec
          refine h.same rfl rfl rfl rfl rfl (fun t ht => ?_) h.snapshots
          rcases List.mem_pair.1 ht with rfl | rfl <;> trivial
      | removes handle =>
          obtain rfl := Option.some.inj hexec
          refine h.same rfl rfl rfl rfl rfl (fun t ht => ?_) h.snapshots
          rcases List.mem_pair.1 ht with rfl | rfl <;> trivial
      | snapshots =>
          obtain rfl := Option.some.inj hexec
          refine h.same rfl rfl rfl rfl rfl (fun t ht => ?_) h.snapshots
          rcases List.mem_pair.1 ht with rfl | rfl
          · trivial
          · exact ⟨by decide, .start shardOf sh.log⟩
  | takeId =>
      obtain rfl := Option.some.inj hexec
      exact h.takeId hwrap
  | takeGeneration id =>
      obtain rfl := Option.some.inj hexec
      refine h.same rfl rfl rfl rfl rfl (fun t ht => ?_) h.snapshots
      rw [List.mem_singleton.1 ht]
      trivial
  | insert handle =>
      obtain rfl := Option.some.inj hexec
      rw [List.flatten_nil, List.append_nil, Multiset.coe_nil, zero_add]
      exact h.insert
  | remove handle =>
      obtain rfl := Option.some.inj hexec
      rw [List.flatten_nil, List.append_nil, Multiset.coe_nil, zero_add]
      exact h.remove
  | snapshot k found begun =>
      obtain ⟨hk, hswept⟩ := h.collected _ (Multiset.mem_cons_self _ R)
      -- one more shard is read
      have hmore : Swept shardOf sh.log begun (k + 1) (found ++ sh.registry.collect k) := by
        refine hswept.shard (nodup_collect h.wellFormed k) fun handle => ?_
        rw [← h.has]
        exact mem_collect h.wellFormed k
      simp only [exec] at hexec
      split at hexec
      · next hlast =>
          obtain rfl := Option.some.inj hexec
          refine h.same rfl rfl rfl rfl rfl (fun t ht => ?_) h.snapshots
          rw [List.mem_singleton.1 ht]
          exact ⟨hlast, hmore⟩
      · next hlast =>
          obtain rfl := Option.some.inj hexec
          have hall : k + 1 = shardCount := by omega
          rw [hall] at hmore
          refine h.same rfl rfl rfl rfl rfl (fun t ht => absurd ht List.not_mem_nil) ?_
          intro snapshot hmem
          rcases List.mem_append.1 hmem with hold | hnew
          · exact h.snapshots snapshot hold
          · rw [List.mem_singleton.1 hnew]
            refine ⟨le_rfl, ?_⟩
            rw [List.take_length]
            exact hmore.regular shardOf_lt

end Steps

/-! ### Runs -/

theorem kept_start : Kept 0 start.shared start.pending where
  wellFormed := wellFormed_empty
  has handle := iff_of_false not_has_empty (Finset.notMem_empty _)
  counter := rfl
  taken := le_rfl
  registered handle hmem := absurd hmem (Finset.notMem_empty _)
  distinct handle hmem := absurd hmem (Finset.notMem_empty _)
  pending := Multiset.nodup_zero
  fresh id hmem := absurd hmem (Multiset.notMem_zero _)
  collected t ht := by
    rw [Multiset.mem_singleton.1 ht]
    trivial
  snapshots snapshot hmem := absurd hmem List.not_mem_nil

/-- **The registry**, in every run of fewer than 2^64 - 1 steps.  A lookup finds a session exactly for
the handle of a session that was inserted and not removed since.  No two of these have one number.
And every snapshot returned, each of them once, all sessions that were registered when it began and
were not removed before its end, and only such that were registered at some moment of it. -/
theorem registry_sweeps (moves : List (ℕ × Choice)) (hshort : moves.length < 2 ^ 64 - 1)
    {c : Config Shared Task} (hrun : program.run moves start = some c) :
    (∀ handle, c.shared.registry.find id handle =
        if handle ∈ contents c.shared.log then some handle else none) ∧
      (∀ handle ∈ contents c.shared.log, ∀ other ∈ contents c.shared.log,
        handle.id = other.id → handle = other) ∧
      ∀ begun ended found, (begun, ended, found) ∈ c.shared.snapshots →
        ended ≤ c.shared.log.length ∧ Regular (c.shared.log.take ended) begun found := by
  have hkept : (program.history moves start).length < 2 ^ 64 - 1 →
      Kept (program.history moves start).length c.shared c.pending := by
    refine Program.invariant_history (h := [])
      (I := fun h sh P => h.length < 2 ^ 64 - 1 → Kept h.length sh P) ?_ moves
      (fun _ => kept_start) hrun
    intro h x task sh R o hexec hI hlength
    rw [List.length_append, List.length_singleton] at hlength ⊢
    rw [Multiset.coe_add]
    exact (hI (by omega)).step (by omega) hexec
  rw [Program.length_history moves hrun] at hkept
  have h := hkept hshort
  refine ⟨fun handle => ?_, h.distinct, fun begun ended found hmem => h.snapshots _ hmem⟩
  split
  · next hmem => exact (find_eq_some_iff h.wellFormed).2 ⟨rfl, (h.has handle).2 hmem⟩
  · next hmem =>
      cases hfind : c.shared.registry.find id handle with
      | none => rfl
      | some value =>
          obtain ⟨rfl, hhas⟩ := (find_eq_some_iff h.wellFormed).1 hfind
          exact absurd ((h.has value).1 hhas) hmem

/-- A snapshot reads two of three shards; then the session of the first one is removed, and one that
belongs to the third is inserted. -/
def crossingSnapshot : List (ℕ × Choice) :=
  (0, .accepts) :: List.replicate 3 (1, .passes) ++ (0, .accepts) :: List.replicate 3 (2, .passes) ++
    (0, .snapshots) :: List.replicate 2 (3, .passes) ++
    (0, .removes ⟨1, 1⟩) :: (4, .passes) :: (0, .accepts) :: List.replicate 3 (5, .passes) ++
    List.replicate 30 (3, .passes)

/-- The three sessions that it returns were never registered together. -/
theorem registry_sweeps_crossingSnapshot :
    ∃ c, program.run crossingSnapshot start = some c ∧
      c.shared.snapshots = [(2, 4, [⟨1, 1⟩, ⟨2, 2⟩, ⟨3, 3⟩])] ∧
      Regular (c.shared.log.take 4) 2 [⟨1, 1⟩, ⟨2, 2⟩, ⟨3, 3⟩] ∧
      c.shared.registry.find id ⟨1, 1⟩ =
        if ⟨1, 1⟩ ∈ contents c.shared.log then some ⟨1, 1⟩ else none := by
  have hobserved : (program.run crossingSnapshot start).map (fun c => c.shared.snapshots) =
      some [(2, 4, [⟨1, 1⟩, ⟨2, 2⟩, ⟨3, 3⟩])] := by
    decide +kernel
  obtain ⟨c, hrun, hsnapshots⟩ := Option.map_eq_some_iff.1 hobserved
  obtain ⟨hfind, -, hall⟩ := registry_sweeps crossingSnapshot (by decide) hrun
  obtain ⟨-, hregular⟩ := hall 2 4 _ (by rw [hsnapshots]; exact List.mem_singleton_self _)
  exact ⟨c, hrun, hsnapshots, hregular, hfind _⟩

end SessionRegistry

end RealtimeEngine
