/-
**Sweeping a sharded set while it changes.**

A set that is kept in shards, each behind a lock of its own, can be read as a whole only shard by
shard, and between two shards others insert and remove.  What such a sweep returns is in general the
set at no single moment.  It is what one can ask for all the same: everything that was there when
the sweep began and has stayed, nothing that was not there at some moment of it, and nothing twice.

Main definitions:

* `Sharding.Entry`, `Sharding.contents` — a log of insertions and removals, and the set behind it;
* `Sharding.Swept` — what a sweep has found in the shards before `k`;
* `Sharding.Regular` — what the whole sweep may return.

Main results:

* `Sharding.Swept.start`, `Sharding.Swept.change`, `Sharding.Swept.shard` — how a sweep goes on: it
  begins, the set changes, and one more shard is read;
* `Sharding.Swept.regular` — **a sweep of all shards is regular**.
-/

import Mathlib.Data.Finset.Basic
import Mathlib.Data.List.Nodup

set_option relaxedAutoImplicit false
set_option autoImplicit false

namespace Sharding

variable {α : Type*}

/-! ### Logs -/

/-- A change of the set. -/
inductive Entry (α : Type*)
  | inserted (a : α)
  | removed (a : α)
  deriving DecidableEq, Repr

variable [DecidableEq α]

/-- The set behind one more change. -/
def change (s : Finset α) : Entry α → Finset α
  | .inserted a => insert a s
  | .removed a => s.erase a

/-- The set behind a log. -/
def contents (log : List (Entry α)) : Finset α := log.foldl change ∅

@[simp] theorem contents_nil : contents ([] : List (Entry α)) = ∅ := rfl

@[simp] theorem contents_concat (log : List (Entry α)) (e : Entry α) :
    contents (log ++ [e]) = change (contents log) e := by
  rw [contents, List.foldl_append]
  rfl

/-- What was there and has not been removed is still there. -/
theorem mem_contents_append {log more : List (Entry α)} {a : α} (h : a ∈ contents log)
    (hkept : .removed a ∉ more) : a ∈ contents (log ++ more) := by
  induction more using List.reverseRecOn with
  | nil => rwa [List.append_nil]
  | append_singleton more e ih =>
      rw [← List.append_assoc, contents_concat]
      have hold := ih fun hmem => hkept (List.mem_append_left _ hmem)
      cases e with
      | inserted b => exact Finset.mem_insert_of_mem hold
      | removed b =>
          refine Finset.mem_erase.2 ⟨?_, hold⟩
          rintro rfl
          exact hkept (List.mem_append_right _ List.mem_cons_self)

/-! ### Sweeps -/

/-- **What a sweep has found** in the shards before `k`, if it has begun when the log had so many
entries. -/
structure Swept (shardOf : α → ℕ) (log : List (Entry α)) (begun k : ℕ) (found : List α) : Prop where
  begun_le : begun ≤ log.length
  nodup : found.Nodup
  complete : ∀ a ∈ contents (log.take begun), shardOf a < k → .removed a ∉ log.drop begun →
    a ∈ found
  sound : ∀ a ∈ found, shardOf a < k ∧
    ∃ j, begun ≤ j ∧ j ≤ log.length ∧ a ∈ contents (log.take j)

/-- **What a sweep of all shards may return**, if it ends behind this log. -/
structure Regular (log : List (Entry α)) (begun : ℕ) (found : List α) : Prop where
  begun_le : begun ≤ log.length
  nodup : found.Nodup
  /-- What was there at the beginning and was not removed is found. -/
  complete : ∀ a ∈ contents (log.take begun), .removed a ∉ log.drop begun → a ∈ found
  /-- What is found was there at some moment of the sweep. -/
  sound : ∀ a ∈ found, ∃ j, begun ≤ j ∧ j ≤ log.length ∧ a ∈ contents (log.take j)

variable {shardOf : α → ℕ} {log : List (Entry α)} {begun k n : ℕ} {found : List α}

/-- A sweep begins. -/
theorem Swept.start (shardOf : α → ℕ) (log : List (Entry α)) :
    Swept shardOf log log.length 0 [] where
  begun_le := le_rfl
  nodup := List.nodup_nil
  complete _ _ hk _ := absurd hk (Nat.not_lt_zero _)
  sound _ ha := absurd ha List.not_mem_nil

/-- The set changes. -/
theorem Swept.change (h : Swept shardOf log begun k found) (e : Entry α) :
    Swept shardOf (log ++ [e]) begun k found where
  begun_le := by
    rw [List.length_append]
    exact h.begun_le.trans (Nat.le_add_right _ _)
  nodup := h.nodup
  complete a ha hk hkept := by
    rw [List.take_append_of_le_length h.begun_le] at ha
    rw [List.drop_append_of_le_length h.begun_le] at hkept
    exact h.complete a ha hk fun hmem => hkept (List.mem_append_left _ hmem)
  sound a ha := by
    obtain ⟨hk, j, hbegun, hj, hmem⟩ := h.sound a ha
    refine ⟨hk, j, hbegun, ?_, ?_⟩
    · rw [List.length_append]
      exact hj.trans (Nat.le_add_right _ _)
    · rwa [List.take_append_of_le_length hj]

/-- One more shard is read. -/
theorem Swept.shard (h : Swept shardOf log begun k found) {l : List α} (hnodup : l.Nodup)
    (hl : ∀ a, a ∈ l ↔ shardOf a = k ∧ a ∈ contents log) :
    Swept shardOf log begun (k + 1) (found ++ l) where
  begun_le := h.begun_le
  nodup := by
    refine List.nodup_append.2 ⟨h.nodup, hnodup, fun a ha b hb => ?_⟩
    rintro rfl
    have hlt := (h.sound a ha).1
    have heq := ((hl a).1 hb).1
    omega
  complete a ha hk hkept := by
    rcases Nat.lt_succ_iff_lt_or_eq.1 hk with hlt | heq
    · exact List.mem_append_left _ (h.complete a ha hlt hkept)
    · refine List.mem_append_right _ ((hl a).2 ⟨heq, ?_⟩)
      rw [← List.take_append_drop begun log]
      exact mem_contents_append ha hkept
  sound a ha := by
    rcases List.mem_append.1 ha with hold | hnew
    · obtain ⟨hlt, hthere⟩ := h.sound a hold
      exact ⟨hlt.trans (Nat.lt_succ_self k), hthere⟩
    · obtain ⟨heq, hmem⟩ := (hl a).1 hnew
      refine ⟨heq ▸ Nat.lt_succ_self k, log.length, h.begun_le, le_rfl, ?_⟩
      rwa [List.take_length]

/-- **A sweep of all shards is regular.** -/
theorem Swept.regular (h : Swept shardOf log begun n found) (hshards : ∀ a, shardOf a < n) :
    Regular log begun found where
  begun_le := h.begun_le
  nodup := h.nodup
  complete a ha := h.complete a ha (hshards a)
  sound a ha := (h.sound a ha).2

end Sharding
