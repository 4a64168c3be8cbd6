/-
**Hash sets and indexes of hash sets.**

A hash set is modelled by its elements in iteration order, each of them once; a hash map by the
function that looks a key up.  What the containers are used for is an *index*: a map from keys to
sets in which an entry that runs empty is erased, so that a key is present exactly when it has a
member.  The two operations that keep an index, `Unordered.Index.add` and `Unordered.Index.drop`,
are described by what they do to the members.

Main definitions:

* `Unordered.USet` — a duplicate-free list, with insertion and erasure;
* `Unordered.Index` — a map from keys to sets, `Unordered.Index.members` its members under a key;
* `Unordered.Index.add`, `Unordered.Index.drop`, `Unordered.Index.dropAll` — inserting one pair,
  erasing one pair, and erasing one member under a list of keys.

Main results:

* `Unordered.Index.mem_members_add`, `Unordered.Index.mem_members_drop`,
  `Unordered.Index.mem_members_dropAll` — what the operations do to the members;
* `Unordered.Index.NoEmpty.add`, `Unordered.Index.NoEmpty.drop`,
  `Unordered.Index.NoEmpty.dropAll` — no entry is ever left empty.
-/

import Mathlib.Data.List.Nodup
import Mathlib.Logic.Function.Basic

set_option relaxedAutoImplicit false
set_option autoImplicit false

namespace Unordered

/-! ### Sets in iteration order -/

/-- A hash set: its elements in iteration order, each of them once. -/
structure USet (α : Type*) where
  elems : List α
  nodup : elems.Nodup

namespace USet

variable {α : Type*}

/-- The empty set. -/
def empty : USet α := ⟨[], List.nodup_nil⟩

@[simp] theorem elems_empty : (empty : USet α).elems = [] := rfl

variable [DecidableEq α]

/-- Inserting an element; a present one is left where it is. -/
def insert (a : α) (s : USet α) : USet α := ⟨s.elems.insert a, s.nodup.insert⟩

/-- Erasing an element. -/
def erase (a : α) (s : USet α) : USet α := ⟨s.elems.erase a, s.nodup.erase a⟩

@[simp] theorem mem_insert {a b : α} {s : USet α} :
    b ∈ (s.insert a).elems ↔ b = a ∨ b ∈ s.elems := List.mem_insert_iff

@[simp] theorem mem_erase {a b : α} {s : USet α} :
    b ∈ (s.erase a).elems ↔ b ≠ a ∧ b ∈ s.elems := s.nodup.mem_erase_iff

/-- Inserting a present element changes nothing. -/
theorem insert_of_mem {a : α} {s : USet α} (h : a ∈ s.elems) : s.insert a = s := by
  cases s
  simp only [insert, mk.injEq]
  exact List.insert_of_mem h

end USet

/-! ### Indexes -/

/-- A hash map from keys to hash sets. -/
abbrev Index (κ α : Type*) := κ → Option (USet α)

namespace Index

variable {κ α : Type*}

/-- The members under a key; none when the key is absent. -/
def members (m : Index κ α) (k : κ) : List α :=
  match m k with
  | none => []
  | some s => s.elems

theorem members_nodup (m : Index κ α) (k : κ) : (m.members k).Nodup := by
  unfold members
  split
  · exact List.nodup_nil
  · exact USet.nodup _

theorem members_of_some {m : Index κ α} {k : κ} {s : USet α} (h : m k = some s) :
    m.members k = s.elems := by
  simp only [members, h]

theorem members_of_none {m : Index κ α} {k : κ} (h : m k = none) : m.members k = [] := by
  simp only [members, h]

/-- No entry holds an empty set. -/
def NoEmpty (m : Index κ α) : Prop := ∀ k s, m k = some s → s.elems ≠ []

theorem members_congr {m m' : Index κ α} {k : κ} (h : m k = m' k) :
    m.members k = m'.members k := by
  simp only [members, h]

variable [DecidableEq κ]

/-- Looking a key up with `operator[]`, which creates an empty entry for an absent key. -/
def touch (k : κ) (m : Index κ α) : Index κ α :=
  Function.update m k (some ((m k).getD USet.empty))

/-- Touching a present key changes nothing. -/
theorem touch_of_some {m : Index κ α} {k : κ} {s : USet α} (h : m k = some s) :
    m.touch k = m := by
  rw [touch, h, Option.getD_some, ← h]
  exact Function.update_eq_self k m

theorem members_touch (m : Index κ α) (k j : κ) : (m.touch k).members j = m.members j := by
  by_cases hj : j = k
  · subst hj
    cases h : m j with
    | none => simp [members, touch, h]
    | some s => rw [touch_of_some h]
  · exact members_congr (Function.update_of_ne hj _ _)

variable [DecidableEq α]

/-- Inserting one pair: `m[k].insert(a)`. -/
def add (k : κ) (a : α) (m : Index κ α) : Index κ α :=
  Function.update m k (some (((m k).getD USet.empty).insert a))

/-- Erasing one pair, and the entry with it when it runs empty. -/
def drop (k : κ) (a : α) (m : Index κ α) : Index κ α :=
  match m k with
  | none => m
  | some s =>
      if (s.erase a).elems.isEmpty then Function.update m k none
      else Function.update m k (some (s.erase a))

/-- Erasing one member under every key of a list, one key after the other. -/
def dropAll (ks : List κ) (a : α) (m : Index κ α) : Index κ α :=
  ks.foldl (fun m k => m.drop k a) m

/-- Inserting under a key that was touched first is inserting. -/
theorem add_touch (m : Index κ α) (k : κ) (a : α) : (m.touch k).add k a = m.add k a := by
  simp [add, touch]

/-- **Inserting a pair adds that pair** and no other. -/
theorem mem_members_add {m : Index κ α} {k j : κ} {a b : α} :
    b ∈ (m.add k a).members j ↔ (j = k ∧ b = a) ∨ b ∈ m.members j := by
  by_cases hj : j = k
  · subst hj
    cases h : m j with
    | none => simp [members, add, h]
    | some s => simp [members, add, h]
  · have hm : (m.add k a).members j = m.members j :=
      members_congr (Function.update_of_ne hj _ _)
    rw [hm]
    simp [hj]

/-- **Erasing a pair removes that pair** and no other. -/
theorem mem_members_drop {m : Index κ α} {k j : κ} {a b : α} :
    b ∈ (m.drop k a).members j ↔ ¬ (j = k ∧ b = a) ∧ b ∈ m.members j := by
  cases h : m k with
  | none =>
      have hm : m.drop k a = m := by simp only [drop, h]
      rw [hm]
      constructor
      · intro hb
        refine ⟨?_, hb⟩
        rintro ⟨rfl, -⟩
        rw [members_of_none h] at hb
        simp at hb
      · exact And.right
  | some s =>
      have hme : ∀ b, b ∈ (m.drop k a).members k ↔ b ∈ (s.erase a).elems := by
        intro b
        unfold drop
        simp only [h]
        -- an entry that becomes empty is erased
        split
        · next he =>
            rw [List.isEmpty_iff] at he
            rw [members_of_none (Function.update_self k none m), he]
        · rw [members_of_some (Function.update_self k _ m)]
      by_cases hj : j = k
      · subst hj
        rw [hme, USet.mem_erase, members_of_some h]
        simp
      · have hm : (m.drop k a).members j = m.members j := by
          refine members_congr ?_
          unfold drop
          simp only [h]
          split
          · exact Function.update_of_ne hj _ _
          · exact Function.update_of_ne hj _ _
        rw [hm]
        simp [hj]

/-- What erasing a member under a list of keys removes. -/
theorem mem_members_dropAll {ks : List κ} {m : Index κ α} {j : κ} {a b : α} :
    b ∈ (m.dropAll ks a).members j ↔ ¬ (j ∈ ks ∧ b = a) ∧ b ∈ m.members j := by
  unfold dropAll
  induction ks generalizing m with
  | nil => simp
  | cons k ks ih =>
      rw [List.foldl_cons, ih, mem_members_drop]
      simp only [List.mem_cons]
      tauto

theorem NoEmpty.add {m : Index κ α} (h : m.NoEmpty) (k : κ) (a : α) : (m.add k a).NoEmpty := by
  intro j s hs
  by_cases hj : j = k
  · subst hj
    have hs' : (((m j).getD USet.empty).insert a) = s := by
      simpa [Index.add] using hs
    intro hnil
    have ha : a ∈ s.elems := by rw [← hs']; simp
    rw [hnil] at ha
    simp at ha
  · exact h j s (by rwa [Index.add, Function.update_of_ne hj] at hs)

theorem NoEmpty.drop {m : Index κ α} (h : m.NoEmpty) (k : κ) (a : α) : (m.drop k a).NoEmpty := by
  intro j s hs
  cases hk : m k with
  | none =>
      rw [Index.drop, hk] at hs
      exact h j s hs
  | some t =>
      simp only [Index.drop, hk] at hs
      by_cases hj : j = k
      · subst hj
        split at hs
        · simp at hs
        · next hne =>
            simp only [Function.update_self, Option.some.injEq] at hs
            subst hs
            simpa [List.isEmpty_iff] using hne
      · split at hs
        · exact h j s (by rwa [Function.update_of_ne hj] at hs)
        · exact h j s (by rwa [Function.update_of_ne hj] at hs)

theorem NoEmpty.dropAll {m : Index κ α} (h : m.NoEmpty) (ks : List κ) (a : α) :
    (m.dropAll ks a).NoEmpty := by
  unfold Index.dropAll
  induction ks generalizing m with
  | nil => exact h
  | cons k ks ih => exact ih (h.drop k a)

end Index

end Unordered
