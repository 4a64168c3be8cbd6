/-
**Singly linked lists that are threaded through a memory.**

A memory gives each cell the link it holds; a list of cells is threaded from a head if following the
links from there visits exactly these cells, in this order, and then ends.  Nothing here depends on
what the cells are.

Main definitions:

* `FreeList.Threads` — the list that a head and the links describe;
* `FreeList.link` — the loop that threads the cells `0, 1, …` one behind the other.

Main results:

* `FreeList.Threads.unique`, `FreeList.Threads.nodup` — a head describes at most one list, and that
  list visits no cell twice;
* `FreeList.Threads.frame` — links of cells outside the list do not matter;
* `FreeList.Threads.push` — putting a cell in front;
* `FreeList.threads_link` — **what the loop leaves**.
-/

import Mathlib.Data.List.Nodup
import Mathlib.Logic.Function.Basic

set_option relaxedAutoImplicit false
set_option autoImplicit false

namespace FreeList

variable {ι : Type*}

/-- Following the links from the head visits these cells and ends. -/
def Threads (next : ι → Option ι) : Option ι → List ι → Prop
  | head, [] => head = none
  | head, a :: rest => head = some a ∧ Threads next (next a) rest

variable {next : ι → Option ι} {head : Option ι} {cells : List ι}

@[simp] theorem threads_nil : Threads next head [] ↔ head = none := Iff.rfl

@[simp] theorem threads_cons {a : ι} :
    Threads next head (a :: cells) ↔ head = some a ∧ Threads next (next a) cells := Iff.rfl

/-- An empty head describes the empty list. -/
theorem threads_none : Threads next none cells ↔ cells = [] := by
  cases cells <;> simp

/-- A head describes the list that begins with it. -/
theorem threads_some {a : ι} :
    Threads next (some a) cells ↔ ∃ rest, cells = a :: rest ∧ Threads next (next a) rest := by
  cases cells with
  | nil => simp
  | cons b rest =>
      simp only [threads_cons, Option.some.injEq, List.cons.injEq]
      constructor
      · rintro ⟨rfl, h⟩
        exact ⟨rest, ⟨rfl, rfl⟩, h⟩
      · rintro ⟨_, ⟨rfl, rfl⟩, h⟩
        exact ⟨rfl, h⟩

/-- **A head describes at most one list.** -/
theorem Threads.unique {cells' : List ι} (h : Threads next head cells)
    (h' : Threads next head cells') : cells = cells' := by
  induction cells generalizing head cells' with
  | nil =>
      obtain rfl : head = none := h
      exact (threads_none.1 h').symm
  | cons a rest ih =>
      obtain ⟨rfl, hrest⟩ := h
      obtain ⟨rest', rfl, hrest'⟩ := threads_some.1 h'
      rw [ih hrest hrest']

/-- From any cell of the list on, the links describe the rest of it. -/
theorem Threads.suffix {before after : List ι} {a : ι}
    (h : Threads next head (before ++ a :: after)) : Threads next (some a) (a :: after) := by
  induction before generalizing head with
  | nil => exact ⟨rfl, h.2⟩
  | cons b before ih => exact ih h.2

/-- **A list that ends visits no cell twice**: from the two visits the rest would have to be the
same, and one of them is longer. -/
theorem Threads.nodup (h : Threads next head cells) : cells.Nodup := by
  induction cells generalizing head with
  | nil => exact List.nodup_nil
  | cons a rest ih =>
      refine List.nodup_cons.2 ⟨fun hmem => ?_, ih h.2⟩
      obtain ⟨before, after, rfl⟩ := List.append_of_mem hmem
      have hlater : Threads next (some a) (a :: after) := Threads.suffix h.2
      have hfirst : Threads next (some a) (a :: (before ++ a :: after)) := ⟨rfl, h.2⟩
      have hsame := hlater.unique hfirst
      have hlength := congrArg List.length hsame
      simp only [List.length_cons, List.length_append] at hlength
      omega

/-- Links of cells outside the list do not matter. -/
theorem Threads.frame {next' : ι → Option ι} (h : Threads next head cells)
    (hsame : ∀ a ∈ cells, next' a = next a) : Threads next' head cells := by
  induction cells generalizing head with
  | nil => exact h
  | cons a rest ih =>
      refine ⟨h.1, ?_⟩
      rw [hsame a (List.mem_cons_self ..)]
      exact ih h.2 fun b hb => hsame b (List.mem_cons_of_mem a hb)

variable [DecidableEq ι]

/-- Writing into a cell outside the list. -/
theorem Threads.update (h : Threads next head cells) {a : ι} (ha : a ∉ cells) (v : Option ι) :
    Threads (Function.update next a v) head cells :=
  h.frame fun b hb => Function.update_of_ne (by rintro rfl; exact ha hb) _ _

/-- Putting a cell in front of the list. -/
theorem Threads.push (h : Threads next head cells) {a : ι} (ha : a ∉ cells) :
    Threads (Function.update next a head) (some a) (a :: cells) := by
  refine ⟨rfl, ?_⟩
  rw [Function.update_self]
  exact h.update ha head

/-! ### Threading all cells -/

/-- The loop that links each of the cells `0, …, count - 1` to the next one. -/
def link (count : ℕ) (next : ℕ → Option ℕ) : ℕ → Option ℕ :=
  (List.range count).foldl (fun next i => Function.update next i (some (i + 1))) next

theorem link_succ (count : ℕ) (next : ℕ → Option ℕ) :
    link (count + 1) next = Function.update (link count next) count (some (count + 1)) := by
  simp [link, List.range_succ]

theorem link_apply (count : ℕ) (next : ℕ → Option ℕ) (i : ℕ) :
    link count next i = if i < count then some (i + 1) else next i := by
  induction count with
  | zero => simp [link]
  | succ count ih =>
      rw [link_succ]
      by_cases hi : i = count
      · subst hi
        simp
      · rw [Function.update_of_ne hi, ih]
        have hlt : i < count + 1 ↔ i < count := by omega
        simp [hlt]

/-- **The loop threads all cells**, if the last one ends the list. -/
theorem threads_link (count : ℕ) (next : ℕ → Option ℕ) :
    Threads (Function.update (link count next) count none) (some 0) (List.range (count + 1)) := by
  have hall : ∀ k i, i + k = count →
      Threads (Function.update (link count next) count none) (some i)
        (List.range' i (k + 1)) := by
    intro k
    -- from the last cell backwards
    induction k with
    | zero =>
        intro i hi
        obtain rfl : i = count := by omega
        simp [List.range'_succ]
    | succ k ih =>
        intro i hi
        rw [List.range'_succ, threads_cons, Function.update_of_ne (by omega), link_apply,
          if_pos (by omega)]
        exact ⟨rfl, ih (i + 1) (by omega)⟩
  rw [List.range_eq_range']
  exact hall count 0 (by omega)

end FreeList
