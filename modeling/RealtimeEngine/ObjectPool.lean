/-
**The object pool: a free list in the storage of dead objects.**

`core/memory_pool.hpp` hands out slots of a fixed size.  The free slots form a list, and the link of
a free slot lies in its own storage, where an object overwrites it as soon as one is constructed
there.  `Create` takes the first free slot under the mutex, runs the constructor without it, and puts
the slot back under the mutex if the constructor throws; `Destroy` checks its argument, marks the
slot under the mutex in a debug build, runs the destructor without it, and puts the slot back in a
second critical section.

A `Slot*` is the number of the slot, counted from `slots_`; the argument of `Destroy` is an address.
Each critical section is one step, and so is each time a constructor, a destructor or a live object
writes into its slot.  The model remembers which objects the callers own.

Main definitions:

* `RealtimeEngine.ObjectPool.Pool`, with `createSection`, `catchSection`, `destroySection`,
  `releaseSection` — the pool and the critical sections;
* `RealtimeEngine.ObjectPool.Task`, `RealtimeEngine.ObjectPool.program` — the calls, in any number
  and any interleaving;
* `RealtimeEngine.ObjectPool.Correct` — what the pool promises.

Main results:

* `RealtimeEngine.ObjectPool.Sound.exec` — every step keeps the invariant;
* `RealtimeEngine.ObjectPool.pool_correct` — **the pool keeps its promises in every run**.
-/

import Mathlib.Data.Multiset.Range
import Mathlib.Data.Multiset.UnionInter
import RealtimeEngine.FreeList
import RealtimeEngine.Interleaving

set_option relaxedAutoImplicit false
set_option autoImplicit false

namespace RealtimeEngine

namespace ObjectPool

open Interleaving FreeList

/-! ### The pool -/

/-- What the pool throws. -/
inductive PoolError
  | invalidArgument (text : String)
  | lengthError (text : String)
  | logicError (text : String)
  deriving DecidableEq, Repr

/-- Where the slots are: the address of the first one, `sizeof(Slot)`, and their number. -/
structure Slots where
  start : ℕ
  slotBytes : ℕ
  capacity : ℕ
  slotBytes_pos : 0 < slotBytes
  capacity_pos : 0 < capacity

/-- The address of a slot, and of the object in it. -/
def Slots.address (slots : Slots) (slot : ℕ) : ℕ := slots.start + slot * slots.slotBytes

/-- The members of `TypedObjectPool` that change, and the slots whose objects the callers own. -/
structure Pool where
  /-- What the storage of a slot holds, read as a `Slot*`. -/
  next : ℕ → Option ℕ
  freeHead : Option ℕ
  /-- Only in debug builds. -/
  allocated : ℕ → Bool
  live : List ℕ

/-- The constructor of `TypedObjectPool`; `memory` is what the new memory happens to hold. -/
def construct (start slotBytes capacity : ℕ) (hbytes : 0 < slotBytes) (memory : ℕ → Option ℕ) :
    Except PoolError (Slots × Pool) :=
  if hzero : capacity = 0 then
    .error (.invalidArgument "TypedObjectPool capacity must be non-zero")
  else if (2 ^ 64 - 1) / slotBytes < capacity then
    .error (.lengthError "TypedObjectPool capacity overflows allocation size")
  else
    .ok (⟨start, slotBytes, capacity, hbytes, Nat.pos_of_ne_zero hzero⟩,
      { next := Function.update (link (capacity - 1) memory) (capacity - 1) none
        freeHead := some 0
        allocated := fun _ => false
        live := [] })

/-- How the first critical section of `Create` or of `Destroy` ends: with nothing to do, with an
exception, or with a slot. -/
inductive SectionResult
  | returned
  | threw (error : PoolError)
  | slot (slot : ℕ)
  deriving DecidableEq, Repr

/-- The first critical section of `Create`. -/
def createSection (debug : Bool) (pool : Pool) : SectionResult × Pool :=
  match pool.freeHead with
  | none => (.returned, pool)
  | some slot =>
      let popped := { pool with freeHead := pool.next slot }
      if debug then
        if pool.allocated slot then
          (.threw (.logicError "TypedObjectPool free-list corruption"), popped)
        else
          (.slot slot, { popped with allocated := Function.update pool.allocated slot true })
      else (.slot slot, popped)

/-- The critical section of `Create` after its constructor has thrown. -/
def catchSection (debug : Bool) (slot : ℕ) (pool : Pool) : Pool :=
  { pool with
    allocated := if debug then Function.update pool.allocated slot false else pool.allocated
    next := Function.update pool.next slot pool.freeHead
    freeHead := some slot }

/-- `Destroy` up to the end of its first critical section. -/
def destroySection (debug : Bool) (slots : Slots) (object : Option ℕ) (pool : Pool) :
    SectionResult × Pool :=
  match object with
  | none => (.returned, pool)
  | some bytes =>
      if bytes < slots.start ∨ slots.start + slots.capacity * slots.slotBytes ≤ bytes then
        (.threw (.invalidArgument "pointer does not belong to TypedObjectPool"), pool)
      else if (bytes - slots.start) % slots.slotBytes ≠ 0 then
        (.threw (.invalidArgument "pointer is not at a TypedObjectPool block boundary"), pool)
      else
        let slot := (bytes - slots.start) / slots.slotBytes
        if debug then
          if !pool.allocated slot then
            (.threw (.logicError "TypedObjectPool double free detected"), pool)
          else (.slot slot, { pool with allocated := Function.update pool.allocated slot false })
        else (.slot slot, pool)

/-- The second critical section of `Destroy`. -/
def releaseSection (slot : ℕ) (pool : Pool) : Pool :=
  { pool with
    next := Function.update pool.next slot pool.freeHead
    freeHead := some slot }

/-! ### Calls -/

/-- Where a call stands. -/
inductive Task
  /-- The callers, and the objects they own. -/
  | outside
  /-- `Create` at its first critical section. -/
  | create
  /-- `Create` in `std::construct_at`. -/
  | construct (slot : ℕ)
  /-- `Create` in its `catch` block. -/
  | catchThrow (slot : ℕ)
  /-- `Destroy`, called with an object that its caller owned. -/
  | destroy (slot : ℕ)
  /-- `Destroy`, called with any other pointer. -/
  | stray (object : Option ℕ)
  /-- `Destroy` in `std::destroy_at`. -/
  | destruct (slot : ℕ)
  /-- `Destroy` at its second critical section. -/
  | release (slot : ℕ)
  deriving DecidableEq, Repr

/-- What a step leaves open. -/
inductive Choice
  /-- Somebody calls `Create`. -/
  | creates
  /-- The owner of the object in this slot calls `Destroy`. -/
  | destroys (slot : ℕ)
  /-- Somebody calls `Destroy` with this pointer. -/
  | strays (object : Option ℕ)
  /-- The storage of this slot is written to. -/
  | writes (slot : ℕ) (value : Option ℕ)
  /-- The step passes; a constructor or a destructor returns. -/
  | passes
  /-- The constructor throws. -/
  | throws
  deriving DecidableEq, Repr

/-- Writing into the storage of a slot. -/
def Pool.write (pool : Pool) (slot : ℕ) (value : Option ℕ) : Pool :=
  { pool with next := Function.update pool.next slot value }

/-- What the callers do: they call, and the objects they own write into their slots. -/
def outside (x : Choice) (pool : Pool) : Option (Outcome Pool Task) :=
  match x with
  | .creates => some ⟨pool, [.outside], [[.create]]⟩
  | .destroys slot =>
      if slot ∈ pool.live then
        some ⟨{ pool with live := pool.live.erase slot }, [.outside], [[.destroy slot]]⟩
      else none
  | .strays object => some ⟨pool, [.outside], [[.stray object]]⟩
  | .writes slot value =>
      if slot ∈ pool.live then some ⟨pool.write slot value, [.outside], []⟩ else none
  | .passes | .throws => none

/-- What each step does.  A stray `Destroy` is no step when its pointer goes through: the slot then
holds somebody else's object, or one that is being constructed. -/
def exec (debug : Bool) (slots : Slots) (x : Choice) (t : Task) (pool : Pool) :
    Option (Outcome Pool Task) :=
  match t with
  | .outside => outside x pool
  | .create =>
      match createSection debug pool with
      | (.slot slot, pool') => some ⟨pool', [.construct slot], []⟩
      | (.returned, pool') | (.threw _, pool') => some ⟨pool', [], []⟩
  | .construct slot =>
      match x with
      | .writes target value =>
          if target = slot then some ⟨pool.write slot value, [.construct slot], []⟩ else none
      | .passes => some ⟨{ pool with live := slot :: pool.live }, [], []⟩
      | .throws => some ⟨pool, [.catchThrow slot], []⟩
      | .creates | .destroys _ | .strays _ => none
  | .catchThrow slot => some ⟨catchSection debug slot pool, [], []⟩
  | .destroy slot =>
      match destroySection debug slots (some (slots.address slot)) pool with
      | (.slot slot', pool') => some ⟨pool', [.destruct slot'], []⟩
      | (.returned, pool') | (.threw _, pool') => some ⟨pool', [], []⟩
  | .stray object =>
      match destroySection debug slots object pool with
      | (.slot _, _) => none
      | (.returned, pool') | (.threw _, pool') => some ⟨pool', [], []⟩
  | .destruct slot =>
      match x with
      | .writes target value =>
          if target = slot then some ⟨pool.write slot value, [.destruct slot], []⟩ else none
      | .passes => some ⟨pool, [.release slot], []⟩
      | .creates | .destroys _ | .strays _ | .throws => none
  | .release slot => some ⟨releaseSection slot pool, [], []⟩

/-- The calls on a pool. -/
def program (debug : Bool) (slots : Slots) : Program Pool Task Choice := ⟨exec debug slots⟩

/-- The slot a call holds: under construction, handed over to `Destroy`, or under destruction. -/
def Task.slot? : Task → Option ℕ
  | .construct slot | .catchThrow slot | .destroy slot | .destruct slot | .release slot => some slot
  | .outside | .create | .stray _ => none

/-- The slot a call holds and has not marked as free. -/
def Task.allocated? : Task → Option ℕ
  | .construct slot | .catchThrow slot | .destroy slot => some slot
  | .outside | .create | .stray _ | .destruct _ | .release _ => none

/-! ### What the pool promises -/

/-- The slot is in use: its object is owned, or it is held by a call that has not marked it free. -/
def Allocated (pool : Pool) (P : Multiset Task) (slot : ℕ) : Prop :=
  slot ∈ pool.live ∨ slot ∈ holders Task.allocated? P

/-- The pointer is no object of the pool: it is outside, it is off the boundaries, or its slot is not
in use. -/
def Bad (slots : Slots) (pool : Pool) (P : Multiset Task) (bytes : ℕ) : Prop :=
  bytes < slots.start ∨ slots.start + slots.capacity * slots.slotBytes ≤ bytes ∨
    (bytes - slots.start) % slots.slotBytes ≠ 0 ∨
    ¬ Allocated pool P ((bytes - slots.start) / slots.slotBytes)

/-- Calls of `Create`, one after the other, whose constructors return and leave these values in
their slots: the slots, and the pool afterwards. -/
def createMany (debug : Bool) : List (Option ℕ) → Pool → Option (List ℕ × Pool)
  | [], pool => some ([], pool)
  | value :: values, pool =>
      match createSection debug pool with
      | (.slot slot, pool') =>
          (createMany debug values ({ pool' with live := slot :: pool'.live }.write slot value)).map
            fun r => (slot :: r.1, r.2)
      | (.returned, _) | (.threw _, _) => none

/-- What the pool promises in a state with these pending calls. -/
structure Correct (debug : Bool) (slots : Slots) (pool : Pool) (P : Multiset Task) : Prop where
  /-- The free list ends, visits no slot twice and none that is in use; with the slots of owned
  objects and those that calls hold it makes up all slots, each of them once. -/
  partition : ∃ free, Threads pool.next pool.freeHead free ∧ free.Nodup ∧
    (∀ slot ∈ free, slot ∉ pool.live ∧ slot ∉ holders Task.slot? P) ∧
    (free : Multiset ℕ) + pool.live + holders Task.slot? P = Multiset.range slots.capacity
  /-- `Create` returns null exactly when no slot is free. -/
  null_iff : (createSection debug pool).1 = .returned ↔
    ∀ slot < slots.capacity, slot ∈ pool.live ∨ slot ∈ holders Task.slot? P
  /-- The slot `Create` takes is in nobody's hands. -/
  taken : ∀ slot, (createSection debug pool).1 = .slot slot →
    slot < slots.capacity ∧ slot ∉ pool.live ∧ slot ∉ holders Task.slot? P
  /-- The corruption check never fires. -/
  uncorrupted : ∀ error, (createSection debug pool).1 ≠ .threw error
  /-- The object `Create` is about to return is in no slot with an owned object. -/
  returned : ∀ slot, .construct slot ∈ P → slot < slots.capacity ∧ slot ∉ pool.live
  /-- A constructor that throws puts its slot in front of the free list. -/
  caught : ∀ slot, .catchThrow slot ∈ P → ∀ free, Threads pool.next pool.freeHead free →
    Threads (catchSection debug slot pool).next (catchSection debug slot pool).freeHead (slot :: free)
  /-- With all objects destroyed and no call under way, as many calls of `Create` as there are slots
  take different slots, and one more returns null. -/
  refilled : pool.live = [] → holders Task.slot? P = 0 →
    ∀ values : List (Option ℕ), values.length = slots.capacity → ∃ created pool',
      createMany debug values pool = some (created, pool') ∧ created.length = slots.capacity ∧
        created.Nodup ∧ (createSection debug pool').1 = .returned
  /-- A `Destroy` of an owned object finds its slot. -/
  destroyed : ∀ slot, .destroy slot ∈ P →
    (destroySection debug slots (some (slots.address slot)) pool).1 = .slot slot
  /-- In a debug build a `Destroy` of anything else throws, and the pool is as it was. -/
  refused : debug = true → ∀ bytes, Bad slots pool P bytes →
    ∃ error, destroySection debug slots (some bytes) pool = (.threw error, pool)

/-! ### The invariant -/

/-- The free list with the slots in use are all slots, and in a debug build the flags say which are
in use. -/
structure Sound (debug : Bool) (n : ℕ) (pool : Pool) (P : Multiset Task) : Prop where
  parts : ∃ free, Threads pool.next pool.freeHead free ∧
    (free : Multiset ℕ) + pool.live + holders Task.slot? P = Multiset.range n
  flags : debug = true → ∀ slot, pool.allocated slot = true ↔ Allocated pool P slot

section Invariant

variable {debug : Bool} {n : ℕ} {pool : Pool} {P R : Multiset Task} {free : List ℕ}

theorem mem_holders_slot {slot : ℕ} (h : slot ∈ holders Task.allocated? P) :
    slot ∈ holders Task.slot? P := by
  obtain ⟨t, ht, hslot⟩ := mem_holders.1 h
  refine mem_holders.2 ⟨t, ht, ?_⟩
  cases t <;> first | exact hslot | cases hslot

/-- The three parts have no slot in common, and no slot twice. -/
theorem apart (hall : (free : Multiset ℕ) + pool.live + holders Task.slot? P = Multiset.range n) :
    pool.live.Nodup ∧ (holders Task.slot? P).Nodup ∧
      (∀ slot ∈ free, slot ∉ pool.live ∧ slot ∉ holders Task.slot? P) ∧
      (∀ slot ∈ pool.live, slot ∉ holders Task.slot? P) := by
  have hnodup := Multiset.nodup_range n
  rw [← hall, Multiset.nodup_add, Multiset.nodup_add] at hnodup
  obtain ⟨⟨-, hlive, hfree⟩, hheld, hboth⟩ := hnodup
  refine ⟨Multiset.coe_nodup.1 hlive, hheld, fun slot hslot => ⟨?_, ?_⟩, fun slot hslot => ?_⟩
  · exact fun h => Multiset.disjoint_left.1 hfree (Multiset.mem_coe.2 hslot) (Multiset.mem_coe.2 h)
  · exact Multiset.disjoint_left.1 hboth (Multiset.mem_add.2 (Or.inl (Multiset.mem_coe.2 hslot)))
  · exact Multiset.disjoint_left.1 hboth (Multiset.mem_add.2 (Or.inr (Multiset.mem_coe.2 hslot)))

/-- The three parts are all slots. -/
theorem mem_parts (hall : (free : Multiset ℕ) + pool.live + holders Task.slot? P = Multiset.range n)
    (slot : ℕ) :
    slot < n ↔ slot ∈ free ∨ slot ∈ pool.live ∨ slot ∈ holders Task.slot? P := by
  rw [← Multiset.mem_range, ← hall]
  simp only [Multiset.mem_add, Multiset.mem_coe, or_assoc]

/-- A call that holds no slot does not matter. -/
theorem sound_cons_iff {t : Task} (hslot : t.slot? = none) :
    Sound debug n pool (t ::ₘ R) ↔ Sound debug n pool R := by
  have hflag : t.allocated? = none := by
    cases t <;> first | rfl | cases hslot
  constructor
  · rintro ⟨hparts, hflags⟩
    simp only [Allocated, holders_cons_none hslot, holders_cons_none hflag] at hparts hflags
    exact ⟨hparts, hflags⟩
  · rintro ⟨hparts, hflags⟩
    refine ⟨?_, ?_⟩
    · simpa only [holders_cons_none hslot] using hparts
    · simpa only [Allocated, holders_cons_none hflag] using hflags

/-- What is allocated in the state before and after a call goes from one stage to the next. -/
theorem allocated_cons_iff {t : Task} {slot : ℕ} (h : t.allocated? = some slot) (i : ℕ) :
    Allocated pool (t ::ₘ R) i ↔ i = slot ∨ Allocated pool R i := by
  rw [Allocated, Allocated, holders_cons_some h, Multiset.mem_cons]
  tauto

theorem allocated_cons_of_none {t : Task} (h : t.allocated? = none) (i : ℕ) :
    Allocated pool (t ::ₘ R) i ↔ Allocated pool R i := by
  rw [Allocated, Allocated, holders_cons_none h]

/-- A slot that is in nobody's hands is not allocated. -/
theorem not_allocated {slot : ℕ} (hlive : slot ∉ pool.live)
    (hheld : slot ∉ holders Task.slot? P) : ¬ Allocated pool P slot := by
  rintro (h | h)
  · exact hlive h
  · exact hheld (mem_holders_slot h)

/-! ### What the sections do -/

/-- **The first section of `Create`**: the list is empty and nothing happens, or its first slot is
taken. -/
theorem Sound.create_cases (h : Sound debug n pool P) :
    (Threads pool.next pool.freeHead [] ∧ createSection debug pool = (.returned, pool)) ∨
    ∃ slot rest pool', Threads pool.next pool.freeHead (slot :: rest) ∧
      createSection debug pool = (.slot slot, pool') ∧ Threads pool'.next pool'.freeHead rest ∧
      Sound debug n pool' (.construct slot ::ₘ P) := by
  obtain ⟨free, hfree, hall⟩ := h.parts
  cases free with
  | nil => exact Or.inl ⟨hfree, by simp [createSection, threads_nil.1 hfree]⟩
  | cons slot rest =>
      obtain ⟨hhead, hrest⟩ := hfree
      obtain ⟨hlive, hheld⟩ := (apart hall).2.2.1 slot (List.mem_cons_self ..)
      have hslot : (Task.construct slot).slot? = some slot := rfl
      have hparts : (rest : Multiset ℕ) + pool.live +
          holders Task.slot? (.construct slot ::ₘ P) = Multiset.range n := by
        rw [← hall, holders_cons_some hslot, Multiset.add_cons, ← Multiset.cons_coe,
          Multiset.cons_add, Multiset.cons_add]
      cases debug with
      | false =>
          exact Or.inr ⟨slot, rest, { pool with freeHead := pool.next slot }, ⟨hhead, hrest⟩,
            by simp [createSection, hhead], hrest, ⟨rest, hrest, hparts⟩, by simp⟩
      | true =>
          -- the flag of a free slot is not set
          have hflag : pool.allocated slot = false := by
            rw [← Bool.not_eq_true, h.flags rfl slot]
            exact not_allocated hlive hheld
          refine Or.inr ⟨slot, rest, { pool with
            freeHead := pool.next slot
            allocated := Function.update pool.allocated slot true }, ⟨hhead, hrest⟩,
            by simp [createSection, hhead, hflag], hrest, ⟨rest, hrest, hparts⟩, fun _ i => ?_⟩
          have hmarked : (Task.construct slot).allocated? = some slot := rfl
          rw [allocated_cons_iff hmarked]
          by_cases hi : i = slot
          · subst hi
            simp
          · simp only [Function.update_of_ne hi, hi, false_or]
            exact h.flags rfl i

/-- A slot in use may be written to: it is not in the list. -/
theorem Sound.write (h : Sound debug n pool P) {slot : ℕ}
    (hused : slot ∈ pool.live ∨ slot ∈ holders Task.slot? P) (value : Option ℕ) :
    Sound debug n (pool.write slot value) P := by
  obtain ⟨free, hfree, hall⟩ := h.parts
  have hout : slot ∉ free := by
    intro hmem
    obtain ⟨hlive, hheld⟩ := (apart hall).2.2.1 slot hmem
    exact hused.elim hlive hheld
  exact ⟨⟨free, hfree.update hout value, hall⟩, h.flags⟩

/-- The constructor returns: the object is its caller's. -/
theorem Sound.returns {slot : ℕ} (h : Sound debug n pool (.construct slot ::ₘ R)) :
    Sound debug n { pool with live := slot :: pool.live } R := by
  have hslot : (Task.construct slot).slot? = some slot := rfl
  have hmarked : (Task.construct slot).allocated? = some slot := rfl
  obtain ⟨free, hfree, hall⟩ := h.parts
  refine ⟨⟨free, hfree, ?_⟩, fun hd i => ?_⟩
  · rw [← hall, holders_cons_some hslot, ← Multiset.cons_coe, Multiset.add_cons, Multiset.add_cons,
      Multiset.cons_add]
  · rw [h.flags hd i, allocated_cons_iff hmarked, Allocated, Allocated, List.mem_cons, or_assoc]

/-- The owner of an object calls `Destroy`. -/
theorem Sound.hands {slot : ℕ} (h : Sound debug n pool P) (hmem : slot ∈ pool.live) :
    Sound debug n { pool with live := pool.live.erase slot } (.destroy slot ::ₘ P) := by
  have hslot : (Task.destroy slot).slot? = some slot := rfl
  have hmarked : (Task.destroy slot).allocated? = some slot := rfl
  obtain ⟨free, hfree, hall⟩ := h.parts
  refine ⟨⟨free, hfree, ?_⟩, fun hd i => ?_⟩
  · rw [← hall, holders_cons_some hslot, ← Multiset.coe_erase, Multiset.add_cons,
      ← Multiset.cons_add, ← Multiset.add_cons, Multiset.cons_erase (Multiset.mem_coe.2 hmem)]
  · rw [h.flags hd i, allocated_cons_iff hmarked, Allocated, Allocated]
    by_cases hi : i = slot
    · subst hi
      simp [hmem]
    · rw [List.mem_erase_of_ne hi]
      simp [hi]

/-- A call goes on with the same slot. -/
theorem Sound.goes {t t' : Task} (h : Sound debug n pool (t ::ₘ R)) (hslot : t'.slot? = t.slot?)
    (hmarked : t'.allocated? = t.allocated?) : Sound debug n pool (t' ::ₘ R) := by
  obtain ⟨hparts, hflags⟩ := h
  refine ⟨?_, ?_⟩
  · simpa only [holders_cons, hslot] using hparts
  · simpa only [Allocated, holders_cons, hmarked] using hflags

/-- A call puts its slot in front of the list. -/
theorem Sound.push {t : Task} {slot : ℕ} {pool' : Pool} (h : Sound debug n pool (t ::ₘ R))
    (hslot : t.slot? = some slot)
    (hnext : pool'.next = Function.update pool.next slot pool.freeHead)
    (hhead : pool'.freeHead = some slot) (hlive : pool'.live = pool.live)
    (hflags : debug = true → ∀ i, pool'.allocated i = true ↔ Allocated pool R i) :
    Sound debug n pool' R := by
  obtain ⟨free, hfree, hall⟩ := h.parts
  have hout : slot ∉ free := by
    intro hmem
    refine ((apart hall).2.2.1 slot hmem).2 ?_
    rw [holders_cons_some hslot]
    exact Multiset.mem_cons_self _ _
  refine ⟨⟨slot :: free, ?_, ?_⟩, fun hd i => ?_⟩
  · rw [hnext, hhead]
    exact hfree.push hout
  · rw [← hall, hlive, holders_cons_some hslot, Multiset.add_cons, ← Multiset.cons_coe,
      Multiset.cons_add, Multiset.cons_add]
  · rw [hflags hd i, Allocated, Allocated, hlive]

/-- The slot of a call is not in use otherwise. -/
theorem Sound.not_allocated {t : Task} {slot : ℕ} (h : Sound debug n pool (t ::ₘ R))
    (hslot : t.slot? = some slot) : slot < n ∧ ¬ Allocated pool R slot := by
  obtain ⟨free, -, hall⟩ := h.parts
  obtain ⟨-, hheld, -, hlive⟩ := apart hall
  have hmem : slot ∈ holders Task.slot? (t ::ₘ R) := by
    rw [holders_cons_some hslot]
    exact Multiset.mem_cons_self _ _
  refine ⟨(mem_parts hall slot).2 (Or.inr (Or.inr hmem)), ?_⟩
  refine ObjectPool.not_allocated (fun h' => hlive slot h' hmem) ?_
  rw [holders_cons_some hslot] at hheld
  exact (Multiset.nodup_cons.1 hheld).1

/-- A constructor has thrown: its slot is free again. -/
theorem Sound.caught {slot : ℕ} (h : Sound debug n pool (.catchThrow slot ::ₘ R)) :
    Sound debug n (catchSection debug slot pool) R := by
  have hmarked : (Task.catchThrow slot).allocated? = some slot := rfl
  refine h.push rfl rfl rfl rfl fun hd i => ?_
  simp only [catchSection, hd, if_true]
  by_cases hi : i = slot
  · subst hi
    simp [(h.not_allocated rfl).2]
  · rw [Function.update_of_ne hi, h.flags hd i, allocated_cons_iff hmarked]
    simp [hi]

/-- The second section of `Destroy`: the slot is free again. -/
theorem Sound.released {slot : ℕ} (h : Sound debug n pool (.release slot ::ₘ R)) :
    Sound debug n (releaseSection slot pool) R := by
  refine h.push rfl rfl rfl rfl fun hd i => ?_
  rw [releaseSection, h.flags hd i]
  exact allocated_cons_of_none rfl i

/-! ### The first section of `Destroy` -/

variable {slots : Slots}

/-- The address of a slot leads back to it. -/
theorem destroySection_address {slot : ℕ} (hslot : slot < slots.capacity) (pool : Pool) :
    destroySection debug slots (some (slots.address slot)) pool =
      if debug then
        if !pool.allocated slot then
          (.threw (.logicError "TypedObjectPool double free detected"), pool)
        else (.slot slot, { pool with allocated := Function.update pool.allocated slot false })
      else (.slot slot, pool) := by
  have hpos := slots.slotBytes_pos
  have hbelow : slots.address slot < slots.start + slots.capacity * slots.slotBytes :=
    Nat.add_lt_add_left ((Nat.mul_lt_mul_right hpos).2 hslot) _
  have hinside : ¬ (slots.address slot < slots.start ∨
      slots.start + slots.capacity * slots.slotBytes ≤ slots.address slot) := by
    rw [Slots.address] at hbelow ⊢
    omega
  have hoffset : slots.address slot - slots.start = slot * slots.slotBytes := by
    rw [Slots.address, Nat.add_sub_cancel_left]
  simp only [destroySection, hinside, if_false, hoffset, Nat.mul_mod_left, ne_eq,
    not_true_eq_false, Nat.mul_div_cancel _ hpos]

/-- Without a slot the section changes nothing. -/
theorem destroySection_unchanged {object : Option ℕ} {result : SectionResult} {pool' : Pool}
    (h : destroySection debug slots object pool = (result, pool'))
    (hresult : ∀ slot, result ≠ .slot slot) : pool' = pool := by
  cases object with
  | none => exact (Prod.mk.inj h).2.symm
  | some bytes =>
      simp only [destroySection] at h
      split_ifs at h
      · exact (Prod.mk.inj h).2.symm
      · exact (Prod.mk.inj h).2.symm
      · exact (Prod.mk.inj h).2.symm
      · exact absurd (Prod.mk.inj h).1.symm (hresult _)
      · exact absurd (Prod.mk.inj h).1.symm (hresult _)

/-- An owned object is found, and its slot is marked as free. -/
theorem Sound.destroyed {slot : ℕ} (h : Sound debug slots.capacity pool (.destroy slot ::ₘ R)) :
    ∃ pool', destroySection debug slots (some (slots.address slot)) pool = (.slot slot, pool') ∧
      Sound debug slots.capacity pool' (.destruct slot ::ₘ R) := by
  have hmarked : (Task.destroy slot).allocated? = some slot := rfl
  obtain ⟨hlt, hother⟩ := h.not_allocated rfl
  have hheld : holders Task.slot? (.destruct slot ::ₘ R) =
      holders Task.slot? (.destroy slot ::ₘ R) := by
    rw [holders_cons, holders_cons]
    rfl
  rw [destroySection_address hlt]
  cases debug with
  | false => exact ⟨pool, by simp, by rw [hheld]; exact h.parts, by simp⟩
  | true =>
      have hflag : pool.allocated slot = true :=
        (h.flags rfl slot).2 ((allocated_cons_iff hmarked slot).2 (Or.inl rfl))
      refine ⟨{ pool with allocated := Function.update pool.allocated slot false },
        by simp [hflag], by rw [hheld]; exact h.parts, fun _ i => ?_⟩
      rw [allocated_cons_of_none rfl]
      by_cases hi : i = slot
      · subst hi
        simp only [Function.update_self, Bool.false_eq_true, false_iff]
        exact hother
      · simp only [Function.update_of_ne hi]
        refine (h.flags rfl i).trans ((allocated_cons_iff hmarked i).trans ?_)
        simp only [hi, false_or]
        rfl

/-- In a debug build a pointer that is no object of the pool is refused. -/
theorem Sound.refused (h : Sound true slots.capacity pool P) {bytes : ℕ}
    (hbad : Bad slots pool P bytes) :
    ∃ error, destroySection true slots (some bytes) pool = (.threw error, pool) := by
  simp only [destroySection]
  by_cases hinside : bytes < slots.start ∨
      slots.start + slots.capacity * slots.slotBytes ≤ bytes
  · exact ⟨_, if_pos hinside⟩
  · rw [if_neg hinside]
    by_cases hboundary : (bytes - slots.start) % slots.slotBytes ≠ 0
    · exact ⟨_, if_pos hboundary⟩
    · rw [if_neg hboundary]
      have hfree : ¬ Allocated pool P ((bytes - slots.start) / slots.slotBytes) := by
        unfold Bad at hbad
        tauto
      have hflag : pool.allocated ((bytes - slots.start) / slots.slotBytes) = false := by
        rw [← Bool.not_eq_true, h.flags rfl]
        exact hfree
      rw [hflag]
      exact ⟨_, rfl⟩

/-! ### Every step -/

/-- A call that has ended. -/
theorem Sound.ends (h : Sound debug n pool R) :
    Sound debug n pool (([] : List Task) + ([] : List (List Task)).flatten + R) := by
  simpa using h

/-- A call that goes on. -/
theorem Sound.one {t : Task} (h : Sound debug n pool (t ::ₘ R)) :
    Sound debug n pool (([t] : List Task) + ([] : List (List Task)).flatten + R) := by
  simpa using h

/-- A caller that has started a call. -/
theorem Sound.forks {t t' : Task} (h : Sound debug n pool (t ::ₘ t' ::ₘ R)) :
    Sound debug n pool (([t] : List Task) + ([[t']] : List (List Task)).flatten + R) := by
  simpa using h

/-- What the callers do keeps the invariant. -/
theorem Sound.outside {x : Choice} {o : Outcome Pool Task}
    (h : Sound debug n pool (.outside ::ₘ R)) (hexec : outside x pool = some o) :
    Sound debug n o.shared (o.next + o.forked.flatten + R) := by
  have hR : Sound debug n pool R := (sound_cons_iff rfl).1 h
  cases x with
  | creates =>
      obtain rfl := Option.some.inj hexec
      exact .forks ((sound_cons_iff rfl).2 ((sound_cons_iff rfl).2 hR))
  | destroys slot =>
      simp only [ObjectPool.outside] at hexec
      split at hexec
      · next hmem =>
          obtain rfl := Option.some.inj hexec
          exact .forks ((sound_cons_iff rfl).2 (hR.hands hmem))
      · cases hexec
  | strays object =>
      obtain rfl := Option.some.inj hexec
      exact .forks ((sound_cons_iff rfl).2 ((sound_cons_iff rfl).2 hR))
  | writes slot value =>
      simp only [ObjectPool.outside] at hexec
      split at hexec
      · next hmem =>
          obtain rfl := Option.some.inj hexec
          exact .one ((sound_cons_iff rfl).2 (hR.write (Or.inl hmem) value))
      · cases hexec
  | passes => cases hexec
  | throws => cases hexec

/-- A call writes into its own slot. -/
theorem Sound.writes {t : Task} {slot target : ℕ} {value : Option ℕ} {o : Outcome Pool Task}
    (h : Sound debug n pool (t ::ₘ R)) (hslot : t.slot? = some slot)
    (hexec : (if target = slot then some ⟨pool.write slot value, [t], []⟩ else none) = some o) :
    Sound debug n o.shared (o.next + o.forked.flatten + R) := by
  have hheld : slot ∈ holders Task.slot? (t ::ₘ R) := by
    rw [holders_cons_some hslot]
    exact Multiset.mem_cons_self _ _
  split at hexec
  · obtain rfl := Option.some.inj hexec
    exact (h.write (Or.inr hheld) value).one
  · cases hexec

/-- **Every step keeps the invariant**, whatever else is under way. -/
theorem Sound.exec {x : Choice} {t : Task} {o : Outcome Pool Task}
    (h : Sound debug slots.capacity pool (t ::ₘ R))
    (hexec : exec debug slots x t pool = some o) :
    Sound debug slots.capacity o.shared (o.next + o.forked.flatten + R) := by
  cases t with
  | outside => exact h.outside hexec
  | create =>
      have hR : Sound debug slots.capacity pool R := (sound_cons_iff rfl).1 h
      simp only [ObjectPool.exec] at hexec
      rcases hR.create_cases with ⟨-, hnull⟩ | ⟨slot, rest, pool', -, htaken, -, hsound⟩
      · rw [hnull] at hexec
        obtain rfl := Option.some.inj hexec
        exact hR.ends
      · rw [htaken] at hexec
        obtain rfl := Option.some.inj hexec
        exact hsound.one
  | construct slot =>
      cases x with
      | writes target value => exact h.writes rfl hexec
      | passes =>
          obtain rfl := Option.some.inj hexec
          exact h.returns.ends
      | throws =>
          -- the slot stays with the call until its `catch` block
          obtain rfl := Option.some.inj hexec
          have hgoes : Sound debug slots.capacity pool (.catchThrow slot ::ₘ R) := h.goes rfl rfl
          exact hgoes.one
      | creates => cases hexec
      | destroys s => cases hexec
      | strays object => cases hexec
  | catchThrow slot =>
      obtain rfl := Option.some.inj hexec
      exact h.caught.ends
  | destroy slot =>
      obtain ⟨pool', hfound, hsound⟩ := h.destroyed
      simp only [ObjectPool.exec, hfound] at hexec
      obtain rfl := Option.some.inj hexec
      exact hsound.one
  | stray object =>
      -- whatever the section answers, it has changed nothing
      have hR : Sound debug slots.capacity pool R := (sound_cons_iff rfl).1 h
      simp only [ObjectPool.exec] at hexec
      split at hexec
      · cases hexec
      · next pool' hsection =>
          obtain rfl := Option.some.inj hexec
          rw [destroySection_unchanged hsection (by simp)]
          exact hR.ends
      · next error pool' hsection =>
          obtain rfl := Option.some.inj hexec
          rw [destroySection_unchanged hsection (by simp)]
          exact hR.ends
  | destruct slot =>
      cases x with
      | writes target value => exact h.writes rfl hexec
      | passes =>
          -- the object is gone, and the slot is in no list before the second section
          obtain rfl := Option.some.inj hexec
          have hgoes : Sound debug slots.capacity pool (.release slot ::ₘ R) := h.goes rfl rfl
          exact hgoes.one
      | throws => cases hexec
      | creates => cases hexec
      | destroys s => cases hexec
      | strays object => cases hexec
  | release slot =>
      obtain rfl := Option.some.inj hexec
      exact h.released.ends

/-! ### Refilling the pool -/

/-- One call of `Create` after the other takes the slots of the free list in their order. -/
theorem Sound.createMany (values : List (Option ℕ)) {free : List ℕ}
    (h : Sound debug n pool P) (hfree : Threads pool.next pool.freeHead free)
    (hlength : values.length ≤ free.length) :
    ∃ pool', createMany debug values pool = some (free.take values.length, pool') ∧
      Threads pool'.next pool'.freeHead (free.drop values.length) ∧ Sound debug n pool' P := by
  induction values generalizing pool free with
  | nil => exact ⟨pool, rfl, hfree, h⟩
  | cons value values ih =>
      rcases h.create_cases with ⟨hnone, -⟩ | ⟨slot, rest, pool', hthreads, htaken, hrest, hsound⟩
      · -- the list is not empty
        obtain rfl := hnone.unique hfree
        simp at hlength
      · obtain rfl := hfree.unique hthreads
        -- the constructor has written into the slot and returned
        have hheld : slot ∈ holders Task.slot? (.construct slot ::ₘ P) :=
          mem_holders.2 ⟨_, Multiset.mem_cons_self _ _, rfl⟩
        have hreturned : Sound debug n
            ({ pool' with live := slot :: pool'.live }.write slot value) P :=
          (hsound.write (Or.inr hheld) value).returns
        have hout : slot ∉ rest := (List.nodup_cons.1 hthreads.nodup).1
        have hlink : Threads ({ pool' with live := slot :: pool'.live }.write slot value).next
            ({ pool' with live := slot :: pool'.live }.write slot value).freeHead rest :=
          hrest.update hout value
        obtain ⟨last, hmany, hlast, hsoundlast⟩ := ih hreturned hlink (by simpa using hlength)
        refine ⟨last, ?_, by simpa using hlast, hsoundlast⟩
        simp [ObjectPool.createMany, htaken, hmany]

/-- The invariant is what the pool promises. -/
theorem Sound.correct (h : Sound debug slots.capacity pool P) : Correct debug slots pool P := by
  obtain ⟨free, hfree, hall⟩ := h.parts
  obtain ⟨-, -, hapart, hlive⟩ := apart hall
  have hcons : ∀ {t : Task}, t ∈ P → ∃ R, P = t ::ₘ R := fun ht => Multiset.exists_cons_of_mem ht
  refine
    { partition := ⟨free, hfree, hfree.nodup, hapart, hall⟩
      null_iff := ?_
      taken := ?_
      uncorrupted := ?_
      returned := ?_
      caught := ?_
      refilled := ?_
      destroyed := ?_
      refused := ?_ }
  · rcases h.create_cases with ⟨hnone, hnull⟩ | ⟨slot, rest, pool', hthreads, htaken, -, -⟩
    · obtain rfl := hnone.unique hfree
      rw [hnull]
      simp only [true_iff]
      intro slot hslot
      simpa using (mem_parts hall slot).1 hslot
    · obtain rfl := hthreads.unique hfree
      rw [htaken]
      simp only [reduceCtorEq, false_iff, not_forall]
      obtain ⟨hlive', hheld'⟩ := hapart slot (List.mem_cons_self ..)
      exact ⟨slot, (mem_parts hall slot).2 (Or.inl (List.mem_cons_self ..)), by tauto⟩
  · intro slot hslot
    rcases h.create_cases with ⟨-, hnull⟩ | ⟨slot', rest, pool', hthreads, htaken, -, -⟩
    · rw [hnull] at hslot
      cases hslot
    · rw [htaken] at hslot
      cases hslot
      obtain rfl := hthreads.unique hfree
      exact ⟨(mem_parts hall slot).2 (Or.inl (List.mem_cons_self ..)),
        hapart slot (List.mem_cons_self ..)⟩
  · intro error herror
    rcases h.create_cases with ⟨-, hnull⟩ | ⟨slot, rest, pool', -, htaken, -, -⟩
    · rw [hnull] at herror
      cases herror
    · rw [htaken] at herror
      cases herror
  · intro slot hmem
    have hheld : slot ∈ holders Task.slot? P := mem_holders.2 ⟨_, hmem, rfl⟩
    exact ⟨(mem_parts hall slot).2 (Or.inr (Or.inr hheld)), fun h' => hlive slot h' hheld⟩
  · intro slot hmem free' hfree'
    have hheld : slot ∈ holders Task.slot? P := mem_holders.2 ⟨_, hmem, rfl⟩
    obtain rfl := hfree'.unique hfree
    exact hfree'.push fun h' => (hapart slot h').2 hheld
  · intro hempty hidle values hvalues
    have hrange : (free : Multiset ℕ) = Multiset.range slots.capacity := by
      simpa [hempty, hidle] using hall
    have hcount : free.length = slots.capacity := by
      rw [← Multiset.coe_card, hrange, Multiset.card_range]
    obtain ⟨pool', hmany, hnone, -⟩ := h.createMany values hfree (by omega)
    have htake : free.take values.length = free := List.take_of_length_le (by omega)
    rw [List.drop_of_length_le (by omega)] at hnone
    refine ⟨free, pool', by rw [hmany, htake], hcount, hfree.nodup, ?_⟩
    simp [createSection, threads_nil.1 hnone]
  · intro slot hmem
    obtain ⟨R, rfl⟩ := hcons hmem
    obtain ⟨pool', hfound, -⟩ := h.destroyed
    rw [hfound]
  · intro hdebug bytes hbad
    subst hdebug
    exact h.refused hbad

end Invariant

/-! ### Every run -/

/-- A new pool. -/
theorem sound_construct {start slotBytes capacity : ℕ} {hbytes : 0 < slotBytes}
    {memory : ℕ → Option ℕ} {slots : Slots} {pool : Pool} (debug : Bool)
    (h : construct start slotBytes capacity hbytes memory = .ok (slots, pool)) :
    slots.capacity = capacity ∧ Sound debug slots.capacity pool (.outside ::ₘ 0) := by
  unfold construct at h
  split_ifs at h with hzero hlarge
  obtain ⟨rfl, rfl⟩ := Prod.mk.inj (Except.ok.inj h)
  obtain ⟨last, rfl⟩ : ∃ last, capacity = last + 1 := ⟨capacity - 1, by omega⟩
  refine ⟨rfl, (sound_cons_iff rfl).2 ⟨⟨List.range (last + 1), ?_, ?_⟩, fun _ slot => ?_⟩⟩
  · exact threads_link last memory
  · simp [holders, Multiset.range]
  · simp [Allocated, holders]

/-- **The pool keeps its promises in every run.** -/
theorem pool_correct (debug : Bool) (start slotBytes capacity : ℕ) (hbytes : 0 < slotBytes)
    (memory : ℕ → Option ℕ) (slots : Slots) (pool : Pool)
    (hpool : construct start slotBytes capacity hbytes memory = .ok (slots, pool))
    (moves : List (ℕ × Choice)) (c : Config Pool Task)
    (hrun : (program debug slots).run moves ⟨pool, [[.outside]]⟩ = some c) :
    slots.capacity = capacity ∧ Correct debug slots c.shared c.pending := by
  obtain ⟨hcapacity, hstart⟩ := sound_construct debug hpool
  have hsound : Sound debug slots.capacity c.shared c.pending :=
    Program.invariant (I := Sound debug slots.capacity) (fun _ _ _ _ _ hexec h => h.exec hexec)
      moves hstart hrun
  exact ⟨hcapacity, hsound.correct⟩

/-- Two slots of eight bytes; two calls of `Create`, the second of which throws, and a `Destroy` of
the object that the first has made, while a stray `Destroy` is refused. -/
def someCalls : List (ℕ × Choice) :=
  [(0, .creates), (0, .creates), (1, .passes), (2, .passes), (1, .writes 0 (some 7)), (1, .passes),
    (2, .throws), (0, .strays (some 4108)), (3, .passes), (2, .passes), (0, .destroys 0),
    (4, .passes), (4, .passes)]

/-- The pool in the middle of these calls: the destructor has run, and the slot is not free yet. -/
theorem pool_correct_someCalls :
    ∃ slots pool c, construct 4096 8 2 (by decide) (fun _ => none) = .ok (slots, pool) ∧
      (program true slots).run someCalls ⟨pool, [[.outside]]⟩ = some c ∧
      c.threads = [[.outside], [], [], [], [.release 0]] ∧ c.shared.freeHead = some 1 ∧
      slots.capacity = 2 ∧ Correct true slots c.shared c.pending :=
  ⟨_, _, _, rfl, rfl, rfl, rfl, pool_correct true 4096 8 2 (by decide) (fun _ => none) _ _ rfl
    someCalls _ rfl⟩

end ObjectPool

end RealtimeEngine
