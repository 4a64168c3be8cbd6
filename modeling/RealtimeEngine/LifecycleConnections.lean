/-
**The connection limit, and where it fails.**

`HandleAccept` compares `metrics.active_connections` with the limit, and raises it a few steps
later, when the session is already in the registry.  Two accepts may pass the test before either of
them is counted; and a session may be found in the registry, disconnected and taken off the counter
before it is counted.  So the counter may exceed the limit, and it may be below zero.

When no accept is tested out of turn, and no session leaves before it is counted, the counter is
within its bounds.  In every run it is the size of the registry when nobody is at work.

Main definitions:

* `RealtimeEngine.Lifecycle.balance` — what a session contributes to the counter;
* `RealtimeEngine.Lifecycle.inTurn` — the test counts the accepts before it, and a session is
  counted before it leaves;
* `RealtimeEngine.Lifecycle.Connections`, `RealtimeEngine.Lifecycle.Limited` — the invariants.

Main results:

* `RealtimeEngine.Lifecycle.connection_limit` — **in every run in which that holds, the counter is
  between zero and the limit**, and it is the size of the registry when nobody is at work;
* `RealtimeEngine.Lifecycle.limit_fails` — two accepts beyond the limit, and a counter below zero.
-/

import Mathlib.Algebra.BigOperators.Group.Finset.Piecewise
import Mathlib.Algebra.BigOperators.Ring.Finset
import Mathlib.Algebra.Order.BigOperators.Group.Finset
import Mathlib.Data.Set.Card
import RealtimeEngine.LifecycleOperations
import RealtimeEngine.LifecycleSessions

set_option relaxedAutoImplicit false
set_option autoImplicit false

namespace RealtimeEngine

namespace Lifecycle

open Interleaving

/-! ### What the counter counts -/

/-- The session that is in the registry and is not counted yet. -/
def Task.counting? : Task → Option ℕ
  | .count _ s => some s
  | _ => none

/-- The session whose `Disconnect` has started and has not taken it off the counter. -/
def Task.leaving? : Task → Option ℕ
  | .remove s | .closeSocket s | .drain s | .uncount s => some s
  | _ => none

/-- What a session contributes to the counter. -/
def balance (sv : Server) (P : Multiset Task) (s : ℕ) : ℤ :=
  ((sv.sessions s).inserted.toNat + (holders Task.leaving? P).count s : ℤ) -
    ((sv.sessions s).disconnectStarted.toNat + (holders Task.counting? P).count s)

/-- What a step does to the contribution of a session. -/
def Task.change : Task → ℕ → ℤ
  | .count _ s₀, s => if s = s₀ then 1 else 0
  | .uncount s₀, s => if s = s₀ then -1 else 0
  | _, _ => 0

/-- **What the counter counts.** -/
structure Connections (sv : Server) (P : Multiset Task) : Prop where
  sessions : Sessions sv P
  counting : ∀ s, (holders Task.counting? P).count s ≤ (sv.sessions s).inserted.toNat
  leaving : ∀ s, (holders Task.leaving? P).count s ≤ (sv.sessions s).disconnectStarted.toNat
  active : sv.activeConnections = ∑ s ∈ Finset.range sv.nextSessionId, balance sv P s

section Steps

variable {config : ServerConfig} {sv sv' : Server} {task : Task} {new : List Task}
  {R : Multiset Task}

theorem Moves.counting (h : Moves config sv task new) :
    new.filterMap Task.counting? = task.counting?.toList := by
  cases h with
  | noPeer s op posted | notReading s op posted => cases posted <;> rfl
  | _ => rfl

theorem Moves.leaving (h : Moves config sv task new) :
    new.filterMap Task.leaving? = task.leaving?.toList := by
  cases h with
  | noPeer s op posted | notReading s op posted => cases posted <;> rfl
  | _ => rfl

theorem Moves.change (h : Moves config sv task new) (s : ℕ) : task.change s = 0 := by
  cases h <;> rfl

/-- The sum changes with the contribution of one session. -/
theorem sum_balance {P Q : Multiset Task} {s₀ : ℕ} {d : ℤ} (hs₀ : s₀ < sv.nextSessionId)
    (h : ∀ s, balance sv' Q s = balance sv P s + if s = s₀ then d else 0) :
    ∑ s ∈ Finset.range sv.nextSessionId, balance sv' Q s =
      ∑ s ∈ Finset.range sv.nextSessionId, balance sv P s + d := by
  rw [Finset.sum_congr rfl fun s _ => h s, Finset.sum_add_distrib, Finset.sum_ite_eq',
    if_pos (Finset.mem_range.2 hs₀)]

/-- A step that neither counts a session nor starts a `Disconnect`. -/
theorem Connections.same (h : Connections sv (task ::ₘ R)) (hstep : Step config sv task sv' new)
    (hcounting : new.filterMap Task.counting? = task.counting?.toList)
    (hleaving : new.filterMap Task.leaving? = task.leaving?.toList)
    (hnext : sv'.nextSessionId = sv.nextSessionId)
    (hactive : sv'.activeConnections = sv.activeConnections) (hchange : ∀ s, task.change s = 0)
    (hinserted : ∀ s, (sv'.sessions s).inserted = (sv.sessions s).inserted)
    (hstarted : ∀ s, (sv'.sessions s).disconnectStarted = (sv.sessions s).disconnectStarted) :
    Connections sv' (new + R) ∧
      ∀ s, balance sv' (new + R) s = balance sv (task ::ₘ R) s + task.change s := by
  have hbalance : ∀ s, balance sv' (new + R) s = balance sv (task ::ₘ R) s := by
    intro s
    rw [balance, balance, holders_step hcounting, holders_step hleaving, hinserted, hstarted]
  refine ⟨⟨h.sessions.step hstep, fun s => ?_, fun s => ?_, ?_⟩, fun s => ?_⟩
  · rw [holders_step hcounting, hinserted]
    exact h.counting s
  · rw [holders_step hleaving, hstarted]
    exact h.leaving s
  · rw [hactive, hnext, h.active]
    exact Finset.sum_congr rfl fun s _ => (hbalance s).symm
  · rw [hbalance, hchange, add_zero]

/-- A step that changes the counter, or what one session contributes to it. -/
theorem Connections.changes (s₀ : ℕ) (d : ℤ) (h : Connections sv (task ::ₘ R))
    (hstep : Step config sv task sv' new) (hnext : sv'.nextSessionId = sv.nextSessionId)
    (hs₀ : s₀ < sv.nextSessionId) (hactive : sv'.activeConnections = sv.activeConnections + d)
    (hcounting : ∀ s, (holders Task.counting? (new + R)).count s ≤ (sv'.sessions s).inserted.toNat)
    (hleaving : ∀ s, (holders Task.leaving? (new + R)).count s ≤
      (sv'.sessions s).disconnectStarted.toNat)
    (hchange : ∀ s, task.change s = if s = s₀ then d else 0)
    (hbalance : ∀ s, balance sv' (new + R) s =
      balance sv (task ::ₘ R) s + if s = s₀ then d else 0) :
    Connections sv' (new + R) ∧
      ∀ s, balance sv' (new + R) s = balance sv (task ::ₘ R) s + task.change s := by
  refine ⟨⟨h.sessions.step hstep, hcounting, hleaving, ?_⟩, fun s => ?_⟩
  · rw [hactive, hnext, h.active, sum_balance hs₀ hbalance]
  · rw [hbalance, hchange]

/-- The session is in the registry, and is not counted yet. -/
theorem Connections.inserts {op s₀ : ℕ} (h : Connections sv (.insert op s₀ ::ₘ R))
    (hstep : Step config sv (.insert op s₀) sv' [.count op s₀])
    (hsv : sv' = sv.modify s₀ fun x => { x with inserted := true, registered := true }) :
    Connections sv' (([.count op s₀] : List Task) + R) ∧
      ∀ s, balance sv' (([.count op s₀] : List Task) + R) s =
        balance sv (.insert op s₀ ::ₘ R) s + Task.change (.insert op s₀) s := by
  obtain ⟨hnumber, hfresh⟩ := h.sessions.inserting_self
  have hcounting := h.counting
  have hleaving := h.leaving
  rw [holders_cons_none rfl] at hcounting hleaving
  -- the session leaves the inserting and joins the counting ones
  have hcount : ∀ s, (holders Task.counting? (([.count op s₀] : List Task) + R)).count s =
      (if s = s₀ then 1 else 0) + (holders Task.counting? R).count s := by
    intro s
    rw [coe_singleton_add]
    exact count_holders_cons (f := Task.counting?) rfl R s
  have hleave : holders Task.leaving? (([.count op s₀] : List Task) + R) =
      holders Task.leaving? R := by
    rw [coe_singleton_add]
    exact holders_cons_none rfl R
  subst hsv
  refine h.changes s₀ 0 hstep rfl hnumber (add_zero _).symm (fun s => ?_) (fun s => ?_)
    (fun s => (ite_self 0).symm) fun s => ?_
  · rw [hcount]
    have hs := hcounting s
    by_cases heq : s = s₀
    · subst heq
      rw [hfresh] at hs
      rw [modify_self, if_pos rfl]
      simp only [Bool.toNat_true, Bool.toNat_false] at hs ⊢
      omega
    · rw [if_neg heq, zero_add, modify_of_ne sv heq]
      exact hs
  · rw [hleave, modify_field Session.disconnectStarted sv s₀ s rfl]
    exact hleaving s
  · rw [balance, balance, hcount, hleave, holders_cons_none rfl, holders_cons_none rfl,
      modify_field Session.disconnectStarted sv s₀ s rfl]
    by_cases heq : s = s₀
    · subst heq
      rw [modify_self, hfresh, if_pos rfl, if_pos rfl]
      simp only [Bool.toNat_true, Bool.toNat_false]
      omega
    · rw [if_neg heq, if_neg heq, modify_of_ne sv heq, zero_add, add_zero]

/-- The session is counted. -/
theorem Connections.counts {op s₀ : ℕ} (h : Connections sv (.count op s₀ ::ₘ R))
    (hstep : Step config sv (.count op s₀) sv' [.invokeConnect op s₀])
    (hsv : sv' = { sv with activeConnections := sv.activeConnections + 1 }) :
    Connections sv' (([.invokeConnect op s₀] : List Task) + R) ∧
      ∀ s, balance sv' (([.invokeConnect op s₀] : List Task) + R) s =
        balance sv (.count op s₀ ::ₘ R) s + Task.change (.count op s₀) s := by
  have hinserted := h.sessions.known _ (Multiset.mem_cons_self _ R) s₀ List.mem_cons_self
  have hcount := count_holders_cons (f := Task.counting?) (p := .count op s₀) rfl R
  subst hsv
  refine h.changes s₀ 1 hstep rfl (h.sessions.number hinserted).2 rfl (fun s => ?_)
    (fun s => ?_) (fun s => rfl) fun s => ?_
  · have hs := h.counting s
    rw [hcount] at hs
    rw [coe_singleton_add, holders_cons_none rfl]
    exact (Nat.le_add_left _ _).trans hs
  · have hs := h.leaving s
    rw [holders_cons_none rfl] at hs
    rw [coe_singleton_add, holders_cons_none rfl]
    exact hs
  · rw [balance, balance, hcount, coe_singleton_add, holders_cons_none rfl, holders_cons_none rfl,
      holders_cons_none rfl]
    dsimp only
    split
    · omega
    · omega

/-- A `Disconnect` starts. -/
theorem Connections.starts {s₀ : ℕ} (h : Connections sv (task ::ₘ R))
    (hstep : Step config sv task sv' new)
    (hsv : sv' = sv.modify s₀ fun x => { x with disconnectStarted := true })
    (hlive : (sv.sessions s₀).disconnectStarted = false) (hknown : s₀ ∈ task.pointers)
    (hcounting : new.filterMap Task.counting? = task.counting?.toList)
    (hleaving : new.filterMap Task.leaving? = s₀ :: task.leaving?.toList)
    (hchange : ∀ s, task.change s = 0) :
    Connections sv' (new + R) ∧
      ∀ s, balance sv' (new + R) s = balance sv (task ::ₘ R) s + task.change s := by
  have hinserted := h.sessions.known task (Multiset.mem_cons_self task R) s₀ hknown
  have hleave : ∀ s, (holders Task.leaving? (new + R)).count s =
      (if s = s₀ then 1 else 0) + (holders Task.leaving? (task ::ₘ R)).count s := by
    intro s
    rw [holders_add, holders_coe, hleaving, holders_cons, ← Multiset.cons_coe, Multiset.cons_add,
      Multiset.count_cons, add_comm]
  subst hsv
  refine h.changes s₀ 0 hstep rfl (h.sessions.number hinserted).2 (add_zero _).symm
    (fun s => ?_) (fun s => ?_) (fun s => (hchange s).trans (ite_self 0).symm) fun s => ?_
  · rw [holders_step hcounting, modify_field Session.inserted sv s₀ s rfl]
    exact h.counting s
  · rw [hleave]
    have hs := h.leaving s
    by_cases heq : s = s₀
    · subst heq
      rw [hlive] at hs
      rw [modify_self, if_pos rfl]
      simp only [Bool.toNat_true, Bool.toNat_false] at hs ⊢
      omega
    · rw [if_neg heq, zero_add, modify_of_ne sv heq]
      exact hs
  · rw [balance, balance, holders_step hcounting, hleave, modify_field Session.inserted sv s₀ s rfl]
    by_cases heq : s = s₀
    · subst heq
      rw [modify_self, hlive, if_pos rfl, if_pos rfl]
      simp only [Bool.toNat_true, Bool.toNat_false]
      omega
    · rw [if_neg heq, if_neg heq, modify_of_ne sv heq, zero_add, add_zero]

/-- The session is taken off the counter. -/
theorem Connections.uncounts {s₀ : ℕ} (h : Connections sv (.uncount s₀ ::ₘ R))
    (hstep : Step config sv (.uncount s₀) sv' [.invokeDisconnect s₀])
    (hsv : sv' = { sv with activeConnections := sv.activeConnections - 1 }) :
    Connections sv' (([.invokeDisconnect s₀] : List Task) + R) ∧
      ∀ s, balance sv' (([.invokeDisconnect s₀] : List Task) + R) s =
        balance sv (.uncount s₀ ::ₘ R) s + Task.change (.uncount s₀) s := by
  have hinserted := h.sessions.known _ (Multiset.mem_cons_self _ R) s₀ List.mem_cons_self
  have hleave := count_holders_cons (f := Task.leaving?) (p := .uncount s₀) rfl R
  subst hsv
  refine h.changes s₀ (-1) hstep rfl (h.sessions.number hinserted).2 rfl (fun s => ?_)
    (fun s => ?_) (fun s => rfl) fun s => ?_
  · have hs := h.counting s
    rw [holders_cons_none rfl] at hs
    rw [coe_singleton_add, holders_cons_none rfl]
    exact hs
  · have hs := h.leaving s
    rw [hleave] at hs
    rw [coe_singleton_add, holders_cons_none rfl]
    exact (Nat.le_add_left _ _).trans hs
  · rw [balance, balance, hleave, coe_singleton_add, holders_cons_none rfl, holders_cons_none rfl,
      holders_cons_none rfl]
    dsimp only
    split
    · omega
    · omega

/-- A number is given to a new session, which contributes nothing yet. -/
theorem Connections.identifies {op : ℕ} (h : Connections sv (.identify op ::ₘ R))
    (hstep : Step config sv (.identify op) sv' [.insert op sv.nextSessionId])
    (hsv : sv' = { sv with nextSessionId := sv.nextSessionId + 1 }) :
    Connections sv' (([.insert op sv.nextSessionId] : List Task) + R) ∧
      ∀ s, balance sv' (([.insert op sv.nextSessionId] : List Task) + R) s =
        balance sv (.identify op ::ₘ R) s + Task.change (.identify op) s := by
  -- a number that was not given out names no session of the registry
  have hfresh : (sv.sessions sv.nextSessionId).inserted = false := by
    by_contra hnot
    exact absurd (h.sessions.number (by simpa using hnot)).2 (lt_irrefl _)
  have hquiet : (sv.sessions sv.nextSessionId).disconnectStarted = false := by
    by_contra hnot
    rw [h.sessions.started _ (by simpa using hnot)] at hfresh
    cases hfresh
  have hcounting := h.counting
  have hleaving := h.leaving
  rw [holders_cons_none rfl] at hcounting hleaving
  have hcount : holders Task.counting? (([.insert op sv.nextSessionId] : List Task) + R) =
      holders Task.counting? R := by
    rw [coe_singleton_add]
    exact holders_cons_none rfl R
  have hleave : holders Task.leaving? (([.insert op sv.nextSessionId] : List Task) + R) =
      holders Task.leaving? R := by
    rw [coe_singleton_add]
    exact holders_cons_none rfl R
  have hsessions := h.sessions.step hstep
  subst hsv
  have hbalance : ∀ s, balance { sv with nextSessionId := sv.nextSessionId + 1 }
      (([.insert op sv.nextSessionId] : List Task) + R) s = balance sv (.identify op ::ₘ R) s := by
    intro s
    rw [balance, balance, hcount, hleave, holders_cons_none rfl, holders_cons_none rfl]
  -- so the new number joins the sum with nothing
  have hnew : balance { sv with nextSessionId := sv.nextSessionId + 1 }
      (([.insert op sv.nextSessionId] : List Task) + R) sv.nextSessionId = 0 := by
    have hc := hcounting sv.nextSessionId
    have hl := hleaving sv.nextSessionId
    rw [hfresh] at hc
    rw [hquiet] at hl
    rw [balance, hcount, hleave]
    dsimp only
    rw [hfresh, hquiet, Nat.le_zero.1 hc, Nat.le_zero.1 hl]
    rfl
  refine ⟨⟨hsessions, by rwa [hcount], by rwa [hleave], h.active.trans ?_⟩, fun s => ?_⟩
  · dsimp only
    rw [Finset.sum_range_succ, hnew, add_zero]
    exact Finset.sum_congr rfl fun s _ => (hbalance s).symm
  · rw [hbalance]
    exact (add_zero _).symm

/-- **Every step keeps the counter right.** -/
theorem Connections.step (hstep : Step config sv task sv' new) (h : Connections sv (task ::ₘ R)) :
    Connections sv' (new + R) ∧
      ∀ s, balance sv' (new + R) s = balance sv (task ::ₘ R) s + task.change s := by
  -- a change of a session that neither `active_connections` nor `Disconnect` sees
  have hmodified : ∀ (s₀ : ℕ) (f : Session → Session), sv' = sv.modify s₀ f →
      (f (sv.sessions s₀)).inserted = (sv.sessions s₀).inserted →
      (f (sv.sessions s₀)).disconnectStarted = (sv.sessions s₀).disconnectStarted →
      new.filterMap Task.counting? = task.counting?.toList →
      new.filterMap Task.leaving? = task.leaving?.toList → (∀ s, task.change s = 0) →
      Connections sv' (new + R) ∧
        ∀ s, balance sv' (new + R) s = balance sv (task ::ₘ R) s + task.change s := by
    intro s₀ f hsv hinserted hstarted hcounting hleaving hchange
    refine h.same hstep hcounting hleaving (by rw [hsv]; rfl) (by rw [hsv]; rfl) hchange (fun s => ?_)
      fun s => ?_
    · rw [hsv, modify_field Session.inserted sv s₀ s hinserted]
    · rw [hsv, modify_field Session.disconnectStarted sv s₀ s hstarted]
  have hcopy := hstep
  cases hstep with
  | arrives harrival =>
      obtain rfl | ⟨s, rfl⟩ | ⟨s, rfl⟩ | ⟨s, rfl, -⟩ | rfl := arrival_cases harrival <;>
        exact h.same hcopy rfl rfl rfl rfl (fun _ => rfl) (fun _ => rfl) fun _ => rfl
  | moves hmoves =>
      exact h.same hcopy hmoves.counting hmoves.leaving rfl rfl hmoves.change (fun _ => rfl)
        fun _ => rfl
  | identifies op => exact h.identifies hcopy rfl
  | inserts op s => exact h.inserts hcopy rfl
  | counts op s => exact h.counts hcopy rfl
  | disconnects hlive => exact h.starts hcopy rfl hlive List.mem_cons_self rfl rfl fun _ => rfl
  | stopsSession hlive rest => exact h.starts hcopy rfl hlive List.mem_cons_self rfl rfl fun _ => rfl
  | uncounts s => exact h.uncounts hcopy rfl
  | refuses s closeAfter =>
      cases closeAfter <;>
        exact h.same hcopy rfl rfl rfl rfl (fun _ => rfl) (fun _ => rfl) fun _ => rfl
  | enqueues s closeAfter =>
      refine hmodified s _ rfl rfl rfl ?_ ?_ fun _ => rfl
      · split <;> rfl
      · split <;> rfl
  | completesWrite s again =>
      cases again <;> exact h.same hcopy rfl rfl rfl rfl (fun _ => rfl) (fun _ => rfl) fun _ => rfl
  | invokesConnect | deliversMessage | idles | pops | removes | closesSocket | drains
  | invokesDisconnect => exact hmodified _ _ rfl rfl rfl rfl rfl fun _ => rfl
  | _ => exact h.same hcopy rfl rfl rfl rfl (fun _ => rfl) (fun _ => rfl) fun _ => rfl

/-! ### The limit -/

/-- `HandleAccept` has passed the test and has not counted its session. -/
def Task.admitted : Task → ℕ
  | .associate _ | .identify _ | .insert _ _ | .count _ _ => 1
  | _ => 0

/-- The tasks that are in the way of another one: the connections that the test of `HandleAccept`
does not see, and the `HandleAccept` that has not counted a session yet. -/
def beside : Task → Task → ℕ
  | .checkLimit _, t => t.admitted
  | .uncount s, .count _ s' => if s' = s then 1 else 0
  | _, _ => 0

/-- The test is right also when the `n` connections that it does not see are counted, and a session
is counted before it is taken off. -/
def inTurn (config : ServerConfig) (task : Task) (sv : Server) (n : ℕ) : Bool :=
  match task with
  | .checkLimit _ =>
      decide (sv.loadActive ≥ config.maxConnections.toNat) ||
        decide (sv.loadActive + n < config.maxConnections.toNat)
  | .uncount _ => n == 0
  | _ => true

/-- **The counter is within its bounds**, also when the admitted connections are counted. -/
structure Limited (config : ServerConfig) (sv : Server) (P : Multiset Task) : Prop where
  connections : Connections sv P
  counted : ∀ s, 0 ≤ balance sv P s
  room : sv.activeConnections + weight Task.admitted P ≤ config.maxConnections.toNat

theorem Limited.nonneg {P : Multiset Task} (h : Limited config sv P) : 0 ≤ sv.activeConnections := by
  rw [h.connections.active]
  exact Finset.sum_nonneg fun s _ => h.counted s

/-- Within its bounds the counter has not wrapped. -/
theorem Limited.loadActive {P : Multiset Task} (h : Limited config sv P) :
    (sv.loadActive : ℤ) = sv.activeConnections := by
  have hnonneg := h.nonneg
  have hroom := h.room
  have hmax := config.maxConnections.toNat_lt
  rw [Server.loadActive, Int.emod_eq_of_lt hnonneg (by omega), Int.toNat_of_nonneg hnonneg]

/-- Only the test admits a connection. -/
theorem Moves.admitted (h : Moves config sv task new) (hlimit : ∀ op, task ≠ .checkLimit op) :
    (new.map Task.admitted).sum ≤ task.admitted := by
  cases h with
  | full op | admits => exact absurd rfl (hlimit _)
  | noPeer s op posted | notReading s op posted => cases posted <;> exact le_rfl
  | _ => first | exact le_rfl | exact Nat.zero_le _

/-- What is counted was admitted before. -/
theorem Step.admitted (hstep : Step config sv task sv' new) (hlimit : ∀ op, task ≠ .checkLimit op) :
    sv'.activeConnections + (new.map Task.admitted).sum ≤ sv.activeConnections + task.admitted := by
  have hsame : ∀ {n m : ℕ}, n ≤ m → sv.activeConnections + (n : ℤ) ≤ sv.activeConnections + m := by
    intro n m hle
    omega
  cases hstep with
  | arrives harrival =>
      obtain rfl | ⟨s, rfl⟩ | ⟨s, rfl⟩ | ⟨s, rfl, -⟩ | rfl := arrival_cases harrival <;>
        exact le_rfl
  | moves hmoves => exact hsame (hmoves.admitted hlimit)
  | counts op s =>
      change sv.activeConnections + 1 + 0 ≤ sv.activeConnections + 1
      omega
  | uncounts s =>
      change sv.activeConnections - 1 + 0 ≤ sv.activeConnections + 0
      omega
  | refuses s closeAfter => cases closeAfter <;> exact le_rfl
  | enqueues s closeAfter =>
      refine hsame ?_
      split <;> exact le_rfl
  | completesWrite s again => cases again <;> exact le_rfl
  | _ => exact le_rfl

/-- The test leaves room for one more connection. -/
theorem Limited.admits {op : ℕ} (h : Limited config sv (.checkLimit op ::ₘ R))
    (hstep : Step config sv (.checkLimit op) sv' new)
    (hturn : inTurn config (.checkLimit op) sv (weight (beside (.checkLimit op)) R) = true) :
    sv'.activeConnections + weight Task.admitted (new + R) ≤ config.maxConnections.toNat := by
  have hroom := h.room
  have hbeside : weight (beside (.checkLimit op)) R = weight Task.admitted R := rfl
  rw [weight_cons] at hroom
  rw [hbeside] at hturn
  cases hstep with
  | moves hmoves =>
      rw [weight_add, weight_coe]
      cases hmoves with
      | full => exact hroom
      | admits hlt =>
          have hload := h.loadActive
          rcases Bool.or_eq_true_iff.1 hturn with hfull | hless
          · exact absurd (of_decide_eq_true hfull) (not_le.2 hlt)
          · have hone : (([.associate op] : List Task).map Task.admitted).sum = 1 := rfl
            have hless := of_decide_eq_true hless
            rw [hone]
            omega

/-- A session that leaves was counted. -/
theorem Limited.uncounts {s₀ : ℕ} (h : Limited config sv (.uncount s₀ ::ₘ R))
    (hturn : inTurn config (.uncount s₀) sv (weight (beside (.uncount s₀)) R) = true) :
    1 ≤ balance sv (.uncount s₀ ::ₘ R) s₀ := by
  have hinserted := h.connections.sessions.known _ (Multiset.mem_cons_self _ R) s₀ List.mem_cons_self
  have hnone : (holders Task.counting? (.uncount s₀ ::ₘ R)).count s₀ = 0 := by
    rw [holders_cons_none rfl, Multiset.count_eq_zero]
    intro hmem
    obtain ⟨t, ht, hcounting⟩ := mem_holders.1 hmem
    have hzero : weight (beside (.uncount s₀)) R = 0 := by simpa [inTurn] using hturn
    have hle := (le_weight (f := beside (.uncount s₀)) ht).trans hzero.le
    cases t with
    | count op s =>
        obtain rfl := Option.some.inj hcounting
        have hone : beside (.uncount s) (.count op s) = 1 := if_pos rfl
        omega
    | _ => cases hcounting
  have hleave := count_holders_cons (f := Task.leaving?) (p := .uncount s₀) rfl R s₀
  have hstarted := Bool.toNat_le (sv.sessions s₀).disconnectStarted
  rw [if_pos rfl] at hleave
  rw [balance, hnone, hleave, hinserted, Bool.toNat_true]
  omega

/-- **Every step in its turn keeps the bounds.** -/
theorem Limited.step (hstep : Step config sv task sv' new) (h : Limited config sv (task ::ₘ R))
    (hturn : inTurn config task sv (weight (beside task) R) = true) : Limited config sv'
    (new + R) := by
  obtain ⟨hconnections, hbalance⟩ := h.connections.step hstep
  refine ⟨hconnections, fun s => ?_, ?_⟩
  · rw [hbalance]
    have hs := h.counted s
    cases task with
    | count op s₀ =>
        simp only [Task.change]
        split <;> omega
    | uncount s₀ =>
        simp only [Task.change]
        split
        · next heq =>
            subst heq
            have hone := h.uncounts hturn
            omega
        · omega
    | _ =>
        rw [Task.change]
        · omega
        all_goals simp
  · by_cases hlimit : ∃ op, task = .checkLimit op
    · obtain ⟨op, rfl⟩ := hlimit
      exact h.admits hstep hturn
    · have hle := hstep.admitted fun op heq => hlimit ⟨op, heq⟩
      have hroom := h.room
      rw [weight_cons] at hroom
      rw [weight_add, weight_coe]
      omega

end Steps

/-! ### Runs -/

/-- A thread inside `HandleAccept` or `Disconnect` whose session is in the registry and not counted,
or counted and not in the registry. -/
def Task.between (t : Task) : Prop := t.counting?.isSome ∨ t.leaving?.isSome

/-- The counter is the size of the registry when nobody is in between. -/
theorem Connections.active_eq_ncard {sv : Server} {P : Multiset Task} (h : Connections sv P)
    (hquiet : ∀ t ∈ P, ¬t.between) :
    sv.activeConnections = {s | (sv.sessions s).registered = true}.ncard := by
  have hnone : ∀ {f : Task → Option ℕ}, (∀ t, (f t).isSome → t.between) → ∀ s,
      (holders f P).count s = 0 := by
    intro f hf s
    rw [Multiset.count_eq_zero]
    intro hmem
    obtain ⟨t, ht, hs⟩ := mem_holders.1 hmem
    exact hquiet t ht (hf t (Option.isSome_of_eq_some hs))
  have hbalance : ∀ s, balance sv P s = if (sv.sessions s).registered = true then 1 else 0 := by
    intro s
    have hremoving : (holders Task.removing? P).count s = 0 :=
      hnone (fun t ht => Or.inr (by cases t with
        | remove s => rfl
        | _ => cases ht)) s
    have hregistered := h.sessions.registered s
    rw [balance, hnone (fun t => Or.inl) s, hnone (fun t => Or.inr) s]
    rw [hremoving] at hregistered
    have hone : ((if (sv.sessions s).registered = true then 1 else 0 : ℤ)) =
        (sv.sessions s).registered.toNat := by
      cases (sv.sessions s).registered <;> rfl
    rw [hone]
    omega
  have hregistry : {s | (sv.sessions s).registered = true} =
      ((Finset.range sv.nextSessionId).filter fun s => (sv.sessions s).registered = true :
        Finset ℕ) := by
    ext s
    rw [Set.mem_ofPred_eq, Finset.coe_filter, Set.mem_ofPred_eq, Finset.mem_range]
    refine ⟨fun hs => ⟨?_, hs⟩, fun hs => hs.2⟩
    exact (h.sessions.number (h.sessions.inserted_of_registered hs)).2
  rw [h.active, hregistry, Set.ncard_coe_finset, Finset.sum_congr rfl fun s _ => hbalance s,
    Finset.sum_boole]

theorem connections_start : Connections start.shared start.pending := by
  refine ⟨sessions_start, fun s => le_rfl, fun s => le_rfl, ?_⟩
  exact (Finset.sum_eq_zero fun s _ => rfl).symm

/-- What the counter counts, in every run. -/
theorem connections_run {config : ServerConfig} {moves : List (ℕ × Choice)} {c : Config Server Task}
    (hrun : (program config).run moves start = some c) : Connections c.shared c.pending := by
  refine Program.invariant (I := Connections) (fun x p sv R o hexec h => ?_) moves connections_start
    hrun
  rw [Multiset.coe_add]
  exact (h.step (exec_step hexec)).1

/-- **The connection limit.**  In every run in which the connections that were admitted and are not
counted yet leave room for one more whenever the test passes, and every session is counted before it
is taken off, the counter is between zero and the limit.  In every run it is the size of the
registry when no thread is between the two. -/
theorem connection_limit (config : ServerConfig) (moves : List (ℕ × Choice)) {c : Config Server Task}
    (hrun : (program config).run moves start = some c) :
    ((program config).AllMeet
        (fun _ task sv R => inTurn config task sv (weight (beside task) R) = true) moves start →
      0 ≤ c.shared.activeConnections ∧
        c.shared.activeConnections ≤ config.maxConnections.toNat) ∧
      ((∀ t ∈ c.pending, ¬t.between) →
        c.shared.activeConnections = {s | (c.shared.sessions s).registered = true}.ncard) := by
  refine ⟨fun hturn => ?_, (connections_run hrun).active_eq_ncard⟩
  have hlimited : Limited config c.shared c.pending := by
    refine Program.invariant_of_allMeet (I := Limited config) (fun x p sv R o hexec hok h => ?_) moves
      hturn ⟨connections_start, fun s => le_rfl, ?_⟩ hrun
    · rw [Multiset.coe_add]
      exact h.step (exec_step hexec) hok
    · exact Int.natCast_nonneg _
  have hroom := hlimited.room
  exact ⟨hlimited.nonneg, by omega⟩

/-- One connection at a time. -/
def oneConnection : ServerConfig := { maxConnections := 1 }

/-- The connection is counted, and the limit holds. -/
theorem connection_limit_connection :
    ∃ c, (program oneConnection).run connection start = some c ∧ c.shared.activeConnections = 1 ∧
      0 ≤ c.shared.activeConnections ∧
        c.shared.activeConnections ≤ oneConnection.maxConnections.toNat := by
  have hobserved : ((program oneConnection).run connection start).map
      (fun c => c.shared.activeConnections) = some 1 := by
    decide +kernel
  have hchecks : (program oneConnection).checks beside (inTurn oneConnection) connection start =
      true := by
    decide +kernel
  obtain ⟨c, hrun, hc⟩ := Option.map_eq_some_iff.1 hobserved
  exact ⟨c, hrun, hc, (connection_limit oneConnection connection hrun).1
    (Program.allMeet_of_checks beside (inTurn oneConnection) connection hchecks)⟩

/-- Two accepts complete, both of them pass the test, and then both are counted. -/
def twoAccepts : List (ℕ × Choice) :=
  (0, .poster) :: List.replicate 4 (1, .passes) ++ (0, .poster) :: List.replicate 4 (3, .passes) ++
    [(2, .completes true), (4, .completes true), (2, .passes), (4, .passes), (2, .passes),
      (4, .passes)] ++ List.replicate 4 (2, .passes) ++ List.replicate 4 (4, .passes)

/-- A session is inserted, and `Stop` disconnects it before it is counted. -/
def closedBeforeCounted : List (ℕ × Choice) :=
  acceptCompletes ++ List.replicate 5 (2, .passes) ++ (0, .stopper) :: List.replicate 34 (3, .passes) ++
    (3, .picks 0) :: List.replicate 5 (3, .passes)

/-- **Neither bound holds in every run**: there are two connections where one is allowed, and the
counter is below zero. -/
theorem limit_fails :
    (∃ c, (program oneConnection).run twoAccepts start = some c ∧
        (oneConnection.maxConnections.toNat : ℤ) < c.shared.activeConnections) ∧
      ∃ c, (program oneConnection).run closedBeforeCounted start = some c ∧
        c.shared.activeConnections < 0 := by
  have htwo : ((program oneConnection).run twoAccepts start).map
      (fun c => c.shared.activeConnections) = some 2 := by
    decide +kernel
  have hclosed : ((program oneConnection).run closedBeforeCounted start).map
      (fun c => c.shared.activeConnections) = some (-1) := by
    decide +kernel
  obtain ⟨c, hrun, hc⟩ := Option.map_eq_some_iff.1 htwo
  obtain ⟨c', hrun', hc'⟩ := Option.map_eq_some_iff.1 hclosed
  exact ⟨⟨c, hrun, by rw [hc]; decide⟩, c', hrun', by rw [hc']; decide⟩

end Lifecycle

end RealtimeEngine
