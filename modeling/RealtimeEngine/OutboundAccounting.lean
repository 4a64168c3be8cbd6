/-
**Outbound byte accounting is exact and bounded.**

Bytes are charged to the session and to the server in one critical section of `Enqueue`, and given
back in four places: by `FinishWrite` after a success or a failure, by `StartNextWrite` when the
operation cannot be allocated, and by the drain of `Disconnect`.  The session is credited in a
critical section and the server behind it, so in between the two counters differ by the bytes some
threads still owe.  The invariant says exactly that: an item is charged while it is queued or held
by the write pipeline, and the server's counter is the sum of the sessions' counters and of what is
owed.  No subtraction underflows, because what is subtracted is part of such a sum.

Main definitions:

* `RealtimeEngine.Outbound.held`, `RealtimeEngine.Outbound.owed` — what a pending action stands for;
* `RealtimeEngine.Outbound.Accounts` — the invariant.

Main results:

* `RealtimeEngine.Outbound.Accounts.step` — every step keeps the invariant;
* `RealtimeEngine.Outbound.outbound_accounting` — **the run theorem**, for any number of sessions
  and threads.
-/

import Mathlib.Algebra.Order.BigOperators.Group.Finset
import RealtimeEngine.OutboundPipeline

set_option relaxedAutoImplicit false
set_option autoImplicit false

namespace RealtimeEngine

namespace Outbound

open Interleaving

variable {ι : Type*} [DecidableEq ι]

/-! ### What is charged -/

/-- The session and the size of the item that the action holds: it has been popped, and the session
has not been credited for it. -/
def Action.item? : Action ι → Option (ι × ℕ)
  | .allocate s item => some (s, item.size)
  | .unchargeSession s bytes => some (s, bytes)
  | .postWrite s op | .wsaSend s op | .inFlight s op | .handleWrite s op _ _
  | .finishWrite s op _ => some (s, op.cursor.totalSize)
  | _ => none

/-- The bytes of a session that the action holds. -/
def held (s : ι) (p : Action ι) : ℕ :=
  match p.item? with
  | some (s', bytes) => if s' = s then bytes else 0
  | none => 0

/-- The bytes that the action has given back to a session but not yet to the server. -/
def owed : Action ι → ℕ
  | .unchargeServer _ bytes | .finishServer _ bytes _ _ | .drainServer _ bytes => bytes
  | _ => 0

theorem held_of_item {q : Action ι} {s' : ι} {bytes : ℕ} (h : q.item? = some (s', bytes)) (s : ι) :
    held s q = if s' = s then bytes else 0 := by
  rw [held, h]

omit [DecidableEq ι] in
theorem owed_of_item {q : Action ι} {r : ι × ℕ} (h : q.item? = some r) : owed q = 0 := by
  cases q <;> first | rfl | cases h

omit [DecidableEq ι] in
theorem item_handleWriteNext (s : ι) (op : WriteOperation) (succeeded : Bool) (n : ℕ) :
    (handleWriteNext s op succeeded n).item? = some (s, op.cursor.totalSize) := by
  unfold handleWriteNext
  split
  · rfl
  · dsimp only
    split <;> rfl

variable [Fintype ι]

/-- **The accounts are right**: what the sessions and the server have charged is what is queued,
held and owed, and it is within the limits. -/
structure Accounts (config : ServerConfig) (sh : Shared ι) (P : Multiset (Action ι)) : Prop where
  session : ∀ s, (sh.sessions s).queuedBytes =
    totalBytes (sh.sessions s).sendQueue + weight (held s) P
  server : sh.queuedBytes = ∑ s, (sh.sessions s).queuedBytes + weight owed P
  sessionLimit : ∀ s, (sh.sessions s).queuedBytes ≤ config.maxSessionQueuedBytes.toNat
  serverLimit : sh.queuedBytes ≤ config.maxGlobalQueuedBytes.toNat

/-! ### Changing one session -/

/-- The sum over the sessions when one of them changes. -/
theorem sum_change {f g : ι → ℕ} {s : ι} (h : ∀ s', s' ≠ s → g s' = f s') :
    ∑ i, g i + f s = ∑ i, f i + g s := by
  have hf := Finset.add_sum_erase Finset.univ f (Finset.mem_univ s)
  have hg := Finset.add_sum_erase Finset.univ g (Finset.mem_univ s)
  have herase : ∑ i ∈ Finset.univ.erase s, g i = ∑ i ∈ Finset.univ.erase s, f i := by
    refine Finset.sum_congr rfl fun i hi => h i ?_
    exact Finset.ne_of_mem_erase hi
  omega

/-! ### One step -/

section Steps

variable {config : ServerConfig} {sh sh' : Shared ι} {p : Action ι} {new : List (Action ι)}
  {R : Multiset (Action ι)}

omit [Fintype ι] in
/-- A step of a session that leaves its bytes alone. -/
theorem modify_bytes (sh : Shared ι) (s : ι) {f : OutSession → OutSession}
    (hbytes : (f (sh.sessions s)).queuedBytes = (sh.sessions s).queuedBytes)
    (hqueue : (f (sh.sessions s)).sendQueue = (sh.sessions s).sendQueue) (s' : ι) :
    ((sh.modify s f).sessions s').queuedBytes = (sh.sessions s').queuedBytes ∧
      ((sh.modify s f).sessions s').sendQueue = (sh.sessions s').sendQueue := by
  by_cases hne : s' = s
  · subst hne
    rw [modify_self]
    exact ⟨hbytes, hqueue⟩
  · rw [modify_of_ne sh hne]
    exact ⟨rfl, rfl⟩

/-- A step that moves no bytes. -/
theorem Accounts.same (h : Accounts config sh (p ::ₘ R)) (hserver : sh'.queuedBytes = sh.queuedBytes)
    (hsessions : ∀ s, (sh'.sessions s).queuedBytes = (sh.sessions s).queuedBytes ∧
      (sh'.sessions s).sendQueue = (sh.sessions s).sendQueue)
    (hheld : ∀ s, (new.map (held s)).sum = held s p) (howed : (new.map owed).sum = owed p) :
    Accounts config sh' (new + R) := by
  have hsum : ∑ s, (sh'.sessions s).queuedBytes = ∑ s, (sh.sessions s).queuedBytes :=
    Finset.sum_congr rfl fun s _ => (hsessions s).1
  refine ⟨fun s => ?_, ?_, fun s => ?_, ?_⟩
  · have hs := h.session s
    rw [weight_cons] at hs
    rw [(hsessions s).1, (hsessions s).2, hs, weight_add, weight_coe, hheld s]
  · have hs := h.server
    rw [weight_cons] at hs
    rw [hserver, hsum, hs, weight_add, weight_coe, howed]
  · rw [(hsessions s).1]
    exact h.sessionLimit s
  · rw [hserver]
    exact h.serverLimit

/-- A step that moves bytes of one session. -/
theorem Accounts.change (h : Accounts config sh (p ::ₘ R)) {s : ι}
    (hother : ∀ s', s' ≠ s → (sh'.sessions s').queuedBytes = (sh.sessions s').queuedBytes ∧
      (sh'.sessions s').sendQueue = (sh.sessions s').sendQueue ∧
      (new.map (held s')).sum = held s' p)
    (hsession : (sh'.sessions s).queuedBytes + (totalBytes (sh.sessions s).sendQueue + held s p) =
      (sh.sessions s).queuedBytes +
        (totalBytes (sh'.sessions s).sendQueue + (new.map (held s)).sum))
    (hserver : sh'.queuedBytes + ((sh.sessions s).queuedBytes + owed p) =
      sh.queuedBytes + ((sh'.sessions s).queuedBytes + (new.map owed).sum))
    (hlimit : (sh'.sessions s).queuedBytes ≤ config.maxSessionQueuedBytes.toNat)
    (hlimit' : sh'.queuedBytes ≤ config.maxGlobalQueuedBytes.toNat) :
    Accounts config sh' (new + R) := by
  have hsum := sum_change (f := fun i => (sh.sessions i).queuedBytes)
    (g := fun i => (sh'.sessions i).queuedBytes) (s := s) fun s' hs' => (hother s' hs').1
  refine ⟨fun s' => ?_, ?_, fun s' => ?_, hlimit'⟩
  · have hs := h.session s'
    rw [weight_cons] at hs
    rw [weight_add, weight_coe]
    by_cases hne : s' = s
    · subst hne
      omega
    · obtain ⟨hq, hqueue, hheld⟩ := hother s' hne
      rw [hq, hqueue, hheld, hs]
  · have hs := h.server
    rw [weight_cons] at hs
    rw [weight_add, weight_coe]
    omega
  · by_cases hne : s' = s
    · subst hne
      exact hlimit
    · rw [(hother s' hne).1]
      exact h.sessionLimit s'

/-- The accounts bound what a pending action may give back. -/
theorem Accounts.held_le {P : Multiset (Action ι)} (h : Accounts config sh P) {q : Action ι}
    (hq : q ∈ P) (s : ι) :
    totalBytes (sh.sessions s).sendQueue + held s q ≤ (sh.sessions s).queuedBytes := by
  have hle : held s q ≤ weight (held s) P := le_weight hq
  have hs := h.session s
  omega

theorem Accounts.owed_le {P : Multiset (Action ι)} (h : Accounts config sh P) {q : Action ι}
    (hq : q ∈ P) : ∑ s, (sh.sessions s).queuedBytes + owed q ≤ sh.queuedBytes := by
  have hle : owed q ≤ weight owed P := le_weight hq
  have hs := h.server
  omega

/-- A step that gives back to the server what its action owes. -/
theorem Accounts.release (h : Accounts config sh (p ::ₘ R))
    (hheld : ∀ s, (new.map (held s)).sum = held s p) (howed : (new.map owed).sum = 0) :
    Accounts config (sh.release (owed p)) (new + R) := by
  have hle := h.owed_le (Multiset.mem_cons_self p R)
  have hsub : sub64 sh.queuedBytes (owed p) = sh.queuedBytes - owed p := sub64_eq (by omega)
  refine ⟨fun s => ?_, ?_, h.sessionLimit, ?_⟩
  · have hs := h.session s
    rw [weight_cons] at hs
    rw [weight_add, weight_coe, hheld s]
    exact hs
  · have hs := h.server
    rw [weight_cons] at hs
    rw [weight_add, weight_coe, howed]
    simp only [Shared.release, hsub]
    omega
  · have hlimit := h.serverLimit
    simp only [Shared.release, hsub]
    omega

/-- **Every step keeps the accounts right.** -/
theorem Accounts.step (h : Accounts config sh (p ::ₘ R)) (hstep : Step config sh p sh' new) :
    Accounts config sh' (new + R) := by
  have hself : p ∈ p ::ₘ R := Multiset.mem_cons_self p R
  cases hstep with
  | enqueuer s item => exact h.same rfl (fun _ => ⟨rfl, rfl⟩) (fun _ => rfl) rfl
  | disconnecter s => exact h.same rfl (fun _ => ⟨rfl, rfl⟩) (fun _ => rfl) rfl
  | @accepted s item hacc =>
      obtain ⟨-, hsize, hroom, hsize', hroom'⟩ := accepts_iff.1 hacc
      have hnew : ∀ s', ((if (sh.sessions s).writeActive then []
          else [.startNextWrite s] : List (Action ι)).map (held s')).sum = 0 := by
        intro s'
        split <;> rfl
      have hnew' : ((if (sh.sessions s).writeActive then []
          else [.startNextWrite s] : List (Action ι)).map owed).sum = 0 := by
        split <;> rfl
      refine h.change (s := s) (fun s' hne => ⟨?_, ?_, hnew s'⟩) ?_ ?_ ?_ ?_
      · simp [push, modify_of_ne sh hne]
      · simp [push, modify_of_ne sh hne]
      · rw [hnew]
        simp [push, held, Action.item?]
        omega
      · rw [hnew']
        simp [push, owed]
        omega
      · simp [push]
        omega
      · simp only [push]
        omega
  | refused hacc =>
      refine h.same rfl (fun _ => ⟨rfl, rfl⟩) (fun _ => ?_) ?_
      · split <;> rfl
      · split <;> rfl
  | @idle s hqueue =>
      exact h.same rfl (modify_bytes sh s rfl rfl) (fun _ => rfl) rfl
  | @popped s item queue hqueue =>
      refine h.change (s := s) (fun s' hne => ⟨?_, ?_, ?_⟩) ?_ ?_ ?_ h.serverLimit
      · simp [pop, modify_of_ne sh hne]
      · simp [pop, modify_of_ne sh hne]
      · simp [held, Action.item?, Ne.symm hne]
      · simp [pop, held, Action.item?, hqueue]
        omega
      · simp [pop, owed]
      · simpa [pop] using h.sessionLimit s
  | allocated s item => exact h.same rfl (fun _ => ⟨rfl, rfl⟩) (fun _ => rfl) rfl
  | notAllocated s item => exact h.same rfl (fun _ => ⟨rfl, rfl⟩) (fun _ => rfl) rfl
  | unchargedSession s bytes =>
      -- what is given back is covered by what the action holds
      have hle : bytes ≤ (sh.sessions s).queuedBytes := by
        have hheld := h.held_le hself s
        simp only [held, Action.item?, if_true] at hheld
        omega
      refine h.change (s := s) (fun s' hne => ⟨?_, ?_, ?_⟩) ?_ ?_ ?_ h.serverLimit
      · simp [modify_of_ne sh hne]
      · simp [modify_of_ne sh hne]
      · simp [held, Action.item?, Ne.symm hne]
      · simp [held, Action.item?, sub64_eq hle]
        omega
      · simp [owed, sub64_eq hle]
        omega
      · have hlimit := h.sessionLimit s
        simp only [modify_self, sub64_eq hle]
        omega
  | unchargedServer s bytes => exact h.release (fun _ => rfl) rfl
  | posting op hopen => exact h.same rfl (fun _ => ⟨rfl, rfl⟩) (fun _ => rfl) rfl
  | notPosted op hopen => exact h.same rfl (fun _ => ⟨rfl, rfl⟩) (fun _ => rfl) rfl
  | sent s op => exact h.same rfl (fun _ => ⟨rfl, rfl⟩) (fun _ => rfl) rfl
  | notSent s op => exact h.same rfl (fun _ => ⟨rfl, rfl⟩) (fun _ => rfl) rfl
  | completed s succeeded hn =>
      exact h.same rfl (modify_bytes sh s rfl rfl) (fun _ => rfl) rfl
  | handled s op succeeded n =>
      have hitem := item_handleWriteNext s op succeeded n
      refine h.same rfl (fun _ => ⟨rfl, rfl⟩) (fun s' => ?_) ?_
      · rw [List.map_singleton, List.sum_singleton, held_of_item hitem]
        rfl
      · rw [List.map_singleton, List.sum_singleton, owed_of_item hitem]
        rfl
  | finished s op succeeded =>
      have hle : op.cursor.totalSize ≤ (sh.sessions s).queuedBytes := by
        have hheld := h.held_le hself s
        simp only [held, Action.item?, if_true] at hheld
        omega
      -- so `FinishWrite` does not take its clamp
      have hclamp : ¬ op.cursor.totalSize > (sh.sessions s).queuedBytes := by omega
      refine h.change (s := s) (fun s' hne => ⟨?_, ?_, ?_⟩) ?_ ?_ ?_ h.serverLimit
      · simp [modify_of_ne sh hne]
      · simp [modify_of_ne sh hne]
      · simp [held, Action.item?, Ne.symm hne]
      · simp only [modify_self, hclamp, if_false]
        simp [held, Action.item?]
        omega
      · simp only [modify_self, hclamp, if_false]
        simp [owed]
        omega
      · have hlimit := h.sessionLimit s
        simp only [modify_self, hclamp, if_false]
        omega
  | finishedServer s bytes succeeded closeAfter =>
      refine h.release (fun _ => ?_) ?_
      · split <;> rfl
      · split <;> rfl
  | disconnected hstarted => exact h.same rfl (fun _ => ⟨rfl, rfl⟩) (fun _ => rfl) rfl
  | @disconnecting s hstarted =>
      exact h.same rfl (modify_bytes sh s rfl rfl) (fun _ => rfl) rfl
  | closed s =>
      exact h.same rfl (modify_bytes sh s rfl rfl) (fun _ => rfl) rfl
  | drained s =>
      have hle := h.held_le hself s
      -- nor does the loop of `Disconnect` wrap around
      have hloop := drainLoop_eq (sh.sessions s).sendQueue (Nat.le_of_add_right_le hle)
      have hnew : ∀ s', (((sh.sessions s).sendQueue.map fun item =>
          Action.drainServer s item.size).map (held s')).sum = 0 := by
        intro s'
        exact List.sum_eq_zero (List.forall_mem_map.2 (List.forall_mem_map.2 fun _ _ => rfl))
      have hnew' : (((sh.sessions s).sendQueue.map fun item =>
          Action.drainServer s item.size).map owed).sum = totalBytes (sh.sessions s).sendQueue := by
        rw [List.map_map]
        rfl
      refine h.change (s := s) (fun s' hne => ⟨?_, ?_, hnew s'⟩) ?_ ?_ ?_ h.serverLimit
      · simp [drainQueue, modify_of_ne sh hne]
      · simp [drainQueue, modify_of_ne sh hne]
      · have hnone : held s (.drain s) = 0 := rfl
        rw [hnew, hnone]
        simp only [drainQueue, modify_self, hloop, totalBytes_nil]
        omega
      · rw [hnew']
        simp only [drainQueue, modify_self, modify_queuedBytes, hloop, owed]
        omega
      · have hlimit := h.sessionLimit s
        simp only [drainQueue, modify_self, hloop]
        omega
  | drainedServer s bytes => exact h.release (fun _ => rfl) rfl

end Steps

/-! ### Every reachable state -/

/-- The accounts are right in every reachable state. -/
theorem Reachable.accounts {config : ServerConfig} {sh : Shared ι} {P : Multiset (Action ι)}
    (h : Reachable config sh P) : Accounts config sh P := by
  refine h.invariant (I := Accounts config) ?_ fun hstep hacc => hacc.step hstep
  refine ⟨fun s => rfl, ?_, fun s => Nat.zero_le _, Nat.zero_le _⟩
  simp [weight, owed]

/-- The action holds a popped item of the session. -/
def Holds (s : ι) (p : Action ι) : Prop := p.item?.map Prod.fst = some s

instance (s : ι) : DecidablePred (Holds s) := fun p =>
  inferInstanceAs (Decidable (p.item?.map Prod.fst = some s))

/-- What the action subtracts is there: no counter underflows, and `FinishWrite` does not clamp. -/
def Covered (sh : Shared ι) : Action ι → Prop
  | .unchargeSession s bytes => bytes ≤ (sh.sessions s).queuedBytes
  | .finishWrite s op _ => ¬ op.cursor.totalSize > (sh.sessions s).queuedBytes
  | .drain s => ∀ before item after, (sh.sessions s).sendQueue = before ++ item :: after →
      item.size ≤ before.foldl (fun bytes item => sub64 bytes item.size) (sh.sessions s).queuedBytes
  | .unchargeServer _ bytes | .finishServer _ bytes _ _ | .drainServer _ bytes =>
      bytes ≤ sh.queuedBytes
  | _ => True

section Reachable

variable {config : ServerConfig} {sh : Shared ι} {P : Multiset (Action ι)}

omit [Fintype ι] in
theorem Reachable.countP_holds (h : Reachable config sh P) (s : ι) : P.countP (Holds s) ≤ 1 := by
  have htoken : ∀ p : Action ι, Holds s p → 1 ≤ token s p := by
    intro p hp
    have hp' : p.token? = some s := by
      cases p <;> first | exact hp | cases hp
    rw [token_self hp']
  have hone := (h.pipeline s).atMostOne
  have hle := countP_le_weight htoken P
  split at hone <;> omega

theorem Reachable.covered (h : Reachable config sh P) {p : Action ι} (hp : p ∈ P) :
    Covered sh p := by
  have hheld := h.accounts.held_le hp
  have howed := h.accounts.owed_le hp
  cases p with
  | unchargeSession s bytes =>
      have hs := hheld s
      simp only [held, Action.item?, if_true] at hs
      exact Nat.le_of_add_left_le hs
  | finishWrite s op succeeded =>
      have hs := hheld s
      simp only [held, Action.item?, if_true] at hs
      exact Nat.not_lt.2 (Nat.le_of_add_left_le hs)
  | drain s =>
      intro before item after hqueue
      have hs := hheld s
      rw [hqueue, totalBytes_append, totalBytes_cons] at hs
      rw [drainLoop_eq before (by omega)]
      omega
  | unchargeServer s bytes | finishServer s bytes succeeded closeAfter | drainServer s bytes =>
      exact Nat.le_of_add_left_le howed
  | _ => trivial

/-- When every session is disconnected and nothing is under way, nothing is charged. -/
theorem Reachable.queuedBytes_eq_zero (h : Reachable config sh P)
    (hall : ∀ s, (sh.sessions s).disconnectStarted = true) (hcallers : ∀ p ∈ P, p.caller = true) :
    sh.queuedBytes = 0 := by
  have hheld : ∀ s, weight (held s) P = 0 := by
    intro s
    refine weight_eq_zero fun p hp => ?_
    have hcaller := hcallers p hp
    cases p <;> first | rfl | cases hcaller
  have howed : weight owed P = 0 := by
    refine weight_eq_zero fun p hp => ?_
    have hcaller := hcallers p hp
    cases p <;> first | rfl | cases hcaller
  have hsession : ∀ s, (sh.sessions s).queuedBytes = 0 := by
    intro s
    have hempty : (sh.sessions s).sendQueue = [] := by
      rcases (h.pipeline s).drained (hall s) with hempty | hpending | hpending
      · exact hempty
      · cases hcallers _ hpending
      · cases hcallers _ hpending
    rw [h.accounts.session s, hempty, hheld s]
    rfl
  rw [h.accounts.server, howed, Finset.sum_eq_zero fun s _ => hsession s]

end Reachable

/-- **Outbound byte accounting is exact and bounded.**  In every reachable state, whatever the
threads and sessions did: a session has charged its queue and the at most one item its pipeline
holds; the server has charged what the sessions have, and what some threads still owe it; no pending
subtraction underflows; both counters are within their limits; and when all sessions are
disconnected and nothing is under way, nothing is charged. -/
theorem outbound_accounting (config : ServerConfig) (moves : List (ℕ × Choice ι))
    {c : Config (Shared ι) (Action ι)} (hrun : (program config).run moves start = some c) :
    (∀ s, (c.shared.sessions s).queuedBytes =
        totalBytes (c.shared.sessions s).sendQueue + weight (held s) c.pending ∧
      c.pending.countP (Holds s) ≤ 1) ∧
    c.shared.queuedBytes = ∑ s, (c.shared.sessions s).queuedBytes + weight owed c.pending ∧
    (∀ p ∈ c.pending, Covered c.shared p) ∧
    (∀ s, (c.shared.sessions s).queuedBytes ≤ config.maxSessionQueuedBytes.toNat) ∧
    c.shared.queuedBytes ≤ config.maxGlobalQueuedBytes.toNat ∧
    ((∀ s, (c.shared.sessions s).disconnectStarted = true) → (∀ p ∈ c.pending, p.caller = true) →
      c.shared.queuedBytes = 0) := by
  have h : Reachable config c.shared c.pending := reachable_of_run hrun
  have hacc := h.accounts
  exact ⟨fun s => ⟨hacc.session s, h.countP_holds s⟩, hacc.server, fun p => h.covered,
    hacc.sessionLimit, hacc.serverLimit, h.queuedBytes_eq_zero⟩

/-- The item is queued twice, and the first write completes in part. -/
def twoItems : List (ℕ × Choice Bool) :=
  [(0, .enqueuer false shortItem), (0, .enqueuer false shortItem), (1, .succeeds), (2, .succeeds),
    (1, .succeeds), (1, .succeeds), (1, .succeeds), (1, .succeeds), (3, .completes true 2)]

/-- Behind it six bytes are charged, two of which have been transmitted. -/
theorem outbound_accounting_twoItems : ∃ c, (program {}).run twoItems start = some c ∧
    (c.shared.sessions false).wire = [130, 1] ∧ (c.shared.sessions false).queuedBytes = 6 ∧
    (c.shared.sessions false).queuedBytes =
      totalBytes (c.shared.sessions false).sendQueue + weight (held false) c.pending :=
  ⟨_, rfl, by decide, by decide, ((outbound_accounting {} twoItems rfl).1 false).1⟩

end Outbound

end RealtimeEngine
