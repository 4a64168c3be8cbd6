/-
**Inbound byte accounting, and where it leaks.**

Every session has an account of the bytes it has received and not yet delivered, and
`metrics.inbound_bytes` is the sum of the accounts.  `Disconnect` closes the account of its session.
But `UpdateInboundAccounting` may disconnect the session in the middle of a read, and the functions
that handle the read go on and charge it again.  That charge is never given back, since a session is
disconnected only once.

* `RealtimeEngine.ServerSteps.Inbound` — the invariant: the sum is right, and the account of a
  disconnected session is closed or about to be;
* `RealtimeEngine.ServerSteps.chargesOpen` — only the account of a connected session is raised;
* `RealtimeEngine.ServerSteps.inbound_accounting` — **no leak in any run whose charges are all of
  that kind**;
* `RealtimeEngine.ServerSteps.inbound_leak` — a read that leaks.
-/

import RealtimeEngine.OutboundAccounting
import RealtimeEngine.ServerOutbound

set_option relaxedAutoImplicit false
set_option autoImplicit false

namespace RealtimeEngine

namespace ServerSteps

open Interleaving

variable {ι : Type*} [DecidableEq ι] [Fintype ι]

/-- **The accounts are right.** -/
structure Inbound (sv : Server ι) (P : Multiset (Task ι)) : Prop where
  total : sv.inboundBytes = ∑ s, (sv.control s).inboundAccounted
  /-- The account of a disconnected session is closed, or it is about to be. -/
  closed : ∀ s, (sv.out.sessions s).disconnectStarted = true →
    (sv.control s).inboundAccounted = 0 ∨ .releaseInbound s ∈ P

/-- The task does not raise the account of a disconnected session. -/
def chargesOpen (sv : Server ι) : Task ι → Bool
  | .reader s (.updateInbound bytes _) =>
      bytes ≤ (sv.control s).inboundAccounted || !(sv.out.sessions s).disconnectStarted
  | _ => true

/-- A `Disconnect` is under way. -/
def Task.disconnecting : Task ι → Bool
  | .releaseInbound _ => true
  | _ => false

section Steps

variable {config : ServerConfig} {sv sv' : Server ι} {task : Task ι} {new : List (Task ι)}
  {R : Multiset (Task ι)}

/-- What `UpdateInboundAccounting` does, while the sum is right. -/
theorem updateInboundAccounting_of_total
    (htotal : sv.inboundBytes = ∑ s, (sv.control s).inboundAccounted) (s : ι) (bytes : ℕ) :
    (updateInboundAccounting config sv s bytes).1 =
      { (sv.modify s fun c => { c with inboundAccounted := bytes }) with
        inboundBytes := sv.inboundBytes + bytes - (sv.control s).inboundAccounted } := by
  have hle : (sv.control s).inboundAccounted ≤ sv.inboundBytes := by
    rw [htotal]
    exact Finset.single_le_sum (f := fun s => (sv.control s).inboundAccounted)
      (fun _ _ => Nat.zero_le _) (Finset.mem_univ s)
  unfold updateInboundAccounting
  dsimp only
  split
  · have hsum : sv.inboundBytes + (bytes - (sv.control s).inboundAccounted) =
        sv.inboundBytes + bytes - (sv.control s).inboundAccounted := by
      omega
    rw [hsum]
  · split
    · rw [Outbound.sub64_eq (by omega)]
      have hsum : sv.inboundBytes - ((sv.control s).inboundAccounted - bytes) =
          sv.inboundBytes + bytes - (sv.control s).inboundAccounted := by
        omega
      rw [hsum]
    · have heq : (sv.control s).inboundAccounted = bytes := by omega
      simp [Server.modify, ← heq]

/-- The sum stays right where the fields of a session change that the accounts do not look at. -/
theorem total_modified (htotal : sv.inboundBytes = ∑ s, (sv.control s).inboundAccounted) (s : ι)
    (f : Control → Control)
    (hf : (f (sv.control s)).inboundAccounted = (sv.control s).inboundAccounted) :
    (sv.modify s f).inboundBytes = ∑ s', ((sv.modify s f).control s').inboundAccounted := by
  rw [modify_inboundBytes, htotal]
  refine Finset.sum_congr rfl fun s' _ => ?_
  by_cases hs : s' = s
  · subst hs
    rw [modify_self, hf]
  · rw [modify_of_ne sv hs]

/-- `UpdateInboundAccounting` keeps the sum right. -/
theorem total_updated (htotal : sv.inboundBytes = ∑ s, (sv.control s).inboundAccounted) (s : ι)
    (bytes : ℕ) :
    (updateInboundAccounting config sv s bytes).1.inboundBytes =
      ∑ s', ((updateInboundAccounting config sv s bytes).1.control s').inboundAccounted := by
  rw [updateInboundAccounting_of_total htotal s bytes]
  have hsum := Outbound.sum_change (f := fun s => (sv.control s).inboundAccounted)
    (g := fun s' => ((sv.modify s fun c =>
      { c with inboundAccounted := bytes }).control s').inboundAccounted) (s := s)
    fun s' hs' => by rw [modify_of_ne sv hs']
  rw [modify_self] at hsum
  dsimp only at hsum ⊢
  omega

/-- **Every step keeps the sum right.** -/
theorem Step.total (hstep : Step config sv task sv' new)
    (htotal : sv.inboundBytes = ∑ s, (sv.control s).inboundAccounted) :
    sv'.inboundBytes = ∑ s, (sv'.control s).inboundAccounted := by
  cases hstep with
  | @greets s result out next hact =>
      exact total_modified htotal s (fun c => { c with response := some result.response }) rfl
  | updates s bytes rest => exact total_updated htotal s bytes
  | releases s => exact total_updated htotal s 0
  | handles hlocal => exact total_modified htotal _ _ (localStep_spec hlocal).1.inboundAccounted
  | accepts | buffers | stores | opens | leaves | removes | calls =>
      exact total_modified htotal _ _ rfl
  | arrives | acts | disconnects | posts | notPosted | reads | overflows => exact htotal

/-- **Every step keeps the accounts right**, if it does not charge a disconnected session. -/
theorem Inbound.step (hstep : Step config sv task sv' new) (hok : chargesOpen sv task = true)
    (h : Inbound sv (task ::ₘ R)) : Inbound sv' (new + R) := by
  refine ⟨hstep.total h.total, fun s hstarted => ?_⟩
  -- a step that leaves the account alone
  have hsame : (sv.out.sessions s).disconnectStarted = true →
      (sv'.control s).inboundAccounted = (sv.control s).inboundAccounted →
      task ≠ .releaseInbound s →
      (sv'.control s).inboundAccounted = 0 ∨ .releaseInbound s ∈ (new : Multiset (Task ι)) + R := by
    intro hbefore haccount htask
    rw [haccount]
    rcases h.closed s hbefore with hzero | hpending
    · exact Or.inl hzero
    · refine Or.inr (Multiset.mem_add.2 (Or.inr ?_))
      exact (Multiset.mem_cons.1 hpending).resolve_left fun heq => htask heq.symm
  by_cases hs : task.session? = some s
  · cases hstep with
    | arrives harrival => cases hs
    | acts houtside hkeep hact =>
        refine hsame ?_ rfl (by intro heq; cases heq)
        rwa [← hact.disconnectStarted (hkeep s)]
    | disconnects hnot =>
        obtain rfl := Option.some.inj hs
        exact Or.inr (by simp)
    | greets result hact =>
        obtain rfl := Option.some.inj hs
        refine hsame ?_ (by simp) (by intro heq; cases heq)
        rwa [← hact.disconnectStarted (by intro heq; cases heq)]
    | updates s' bytes rest =>
        obtain rfl := Option.some.inj hs
        rw [updateInboundAccounting_of_total h.total] at hstarted ⊢
        simp only [chargesOpen, Bool.or_eq_true, decide_eq_true_eq, Bool.not_eq_true'] at hok
        rw [modify_self]
        dsimp only
        rcases hok with hlower | hopen
        · -- the account is lowered: it was closed before, or it is going to be
          rcases h.closed s' hstarted with hzero | hpending
          · exact Or.inl (by omega)
          · refine Or.inr (Multiset.mem_add.2 (Or.inr ?_))
            exact (Multiset.mem_cons.1 hpending).resolve_left (by intro heq; cases heq)
        · rw [show (sv.out.sessions s').disconnectStarted = true from hstarted] at hopen
          cases hopen
    | handles hlocal =>
        obtain rfl := Option.some.inj hs
        refine hsame hstarted ?_ (by intro heq; cases heq)
        rw [modify_self, (localStep_spec hlocal).1.inboundAccounted]
    | releases s' =>
        obtain rfl := Option.some.inj hs
        rw [updateInboundAccounting_of_total h.total, modify_self]
        exact Or.inl rfl
    | calls hsession hcall =>
        obtain rfl := Option.some.inj (hs.symm.trans hsession)
        refine hsame hstarted (by rw [modify_self]) fun heq => ?_
        subst heq
        cases hcall
    | posts | notPosted | reads | overflows => exact hsame hstarted rfl (by intro heq; cases heq)
    | accepts | buffers | stores | opens | leaves | removes =>
        obtain rfl := Option.some.inj hs
        exact hsame hstarted (by rw [modify_self]) (by intro heq; cases heq)
  · obtain ⟨hcontrol, hout, -⟩ := hstep.frame hs
    rw [hout] at hstarted
    refine hsame hstarted (by rw [hcontrol]) fun heq => hs ?_
    rw [heq]
    rfl

end Steps

/-- **Inbound byte accounting does not leak**, in every run that charges connected sessions only:
whenever no `Disconnect` is under way, the sum is that over the connected sessions, and the account
of every disconnected session is closed. -/
theorem inbound_accounting (config : ServerConfig) (moves : List (ℕ × Choice ι))
    {c : Config (Server ι) (Task ι)}
    (hok : (program config).AllMeet (fun _ t sv _ => chargesOpen sv t = true) moves (start config))
    (hrun : (program config).run moves (start config) = some c)
    (hquiet : ∀ t ∈ c.pending, t.disconnecting = false) :
    c.shared.inboundBytes =
        ∑ s with (c.shared.out.sessions s).disconnectStarted = false,
          (c.shared.control s).inboundAccounted ∧
      (∀ s, (c.shared.out.sessions s).disconnectStarted = true →
        (c.shared.control s).inboundAccounted = 0) ∧
      ((∀ s, (c.shared.out.sessions s).disconnectStarted = true) → c.shared.inboundBytes = 0) := by
  have h : Inbound c.shared c.pending := by
    refine Program.invariant_of_allMeet (I := Inbound) (fun x p sv R o hexec hcharges hI => ?_)
      moves hok ?_ hrun
    · rw [Multiset.coe_add]
      exact hI.step (exec_step hexec) hcharges
    · refine ⟨?_, fun s hs => (Bool.false_ne_true hs).elim⟩
      exact (Finset.sum_eq_zero fun s _ => rfl).symm
  have hclosed : ∀ s, (c.shared.out.sessions s).disconnectStarted = true →
      (c.shared.control s).inboundAccounted = 0 := by
    intro s hs
    rcases h.closed s hs with hzero | hpending
    · exact hzero
    · cases hquiet _ hpending
  refine ⟨?_, hclosed, fun hall => ?_⟩
  · rw [h.total, Finset.sum_filter]
    refine Finset.sum_congr rfl fun s _ => ?_
    cases hs : (c.shared.out.sessions s).disconnectStarted with
    | false => rfl
    | true => exact hclosed s hs
  · rw [h.total]
    exact Finset.sum_eq_zero fun s _ => hclosed s (hall s)

/-- A session is accepted, and its first read is handled up to the charge of its bytes. -/
def rawRead (bytes : Bytes) : List (ℕ × Choice Bool) :=
  [(0, .acceptor false), (1, .passes), (1, .passes), (2, .reads true bytes), (2, .passes),
    (2, .passes), (2, .passes), (2, .passes)]

/-- The rest of the read of an incomplete raw message. -/
def incompleteMessage : List (ℕ × Choice Bool) :=
  rawRead [0, 0, 0] ++ List.replicate 11 (2, .passes)

/-- Its three bytes are accounted for. -/
theorem inbound_accounting_incompleteMessage :
    ∃ c, (program {}).run incompleteMessage (start {}) = some c ∧ c.shared.inboundBytes = 3 ∧
      c.shared.inboundBytes = ∑ s with (c.shared.out.sessions s).disconnectStarted = false,
        (c.shared.control s).inboundAccounted := by
  have hobserved : ((program {}).run incompleteMessage (start {})).map (fun c =>
      (c.shared.inboundBytes, c.threads.flatten.all fun t => !t.disconnecting)) =
      some (3, true) := by
    decide +kernel
  obtain ⟨c, hrun, hc⟩ := Option.map_eq_some_iff.1 hobserved
  obtain ⟨hbytes, hall⟩ := Prod.mk.inj hc
  have hok := Program.allMeet_of_meets (P := program {}) (fun _ t sv => chargesOpen sv t)
    incompleteMessage (c := start {}) (by decide +kernel)
  refine ⟨c, hrun, hbytes, (inbound_accounting {} incompleteMessage hok hrun fun t ht => ?_).1⟩
  have hone := List.all_eq_true.1 hall t ht
  simpa using hone

/-- The server may have four bytes of input. -/
def smallInput : ServerConfig := { maxGlobalInboundBytes := 4 }

/-- A read of eight raw bytes: their charge disconnects the session, and `ProcessRaw` charges them
once more. -/
def oversizedRead : List (ℕ × Choice Bool) :=
  rawRead [0, 0, 0, 200, 1, 2, 3, 4] ++
    [(2, .out .succeeds), (2, .passes), (2, .passes), (2, .out .succeeds), (2, .out .succeeds),
      (2, .passes)] ++ List.replicate 7 (2, .passes) ++
    [(2, .out .succeeds), (2, .passes), (2, .passes), (2, .passes), (2, .out .succeeds)]

/-- **A leak**: every thread but the source of new ones has come to its end, the one session that
was accepted is disconnected, and its eight bytes are still charged. -/
theorem inbound_leak : ∃ c, (program smallInput).run oversizedRead (start smallInput) = some c ∧
    c.threads.map List.length = [1, 0, 0] ∧
    (c.shared.out.sessions false).disconnectStarted = true ∧
    (c.shared.control false).inboundAccounted = 8 ∧ c.shared.inboundBytes = 8 := by
  have hobserved : ((program smallInput).run oversizedRead (start smallInput)).map (fun c =>
      (c.threads.map List.length, (c.shared.out.sessions false).disconnectStarted,
        (c.shared.control false).inboundAccounted, c.shared.inboundBytes)) =
      some ([1, 0, 0], true, 8, 8) := by
    decide +kernel
  obtain ⟨c, hrun, hc⟩ := Option.map_eq_some_iff.1 hobserved
  simp only [Prod.mk.injEq] at hc
  exact ⟨c, hrun, hc⟩

end ServerSteps

end RealtimeEngine
