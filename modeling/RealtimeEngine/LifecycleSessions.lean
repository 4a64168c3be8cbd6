/-
**Who knows a session, and whether it is in the registry.**

`HandleAccept` gives a session its number, then it inserts the session, and only then other threads
can find it: the timer, `Stop`, and the callers of `Send` and `Close` go through the registry, and
the handlers of a read or a write have their session from the operation.  So a session whose
`Disconnect` has started was inserted before, and it leaves the registry once.

Main definitions:

* `RealtimeEngine.Lifecycle.Task.pointers` — the sessions that a thread knows;
* `RealtimeEngine.Lifecycle.Sessions` — the invariant.

Main results:

* `RealtimeEngine.Lifecycle.Step.knows` — **a thread learns of a session from the registry**;
* `RealtimeEngine.Lifecycle.Sessions.step` — every step keeps the invariant.
-/

import RealtimeEngine.Lifecycle

set_option relaxedAutoImplicit false
set_option autoImplicit false

namespace RealtimeEngine

namespace Lifecycle

open Interleaving

/-! ### What a thread knows -/

/-- The sessions that the task knows. -/
def Task.pointers : Task → List ℕ
  | .count _ s | .invokeConnect _ s | .newRead s | .trackRead s _ | .postRead s _ _ | .receive s _ _
  | .reading s _ | .handleRead s _ _ | .processIncoming s _ | .testMessage s _ | .deliverMessage s _
  | .repost s _ | .repostRunning s _ | .releaseRead s _ _ | .enqueue s _ | .startNextWrite s
  | .newWrite s _ | .trackWrite s _ _ | .postWrite s _ _ _ | .wsaSend s _ _ _ | .writing s _ _
  | .handleWrite s _ _ _ | .finishWrite s _ _ _ | .completeWrite s _ | .disconnect s | .remove s
  | .closeSocket s | .drain s | .uncount s | .invokeDisconnect s | .timer s => [s]
  | .snapshot _ found | .stopLoop found => found
  | .stopDisconnect s rest => s :: rest
  | _ => []

/-- The session that the task is about to insert. -/
def Task.inserting? : Task → Option ℕ
  | .insert _ s => some s
  | _ => none

/-- The session that the task is about to remove from the registry. -/
def Task.removing? : Task → Option ℕ
  | .remove s => some s
  | _ => none

/-- **What holds of the sessions.** -/
structure Sessions (sv : Server) (P : Multiset Task) : Prop where
  /-- A number is given to one session. -/
  inserting : ∀ s, (holders Task.inserting? P).count s + (sv.sessions s).inserted.toNat =
    if 0 < s ∧ s < sv.nextSessionId then 1 else 0
  next : 0 < sv.nextSessionId
  started : ∀ s, (sv.sessions s).disconnectStarted = true → (sv.sessions s).inserted = true
  /-- A session is in the registry until its `Disconnect` has removed it. -/
  registered : ∀ s, (sv.sessions s).registered.toNat + (sv.sessions s).disconnectStarted.toNat =
    (sv.sessions s).inserted.toNat + (holders Task.removing? P).count s
  known : ∀ t ∈ P, ∀ s ∈ t.pointers, (sv.sessions s).inserted = true

section Steps

variable {config : ServerConfig} {sv sv' : Server} {task : Task} {new : List Task}
  {R : Multiset Task}

theorem Sessions.inserted_of_registered {P : Multiset Task} (h : Sessions sv P) {s : ℕ}
    (hs : (sv.sessions s).registered = true) : (sv.sessions s).inserted = true := by
  by_contra hnot
  have hstarted : (sv.sessions s).disconnectStarted = false := by
    by_contra hstarted
    exact hnot (h.started s (by simpa using hstarted))
  have hmem : s ∈ holders Task.removing? P := by
    have hregistered := h.registered s
    rw [hs, hstarted, Bool.eq_false_of_not_eq_true hnot] at hregistered
    simp only [Bool.toNat_true, Bool.toNat_false] at hregistered
    exact Multiset.count_pos.1 (by omega)
  obtain ⟨t, ht, hremoving⟩ := mem_holders.1 hmem
  cases t with
  | remove s' =>
      obtain rfl := Option.some.inj hremoving
      exact hnot (h.known _ ht s' List.mem_cons_self)
  | _ => cases hremoving

/-- A session that was inserted has a number. -/
theorem Sessions.number {P : Multiset Task} (h : Sessions sv P) {s : ℕ}
    (hs : (sv.sessions s).inserted = true) : 0 < s ∧ s < sv.nextSessionId := by
  by_contra hnot
  have hinserting := h.inserting s
  rw [if_neg hnot, hs, Bool.toNat_true] at hinserting
  omega

theorem mem_shard {k s : ℕ} : s ∈ sv.shard k ↔
    s < sv.nextSessionId ∧ (sv.sessions s).registered = true ∧ s % shardCount = k := by
  simp [Server.shard]

/-- Where a thread goes it knows what it knew before, or what it finds in the registry. -/
theorem Moves.knows (h : Moves config sv task new) :
    ∀ t ∈ new, ∀ s ∈ t.pointers, s ∈ task.pointers ∨ (sv.sessions s).registered = true := by
  intro t ht s hs
  cases h with
  | creates | notCreated | postsAccept | notAccepting | completesAccept | accepts | notAccepted
  | full | admits | notAssociated | associates | accepting | stopsAccepting | noSocket | reaccepts
  | notSent | notClosed | notDue | stops =>
      first
      | (cases ht; done)
      | (rw [List.mem_singleton.1 ht] at hs; cases hs)
  | noPeer s' op posted | notReading s' op posted =>
      refine Or.inl ?_
      cases posted with
      | true => rcases List.mem_pair.1 ht with rfl | rfl <;> exact hs
      | false => rcases List.mem_pair.1 ht with rfl | rfl <;> exact hs
  | badRead | disconnects | queues | disconnected | notRunning =>
      rcases List.mem_pair.1 ht with rfl | rfl <;> exact Or.inl hs
  | closes s' op =>
      rcases List.mem_pair.1 ht with rfl | rfl
      · cases hs
      · exact Or.inl hs
  -- these look the session up in its shard
  | sends hin | closesSession hin | closesFrame hin =>
      rw [List.mem_singleton.1 ht] at hs
      rw [List.mem_singleton.1 hs]
      exact Or.inr hin
  | sweeps hk found | swept hk found =>
      rw [List.mem_singleton.1 ht] at hs
      rcases List.mem_append.1 hs with hfound | hshard
      · exact Or.inl hfound
      · exact Or.inr (mem_shard.1 hshard).2.1
  | @picks found i s' hs' =>
      rw [List.mem_singleton.1 ht] at hs
      rcases List.mem_cons.1 hs with rfl | hrest
      · exact Or.inl (List.mem_of_getElem? hs')
      · exact Or.inl (List.mem_of_mem_eraseIdx hrest)
  | waits =>
      rw [List.mem_singleton.1 ht] at hs
      cases hs
  | _ =>
      rw [List.mem_singleton.1 ht] at hs
      exact Or.inl hs

/-- **A thread learns of a session from the registry**, or it has just inserted it. -/
theorem Step.knows (hstep : Step config sv task sv' new) :
    ∀ t ∈ new, ∀ s ∈ t.pointers, s ∈ task.pointers ∨ (sv.sessions s).registered = true ∨
      (sv'.sessions s).inserted = true := by
  intro t ht s hs
  cases hstep with
  | arrives harrival =>
      rcases List.mem_pair.1 ht with rfl | rfl
      · cases hs
      · obtain rfl | ⟨s', rfl⟩ | ⟨s', rfl⟩ | ⟨s', rfl, hin⟩ | rfl := arrival_cases harrival
        · cases hs
        · cases hs
        · cases hs
        · rw [List.mem_singleton.1 hs]
          exact Or.inr (Or.inl hin)
        · cases hs
  | moves hmoves =>
      rcases hmoves.knows t ht s hs with hknown | hin
      · exact Or.inl hknown
      · exact Or.inr (Or.inl hin)
  | inserts op s' =>
      rw [List.mem_singleton.1 ht] at hs
      obtain rfl := List.mem_singleton.1 hs
      exact Or.inr (Or.inr (by rw [modify_self]))
  | noAccept | completes | alreadyDisconnected | invokesDisconnect | alreadyStopped | idles => cases ht
  | refuses s' closeAfter | enqueues s' closeAfter =>
      split at ht
      · first
        | (cases ht; done)
        | (rw [List.mem_singleton.1 ht] at hs; exact Or.inl hs)
      · first
        | (cases ht; done)
        | (rw [List.mem_singleton.1 ht] at hs; exact Or.inl hs)
  | completesWrite s' again =>
      rw [List.mem_singleton.1 ht] at hs
      cases again <;> exact Or.inl hs
  | invokesConnect op s' =>
      rcases List.mem_pair.1 ht with rfl | rfl
      · exact Or.inl hs
      · cases hs
  | stopsSession hlive rest =>
      rcases List.mem_pair.1 ht with rfl | rfl
      · rw [List.mem_singleton.1 hs]
        exact Or.inl List.mem_cons_self
      · exact Or.inl (List.mem_cons_of_mem _ hs)
  | skips hstarted rest =>
      rw [List.mem_singleton.1 ht] at hs
      exact Or.inl (List.mem_cons_of_mem _ hs)
  | createsAccept | tracksAccept | identifies | releasesAccept | releasesRead | stops
  | stopsListening =>
      rw [List.mem_singleton.1 ht] at hs
      cases hs
  | _ =>
      rw [List.mem_singleton.1 ht] at hs
      exact Or.inl hs

theorem Moves.inserting (h : Moves config sv task new) :
    new.filterMap Task.inserting? = task.inserting?.toList := by
  cases h with
  | noPeer s op posted | notReading s op posted => cases posted <;> rfl
  | _ => rfl

theorem Moves.removing (h : Moves config sv task new) :
    new.filterMap Task.removing? = task.removing?.toList := by
  cases h with
  | noPeer s op posted | notReading s op posted => cases posted <;> rfl
  | _ => rfl

/-- What the threads know behind a step was inserted, as nothing is taken back. -/
theorem Sessions.known_step (h : Sessions sv (task ::ₘ R)) (hstep : Step config sv task sv' new)
    (hinserted : ∀ s, (sv.sessions s).inserted = true → (sv'.sessions s).inserted = true) :
    ∀ t ∈ (new : Multiset Task) + R, ∀ s ∈ t.pointers, (sv'.sessions s).inserted = true := by
  intro t ht s hs
  rcases Multiset.mem_add.1 ht with hnew | hrest
  · rcases hstep.knows t hnew s hs with hknown | hin | hdone
    · exact hinserted s (h.known task (Multiset.mem_cons_self task R) s hknown)
    · exact hinserted s (h.inserted_of_registered hin)
    · exact hdone
  · exact hinserted s (h.known t (Multiset.mem_cons_of_mem hrest) s hs)

/-- A step that does not touch the registry. -/
theorem Sessions.same (h : Sessions sv (task ::ₘ R)) (hstep : Step config sv task sv' new)
    (hinserting : new.filterMap Task.inserting? = task.inserting?.toList)
    (hremoving : new.filterMap Task.removing? = task.removing?.toList)
    (hnext : sv'.nextSessionId = sv.nextSessionId)
    (hinserted : ∀ s, (sv'.sessions s).inserted = (sv.sessions s).inserted)
    (hregistered : ∀ s, (sv'.sessions s).registered = (sv.sessions s).registered)
    (hstarted : ∀ s, (sv'.sessions s).disconnectStarted = (sv.sessions s).disconnectStarted) :
    Sessions sv' (new + R) := by
  refine ⟨fun s => ?_, ?_, fun s hs => ?_, fun s => ?_, ?_⟩
  · rw [holders_step hinserting, hinserted, hnext]
    exact h.inserting s
  · rw [hnext]
    exact h.next
  · rw [hinserted]
    exact h.started s (hstarted s ▸ hs)
  · rw [holders_step hremoving, hregistered, hinserted, hstarted]
    exact h.registered s
  · exact h.known_step hstep fun s hs => (hinserted s).trans hs

/-- A session that is about to be inserted has a number, and was not inserted before. -/
theorem Sessions.inserting_self {op s₀ : ℕ} (h : Sessions sv (.insert op s₀ ::ₘ R)) :
    s₀ < sv.nextSessionId ∧ (sv.sessions s₀).inserted = false := by
  have hself := count_holders_cons (f := Task.inserting?) (p := .insert op s₀) rfl R s₀
  have hone := h.inserting s₀
  rw [hself, if_pos rfl] at hone
  have hinserted : (sv.sessions s₀).inserted.toNat = 0 := by
    split_ifs at hone <;> omega
  refine ⟨?_, by simpa using hinserted⟩
  split_ifs at hone with hnumber
  · exact hnumber.2
  · omega

/-- The session is inserted. -/
theorem Sessions.inserts {op s₀ : ℕ} (h : Sessions sv (.insert op s₀ ::ₘ R))
    (hstep : Step config sv (.insert op s₀) sv' [.count op s₀])
    (hsv : sv' = sv.modify s₀ fun x => { x with inserted := true, registered := true }) :
    Sessions sv' (([.count op s₀] : List Task) + R) := by
  have hself := count_holders_cons (f := Task.inserting?) (p := .insert op s₀) rfl R
  have hfresh := h.inserting_self.2
  have hquiet : (sv.sessions s₀).disconnectStarted = false := by
    by_contra hnot
    rw [h.started s₀ (by simpa using hnot)] at hfresh
    cases hfresh
  have hremoving : ∀ Q : Multiset Task, holders Task.removing? (([.count op s₀] : List Task) + Q) =
      holders Task.removing? (.insert op s₀ ::ₘ Q) := fun Q => holders_step rfl
  subst hsv
  refine ⟨fun s => ?_, h.next, fun s hs => ?_, fun s => ?_, h.known_step hstep fun s hs => ?_⟩
  · have hbefore := h.inserting s
    rw [hself] at hbefore
    have hnone : holders Task.inserting? (([.count op s₀] : List Task) + R) =
        holders Task.inserting? R := by
      rw [holders_add, holders_coe]
      exact zero_add _
    rw [hnone]
    by_cases hs : s = s₀
    · subst hs
      rw [modify_self]
      rw [if_pos rfl, hfresh] at hbefore
      simp only [Bool.toNat_true, Bool.toNat_false] at hbefore ⊢
      rw [← show sv.nextSessionId = (sv.modify s fun x =>
        { x with inserted := true, registered := true }).nextSessionId from rfl]
      omega
    · rw [modify_of_ne sv hs]
      rw [if_neg hs, zero_add] at hbefore
      exact hbefore
  · by_cases heq : s = s₀
    · rw [heq, modify_self]
    · rw [modify_of_ne sv heq] at hs ⊢
      exact h.started s hs
  · rw [hremoving]
    have hbefore := h.registered s
    by_cases hs : s = s₀
    · subst hs
      rw [modify_self]
      rw [hfresh, hquiet] at hbefore
      simp only [Bool.toNat_true, Bool.toNat_false, hquiet] at hbefore ⊢
      -- the session was not in the registry, and nobody removes it
      have hnot : s ∉ holders Task.removing? (.insert op s ::ₘ R) := by
        intro hmem
        obtain ⟨t, ht, hremove⟩ := mem_holders.1 hmem
        cases t with
        | remove s' =>
            obtain rfl := Option.some.inj hremove
            have hknown := h.known _ ht s' List.mem_cons_self
            rw [hfresh] at hknown
            cases hknown
        | _ => cases hremove
      rw [Multiset.count_eq_zero.2 hnot]
    · rw [modify_of_ne sv hs]
      exact hbefore
  · by_cases heq : s = s₀
    · rw [heq, modify_self]
    · rwa [modify_of_ne sv heq]

/-- A `Disconnect` starts. -/
theorem Sessions.starts {s₀ : ℕ} (h : Sessions sv (task ::ₘ R))
    (hstep : Step config sv task sv' new)
    (hsv : sv' = sv.modify s₀ fun x => { x with disconnectStarted := true })
    (hlive : (sv.sessions s₀).disconnectStarted = false) (hknown : s₀ ∈ task.pointers)
    (hinserting : new.filterMap Task.inserting? = task.inserting?.toList)
    (hremoving : new.filterMap Task.removing? = s₀ :: task.removing?.toList) :
    Sessions sv' (new + R) := by
  have hinserted := h.known task (Multiset.mem_cons_self task R) s₀ hknown
  subst hsv
  refine ⟨fun s => ?_, h.next, fun s hs => ?_, fun s => ?_, h.known_step hstep fun s hs => ?_⟩
  · rw [holders_step hinserting, modify_field Session.inserted sv s₀ s rfl]
    exact h.inserting s
  · rw [modify_field Session.inserted sv s₀ s rfl]
    by_cases heq : s = s₀
    · rw [heq, hinserted]
    · rw [modify_of_ne sv heq] at hs
      exact h.started s hs
  · have hbefore := h.registered s
    rw [holders_cons, Multiset.count_add] at hbefore
    rw [holders_add, holders_coe, hremoving, ← Multiset.cons_coe, Multiset.count_add,
      Multiset.count_cons]
    by_cases hs : s = s₀
    · subst hs
      rw [modify_self, if_pos rfl]
      rw [hlive] at hbefore
      simp only [Bool.toNat_true, Bool.toNat_false] at hbefore ⊢
      omega
    · rw [modify_of_ne sv hs, if_neg hs]
      exact hbefore
  · rwa [modify_field Session.inserted sv s₀ s rfl]

/-- The session leaves the registry. -/
theorem Sessions.removes {s₀ : ℕ} (h : Sessions sv (.remove s₀ ::ₘ R))
    (hstep : Step config sv (.remove s₀) sv' [.closeSocket s₀])
    (hsv : sv' = sv.modify s₀ fun x => { x with registered := false }) :
    Sessions sv' (([.closeSocket s₀] : List Task) + R) := by
  have hinserted := h.known _ (Multiset.mem_cons_self _ R) s₀ List.mem_cons_self
  subst hsv
  refine ⟨fun s => ?_, h.next, fun s hs => ?_, fun s => ?_, h.known_step hstep fun s hs => ?_⟩
  · rw [holders_step (p := .remove s₀) rfl, modify_field Session.inserted sv s₀ s rfl]
    exact h.inserting s
  · rw [modify_field Session.inserted sv s₀ s rfl]
    rw [modify_field Session.disconnectStarted sv s₀ s rfl] at hs
    exact h.started s hs
  · have hbefore := h.registered s
    rw [holders_cons, Multiset.count_add] at hbefore
    have hone : Multiset.count s ((Task.remove s₀).removing?.toList : Multiset ℕ) =
        if s = s₀ then 1 else 0 := Multiset.count_singleton s s₀
    have hnone : holders Task.removing? (([.closeSocket s₀] : List Task) + R) =
        holders Task.removing? R := by
      rw [holders_add, holders_coe]
      exact zero_add _
    rw [hone] at hbefore
    rw [hnone]
    by_cases hs : s = s₀
    · subst hs
      rw [modify_self]
      rw [if_pos rfl, hinserted] at hbefore
      have hregistered := Bool.toNat_le (sv.sessions s).registered
      have hstarted := Bool.toNat_le (sv.sessions s).disconnectStarted
      simp only [hinserted, Bool.toNat_true, Bool.toNat_false] at hbefore ⊢
      omega
    · rw [modify_of_ne sv hs]
      rw [if_neg hs, zero_add] at hbefore
      exact hbefore
  · rwa [modify_field Session.inserted sv s₀ s rfl]

/-- A number is given to a new session. -/
theorem Sessions.identifies {op : ℕ} (h : Sessions sv (.identify op ::ₘ R))
    (hstep : Step config sv (.identify op) sv' [.insert op sv.nextSessionId])
    (hsv : sv' = { sv with nextSessionId := sv.nextSessionId + 1 }) :
    Sessions sv' (([.insert op sv.nextSessionId] : List Task) + R) := by
  subst hsv
  refine ⟨fun s => ?_, Nat.succ_pos _, h.started, fun s => ?_, h.known_step hstep fun s hs => hs⟩
  · have hbefore := h.inserting s
    have hnext := h.next
    rw [holders_cons, Multiset.count_add] at hbefore
    have hzero : Multiset.count s ((Task.identify op).inserting?.toList : Multiset ℕ) = 0 := rfl
    have hone : Multiset.count s (([.insert op sv.nextSessionId].filterMap
        Task.inserting? : List ℕ) : Multiset ℕ) = if s = sv.nextSessionId then 1 else 0 :=
      Multiset.count_singleton s _
    rw [hzero, zero_add] at hbefore
    rw [holders_add, holders_coe, Multiset.count_add, hone]
    dsimp only
    split_ifs at hbefore ⊢ <;> omega
  · have hremoving : holders Task.removing? (([.insert op sv.nextSessionId] : List Task) + R) =
        holders Task.removing? (.identify op ::ₘ R) := holders_step rfl
    rw [hremoving]
    exact h.registered s

/-- **Every step keeps it.** -/
theorem Sessions.step (hstep : Step config sv task sv' new) (h : Sessions sv (task ::ₘ R)) :
    Sessions sv' (new + R) := by
  -- a change of a session that leaves its place in the registry alone
  have hmodified : ∀ (s₀ : ℕ) (f : Session → Session), sv' = sv.modify s₀ f →
      (f (sv.sessions s₀)).inserted = (sv.sessions s₀).inserted →
      (f (sv.sessions s₀)).registered = (sv.sessions s₀).registered →
      (f (sv.sessions s₀)).disconnectStarted = (sv.sessions s₀).disconnectStarted →
      new.filterMap Task.inserting? = task.inserting?.toList →
      new.filterMap Task.removing? = task.removing?.toList → Sessions sv' (new + R) := by
    intro s₀ f hsv hinserted hregistered hstarted hnew hnew'
    refine h.same hstep hnew hnew' (by rw [hsv]; rfl) (fun s => ?_) (fun s => ?_) fun s => ?_
    · rw [hsv, modify_field Session.inserted sv s₀ s hinserted]
    · rw [hsv, modify_field Session.registered sv s₀ s hregistered]
    · rw [hsv, modify_field Session.disconnectStarted sv s₀ s hstarted]
  have hcopy := hstep
  cases hstep with
  | arrives harrival =>
      obtain rfl | ⟨s, rfl⟩ | ⟨s, rfl⟩ | ⟨s, rfl, -⟩ | rfl := arrival_cases harrival <;>
        exact h.same hcopy rfl rfl rfl (fun _ => rfl) (fun _ => rfl) fun _ => rfl
  | moves hmoves =>
      exact h.same hcopy hmoves.inserting hmoves.removing rfl (fun _ => rfl) (fun _ => rfl)
        fun _ => rfl
  | identifies op => exact h.identifies hcopy rfl
  | inserts op s => exact h.inserts hcopy rfl
  | disconnects hlive => exact h.starts hcopy rfl hlive List.mem_cons_self rfl rfl
  | stopsSession hlive rest => exact h.starts hcopy rfl hlive List.mem_cons_self rfl rfl
  | removes s => exact h.removes hcopy rfl
  | refuses s closeAfter =>
      cases closeAfter <;>
        exact h.same hcopy rfl rfl rfl (fun _ => rfl) (fun _ => rfl) fun _ => rfl
  | enqueues s closeAfter =>
      refine hmodified s _ rfl rfl rfl rfl ?_ ?_
      · split <;> rfl
      · split <;> rfl
  | completesWrite s again =>
      cases again <;>
        exact h.same hcopy rfl rfl rfl (fun _ => rfl) (fun _ => rfl) fun _ => rfl
  | invokesConnect | deliversMessage | idles | pops | closesSocket | drains | invokesDisconnect =>
      exact hmodified _ _ rfl rfl rfl rfl rfl rfl
  | _ => exact h.same hcopy rfl rfl rfl (fun _ => rfl) (fun _ => rfl) fun _ => rfl

end Steps

theorem sessions_start : Sessions start.shared start.pending := by
  refine ⟨fun s => ?_, Nat.one_pos, (by intro s hs; cases hs), fun s => rfl, fun t ht s hs => ?_⟩
  · have hnone : ¬(0 < s ∧ s < 1) := by omega
    exact (if_neg hnone).symm
  · rw [List.mem_singleton.1 ht] at hs
    cases hs

end Lifecycle

end RealtimeEngine
