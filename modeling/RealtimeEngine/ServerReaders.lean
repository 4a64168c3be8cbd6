/-
**One read at a time.**

`HandleAccept` posts the first read of a session, and `HandleRead` posts the next one behind the
handling of the last.  So a session has at most one read in flight or being handled, in every run
and whatever the other threads do.

* `RealtimeEngine.ServerSteps.reader` — counts the reads of a session among the pending tasks;
* `RealtimeEngine.ServerSteps.Step.readers` — a step starts a read only where another one ends, or
  where a session is accepted;
* `RealtimeEngine.ServerSteps.Step.oneReader` — **every step keeps at most one read of a session**.
-/

import RealtimeEngine.ServerOutbound

set_option relaxedAutoImplicit false
set_option autoImplicit false

namespace RealtimeEngine

namespace ServerSteps

open Interleaving

variable {ι : Type*}

/-- The session whose read the task handles. -/
def Task.reader? : Task ι → Option ι
  | .reader s _ => some s
  | _ => none

variable [DecidableEq ι]

/-- The number of threads that handle a read of the session. -/
def reader (s : ι) (t : Task ι) : ℕ := if t.reader? = some s then 1 else 0

/-- The reads that a session may have. -/
def Control.reads (c : Control) : ℕ := if c.accepted then 1 else 0

section Steps

variable {config : ServerConfig} {sv sv' : Server ι} {task : Task ι} {new : List (Task ι)} {s : ι}

@[simp] theorem reader_self (s : ι) (point : ReadPoint) : reader s (.reader s point) = 1 :=
  if_pos rfl

theorem reader_of_session {t : Task ι} (h : t.session? ≠ some s) : reader s t = 0 := by
  cases t with
  | reader s' point => exact if_neg h
  | _ => rfl

theorem reader_of_arrives {t : Task ι} (h : t.arrives = true) : reader s t = 0 := by
  cases t with
  | reader s' point => cases h
  | _ => rfl

theorem Leads.reader_eq_zero {c : Control} {t : Task ι} (h : Leads c task t) : reader s t = 0 := by
  cases h <;> rfl

omit [DecidableEq ι] in
theorem Calls.reader?_eq_none {c : Control} {s' : ι} {point : ReadPoint} {calls : List (Task ι)}
    (h : Calls config c s' point calls) : ∀ t ∈ calls, t.reader? = none := by
  intro t ht
  cases h with
  | nothing => cases ht
  | _ =>
      rw [List.mem_singleton.1 ht]
      rfl

theorem Calls.reader_eq_zero {c : Control} {s' : ι} {point : ReadPoint} {calls : List (Task ι)}
    (h : Calls config c s' point calls) : ∀ t ∈ calls, reader s t = 0 := by
  intro t ht
  rw [reader, h.reader?_eq_none t ht]
  exact if_neg (Option.some_ne_none s).symm

theorem readers_eq_zero {l : List (Task ι)} (h : ∀ t ∈ l, reader s t = 0) :
    (l.map (reader s)).sum = 0 :=
  List.sum_eq_zero (List.forall_mem_map.2 h)

/-- A thread that goes on with its read goes on with one read. -/
theorem readers_proceed {calls : List (Task ι)} (hcalls : ∀ t ∈ calls, reader s t = 0)
    (s' : ι) (point point' : ReadPoint) :
    ((calls ++ [Task.reader s' point']).map (reader s)).sum = reader s (.reader s' point) := by
  rw [List.map_append, List.sum_append, readers_eq_zero hcalls]
  simp [reader, Task.reader?]

theorem readers_move (s' : ι) (point point' : ReadPoint) :
    ([Task.reader s' point'].map (reader s)).sum = reader s (.reader s' point) :=
  readers_proceed (fun _ ht => absurd ht List.not_mem_nil) s' point point'

theorem Proceeds.readers {c : Control} {s' : ι} {point : ReadPoint}
    (h : Proceeds config c s' point new) :
    (new.map (reader s)).sum ≤ reader s (.reader s' point) := by
  rcases h with rfl | ⟨calls, point', rfl, hcalls, -⟩
  · exact Nat.zero_le _
  · exact (readers_proceed hcalls.reader_eq_zero s' point point').le

/-- **A step starts a read only where another one ends**, or where it accepts the session. -/
theorem Step.readers (hstep : Step config sv task sv' new) (s : ι) :
    (new.map (reader s)).sum + (sv.control s).reads ≤
      reader s task + (sv'.control s).reads := by
  by_cases hs : task.session? = some s
  · -- the reads of the session of the task itself
    cases hstep with
    | arrives harrival => cases hs
    | @acts action out next houtside hkeep hact =>
        have hzero : ((next.map Task.out).map (reader s)).sum = 0 := by
          refine readers_eq_zero fun t ht => ?_
          obtain ⟨q, -, rfl⟩ := List.mem_map.1 ht
          rfl
        rw [hzero]
        exact Nat.add_le_add_right (Nat.zero_le _) _
    | disconnects hstarted => exact Nat.add_le_add_right (Nat.zero_le _) _
    | @accepts s' hnot =>
        obtain rfl := Option.some.inj hs
        have hself : reader s' (.accept s') = 0 := rfl
        simp [Control.reads, hnot, hself]
    | notPosted s' => exact Nat.add_le_add_right (Nat.zero_le _) _
    | overflows s' bytes =>
        have hcalls : ∀ t ∈ [disconnect s'], reader s t = 0 := by
          intro t ht
          rw [List.mem_singleton.1 ht]
          rfl
        exact Nat.add_le_add_right (readers_proceed hcalls s' _ .repost).le _
    | @greets s' result out next hact =>
        obtain rfl := Option.some.inj hs
        have hcalls : ∀ t ∈ next.map Task.out, reader s' t = 0 := by
          intro t ht
          obtain ⟨q, -, rfl⟩ := List.mem_map.1 ht
          rfl
        rw [readers_proceed hcalls s' (.greet result)]
        simp [Control.reads]
    | updates s' bytes rest =>
        obtain rfl := Option.some.inj hs
        have hcalls : ∀ t ∈ (if (updateInboundAccounting config sv s' bytes).2 = true then
            [disconnect s'] else [] : List (Task ι)), reader s' t = 0 := by
          intro t ht
          split at ht
          · rw [List.mem_singleton.1 ht]
            rfl
          · cases ht
        obtain ⟨total, htotal⟩ := updateInboundAccounting_eq config sv s' bytes
        rw [readers_proceed hcalls s' (.updateInbound bytes rest), htotal]
        simp [Control.reads]
    | @handles x s' point c new hlocal =>
        obtain rfl := Option.some.inj hs
        obtain ⟨hkept, hproceeds⟩ := localStep_spec hlocal
        have hreads : c.reads = (sv.control s').reads := by
          rw [Control.reads, Control.reads, hkept.accepted]
        rw [modify_self, hreads]
        exact Nat.add_le_add_right hproceeds.readers _
    | removes s' =>
        obtain rfl := Option.some.inj hs
        simp [Control.reads, reader, Task.reader?]
    | releases s' =>
        obtain rfl := Option.some.inj hs
        obtain ⟨total, htotal⟩ := updateInboundAccounting_eq config sv s' 0
        rw [htotal]
        simp [Control.reads, reader, Task.reader?]
    | calls hsession hcall =>
        obtain rfl := Option.some.inj (hs.symm.trans hsession)
        rw [readers_eq_zero fun t ht => (callStep_spec hcall t ht).reader_eq_zero, modify_self]
        exact Nat.add_le_add_right (Nat.zero_le _) _
    | posts | reads =>
        exact Nat.add_le_add_right (readers_move _ _ _).le _
    | buffers | stores | opens | leaves =>
        obtain rfl := Option.some.inj hs
        rw [modify_self]
        exact Nat.add_le_add_right (readers_move _ _ _).le _
  · obtain ⟨hcontrol, -, hnew⟩ := hstep.frame hs
    have hzero : (new.map (reader s)).sum = 0 := by
      refine readers_eq_zero fun t ht => ?_
      by_cases hsession : t.session? = some s
      · exact reader_of_arrives (hnew t ht hsession)
      · exact reader_of_session hsession
    rw [hzero, hcontrol]
    exact Nat.add_le_add_right (Nat.zero_le _) _

/-- **A step leaves at most one reading thread behind**: the one that takes it, or a new one. -/
theorem Step.goesOn (hstep : Step config sv task sv' new) :
    (∀ t ∈ new, t.reader? = none) ∨
      ∃ s calls point, new = calls ++ [.reader s point] ∧ (∀ t ∈ calls, t.reader? = none) ∧
        ((∃ before, task = .reader s before) ∨ point = .postRead) := by
  have hmove : ∀ (s : ι) (before point : ReadPoint), task = .reader s before →
      new = [.reader s point] → ∃ s calls point, new = calls ++ [.reader s point] ∧
        (∀ t ∈ calls, t.reader? = none) ∧ ((∃ before, task = .reader s before) ∨ point = .postRead) :=
    fun s before point htask hnew =>
      ⟨s, [], point, hnew, fun t ht => absurd ht List.not_mem_nil, Or.inl ⟨before, htask⟩⟩
  cases hstep with
  | arrives harrival =>
      refine Or.inl fun t ht => ?_
      rcases List.mem_pair.1 ht with rfl | rfl
      · rfl
      · have harrives := arrival_arrives harrival
        cases t with
        | reader s point => cases harrives
        | _ => rfl
  | acts houtside hkeep hact =>
      refine Or.inl fun t ht => ?_
      obtain ⟨q, -, rfl⟩ := List.mem_map.1 ht
      rfl
  | disconnects hstarted =>
      refine Or.inl fun t ht => ?_
      simp only [List.mem_cons, List.not_mem_nil, or_false] at ht
      rcases ht with rfl | rfl | rfl | rfl <;> rfl
  | @accepts s hnot =>
      exact Or.inr ⟨s, [], .postRead, rfl, fun t ht => absurd ht List.not_mem_nil, Or.inr rfl⟩
  | notPosted s =>
      refine Or.inl fun t ht => ?_
      rw [List.mem_singleton.1 ht]
      rfl
  | overflows s bytes =>
      refine Or.inr ⟨s, [disconnect s], .repost, rfl, fun t ht => ?_, Or.inl ⟨_, rfl⟩⟩
      rw [List.mem_singleton.1 ht]
      rfl
  | @greets s result out next hact =>
      refine Or.inr ⟨s, next.map .out, _, rfl, fun t ht => ?_, Or.inl ⟨_, rfl⟩⟩
      obtain ⟨q, -, rfl⟩ := List.mem_map.1 ht
      rfl
  | updates s bytes rest =>
      refine Or.inr ⟨s, _, rest, rfl, fun t ht => ?_, Or.inl ⟨_, rfl⟩⟩
      split at ht
      · rw [List.mem_singleton.1 ht]
        rfl
      · cases ht
  | @handles x s point c new hlocal =>
      rcases (localStep_spec hlocal).2 with rfl | ⟨calls, point', rfl, hcalls, -⟩
      · refine Or.inl fun t ht => ?_
        rw [List.mem_singleton.1 ht]
        rfl
      · exact Or.inr ⟨s, calls, point', rfl, hcalls.reader?_eq_none, Or.inl ⟨point, rfl⟩⟩
  | removes s => exact Or.inl fun t ht => absurd ht List.not_mem_nil
  | releases s => exact Or.inl fun t ht => absurd ht List.not_mem_nil
  | calls hsession hcall =>
      refine Or.inl fun t ht => ?_
      cases callStep_spec hcall t ht <;> rfl
  | posts | reads | buffers | stores | opens | leaves => exact Or.inr (hmove _ _ _ rfl rfl)

/-- A step of a thread keeps the session at one read. -/
theorem Step.oneReader {R : Multiset (Task ι)} (hstep : Step config sv task sv' new)
    (h : weight (reader s) (task ::ₘ R) ≤ (sv.control s).reads) :
    weight (reader s) (new + R) ≤ (sv'.control s).reads := by
  have hreaders := hstep.readers s
  rw [weight_cons] at h
  rw [weight_add, weight_coe]
  omega

/-- While a reading thread takes a step, no other one handles a read of its session. -/
theorem alone_of_oneReader {point : ReadPoint} {R : Multiset (Task ι)} {c : Control}
    (h : weight (reader s) (.reader s point ::ₘ R) ≤ c.reads) :
    c.accepted = true ∧ ∀ point', .reader s point' ∉ R := by
  rw [weight_cons, reader_self] at h
  have haccepted : c.accepted = true := by
    by_contra hnot
    rw [Control.reads, if_neg hnot] at h
    omega
  refine ⟨haccepted, fun point' hmem => ?_⟩
  have hle : reader s (.reader s point') ≤ weight (reader s) R := le_weight hmem
  rw [reader_self] at hle
  rw [Control.reads, if_pos haccepted] at h
  omega

end Steps

end ServerSteps

end RealtimeEngine
