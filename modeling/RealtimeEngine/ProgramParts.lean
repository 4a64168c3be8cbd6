/-
**A program inside another one.**

A program of interleaving threads can have another one inside it: some of its actions are those of
the inner program, on a part of the shared state, and the others are not.  It is enough to say, one
action of the outer program at a time, that it takes the inner action that comes first on its stack,
or leaves the inner part of the state alone and starts inner threads that may come from outside at
any time.  Then the inner part of every run is a run of the inner program.

The threads do not correspond one to one: an outer thread that makes calls one behind the other is
several inner threads, one for each call, of which the scheduler of the inner program happens to run
one after the other.  So the inner threads are those of the pool, cut into pieces.

Main definitions:

* `Interleaving.View` — what of a state and of an action is inner;
* `Interleaving.View.Follows` — what an action may do to the inner program;
* `Interleaving.View.Matches` — the pool of the inner program beside that of the outer one.

Main results:

* `Interleaving.Program.exists_move` — every thread can be moved, wherever it stands in the pool;
* `Interleaving.View.Matches.step` — one move of the outer program;
* `Interleaving.View.Matches.run` — **the inner part of a run is a run**, and its actions meet
  whatever the inner actions of the outer run meet.
-/

import Mathlib.Data.Multiset.Bind
import RealtimeEngine.Interleaving

set_option relaxedAutoImplicit false
set_option autoImplicit false

namespace Interleaving

variable {σ π χ τ ρ ψ : Type*}

/-! ### Moves, without the order of the threads -/

namespace Program

variable {P : Program σ π χ}

/-- What a move does to the stacks of the pool. -/
theorem move_threads {c c' : Config σ π} {i : ℕ} {x : χ} (h : P.move c i x = some c') :
    ∃ p rest o, ∃ T : Multiset (List π), c.threads[i]? = some (p :: rest) ∧
      P.exec x p c.shared = some o ∧ (c.threads : Multiset (List π)) = (p :: rest) ::ₘ T ∧
      c'.shared = o.shared ∧
      (c'.threads : Multiset (List π)) = (o.next ++ rest) ::ₘ (T + (o.forked : Multiset (List π))) := by
  unfold move at h
  split at h
  · next p rest hget =>
      obtain ⟨o, ho, rfl⟩ := Option.map_eq_some_iff.1 h
      obtain ⟨hi, heq⟩ := List.getElem?_eq_some_iff.1 hget
      refine ⟨p, rest, o, (c.threads.eraseIdx i : Multiset (List π)), hget, ho, ?_, rfl, ?_⟩
      · rw [← heq]
        exact Multiset.coe_eq_coe.2 (List.getElem_cons_eraseIdx_perm hi).symm
      · rw [← Multiset.coe_add, ← Multiset.cons_add]
        refine congrArg (· + (o.forked : Multiset (List π))) ?_
        exact Multiset.coe_eq_coe.2 (List.set_perm_cons_eraseIdx hi _)
  · cases h

/-- A thread can be moved wherever it stands in the pool. -/
theorem exists_move {c : Config σ π} {p : π} {rest : List π} {T : Multiset (List π)} {x : χ}
    {o : Outcome σ π} (hthread : (c.threads : Multiset (List π)) = (p :: rest) ::ₘ T)
    (hexec : P.exec x p c.shared = some o) :
    ∃ i c', c.threads[i]? = some (p :: rest) ∧ P.move c i x = some c' ∧ c'.shared = o.shared ∧
      (c'.threads : Multiset (List π)) = (o.next ++ rest) ::ₘ (T + (o.forked : Multiset (List π))) := by
  have hmem : p :: rest ∈ c.threads := by
    rw [← Multiset.mem_coe, hthread]
    exact Multiset.mem_cons_self _ _
  obtain ⟨i, hget⟩ := List.getElem?_of_mem hmem
  have hmove : P.move c i x =
      some ⟨o.shared, c.threads.set i (o.next ++ rest) ++ o.forked⟩ := by
    unfold move
    rw [hget]
    dsimp only
    rw [hexec]
    rfl
  obtain ⟨p', rest', o', T', hget', hexec', hthreads, hshared, hthreads'⟩ := move_threads hmove
  obtain ⟨rfl, rfl⟩ := List.cons.inj (Option.some.inj (hget.symm.trans hget'))
  obtain rfl := Option.some.inj (hexec.symm.trans hexec')
  obtain rfl := (Multiset.cons_inj_right _).1 (hthread.symm.trans hthreads)
  exact ⟨i, _, hget, hmove, hshared, hthreads'⟩

/-- Two runs, one behind the other, meet the condition if each of them does. -/
theorem allMeet_of_append {ok : χ → π → σ → Multiset π → Prop} {moves moves' : List (ℕ × χ)}
    {c c' : Config σ π} (hrun : P.run moves c = some c') (h : P.AllMeet ok moves c)
    (h' : P.AllMeet ok moves' c') : P.AllMeet ok (moves ++ moves') c := by
  induction moves generalizing c with
  | nil =>
      obtain rfl := Option.some.inj hrun
      exact h'
  | cons m moves ih =>
      obtain ⟨d, hmove, hrest⟩ := Option.bind_eq_some_iff.1 hrun
      refine ⟨h.1, fun d' hmove' => ?_⟩
      obtain rfl := Option.some.inj (hmove.symm.trans hmove')
      exact ih hrest (h.2 d hmove)

end Program

/-! ### Views -/

/-- How the inner program is seen in the outer one. -/
structure View (σ π τ ρ : Type*) where
  /-- The inner part of the shared state. -/
  state : σ → τ
  /-- The inner actions that an action stands for, in the order in which its thread runs them. -/
  actions : π → List ρ

namespace View

variable (v : View σ π τ ρ) (Q : Program τ ρ ψ) (source : ρ)

/-- The inner actions on a stack. -/
def stack (l : List π) : List ρ := l.flatMap v.actions

/-- The inner actions among the pending ones. -/
def pending (P : Multiset π) : Multiset ρ := P.bind fun p => (v.actions p : Multiset ρ)

/-- What an action of the outer program may do to the inner one. -/
inductive Follows (p : π) (s : σ) (o : Outcome σ π) : Prop
  /-- It takes the first of its inner actions. -/
  | acts {y : ψ} {q : ρ} {rest : List ρ} {o' : Outcome τ ρ} (hactions : v.actions p = q :: rest)
      (hexec : Q.exec y q (v.state s) = some o') (hstate : v.state o.shared = o'.shared)
      (hnext : v.stack o.next = o'.next ++ rest) (hforked : o.forked.map v.stack = o'.forked)
  /-- It starts inner threads, which may come from outside. -/
  | starts {new : List ρ} (hstate : v.state o.shared = v.state s)
      (hnew : ∀ a ∈ new, ∃ y, Q.exec y source (v.state s) = some ⟨v.state s, [source], [[a]]⟩)
      (hnext : v.stack o.next = new ++ v.actions p) (hforked : o.forked = [])

/-- The inner program is part of the outer one; its threads come from `source`. -/
structure Inside (P : Program σ π χ) : Prop where
  follows : ∀ x p s o, P.exec x p s = some o → v.Follows Q source p s o
  stays : ∀ y t o, Q.exec y source t = some o → o.next = [source]

/-- The inner threads are those of the pool, cut into pieces. -/
structure Matches (c : Config σ π) (d : Config τ ρ) : Prop where
  state : d.shared = v.state c.shared
  source : [source] ∈ d.threads
  pieces : ∃ M : Multiset (List (List ρ)),
    Multiset.Rel (fun stack pieces => pieces.flatten = v.stack stack) c.threads M ∧
      (M.bind fun pieces => (pieces : Multiset (List ρ))) = d.threads

end View

namespace View

variable {v : View σ π τ ρ} {P : Program σ π χ} {Q : Program τ ρ ψ} {source : ρ}
  {c c' : Config σ π} {d : Config τ ρ}

theorem stack_append (l l' : List π) : v.stack (l ++ l') = v.stack l ++ v.stack l' :=
  List.flatMap_append

theorem coe_flatten {α : Type*} (l : List (List α)) : ((l.flatten : List α) : Multiset α) =
    (l : Multiset (List α)).bind fun stack => (stack : Multiset α) := by
  rw [Multiset.coe_bind, List.flatMap_id']

/-- The inner actions that are pending are those of the inner pool. -/
theorem Matches.pending (h : v.Matches source c d) : d.pending = v.pending c.pending := by
  obtain ⟨M, hM, hthreads⟩ := h.pieces
  have hstacks : v.pending c.pending =
      (c.threads : Multiset (List π)).bind fun stack => (v.stack stack : Multiset ρ) := by
    rw [View.pending, Config.pending, coe_flatten, Multiset.bind_assoc]
    refine Multiset.bind_congr fun stack _ => ?_
    rw [Multiset.coe_bind]
    rfl
  rw [hstacks, Config.pending, coe_flatten, ← hthreads, Multiset.bind_assoc]
  clear hthreads hstacks h
  generalize (c.threads : Multiset (List π)) = T at hM
  induction hM with
  | zero => rfl
  | @cons stack pieces T M hcut hM ih =>
      rw [Multiset.cons_bind, Multiset.cons_bind, ih, ← hcut, coe_flatten]

/-! ### Moves -/

/-- The first action of a pool of stacks is the first one of the first of them that is not empty. -/
theorem exists_piece {pieces : List (List ρ)} {q : ρ} {l : List ρ} (h : pieces.flatten = q :: l) :
    ∃ before rest after, pieces = before ++ (q :: rest) :: after ∧ before.flatten = [] ∧
      rest ++ after.flatten = l := by
  induction pieces with
  | nil => cases h
  | cons piece pieces ih =>
      cases piece with
      | nil =>
          obtain ⟨before, rest, after, rfl, hbefore, hrest⟩ := ih h
          exact ⟨[] :: before, rest, after, rfl, hbefore, hrest⟩
      | cons q' rest =>
          obtain ⟨rfl, hl⟩ := List.cons.inj h
          exact ⟨[], rest, pieces, rfl, rfl, hl⟩

/-- Threads are started from outside, one after the other. -/
theorem exists_starts {new : List ρ} {t : τ}
    (hnew : ∀ a ∈ new, ∃ y, Q.exec y source t = some ⟨t, [source], [[a]]⟩) {d : Config τ ρ}
    (hstate : d.shared = t) (hmem : [source] ∈ d.threads) :
    ∃ moves d', Q.run moves d = some d' ∧ d'.shared = t ∧ [source] ∈ d'.threads ∧
      (d'.threads : Multiset (List ρ)) = (new.map fun a => [a] : List (List ρ)) + d.threads ∧
      ∀ ok : ρ → τ → Prop, (∀ t, ok source t) → Q.AllMeet (fun _ q t _ => ok q t) moves d := by
  induction new generalizing d with
  | nil => exact ⟨[], d, rfl, hstate, hmem, by simp, fun _ _ => trivial⟩
  | cons a new ih =>
      obtain ⟨y, hexec⟩ := hnew a List.mem_cons_self
      obtain ⟨T, hT⟩ := Multiset.exists_cons_of_mem (Multiset.mem_coe.2 hmem)
      obtain ⟨i, d₁, hget, hmove, hshared, hthreads⟩ :=
        Program.exists_move hT (hstate.symm ▸ hexec)
      have hmem' : [source] ∈ d₁.threads := by
        rw [← Multiset.mem_coe, hthreads]
        exact Multiset.mem_cons_self _ _
      obtain ⟨moves, d', hrun, hshared', hmem'', hthreads', hmeets⟩ :=
        ih (fun b hb => hnew b (List.mem_cons_of_mem _ hb)) (d := d₁) (hshared.trans hstate) hmem'
      refine ⟨(i, y) :: moves, d', ?_, hshared', hmem'', ?_, fun ok hsource =>
        Program.allMeet_cons hget hmove (fun _ _ => hsource _) (hmeets ok hsource)⟩
      · rw [Program.run, hmove]
        exact hrun
      · have hone : T + (([[a]] : List (List ρ)) : Multiset (List ρ)) = [a] ::ₘ T := by
          rw [Multiset.coe_singleton, add_comm, Multiset.singleton_add]
        rw [hthreads', hthreads, hT, hone, List.map_cons, ← Multiset.cons_coe, Multiset.cons_add,
          List.append_nil, Multiset.cons_swap, Multiset.add_cons]

/-- What the inner actions of the outer run meet, those of the inner run meet. -/
def Carries (v : View σ π τ ρ) (P : Program σ π χ) (Q : Program τ ρ ψ) (source : ρ)
    (moves : List (ℕ × χ)) (c : Config σ π) (moves' : List (ℕ × ψ)) (d : Config τ ρ) : Prop :=
  ∀ ok : ρ → τ → Prop, (∀ t, ok source t) →
    P.AllMeet (fun _ p s _ => ∀ q ∈ (v.actions p).head?, ok q (v.state s)) moves c →
      Q.AllMeet (fun _ q t _ => ok q t) moves' d

/-- **One move of the outer program.** -/
theorem Matches.step (hinside : v.Inside Q source P) {i : ℕ} {x : χ} (h : v.Matches source c d)
    (hmove : P.move c i x = some c') :
    ∃ moves d', Q.run moves d = some d' ∧ v.Matches source c' d' ∧
      v.Carries P Q source [(i, x)] c moves d := by
  obtain ⟨p, rest, o, T, hget, hexec, hthreads, hshared, hthreads'⟩ := Program.move_threads hmove
  obtain ⟨M, hM, hpieces⟩ := h.pieces
  rw [hthreads] at hM
  obtain ⟨pieces, N, hcut, hN, rfl⟩ := Multiset.rel_cons_left.1 hM
  rw [Multiset.cons_bind] at hpieces
  cases hinside.follows x p _ o hexec with
  | @acts y q more o' hactions hinner hstate hnext hforked =>
      have hflat : pieces.flatten = q :: (more ++ v.stack rest) := by
        rw [hcut, stack, List.flatMap_cons, hactions]
        rfl
      obtain ⟨before, piece, after, rfl, hbefore, hafter⟩ := exists_piece hflat
      have hthread : (d.threads : Multiset (List ρ)) = (q :: piece) ::ₘ
          ((before ++ after : List (List ρ)) +
            N.bind fun pieces => (pieces : Multiset (List ρ))) := by
        rw [← hpieces, Multiset.coe_eq_coe.2 List.perm_middle, ← Multiset.cons_coe,
          Multiset.cons_add]
      obtain ⟨j, d', hget', hmove', hshared', hthreads''⟩ :=
        Program.exists_move hthread (h.state.symm ▸ hinner)
      obtain ⟨p₀, R, o₀, ⟨rest₀, hget₀⟩, -, hR, -⟩ := Program.move_pending hmove
      obtain ⟨rfl, -⟩ := List.cons.inj (Option.some.inj (hget.symm.trans hget₀))
      refine ⟨[(j, y)], d', ?_, ⟨?_, ?_, ?_⟩, fun ok hsource hok =>
        Program.allMeet_cons hget' hmove' (fun _ _ => ?_) trivial⟩
      · rw [Program.run, hmove']
        rfl
      · rw [hshared', hshared, hstate]
      · -- the thread at the source stays there
        have hmem := Multiset.mem_coe.2 h.source
        rw [hthread] at hmem
        rw [← Multiset.mem_coe, hthreads'']
        rcases Multiset.mem_cons.1 hmem with hmoved | hstays
        · obtain ⟨rfl, rfl⟩ := List.cons.inj hmoved
          rw [hinside.stays y _ o' hinner]
          exact Multiset.mem_cons_self _ _
        · exact Multiset.mem_cons_of_mem (Multiset.mem_add.2 (Or.inl hstays))
      · refine ⟨(before ++ (o'.next ++ piece) :: after) ::ₘ
          (N + (o.forked.map fun stack => [v.stack stack] : List (List (List ρ)))), ?_, ?_⟩
        · rw [hthreads']
          refine .cons ?_ (hN.add ?_)
          · rw [stack_append, hnext, List.flatten_append, List.flatten_cons, hbefore,
              List.nil_append, List.append_assoc, List.append_assoc, hafter]
          · rw [← Multiset.map_coe]
            exact Multiset.rel_map_right.2 (Multiset.rel_refl_of_refl_on fun stack _ =>
              List.append_nil _)
        · have hnew : ((o.forked.map fun stack => [v.stack stack]).flatMap fun pieces => pieces) =
              o'.forked := by
            rw [List.flatMap_map, ← hforked]
            exact List.flatMap_pure_eq_map _ _
          rw [hthreads'', Multiset.cons_bind, Multiset.add_bind, Multiset.coe_bind, hnew,
            Multiset.coe_eq_coe.2 List.perm_middle, ← Multiset.cons_coe, Multiset.cons_add,
            add_assoc]
      · rw [h.state]
        exact hok.1 p R ⟨rest, hget⟩ hR q (by rw [hactions]; rfl)
  | @starts new hstate hnew hnext hforked =>
      obtain ⟨starts, d', hrun, hshared', hsource', hthreads'', hmeets⟩ :=
        exists_starts hnew h.state h.source
      refine ⟨starts, d', hrun, ⟨?_, hsource', ?_⟩, fun ok hsource _ => hmeets ok hsource⟩
      · rw [hshared', hshared, hstate]
      · refine ⟨(new.map (fun a => [a]) ++ pieces) ::ₘ N, ?_, ?_⟩
        · rw [hthreads', hforked, Multiset.coe_nil, add_zero]
          refine .cons ?_ hN
          have hstarted : (new.map fun a => [a]).flatten = new := by
            rw [← List.flatMap_def, List.flatMap_singleton']
          rw [stack_append, hnext, List.flatten_append, hstarted, hcut, List.append_assoc]
          rfl
        · rw [Multiset.cons_bind, hthreads'', ← hpieces, ← Multiset.coe_add, add_assoc]

/-- **The inner part of a run is a run** of the inner program. -/
theorem Matches.run (hinside : v.Inside Q source P) {moves : List (ℕ × χ)}
    (h : v.Matches source c d) (hrun : P.run moves c = some c') :
    ∃ moves' d', Q.run moves' d = some d' ∧ v.Matches source c' d' ∧
      v.Carries P Q source moves c moves' d := by
  induction moves generalizing c d with
  | nil =>
      obtain rfl := Option.some.inj hrun
      exact ⟨[], d, rfl, h, fun _ _ _ => trivial⟩
  | cons m moves ih =>
      obtain ⟨c₁, hmove, hrest⟩ := Option.bind_eq_some_iff.1 hrun
      obtain ⟨before, d₁, hbefore, h₁, hcarries⟩ := h.step hinside hmove
      obtain ⟨after, d', hafter, h', hcarries'⟩ := ih h₁ hrest
      refine ⟨before ++ after, d', ?_, h', fun ok hsource hok => ?_⟩
      · rw [Program.run_append, hbefore]
        exact hafter
      · obtain ⟨hfirst, hothers⟩ := Program.allMeet_append
          (show P.AllMeet _ ([m] ++ moves) c from hok) (by rw [Program.run, hmove]; rfl)
        exact Program.allMeet_of_append hbefore (hcarries ok hsource hfirst)
          (hcarries' ok hsource hothers)

end View

end Interleaving
