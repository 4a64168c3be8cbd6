/-
**Where the messages of a session come from, in the whole engine.**

The chain of `RealtimeEngine/RouterOrigins.lean` is about the critical sections of the router.  In
the engine these run inside the thread that handles a read, between the steps of the server that
decode the message and those that queue its copies, with all other threads in between.  Here the
chain is followed from one end to the other: the message of an `Authenticate`, of a `JoinRoom` and
of a `Publish` was decoded from the bytes of the session itself, and an item that publishes a
message stands in the queue of a session only behind the whole chain of its publisher and of that
session.

Main definitions:

* `RealtimeEngine.EngineSteps.deeds` — the steps of the router in a run of the engine;
* `RealtimeEngine.EngineSteps.Founded` — the invariant.

Main results:

* `RealtimeEngine.EngineSteps.Founded.act`, `RealtimeEngine.EngineSteps.Founded.advance` — what a
  step of the router and a step of the server keep;
* `RealtimeEngine.EngineSteps.broadcasts_founded` — **the run theorem**.
-/

import RealtimeEngine.PublishOrder
import RealtimeEngine.RouterOrigins

set_option relaxedAutoImplicit false
set_option autoImplicit false

namespace RealtimeEngine

namespace EngineSteps

open Interleaving RouterSteps

/-! ### The steps of the router in a run -/

/-- The step of the router that the action takes. -/
def deed? : Event Engine Task Choice → Option Deed
  | ⟨.services svc, .router a, e⟩ => some ⟨svc, a, e.router.router⟩
  | ⟨.services svc, .handling _ _ _ _ _ (.act a :: _), e⟩ => some ⟨svc, a, e.router.router⟩
  | _ => none

/-- The steps of the router in a run, in order. -/
def deeds (codec : Codec) (build : Outgoing → Bytes) (config : ServerConfig)
    (moves : List (ℕ × Choice)) : List Deed :=
  ((program codec build config).history moves (start config)).filterMap deed?

/-- The action is part of `OnDisconnect`. -/
def cleansUp : RouterSteps.Action → Bool
  | .removeSession _ | .erasePrincipal _ | .onDisconnectReturns _ => true
  | _ => false

section Cases

variable {codec : Codec} {build : Outgoing → Bytes} {config : ServerConfig} {x : Choice}
  {task : Task} {e : Engine} {o : Outcome Engine Task}

/-- An action is a step of the router, or the router stays as it is. -/
theorem exec_cases (h : exec codec build config x task e = some o) :
    (∃ svc a, deed? ⟨x, task, e⟩ = some ⟨svc, a, e.router.router⟩ ∧ o.forked = [] ∧
      (task = .router a ∧ o.shared = (execAct codec build svc none e a).1 ∧
          o.next = (execAct codec build svc none e a).2.map Work.task ∨
        ∃ s n now message loop todo, task = .handling s n now message loop (.act a :: todo) ∧
          o.shared = (execAct codec build svc (some (s, n)) e a).1 ∧
          o.next = [.handling s n now message loop
            ((execAct codec build svc (some (s, n)) e a).2 ++ todo)])) ∨
      deed? ⟨x, task, e⟩ = none ∧ (∀ a, task ≠ .router a) ∧
        ∀ s n now message loop a todo, task ≠ .handling s n now message loop (.act a :: todo) := by
  cases task with
  | server t =>
      refine Or.inr ⟨?_, fun a ha => (by cases ha), fun _ _ _ _ _ _ _ h => by cases h⟩
      cases x <;> rfl
  | router a =>
      obtain ⟨r, hr, rfl⟩ := Option.map_eq_some_iff.1 h
      cases x with
      | services svc =>
          obtain rfl := Option.some.inj hr
          exact Or.inl ⟨svc, a, rfl, rfl, Or.inl ⟨rfl, rfl, rfl⟩⟩
      | _ => cases hr
  | handling s n now message loop todo =>
      cases todo with
      | nil =>
          refine Or.inr ⟨?_, fun a ha => (by cases ha), fun _ _ _ _ _ _ _ h => by cases h⟩
          cases x <;> rfl
      | cons w todo =>
          cases w with
          | call t origin =>
              refine Or.inr ⟨?_, fun a ha => (by cases ha), fun _ _ _ _ _ _ _ h => by cases h⟩
              cases x <;> rfl
          | act a =>
              obtain ⟨r, hr, rfl⟩ := Option.map_eq_some_iff.1 h
              cases x with
              | services svc =>
                  obtain rfl := Option.some.inj hr
                  exact Or.inl ⟨svc, a, rfl, rfl, Or.inr ⟨s, n, now, message, loop, todo, rfl, rfl,
                    rfl⟩⟩
              | _ => cases hr

end Cases

/-! ### The invariant -/

section Invariant

variable (codec : Codec) (past : List Deed)

/-- Work in the handler of a message of `s` that has its past. -/
def Work.Founded (s : SessionHandle) (message : Bytes) : Work → Prop
  | .act a => Justified codec past a ∧ a.inHandle s = true ∨ cleansUp a = true
  | .call t (some _) => ∃ q, t.session? = some q ∧ Published codec past s q message
  | .call _ none => True

/-- A task that has its past. -/
def Task.Founded : Task → Prop
  | .router a => cleansUp a = true
  | .handling s _ _ message _ todo => ∀ w ∈ todo, Work.Founded codec past s message w
  | .server _ => True

/-- **What is done and queued has its past.** -/
structure Founded (config : ServerConfig) (e : Engine) (P : Multiset Task) : Prop where
  publishing : Publishing config e P
  router : Accounted codec past e.router
  /-- `Handle` is called with messages that were decoded from the bytes of the session. -/
  received : ∀ s payload, Received past s payload → payload ∈ e.decoded s
  items : ∀ q s k, some (s, k) ∈ e.origins q →
    ∃ message, (e.decoded s)[k]? = some message ∧ Published codec past s q message
  tasks : ∀ t ∈ P, Task.Founded codec past t

end Invariant

section Works

variable {codec : Codec} {build : Outgoing → Bytes} {config : ServerConfig} {svc : Services}
  {past : List Deed} {e : Engine} {s : SessionHandle} {n : ℕ} {message : Bytes}

theorem Work.Founded.append {w : Work} (h : Work.Founded codec past s message w)
    (more : List Deed) : Work.Founded codec (past ++ more) s message w := by
  cases w with
  | act a => exact h.imp_left fun h => ⟨h.1.append more, h.2⟩
  | call t origin =>
      cases origin with
      | none => trivial
      | some id =>
          obtain ⟨q, hq, hpublished⟩ := h
          exact ⟨q, hq, hpublished.append more⟩

theorem Task.Founded.append {t : Task} (h : Task.Founded codec past t) (more : List Deed) :
    Task.Founded codec (past ++ more) t := by
  cases t with
  | handling s n now message loop todo => exact fun w hw => (h w hw).append more
  | server t => trivial
  | router a => exact h

/-- Nothing need have happened before an action of `OnDisconnect`. -/
theorem cleansUp_justified {a : RouterSteps.Action} (h : cleansUp a = true) :
    Justified codec past a := by
  cases a with
  | removeSession | erasePrincipal | onDisconnectReturns => trivial
  | _ => cases h

/-- An action of `OnDisconnect` goes on with `OnDisconnect`. -/
theorem cleansUp_exec (svc : Services) (sh : RouterSteps.Shared) {a : RouterSteps.Action}
    (h : cleansUp a = true) : ∀ b ∈ (execWith codec svc sh a).2, cleansUp b = true := by
  intro b hb
  cases a with
  | removeSession | erasePrincipal =>
      rw [List.mem_singleton.1 hb]
      rfl
  | onDisconnectReturns => cases hb
  | _ => cases h

/-- `OnDisconnect` sends nothing. -/
theorem execAct_cleansUp (build : Outgoing → Bytes) (svc : Services) (origin : Option MessageId)
    (e : Engine) {a : RouterSteps.Action} (h : cleansUp a = true) :
    ∀ w ∈ (execAct codec build svc origin e a).2, ∃ b, w = .act b ∧ cleansUp b = true := by
  intro w hw
  have hacts : (execAct codec build svc origin e a).2 =
      (execWith codec svc e.router a).2.map .act := by
    cases a with
    | send s recipient outgoing => cases h
    | _ => rfl
  rw [hacts] at hw
  obtain ⟨b, hb, rfl⟩ := List.mem_map.1 hw
  exact ⟨b, rfl, cleansUp_exec svc e.router h b hb⟩

/-- An action that is part of a handler goes on with work that has its past. -/
theorem execAct_founded (build : Outgoing → Bytes) (svc : Services)
    (hrouter : Accounted codec past e.router)
    {a : RouterSteps.Action} (hcarries : Work.Carries (s, n) message (.act a))
    (h : Work.Founded codec past s message (.act a)) :
    ∀ w ∈ (execAct codec build svc (some (s, n)) e a).2,
      Work.Founded codec (past ++ [⟨svc, a, e.router.router⟩]) s message w := by
  intro w hw
  rcases h with ⟨hjustified, hs⟩ | hcleans
  · have hnext := hjustified.exec hrouter svc hs
    cases a with
    | send s' recipient outgoing =>
        obtain rfl := List.mem_singleton.1 hw
        cases outgoing with
        | built => trivial
        | original payload =>
            obtain rfl : payload = message := hcarries
            obtain rfl : s' = s := beq_iff_eq.1 hs
            exact ⟨recipient, rfl, hjustified.append _⟩
    | _ =>
        obtain ⟨b, hb, rfl⟩ := List.mem_map.1 hw
        exact Or.inl (hnext b hb)
  · obtain ⟨b, rfl, hb⟩ := execAct_cleansUp build svc (some (s, n)) e hcleans w hw
    exact Or.inr hb

/-- `Disconnect` ends in `OnDisconnect`. -/
theorem onDisconnect_cleansUp (t : ServerSteps.Task SessionHandle) :
    ∀ w ∈ onDisconnect t, ∃ a, w = .act a ∧ cleansUp a = true := by
  intro w hw
  cases t with
  | releaseInbound s => exact ⟨_, List.mem_singleton.1 hw, rfl⟩
  | _ => cases hw

/-- A call of the server in a handler goes on with work that has its past. -/
theorem call_founded {t : ServerSteps.Task SessionHandle}
    {server : ServerSteps.Server SessionHandle}
    {next forked : List (ServerSteps.Task SessionHandle)} {origin : Option MessageId}
    (hcarries : Work.Carries (s, n) message (.call t origin))
    (hstep : ServerSteps.Step config e.server t server (next ++ forked))
    (h : Work.Founded codec past s message (.call t origin)) :
    ∀ w ∈ next.map (fun t' => Work.call t' (passedOn origin t)) ++ onDisconnect t,
      Work.Founded codec past s message w := by
  intro w hw
  rcases List.mem_append.1 hw with hnext | hact
  · obtain ⟨t', ht', rfl⟩ := List.mem_map.1 hnext
    rcases hcarries with rfl | ⟨rfl, hsending⟩
    · have hnone : passedOn none t = none := by
        cases t <;> rfl
      rw [hnone]
      trivial
    · by_cases hout : ∃ action, t = .out action
      · obtain ⟨action, rfl⟩ := hout
        trivial
      · -- the stages of `Send` are for the same recipient
        have hnot : ∀ action, t ≠ .out action := fun action heq => hout ⟨action, heq⟩
        have hpassed : passedOn (some (s, n)) t = some (s, n) := by
          cases t with
          | out action => exact absurd rfl (hnot action)
          | _ => rfl
        obtain ⟨q, hq, hpublished⟩ := h
        rw [hpassed]
        refine ⟨q, ?_, hpublished⟩
        rw [← hq]
        exact ((sending_step hstep hsending hnot).2 t' (List.mem_append_left _ ht')).2
  · obtain ⟨a, rfl, ha⟩ := onDisconnect_cleansUp t w hact
    exact Or.inr ha

end Works

/-! ### One step -/

section Steps

variable {codec : Codec} {build : Outgoing → Bytes} {config : ServerConfig} {past : List Deed}
  {e e' : Engine} {task : Task} {new : List Task} {R : Multiset Task}

/-- The tasks beside a step, with those it leaves behind. -/
theorem founded_tasks {past' : List Deed} (hrest : ∀ t ∈ task ::ₘ R, Task.Founded codec past t)
    (hkept : ∀ t, Task.Founded codec past t → Task.Founded codec past' t)
    (hnew : ∀ t ∈ new, Task.Founded codec past' t) :
    ∀ t ∈ (new : Multiset Task) + R, Task.Founded codec past' t := by
  intro t ht
  rcases Multiset.mem_add.1 ht with ht | ht
  · exact hnew t ht
  · exact hkept t (hrest t (Multiset.mem_cons_of_mem ht))

/-- **A step of the router**, in a handler or in `OnDisconnect`. -/
theorem Founded.act {svc : Services} {a : RouterSteps.Action} {origin : Option MessageId}
    (h : Founded codec past config e (task ::ₘ R))
    (hpublishing : Publishing config (execAct codec build svc origin e a).1 (new + R))
    (hjustified : Justified codec past a)
    (hreceived : ∀ s payload, a = .handle s payload → payload ∈ e.decoded s)
    (hnew : ∀ t ∈ new, Task.Founded codec (past ++ [⟨svc, a, e.router.router⟩]) t) :
    Founded codec (past ++ [⟨svc, a, e.router.router⟩]) config
      (execAct codec build svc origin e a).1 (new + R) where
  publishing := hpublishing
  router := h.router.exec hjustified svc
  received s payload hs := by
    obtain ⟨d, hd, haction⟩ := hs
    rcases List.mem_append.1 hd with hold | hlast
    · exact h.received s payload ⟨d, hold, haction⟩
    · obtain rfl := List.mem_singleton.1 hlast
      exact hreceived s payload haction
  items q s k hmem := by
    obtain ⟨message, hmessage, hpublished⟩ := h.items q s k hmem
    exact ⟨message, hmessage, hpublished.append _⟩
  tasks := founded_tasks h.tasks (fun t ht => ht.append _) hnew

/-- **A step of the server**, for a message that has its past if it publishes one. -/
theorem Founded.advance {t : ServerSteps.Task SessionHandle}
    {server : ServerSteps.Server SessionHandle} {l : List (ServerSteps.Task SessionHandle)}
    {origin : Option MessageId} (h : Founded codec past config e (task ::ₘ R))
    (hstep : ServerSteps.Step config e.server t server l)
    (hpublishing : Publishing config (e.advance t server l origin) (new + R))
    (horigin : ∀ q item s k, t = .out (.enqueue q item) → origin = some (s, k) →
      ∃ message, (e.decoded s)[k]? = some message ∧ Published codec past s q message)
    (hgreets : ∀ q result, t = .reader q (.greet result) → origin = none)
    (hnew : ∀ t ∈ new, Task.Founded codec past t) :
    Founded codec past config (e.advance t server l origin) (new + R) where
  publishing := hpublishing
  router := h.router
  received s payload hs := by
    have hkept := advance_prefix hstep origin s
    exact hkept.subset (h.received s payload hs)
  items q s k hmem := by
    have hkept : ∀ {message : Bytes}, (e.decoded s)[k]? = some message →
        ((e.advance t server l origin).decoded s)[k]? = some message := by
      intro message hmessage
      obtain ⟨more, hmore⟩ := advance_prefix hstep origin s
      obtain ⟨hk, -⟩ := List.getElem?_eq_some_iff.1 hmessage
      rw [← hmore, List.getElem?_append_left hk]
      exact hmessage
    have hold : some (s, k) ∈ e.origins q → ∃ message,
        ((e.advance t server l origin).decoded s)[k]? = some message ∧
          Published codec past s q message := by
      intro hmem
      obtain ⟨message, hmessage, hpublished⟩ := h.items q s k hmem
      exact ⟨message, hkept hmessage, hpublished⟩
    rcases advance_cases hstep origin q with ⟨-, horigins⟩ | ⟨item, htask, -, horigins⟩
    · rw [horigins] at hmem
      exact hold hmem
    · rw [horigins] at hmem
      rcases List.mem_append.1 hmem with hmem | hlast
      · exact hold hmem
      · have heq : origin = some (s, k) := (List.mem_singleton.1 hlast).symm
        rcases htask with htask | ⟨result, htask⟩
        · obtain ⟨message, hmessage, hpublished⟩ := horigin q item s k htask heq
          exact ⟨message, hkept hmessage, hpublished⟩
        · rw [hgreets q result htask] at heq
          cases heq
  tasks := founded_tasks h.tasks (fun t ht => ht) hnew

/-- A step that is not one of the router. -/
theorem Founded.serve (h : Founded codec past config e (task ::ₘ R))
    (hstep : Step codec build config e task e' new) (hrouter : ∀ a, task ≠ .router a)
    (hhandler : ∀ s n now message loop a todo,
      task ≠ .handling s n now message loop (.act a :: todo)) :
    Founded codec past config e' (new + R) := by
  have hpublishing := h.publishing.step hstep
  have hself := h.tasks task (Multiset.mem_cons_self task R)
  have hplaced := h.publishing.placed task (Multiset.mem_cons_self task R)
  have hnone : ∀ {s : SessionHandle} {k : ℕ}, (none : Option MessageId) ≠ some (s, k) :=
    fun heq => by cases heq
  cases hstep with
  | @serves t server next forked hserver =>
      refine h.advance hserver hpublishing (fun q item s k _ heq => absurd heq hnone)
        (fun _ _ _ => rfl) fun t' ht' => ?_
      rcases List.mem_append.1 ht' with ht' | hforked
      · rcases List.mem_append.1 ht' with hnext | hact
        · obtain ⟨t'', -, rfl⟩ := List.mem_map.1 hnext
          trivial
        · obtain ⟨w, hw, rfl⟩ := List.mem_map.1 hact
          obtain ⟨a, rfl, ha⟩ := onDisconnect_cleansUp t w hw
          exact ha
      · obtain ⟨t'', -, rfl⟩ := List.mem_map.1 hforked
        trivial
  | routes a svc => exact absurd rfl (hrouter a)
  | handles s now message loop =>
      refine ⟨hpublishing, h.router, h.received, h.items,
        founded_tasks h.tasks (fun t ht => ht) fun t' ht' => ?_⟩
      obtain rfl := List.mem_singleton.1 ht'
      intro w hw
      rw [List.mem_singleton.1 hw]
      exact Or.inl ⟨trivial, beq_self_eq_true s⟩
  | concludes n now hserver =>
      refine h.advance hserver hpublishing (fun q item s k _ heq => absurd heq hnone)
        (fun _ _ _ => rfl) fun t' ht' => ?_
      obtain ⟨t'', -, rfl⟩ := List.mem_map.1 ht'
      trivial
  | acts s n now message loop a todo svc => exact absurd rfl (hhandler s n now message loop a todo)
  | @calls s n now message loop t origin todo server next forked hserver =>
      obtain ⟨before, hbefore, hn, hcarries, -⟩ := hplaced
      have hcall : Work.Carries (s, n) message (.call t origin) := hcarries _ List.mem_cons_self
      have hfounded : Work.Founded codec past s message (.call t origin) :=
        hself _ List.mem_cons_self
      refine h.advance hserver hpublishing ?_ ?_ fun t' ht' => ?_
      · rintro q item s' k rfl rfl
        rcases hcall with hnone' | ⟨hid, -⟩
        · cases hnone'
        · obtain ⟨rfl, rfl⟩ := Prod.mk.inj (Option.some.inj hid)
          obtain ⟨q', hq', hpublished⟩ := hfounded
          obtain rfl : q = q' := Option.some.inj hq'
          refine ⟨message, ?_, hpublished⟩
          rw [hbefore, hn, List.getElem?_append_right le_rfl, Nat.sub_self]
          rfl
      · rintro q result rfl
        rcases hcall with hnone' | ⟨-, hsending⟩
        · exact hnone'
        · exact hsending.elim
      · rcases List.mem_cons.1 ht' with rfl | hforked
        · intro w hw
          rcases List.mem_append.1 hw with hnew | hold
          · exact call_founded hcall hserver hfounded w hnew
          · exact hself w (List.mem_cons_of_mem _ hold)
        · obtain ⟨t'', -, rfl⟩ := List.mem_map.1 hforked
          trivial

/-- **Every action of the engine** keeps the account, with the step of the router that it takes. -/
theorem Founded.exec {x : Choice} {o : Outcome Engine Task}
    (h : Founded codec past config e (task ::ₘ R))
    (hexec : exec codec build config x task e = some o) :
    Founded codec (past ++ (deed? ⟨x, task, e⟩).toList) config o.shared
      ((o.next ++ o.forked.flatten : List Task) + R) := by
  have hstep := exec_step hexec
  have hpublishing := h.publishing.step hstep
  have hself := h.tasks task (Multiset.mem_cons_self task R)
  have hplaced := h.publishing.placed task (Multiset.mem_cons_self task R)
  obtain ⟨svc, a, hdeed, hforked, hact⟩ | ⟨hdeed, hrouter, hhandler⟩ := exec_cases hexec
  · rw [hdeed, Option.toList_some]
    rw [hforked, List.flatten_nil, List.append_nil] at hpublishing ⊢
    obtain ⟨rfl, hshared, hnext⟩ | ⟨s, n, now, message, loop, todo, rfl, hshared, hnext⟩ := hact
    · rw [hshared, hnext] at hpublishing ⊢
      have hcleans : cleansUp a = true := hself
      refine h.act hpublishing (cleansUp_justified hcleans) ?_ fun t ht => ?_
      · rintro s payload rfl
        cases hcleans
      · obtain ⟨w, hw, rfl⟩ := List.mem_map.1 ht
        obtain ⟨b, rfl, hb⟩ := execAct_cleansUp build svc none e hcleans w hw
        exact hb
    · rw [hshared, hnext] at hpublishing ⊢
      obtain ⟨before, hbefore, hn, hcarries, -⟩ := hplaced
      have hcarried : Work.Carries (s, n) message (.act a) := hcarries _ List.mem_cons_self
      have hfounded : Work.Founded codec past s message (.act a) := hself _ List.mem_cons_self
      refine h.act hpublishing ?_ ?_ fun t ht => ?_
      · rcases hfounded with hjustified | hcleans
        · exact hjustified.1
        · exact cleansUp_justified hcleans
      · rintro s' payload rfl
        obtain rfl : payload = message := hcarried
        rcases hfounded with ⟨-, hs⟩ | hcleans
        · obtain rfl : s' = s := beq_iff_eq.1 hs
          rw [hbefore]
          exact List.mem_append_right _ List.mem_cons_self
        · cases hcleans
      · obtain rfl := List.mem_singleton.1 ht
        intro w hw
        rcases List.mem_append.1 hw with hnew | hold
        · exact execAct_founded build svc h.router hcarried hfounded w hnew
        · exact (hself w (List.mem_cons_of_mem _ hold)).append _
  · rw [hdeed, Option.toList_none, List.append_nil]
    exact h.serve hstep hrouter hhandler

end Steps

/-! ### Runs -/

theorem founded_start (codec : Codec) (config : ServerConfig) :
    Founded codec [] config (start config).shared (start config).pending where
  publishing := publishing_start config
  router := ⟨RoomRegistry.wellFormed_empty, fun s principal hs => (by cases hs),
    fun s room hs => (by cases hs), fun q message hq => absurd hq List.not_mem_nil⟩
  received s payload hs := by
    obtain ⟨d, hd, -⟩ := hs
    exact absurd hd List.not_mem_nil
  items q s k hmem := absurd hmem List.not_mem_nil
  tasks t ht := by
    rw [Multiset.mem_singleton.1 ht]
    trivial

/-- What is done and queued has its past, in every run. -/
theorem founded_run {codec : Codec} {build : Outgoing → Bytes} {config : ServerConfig}
    {moves : List (ℕ × Choice)} {c : Config Engine Task}
    (hrun : (program codec build config).run moves (start config) = some c) :
    Founded codec (deeds codec build config moves) config c.shared c.pending := by
  refine Program.invariant_history (h := [])
    (I := fun h e P => Founded codec (h.filterMap deed?) config e P) ?_ moves
    (founded_start codec config) hrun
  intro h x task e R o hexec hI
  rw [List.filterMap_append, filterMap_singleton, Multiset.coe_add]
  exact hI.exec hexec

/-- A session authenticates and joins a room, with these bytes, in the threads `i` and `i + 1`. -/
def joins (s : SessionHandle) (i : ℕ) (bytes : Bytes) : List (ℕ × Choice) :=
  [(0, .server (.acceptor s)), (i, .server .passes), (i, .server .passes),
    (i + 1, .server (.reads true bytes))] ++ List.replicate 12 (i + 1, .server .passes) ++
    [(4, 5), (6, 1)].flatMap fun (actions, queueing) =>
      (i + 1, .handles 0) :: List.replicate actions (i + 1, .services ⟨some some, none, 0⟩) ++
        List.replicate 3 (i + 1, .server .passes) ++
        List.replicate queueing (i + 1, .server (.out .succeeds)) ++
          [(i + 1, .judges .accepted), (i + 1, .server .passes)]

/-- Two sessions join a room, and the second one publishes an alert there. -/
def alertForTwo : List (ℕ × Choice) :=
  joins ⟨1, 1⟩ 1 [0, 0, 0, 1, 1, 0, 0, 0, 1, 2] ++ List.replicate 3 (2, .server .passes) ++
    joins ⟨2, 2⟩ 5 [0, 0, 0, 1, 1, 0, 0, 0, 1, 2, 0, 0, 0, 1, 3] ++ [(6, .handles 0)] ++
    [5, 0].flatMap fun actions =>
      List.replicate (actions + 1) (6, .services ⟨some some, none, 0⟩) ++
        List.replicate 3 (6, .server .passes) ++ [(6, .server (.out .succeeds))]

end EngineSteps

end RealtimeEngine
