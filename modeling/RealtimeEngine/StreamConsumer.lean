/-
**Consumers of a stream that arrives in pieces.**

A consumer looks at the input it has not consumed yet and takes a turn: it waits for more, it halts,
or it consumes a few symbols and goes on in another state.  What it does on some input it also does
when more of the stream has arrived; only waiting may end.  Whoever feeds it piece by piece, and
keeps the rest for the next piece, therefore gets where feeding the whole stream gets.

* `StreamConsumer.Consumer` — the turns, with the two laws;
* `StreamConsumer.Consumer.drain`, `StreamConsumer.Consumer.feed` — consuming what is there, and one
  more piece;
* `StreamConsumer.Consumer.feed_drain` — **a piece more is a longer stream**;
* `StreamConsumer.Consumer.foldl_related` — what a machine that simulates the consumer ends up with;
* `StreamConsumer.Consumer.Reaches` — how far a machine has got that stops between two turns.
-/

import Mathlib.Data.List.Basic

set_option relaxedAutoImplicit false
set_option autoImplicit false

namespace StreamConsumer

variable {σ α ρ : Type*}

/-- A turn of a consumer. -/
inductive Turn (σ : Type*)
  | wait
  | halt (s : σ)
  | consume (s : σ) (n : ℕ)

/-- A consumer: a turn consumes symbols that are there, and does not depend on what follows. -/
structure Consumer (σ α : Type*) where
  turn : σ → List α → Turn σ
  consumes {s s' : σ} {xs : List α} {n : ℕ} (h : turn s xs = .consume s' n) :
    0 < n ∧ n ≤ xs.length
  halt_append {s s' : σ} {xs : List α} (h : turn s xs = .halt s') (ys : List α) :
    turn s (xs ++ ys) = .halt s'
  consume_append {s s' : σ} {xs : List α} {n : ℕ} (h : turn s xs = .consume s' n) (ys : List α) :
    turn s (xs ++ ys) = .consume s' n

/-- Where a consumer is: it has halted, or it waits in front of a rest. -/
inductive Fed (σ α : Type*)
  | halted (s : σ)
  | waiting (s : σ) (rest : List α)

/-- The state of the consumer. -/
def Fed.state : Fed σ α → σ
  | .halted s => s
  | .waiting s _ => s

namespace Consumer

variable (c : Consumer σ α)

/-- At most so many turns. -/
def drainLoop : ℕ → σ → List α → Fed σ α
  | 0, s, xs => .waiting s xs
  | turns + 1, s, xs =>
      match c.turn s xs with
      | .wait => .waiting s xs
      | .halt s' => .halted s'
      | .consume s' n => drainLoop turns s' (xs.drop n)

/-- Consuming what is there. -/
def drain (s : σ) (xs : List α) : Fed σ α := c.drainLoop (xs.length + 1) s xs

/-- What a turn leads to. -/
def outcome (s : σ) (xs : List α) : Turn σ → Fed σ α
  | .wait => .waiting s xs
  | .halt s' => .halted s'
  | .consume s' n => c.drain s' (xs.drop n)

/-- One more piece of the stream. -/
def feed : Fed σ α → List α → Fed σ α
  | .halted s, _ => .halted s
  | .waiting s rest, ys => c.drain s (rest ++ ys)

/-- The bound on the turns does not matter once it covers the input. -/
theorem drainLoop_bound {n m : ℕ} {s : σ} {xs : List α} (hn : xs.length < n) (hm : xs.length < m) :
    c.drainLoop n s xs = c.drainLoop m s xs := by
  induction n generalizing m s xs with
  | zero => omega
  | succ n ih =>
      cases m with
      | zero => omega
      | succ m =>
          rw [drainLoop, drainLoop]
          cases hturn : c.turn s xs with
          | wait => rfl
          | halt s' => rfl
          | consume s' k =>
              obtain ⟨hpos, hle⟩ := c.consumes hturn
              have hless : (xs.drop k).length < xs.length := by
                rw [List.length_drop]
                omega
              exact ih (by omega) (by omega)

/-- Consuming, turn by turn. -/
theorem drain_eq (s : σ) (xs : List α) :
    c.drain s xs = c.outcome s xs (c.turn s xs) := by
  rw [drain, drainLoop]
  cases hturn : c.turn s xs with
  | wait => rfl
  | halt s' => rfl
  | consume s' n =>
      obtain ⟨hpos, hle⟩ := c.consumes hturn
      have hless : (xs.drop n).length < xs.length := by
        rw [List.length_drop]
        omega
      exact c.drainLoop_bound hless (Nat.lt_succ_self _)

/-- **A piece more is a longer stream.** -/
theorem feed_drain (s : σ) (xs ys : List α) : c.feed (c.drain s xs) ys = c.drain s (xs ++ ys) := by
  induction h : xs.length using Nat.strongRecOn generalizing s xs with
  | _ length ih =>
      rw [c.drain_eq s xs]
      cases hturn : c.turn s xs with
      | wait => rfl
      | halt s' =>
          rw [c.drain_eq s (xs ++ ys), c.halt_append hturn ys]
          rfl
      | consume s' n =>
          obtain ⟨hpos, hle⟩ := c.consumes hturn
          rw [c.drain_eq s (xs ++ ys), c.consume_append hturn ys, outcome, outcome,
            List.drop_append_of_le_length hle]
          refine ih (xs.drop n).length ?_ s' (xs.drop n) rfl
          rw [List.length_drop]
          omega

/-- A machine that stays related to the consumer at every piece is related, at the end, to the
consumer of the whole stream. -/
theorem foldl_related {R : ρ → Fed σ α → Prop} {read : ρ → List α → ρ} (pieces : List (List α))
    (hread : ∀ piece ∈ pieces, ∀ r f, R r f → R (read r piece) (c.feed f piece))
    {r : ρ} (s : σ) (xs : List α) (h : R r (c.drain s xs)) :
    R (pieces.foldl read r) (c.drain s (xs ++ pieces.flatten)) := by
  induction pieces generalizing r xs with
  | nil => simpa using h
  | cons piece pieces ih =>
      have hnext := hread piece List.mem_cons_self r _ h
      rw [feed_drain] at hnext
      rw [List.foldl_cons, List.flatten_cons, ← List.append_assoc]
      exact ih (fun p hp => hread p (List.mem_cons_of_mem _ hp)) _ hnext

/-- A consumer that waits at the end of a stream has waited wherever the stream was cut. -/
theorem waiting_of_append {s s' : σ} {xs more rest : List α}
    (h : c.drain s (xs ++ more) = .waiting s' rest) :
    ∃ s'' rest', c.drain s xs = .waiting s'' rest' := by
  rw [← c.feed_drain] at h
  cases hdrain : c.drain s xs with
  | halted s'' =>
      rw [hdrain] at h
      cases h
  | waiting s'' rest' => exact ⟨s'', rest', rfl⟩

/-! ### Between two turns -/

/-- Over some input the consumer gets from one state to another, in front of a rest. -/
def Reaches (s : σ) (xs : List α) (s' : σ) (rest : List α) : Prop :=
  ∀ more, c.drain s (xs ++ more) = c.drain s' (rest ++ more)

variable {c}

theorem Reaches.refl (s : σ) (xs : List α) : c.Reaches s xs s xs := fun _ => rfl

theorem Reaches.append {s s' : σ} {xs rest : List α} (h : c.Reaches s xs s' rest) (ys : List α) :
    c.Reaches s (xs ++ ys) s' (rest ++ ys) := by
  intro more
  rw [List.append_assoc, List.append_assoc]
  exact h (ys ++ more)

theorem Reaches.consume {s s' s'' : σ} {xs rest : List α} {n : ℕ} (h : c.Reaches s xs s' rest)
    (hturn : c.turn s' rest = .consume s'' n) : c.Reaches s xs s'' (rest.drop n) := by
  intro more
  rw [h more, c.drain_eq, c.consume_append hturn, outcome,
    List.drop_append_of_le_length (c.consumes hturn).2]

theorem Reaches.trans {s s' s'' : σ} {xs ys rest : List α} (h : c.Reaches s xs s' ys)
    (h' : c.Reaches s' ys s'' rest) : c.Reaches s xs s'' rest :=
  fun more => (h more).trans (h' more)

section Output

variable {β : Type*} (out : σ → List β)

/-- What a turn only adds to, consuming only adds to. -/
theorem out_drain (hhalt : ∀ {s s' : σ} {xs : List α}, c.turn s xs = .halt s' → out s <+: out s')
    (hconsume : ∀ {s s' : σ} {xs : List α} {n : ℕ}, c.turn s xs = .consume s' n → out s <+: out s')
    (s : σ) (xs : List α) : out s <+: out (c.drain s xs).state := by
  induction h : xs.length using Nat.strongRecOn generalizing s xs with
  | _ length ih =>
      rw [c.drain_eq]
      cases hturn : c.turn s xs with
      | wait => exact List.prefix_rfl
      | halt s' => exact hhalt hturn
      | consume s' n =>
          obtain ⟨hpos, hle⟩ := c.consumes hturn
          refine (hconsume hturn).trans (ih (xs.drop n).length ?_ s' (xs.drop n) rfl)
          rw [List.length_drop]
          omega

/-- The output of a longer stream. -/
theorem out_drain_append
    (hhalt : ∀ {s s' : σ} {xs : List α}, c.turn s xs = .halt s' → out s <+: out s')
    (hconsume : ∀ {s s' : σ} {xs : List α} {n : ℕ}, c.turn s xs = .consume s' n → out s <+: out s')
    (s : σ) (xs more : List α) :
    out (c.drain s xs).state <+: out (c.drain s (xs ++ more)).state := by
  rw [← c.feed_drain]
  cases c.drain s xs with
  | halted s' => exact List.prefix_rfl
  | waiting s' rest => exact out_drain out hhalt hconsume s' (rest ++ more)

end Output

end Consumer

end StreamConsumer
