import Mathlib.Data.List.Induction

/-!
# A bounded queue and its backlog

A first-in first-out queue with a limit on how much may wait in it. An item that finds no room is
turned away, so a call that offers several of them may see only some taken.

Besides what waits, the queue counts what it has taken in since it last stood empty. An
implementation that gives storage back only when it runs dry holds exactly that much, however
little of it still waits.
-/

structure Backlog (α : Type) where
  waiting : List α
  since : Nat

namespace Backlog

open List

variable {α : Type}

inductive Op (α : Type) where
  | put (items : List α)
  | take (count : Nat)

def empty : Backlog α where
  waiting := []
  since := 0

variable (limit : Nat)

def fitting (b : Backlog α) (items : List α) : List α :=
  items.take (limit - b.waiting.length)

def put (b : Backlog α) (items : List α) : Backlog α where
  waiting := b.waiting ++ fitting limit b items
  since := b.since + (fitting limit b items).length

def take (b : Backlog α) (count : Nat) : Backlog α where
  waiting := b.waiting.drop count
  since := if b.waiting.length ≤ count then 0 else b.since

structure Traffic (Q α : Type) where
  queue : Q
  accepted : List α
  taken : List α

def step (t : Traffic (Backlog α) α) : Op α → Traffic (Backlog α) α
  | .put items =>
    { t with
      queue := t.queue.put limit items
      accepted := t.accepted ++ fitting limit t.queue items }
  | .take count =>
    { t with
      queue := t.queue.take count
      taken := t.taken ++ t.queue.waiting.take count }

def run (ops : List (Op α)) : Traffic (Backlog α) α :=
  ops.foldl (step limit) ⟨empty, [], []⟩

def Fifo (t : Traffic (Backlog α) α) : Prop :=
  t.taken ++ t.queue.waiting = t.accepted

theorem Fifo.step {limit : Nat} {t : Traffic (Backlog α) α} (h : Fifo t) (op : Op α) :
    Fifo (step limit t op) := by
  unfold Fifo at h ⊢
  cases op with
  | put items => simp only [Backlog.step, put, ← h, append_assoc]
  | take count =>
    simp only [Backlog.step, take, append_assoc, take_append_drop]
    exact h

theorem length_fitting_le (b : Backlog α) (items : List α) :
    (fitting limit b items).length ≤ limit - b.waiting.length :=
  length_take_le _ _

theorem fifo_run (ops : List (Op α)) : Fifo (run limit ops) := by
  induction ops using List.reverseRecOn with
  | nil => rfl
  | append_singleton ops op ih =>
    rw [run, foldl_append]
    exact ih.step op

theorem length_waiting_run (ops : List (Op α)) :
    (run limit ops).queue.waiting.length ≤ limit := by
  induction ops using List.reverseRecOn with
  | nil => exact Nat.zero_le _
  | append_singleton ops op ih =>
    rw [run, foldl_append, ← run]
    cases op with
    | put items =>
      have hroom := length_fitting_le limit (run limit ops).queue items
      simp only [foldl_cons, foldl_nil, step, put, length_append]
      omega
    | take count =>
      simp only [foldl_cons, foldl_nil, step, take, length_drop]
      omega

end Backlog
