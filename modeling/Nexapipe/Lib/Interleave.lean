import Nexapipe.Lib.Best
import Nexapipe.Lib.Run

/-!
# Tasks over a shared state

Asynchronous code as a machine: a shared state and a list of tasks, each somewhere in its code. A
task moves from one point where it may be interrupted to the next, and reads and changes the shared
state on the way.

The rule for such machines is that of rely and guarantee. An assertion about the shared state is
kept by every move, and an assertion about a task is kept by its own moves and not disturbed by
what anyone else does to the shared state. `Rules` asks for exactly that, under a condition on
the moves that are made, and `Rules.step` puts the parts together.
-/

namespace Interleave

/-- What starting a task, moving one and a change from outside do. A move that cannot be made is
    `none`. -/
structure Behaviour (σ τ ι α κ : Type) where
  start : κ → τ
  advance : σ → τ → ι → Option (σ × τ)
  ambient : σ → α → Option σ

structure World (σ τ : Type) where
  shared : σ
  tasks : List τ
deriving DecidableEq

inductive Event (ι α κ : Type) where
  | start (call : κ)
  | advance (id : Nat) (input : ι)
  | ambient (change : α)

variable {σ τ ι α κ : Type}

def step (b : Behaviour σ τ ι α κ) (w : World σ τ) : Event ι α κ → Option (World σ τ)
  | .start call => some ⟨w.shared, w.tasks ++ [b.start call]⟩
  | .advance id input =>
    match w.tasks[id]? with
    | none => none
    | some t => (b.advance w.shared t input).map fun r => ⟨r.1, w.tasks.set id r.2⟩
  | .ambient change => (b.ambient w.shared change).map fun s => ⟨s, w.tasks⟩

theorem getElem?_set_eq_some {l : List τ} {id j : Nat} {x y : τ}
    (h : (l.set id x)[j]? = some y) : j ≠ id ∧ l[j]? = some y ∨ j = id ∧ x = y := by
  rw [List.getElem?_set] at h
  by_cases hj : id = j
  · rw [if_pos hj] at h
    by_cases hlt : id < l.length
    · rw [if_pos hlt] at h
      exact .inr ⟨hj.symm, Option.some.inj h⟩
    · simp [if_neg hlt] at h
  · rw [if_neg hj] at h
    exact .inl ⟨fun heq => hj heq.symm, h⟩

variable {b : Behaviour σ τ ι α κ} {w w' : World σ τ} {e : Event ι α κ}

theorem step_cases (h : step b w e = some w') :
    (∃ call, e = .start call ∧ w' = ⟨w.shared, w.tasks ++ [b.start call]⟩) ∨
      (∃ id input t s t', e = .advance id input ∧ w.tasks[id]? = some t ∧
        b.advance w.shared t input = some (s, t') ∧ w' = ⟨s, w.tasks.set id t'⟩) ∨
      ∃ change s, e = .ambient change ∧ b.ambient w.shared change = some s ∧
        w' = ⟨s, w.tasks⟩ := by
  cases e with
  | start call =>
    cases h
    exact .inl ⟨call, rfl, rfl⟩
  | advance id input =>
    rw [step] at h
    rcases ht : w.tasks[id]? with _ | t
    · simp [ht] at h
    rw [ht] at h
    rcases Option.map_eq_some_iff.mp h with ⟨⟨s, t'⟩, hr, rfl⟩
    exact .inr (.inl ⟨id, input, t, s, t', rfl, ht, hr, rfl⟩)
  | ambient change =>
    rcases Option.map_eq_some_iff.mp h with ⟨s, hs, rfl⟩
    exact .inr (.inr ⟨change, s, rfl, hs, rfl⟩)

theorem step_advance {id : Nat} {input : ι} {t t' : τ} {s : σ} (ht : w.tasks[id]? = some t)
    (hr : b.advance w.shared t input = some (s, t')) :
    step b w (.advance id input) = some ⟨s, w.tasks.set id t'⟩ := by
  rw [step]
  simp only [ht, hr]
  rfl

def Holds (inv : σ → Prop) (ok : σ → τ → Prop) (w : World σ τ) : Prop :=
  inv w.shared ∧ ∀ (id : Nat) t, w.tasks[id]? = some t → ok w.shared t

/-- What keeps the assertions, under a condition on the moves. A task's own move keeps both, and
    whatever is done to the shared state leaves every task its assertion. -/
structure Rules (b : Behaviour σ τ ι α κ) (cond : World σ τ → Event ι α κ → Prop)
    (inv : σ → Prop) (ok : σ → τ → Prop) : Prop where
  start : ∀ w call, inv w.shared → cond w (.start call) → ok w.shared (b.start call)
  advance : ∀ w id input t s t', Holds inv ok w → cond w (.advance id input) →
    w.tasks[id]? = some t → b.advance w.shared t input = some (s, t') →
    inv s ∧ ok s t' ∧ ∀ (j : Nat) u, j ≠ id → w.tasks[j]? = some u → ok w.shared u → ok s u
  ambient : ∀ w change s, Holds inv ok w → cond w (.ambient change) →
    b.ambient w.shared change = some s →
    inv s ∧ ∀ (j : Nat) u, w.tasks[j]? = some u → ok w.shared u → ok s u

theorem Rules.step {cond : World σ τ → Event ι α κ → Prop} {inv : σ → Prop}
    {ok : σ → τ → Prop} (rules : Rules b cond inv ok) (h : Holds inv ok w) (hco : cond w e)
    (hst : step b w e = some w') : Holds inv ok w' := by
  rcases step_cases hst with ⟨call, rfl, rfl⟩ | ⟨id, input, t, s, t', rfl, ht, hr, rfl⟩ |
    ⟨change, s, rfl, hs, rfl⟩
  · refine ⟨h.1, ?_⟩
    intro id t ht
    rcases Best.getElem?_append_singleton.mp ht with hold | ⟨-, rfl⟩
    · exact h.2 id t hold
    · exact rules.start w call h.1 hco
  · rcases rules.advance w id input t s t' h hco ht hr with ⟨hinv, hse, hoth⟩
    refine ⟨hinv, ?_⟩
    intro j u hu
    rcases getElem?_set_eq_some hu with ⟨hne, hold⟩ | ⟨-, rfl⟩
    · exact hoth j u hne hold (h.2 j u hold)
    · exact hse
  · rcases rules.ambient w change s h hco hs with ⟨hinv, hoth⟩
    exact ⟨hinv, fun j u hu => hoth j u hu (h.2 j u hu)⟩

end Interleave
