import Mathlib.Logic.Basic

/-!
# Runs of an event-driven machine

A machine here is a function that takes a state and an event to the next state,
or to nothing where the event cannot happen. All nondeterminism (which of many
tasks moves, what the outside world answers, when a task is dropped) sits in
the event, so that an interleaving is a list of events and a run is a
computation.

The rules below are the only inductions over runs that proofs about such
machines need. `invariant_along` carries a property through a run whose steps
all meet a side condition; the unconditional `invariant` is the case of a
condition that always holds.
-/

namespace Machine

variable {σ ε : Type}

def run (step : σ → ε → Option σ) : σ → List ε → Option σ
  | s, [] => some s
  | s, e :: es => (step s e).bind fun s' => run step s' es

def Along (step : σ → ε → Option σ) (ok : σ → ε → Prop) : σ → List ε → Prop
  | _, [] => True
  | s, e :: es => ok s e ∧ ∀ s' ∈ step s e, Along step ok s' es

instance Along.decidable (step : σ → ε → Option σ) (ok : σ → ε → Prop)
    [∀ s e, Decidable (ok s e)] : ∀ s es, Decidable (Along step ok s es)
  | _, [] => inferInstanceAs (Decidable True)
  | s, e :: es =>
    have : ∀ s', Decidable (Along step ok s' es) := fun s' => Along.decidable step ok s' es
    inferInstanceAs (Decidable (_ ∧ ∀ s' ∈ step s e, _))

variable {step : σ → ε → Option σ} {ok : σ → ε → Prop}

variable {es : List ε} {s : σ}

theorem run_cons_eq_some {s' : σ} {e : ε} :
    run step s (e :: es) = some s' ↔ ∃ m, step s e = some m ∧ run step m es = some s' :=
  Option.bind_eq_some_iff

theorem run_append (s : σ) (es fs : List ε) :
    run step s (es ++ fs) = (run step s es).bind fun m => run step m fs := by
  induction es generalizing s with
  | nil => rfl
  | cons e es ih =>
    simp only [List.cons_append, run, Option.bind_assoc]
    congr 1
    funext m
    exact ih m

theorem invariant_along (inv : σ → Prop)
    (hs : ∀ s e s', inv s → ok s e → step s e = some s' → inv s') :
    ∀ {s s' : σ} {es : List ε}, inv s → Along step ok s es → run step s es = some s' → inv s' := by
  intro s s' es
  induction es generalizing s with
  | nil =>
    intro hinv _ hrun
    cases hrun
    exact hinv
  | cons e es ih =>
    intro hinv hok hrun
    -- The condition on the first event holds in `s`, those on the rest from `m` on.
    obtain ⟨m, hm, hr⟩ := run_cons_eq_some.mp hrun
    exact ih (hs s e m hinv hok.1 hm) (hok.2 m hm) hr

theorem Along.split {m : σ} {fs : List ε} (h : Along step ok s (es ++ fs))
    (hrun : run step s es = some m) : Along step ok s es ∧ Along step ok m fs := by
  induction es generalizing s with
  | nil =>
    cases hrun
    exact ⟨trivial, h⟩
  | cons e es ih =>
    rcases run_cons_eq_some.mp hrun with ⟨next, hn, hr⟩
    refine ⟨⟨h.1, ?_⟩, (ih (h.2 next hn) hr).2⟩
    intro s' hs'
    -- The step is a function, so the state it leads to is the one the run took.
    rw [hn] at hs'
    cases hs'
    exact (ih (h.2 next hn) hr).1

theorem Along.and {ok' : σ → ε → Prop} (h : Along step ok s es) (h' : Along step ok' s es) :
    Along step (fun s e => ok s e ∧ ok' s e) s es := by
  induction es generalizing s with
  | nil => trivial
  | cons e es ih => exact ⟨⟨h.1, h'.1⟩, fun m hm => ih (h.2 m hm) (h'.2 m hm)⟩

theorem Along.and_forall {p : ε → Prop} (hp : ∀ e ∈ es, p e) (h : Along step ok s es) :
    Along step (fun s e => p e ∧ ok s e) s es := by
  induction es generalizing s with
  | nil => trivial
  | cons e es ih =>
    rw [List.forall_mem_cons] at hp
    exact ⟨⟨hp.1, h.1⟩, fun s' hs' => ih hp.2 (h.2 s' hs')⟩

theorem along_true (s : σ) (es : List ε) : Along step (fun _ _ => True) s es := by
  induction es generalizing s with
  | nil => trivial
  | cons e es ih => exact ⟨trivial, fun m _ => ih m⟩

theorem invariant (inv : σ → Prop) (hs : ∀ s e s', inv s → step s e = some s' → inv s') {s' : σ}
    (hinv : inv s) (hrun : run step s es = some s') : inv s' :=
  invariant_along inv (fun s e s' h _ => hs s e s' h) hinv (along_true s es) hrun

theorem along_congr {ok' : σ → ε → Prop} (inv : σ → Prop)
    (hs : ∀ s e s', inv s → step s e = some s' → inv s')
    (hok : ∀ s e, inv s → (ok s e ↔ ok' s e)) (hinv : inv s) :
    Along step ok s es ↔ Along step ok' s es := by
  induction es generalizing s with
  | nil => exact Iff.rfl
  | cons e es ih =>
    exact and_congr (hok s e hinv) (forall₂_congr fun m hm => ih (hs s e m hinv hm))

end Machine
