import Mathlib.Algebra.GroupWithZero.Nat
import Mathlib.Algebra.BigOperators.Group.List.Basic

/-!
# What is held at one time

A list of holdings, each with a weight, and the sum of the weights. A program that
hands out parts of a resource keeps such a sum in a counter of its own; that the
counter is right is an equation between the two, and the lemmas here say how the
sum moves when a holding is added, changed, or given back.

Holdings are addressed by their place in the list.
-/

namespace Ledger

open List

variable {α : Type} (weight : α → Nat)

def total (held : List α) : Nat :=
  (held.map weight).sum

theorem total_cons (x : α) (held : List α) :
    total weight (x :: held) = weight x + total weight held :=
  sum_cons

variable {held : List α}

theorem total_set {i : Nat} {x : α} (y : α) (h : held[i]? = some x) :
    total weight (held.set i y) + weight x = total weight held + weight y := by
  induction held generalizing i with
  | nil => cases h
  | cons z rest ih =>
    rcases i with _ | i
    · rw [getElem?_cons_zero, Option.some_inj] at h
      rw [set_cons_zero, total_cons, total_cons, h]
      omega
    have hr := ih h
    rw [set_cons_succ, total_cons, total_cons]
    omega

theorem total_eraseIdx {i : Nat} {x : α} (h : held[i]? = some x) :
    total weight (held.eraseIdx i) + weight x = total weight held := by
  induction held generalizing i with
  | nil => cases h
  | cons z rest ih =>
    rcases i with _ | i
    · rw [getElem?_cons_zero, Option.some_inj] at h
      rw [eraseIdx_cons_zero, total_cons, h]
      omega
    have hr := ih h
    rw [eraseIdx_cons_succ, total_cons, total_cons]
    omega

theorem total_filter_not (p : α → Bool) (held : List α) :
    total weight (held.filter fun x => !p x) + total weight (held.filter p) =
      total weight held := by
  induction held with
  | nil => rfl
  | cons x rest ih =>
    by_cases hx : p x = true
    · rw [filter_cons_of_neg (by simp [hx]), filter_cons_of_pos hx, total_cons,
        total_cons]
      omega
    rw [filter_cons_of_pos (by simp [hx]), filter_cons_of_neg hx, total_cons,
      total_cons]
    omega

theorem le_total {i : Nat} {x : α} (h : held[i]? = some x) : weight x ≤ total weight held := by
  have he := total_eraseIdx weight h
  omega

theorem total_le_length (h : ∀ x, weight x ≤ 1) (held : List α) :
    total weight held ≤ held.length := by
  induction held with
  | nil => exact Nat.le_refl 0
  | cons x rest ih =>
    have hx := h x
    rw [total_cons, length_cons]
    omega

theorem total_congr {weight' : α → Nat} (h : ∀ x ∈ held, weight x = weight' x) :
    total weight held = total weight' held :=
  congrArg List.sum (map_congr_left h)

end Ledger
