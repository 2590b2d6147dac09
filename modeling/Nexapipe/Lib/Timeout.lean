import Mathlib.Algebra.Order.Group.Nat
import Mathlib.Tactic.Common

/-!
# Waiting until a deadline

Something is waited for until a deadline, and is given up then. The wait is polled once before the
deadline is looked at, so that what is there at once is taken even when the deadline has passed.

## Main definitions

* `Wait`: How long something takes, and what it is.
* `timeoutAt`: When the wait ends, and what with.

## Theorems

* `timeoutAt_bounds`: A wait that starts too late ends when it starts.
* `timeoutAt_le`: A wait that starts by its deadline ends by it.
-/

namespace Timeout

variable {α : Type}

/-- How long it takes until something comes, and what it is. -/
structure Wait (α : Type) where
  takes : Nat
  result : α

/-- When the wait that starts `now` ends, and what with. What never comes is `none`. -/
def timeoutAt (now deadline : Nat) : Option (Wait α) → Nat × Option α
  | some w =>
    if now + w.takes ≤ max now deadline then (now + w.takes, some w.result)
    else (max now deadline, none)
  | none => (max now deadline, none)

theorem timeoutAt_bounds (now deadline : Nat) (wait : Option (Wait α)) :
    now ≤ (timeoutAt now deadline wait).1 ∧
      (timeoutAt now deadline wait).1 ≤ max now deadline := by
  fun_cases timeoutAt now deadline wait with
  | case1 w hle => exact ⟨Nat.le_add_right _ _, hle⟩
  | case2 | case3 => exact ⟨le_max_left _ _, le_rfl⟩

theorem timeoutAt_le {now deadline : Nat} (h : now ≤ deadline) (wait : Option (Wait α)) :
    (timeoutAt now deadline wait).1 ≤ deadline :=
  (timeoutAt_bounds now deadline wait).2.trans (max_le h le_rfl)

end Timeout
