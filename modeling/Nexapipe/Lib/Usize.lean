import Mathlib.Order.Basic

/-!
# Machine-sized counters

The arithmetic of a 64-bit counter, on natural numbers that stay below its size.
A plain addition wraps, a saturating one stops at the largest value; a saturating
subtraction is the subtraction of the natural numbers.
-/

namespace Usize

def max : Nat := 18446744073709551615

def add (a b : Nat) : Nat :=
  (a + b) % (max + 1)

def saturatingAdd (a b : Nat) : Nat :=
  if a + b ≤ max then a + b else max

def sub (a b : Nat) : Nat :=
  (a + (max + 1) - b) % (max + 1)

variable {a b : Nat}

theorem add_of_le (h : a + b ≤ max) : add a b = a + b :=
  Nat.mod_eq_of_lt (Nat.lt_succ_of_le h)

theorem saturatingAdd_of_le (h : a + b ≤ max) : saturatingAdd a b = a + b :=
  if_pos h

theorem saturatingAdd_of_lt (h : saturatingAdd a b < max) : saturatingAdd a b = a + b := by
  unfold saturatingAdd at h ⊢
  by_cases hle : a + b ≤ max
  · rw [if_pos hle]
  · rw [if_neg hle] at h
    omega

theorem sub_of_le (h : b ≤ a) (ha : a ≤ max) : sub a b = a - b := by
  unfold sub
  have hsp : a + (max + 1) - b = (a - b) + (max + 1) := by omega
  rw [hsp, Nat.add_mod_right]
  exact Nat.mod_eq_of_lt (by omega)

end Usize
