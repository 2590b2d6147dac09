import Mathlib.Data.List.Induction

/-!
# Recency of use

A log of the keys that were used, the latest last. `lastUse` is the place of a key's last use,
counted from one, so that of two keys the one used less recently has the smaller place, and two
keys that were used have different ones.
-/

namespace Recency

variable {K : Type} [DecidableEq K]

def lastUse (uses : List K) (k : K) : Nat :=
  uses.length - uses.reverse.idxOf k

theorem lastUse_concat (uses : List K) (used k : K) :
    lastUse (uses ++ [used]) k = if k = used then uses.length + 1 else lastUse uses k := by
  have hrev : (uses ++ [used]).reverse = used :: uses.reverse := by simp
  unfold lastUse
  rw [hrev, List.length_append, List.length_singleton, List.idxOf_cons]
  by_cases h : k = used
  · rw [if_pos h, beq_iff_eq.mpr h.symm, cond_true]
    rfl
  · rw [if_neg h, beq_false_of_ne (fun heq => h heq.symm), cond_false]
    omega

theorem lastUse_le (uses : List K) (k : K) : lastUse uses k ≤ uses.length :=
  Nat.sub_le _ _

theorem lastUse_injective {uses : List K} {k k' : K} (h : lastUse uses k = lastUse uses k')
    (hus : 0 < lastUse uses k) : k = k' := by
  induction uses using List.reverseRecOn with
  | nil => exact absurd hus (Nat.lt_irrefl 0)
  | append_singleton uses last ih =>
    rw [lastUse_concat, lastUse_concat] at h
    rw [lastUse_concat] at hus
    have hle := lastUse_le uses k
    have hle' := lastUse_le uses k'
    by_cases hk : k = last
    · by_cases hk' : k' = last
      · rw [hk, hk']
      · rw [if_pos hk, if_neg hk'] at h
        omega
    · rw [if_neg hk] at h hus
      by_cases hk' : k' = last
      · rw [if_pos hk'] at h
        omega
      · rw [if_neg hk'] at h
        exact ih h hus

def LeastRecent (uses : List K) (p : K → Prop) (k : K) : Prop :=
  p k ∧ ∀ k', p k' → k' ≠ k → lastUse uses k < lastUse uses k'

end Recency
