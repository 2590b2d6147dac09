import Mathlib.Data.List.Induction
import Mathlib.Data.List.Perm.Subperm

/-!
# Counting by position

Positions of a list that are pairwise different and all hold an element with some property are at
most as many as the elements that have it, and positions that all occur in another list are at
most as many as that list is long.
-/

namespace Census

variable {α : Type}

theorem length_le_of_subset {l l' : List α} (hl : l.Nodup) (h : ∀ a ∈ l, a ∈ l') :
    l.length ≤ l'.length :=
  (hl.subperm h).length_le

open List

theorem length_le_countP {l : List Nat} {xs : List α} {p : α → Bool} (hl : l.Nodup)
    (h : ∀ i ∈ l, ∃ x, xs[i]? = some x ∧ p x = true) : l.length ≤ xs.countP p := by
  induction xs using reverseRecOn generalizing l with
  | nil =>
    rcases l with _ | ⟨i, l⟩
    · exact Nat.le_refl 0
    · obtain ⟨x, hx, -⟩ := h i (mem_cons_self ..)
      exact absurd hx (by simp)
  | append_singleton xs x ih =>
    -- The positions before the last one are counted in `xs`, and the last one by itself.
    have hre : (l.erase xs.length).length ≤ xs.countP p := by
      refine ih (hl.erase _) fun i hi => ?_
      obtain ⟨hne, hi⟩ := hl.mem_erase_iff.mp hi
      obtain ⟨y, hy, hp⟩ := h i hi
      refine ⟨y, ?_, hp⟩
      rw [getElem?_append] at hy
      split at hy
      · exact hy
      rw [getElem?_singleton] at hy
      split at hy
      · omega
      · exact absurd hy (by simp)
    rw [countP_append, countP_singleton]
    by_cases hla : xs.length ∈ l
    · obtain ⟨y, hy, hp⟩ := h xs.length hla
      rw [getElem?_concat_length, Option.some.injEq] at hy
      rw [length_erase_of_mem hla] at hre
      rw [hy, if_pos hp]
      omega
    · rw [erase_of_not_mem hla] at hre
      omega

end Census
