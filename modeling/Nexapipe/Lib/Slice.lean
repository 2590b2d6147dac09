import Mathlib.Logic.Basic

/-!
# Parts of a message

A part of a list, by where it begins and how long it is, and a list with a part of it
overwritten in place. Two lists agree between two offsets when they have the same element at
each of them; then they have the same parts there, and what reads only there cannot tell
them apart.
-/

namespace Slice

open List

variable {α : Type}

def slice (xs : List α) (pos count : Nat) : List α :=
  (xs.drop pos).take count

variable {pos : Nat} {xs : List α}

theorem length_slice {count : Nat} (h : pos + count ≤ xs.length) :
    (slice xs pos count).length = count := by
  rw [slice, length_take, length_drop]
  omega

theorem getElem?_slice (xs : List α) (pos count i : Nat) :
    (slice xs pos count)[i]? = if i < count then xs[pos + i]? else none := by
  rw [slice, getElem?_take, getElem?_drop]

theorem slice_append_right (front back : List α) (pos count : Nat) :
    slice (front ++ back) (front.length + pos) count = slice back pos count := by
  rw [slice, slice, drop_append, drop_eq_nil_of_le (by omega), nil_append,
    Nat.add_sub_cancel_left]

/-! ### Agreement -/

def SameOn (lo hi : Nat) (xs ys : List α) : Prop :=
  ∀ i, lo ≤ i → i < hi → xs[i]? = ys[i]?

theorem SameOn.mono {lo hi lo' hi' : Nat} {ys : List α} (h : SameOn lo hi xs ys) (hlo : lo ≤ lo')
    (hhi : hi' ≤ hi) : SameOn lo' hi' xs ys :=
  fun i hi₁ hi₂ => h i (Nat.le_trans hlo hi₁) (Nat.lt_of_lt_of_le hi₂ hhi)

theorem SameOn.slice_eq {lo hi count : Nat} {ys : List α} (h : SameOn lo hi xs ys) (hlo : lo ≤ pos)
    (hhi : pos + count ≤ hi) : slice xs pos count = slice ys pos count := by
  refine ext_getElem? fun i => ?_
  rw [getElem?_slice, getElem?_slice]
  by_cases hi : i < count
  · rw [if_pos hi, if_pos hi, h (pos + i) (by omega) (by omega)]
  · rw [if_neg hi, if_neg hi]

theorem sameOn_slice (xs front back : List α) (count : Nat)
    (h : front.length + count ≤ xs.length) :
    SameOn front.length (front.length + count) xs
      (front ++ slice xs front.length count ++ back) := by
  intro i hlo hhi
  have hlen := length_slice h
  rw [append_assoc, getElem?_append_right hlo, getElem?_append_left (by omega),
    getElem?_slice, if_pos (by omega)]
  congr 1
  omega

/-! ### Overwriting -/

def overwrite (xs : List α) (pos : Nat) (new : List α) : List α :=
  xs.take pos ++ new ++ xs.drop (pos + new.length)

section Overwrite

variable {xs new : List α} {pos : Nat} (h : pos + new.length ≤ xs.length)
include h

theorem length_overwrite : (overwrite xs pos new).length = xs.length := by
  rw [overwrite, length_append, length_append, length_take, length_drop]
  omega

theorem sameOn_overwrite_left : SameOn 0 pos xs (overwrite xs pos new) := by
  intro i _ hi
  have ht : (xs.take pos).length = pos := by
    rw [length_take]
    omega
  rw [overwrite, append_assoc, getElem?_append_left (by omega), getElem?_take,
    if_pos hi]

theorem sameOn_overwrite_right : SameOn (pos + new.length) xs.length xs (overwrite xs pos new) := by
  intro i hlo _
  have hfr : (xs.take pos ++ new).length = pos + new.length := by
    rw [length_append, length_take]
    omega
  rw [overwrite, getElem?_append_right (by omega), getElem?_drop, hfr]
  congr 1
  omega

theorem slice_overwrite : slice (overwrite xs pos new) pos new.length = new := by
  have ht : (xs.take pos).length = pos := by
    rw [length_take]
    omega
  have hrig := slice_append_right (xs.take pos) (new ++ xs.drop (pos + new.length)) 0 new.length
  rw [ht, Nat.add_zero, ← append_assoc] at hrig
  rw [overwrite, hrig, slice, drop_zero, take_left']
  rfl

end Overwrite

theorem getElem?_overwrite {new : List α} {i : Nat} (h : pos + new.length ≤ xs.length)
    (hi : i < pos ∨ pos + new.length ≤ i) : (overwrite xs pos new)[i]? = xs[i]? := by
  rcases hi with hl | hrig
  · exact (sameOn_overwrite_left h i (Nat.zero_le i) hl).symm
  by_cases hin : i < xs.length
  · exact (sameOn_overwrite_right h i hrig hin).symm
  · have hlen := length_overwrite h
    rw [getElem?_eq_none (by omega), getElem?_eq_none (by omega)]

def overwriteAll (new : List α) (offsets : List Nat) (xs : List α) : List α :=
  offsets.foldl
    (fun xs pos => if pos + new.length ≤ xs.length then overwrite xs pos new else xs) xs

theorem overwriteAll_cons {new : List α} {offsets : List Nat} (h : pos + new.length ≤ xs.length) :
    overwriteAll new (pos :: offsets) xs = overwriteAll new offsets (overwrite xs pos new) := by
  rw [overwriteAll, foldl_cons, if_pos h]
  rfl

section OverwriteAll

variable {new : List α} {offsets : List Nat} {xs : List α}
  (h : ∀ pos ∈ offsets, pos + new.length ≤ xs.length)
include h

theorem length_overwriteAll : (overwriteAll new offsets xs).length = xs.length := by
  induction offsets generalizing xs with
  | nil => rfl
  | cons pos offsets ih =>
    rw [forall_mem_cons] at h
    have hlen := length_overwrite h.1
    rw [overwriteAll_cons h.1, ih (by rw [hlen]; exact h.2), hlen]

theorem getElem?_overwriteAll {i : Nat}
    (hi : ∀ pos ∈ offsets, i < pos ∨ pos + new.length ≤ i) :
    (overwriteAll new offsets xs)[i]? = xs[i]? := by
  induction offsets generalizing xs with
  | nil => rfl
  | cons pos offsets ih =>
    rw [forall_mem_cons] at h hi
    rw [overwriteAll_cons h.1, ih (by rw [length_overwrite h.1]; exact h.2) hi.2,
      getElem?_overwrite h.1 hi.1]

theorem slice_overwriteAll (hap : offsets.Pairwise fun pos next => pos + new.length ≤ next)
    {pos : Nat} (hpos : pos ∈ offsets) :
    slice (overwriteAll new offsets xs) pos new.length = new := by
  induction offsets generalizing xs with
  | nil => cases hpos
  | cons first offsets ih =>
    rw [forall_mem_cons] at h
    rw [pairwise_cons] at hap
    have hre : ∀ pos ∈ offsets, pos + new.length ≤ (overwrite xs first new).length := by
      rw [length_overwrite h.1]
      exact h.2
    rw [overwriteAll_cons h.1]
    rcases mem_cons.mp hpos with rfl | hin
    · -- The later parts lie behind this one, so it stays as it was written.
      have hsame : SameOn pos (pos + new.length) (overwrite xs pos new)
          (overwriteAll new offsets (overwrite xs pos new)) := by
        intro i _ hi
        refine (getElem?_overwriteAll hre fun next hne => Or.inl ?_).symm
        have hle := hap.1 next hne
        omega
      rw [← hsame.slice_eq (Nat.le_refl _) (Nat.le_refl _), slice_overwrite h.1]
    · exact ih hre hap.2 hin

end OverwriteAll

end Slice
