import Mathlib.Data.List.DropRight

/-!
# Trimming

Taking off, at one end of a list or at both, the elements a predicate is true of.
A list is trimmed when it does not begin or end with such an element, and what is
left after trimming is trimmed. `strip_append` computes the other way round: a
trimmed core between two runs of such elements is what stripping gives.
-/

namespace Trim

open List

variable {α β : Type} {p : α → Bool}

def strip (p : α → Bool) (s : List α) : List α :=
  (s.dropWhile p).rdropWhile p

/-! ### The right end -/

theorem rdropWhile_append_all {r : List α} (s : List α) (hr : ∀ c ∈ r, p c = true) :
    (s ++ r).rdropWhile p = s.rdropWhile p := by
  induction r using reverseRecOn with
  | nil => rw [append_nil]
  | append_singleton r c ih =>
    have hc : p c = true := hr c (by simp)
    rw [← append_assoc, rdropWhile_concat_pos p _ c hc]
    exact ih fun d hd => hr d (by simp [hd])

variable {s : List α} {c : α}

theorem rdropWhile_of_last (h : ∀ c ∈ s.getLast?, p c = false) : s.rdropWhile p = s := by
  rw [rdropWhile_eq_self_iff]
  intro hne
  rw [h _ (by rw [getLast?_eq_getLast_of_ne_nil hne]; rfl)]
  decide

theorem last_rdropWhile (h : (s.rdropWhile p).getLast? = some c) : p c = false := by
  have hne : s.rdropWhile p ≠ [] := by
    intro hnil
    rw [hnil] at h
    cases h
  have hl := rdropWhile_last_not p s hne
  rw [getLast?_eq_getLast_of_ne_nil hne] at h
  cases h
  exact Bool.eq_false_iff.mpr hl

theorem exists_rdropWhile (p : α → Bool) (s : List α) :
    ∃ r, s = s.rdropWhile p ++ r ∧ ∀ c ∈ r, p c = true :=
  ⟨s.rtakeWhile p, (rdropWhile_append_rtakeWhile).symm,
    fun _ hc => mem_rtakeWhile_imp hc⟩

theorem head_rdropWhile (h : (s.rdropWhile p).head? = some c) : s.head? = some c := by
  rcases exists_rdropWhile p s with ⟨r, hr, -⟩
  rw [hr, head?_append, h]
  rfl

theorem rdropWhile_append_cons (hc : p c = false) (s t : List α) :
    (s ++ c :: t).rdropWhile p = s ++ c :: t.rdropWhile p := by
  rcases exists_rdropWhile p t with ⟨r, ht, hr⟩
  have hsp : s ++ c :: t = s ++ c :: t.rdropWhile p ++ r := by
    rw [append_assoc, cons_append, ← ht]
  rw [hsp, rdropWhile_append_all _ hr]
  refine rdropWhile_of_last fun d hd => ?_
  rw [getLast?_append_of_ne_nil _ (cons_ne_nil c _)] at hd
  -- The last element is what is left of the tail, or the element itself.
  rcases hl : (t.rdropWhile p).getLast? with _ | e
  · rw [getLast?_cons, hl] at hd
    cases hd
    exact hc
  rw [getLast?_cons, hl] at hd
  cases hd
  exact last_rdropWhile hl

theorem rdropWhile_append_of_exists {t : List α} (h : ∃ c ∈ t, p c = false) (s : List α) :
    (s ++ t).rdropWhile p = s ++ t.rdropWhile p := by
  rcases h with ⟨c, hmem, hc⟩
  rcases append_of_mem hmem with ⟨u, v, rfl⟩
  rw [← append_assoc, rdropWhile_append_cons hc, rdropWhile_append_cons hc,
    append_assoc]

theorem rdropWhile_map (f : α → β) (q : β → Bool) (s : List α) :
    (s.map f).rdropWhile q = (s.rdropWhile (q ∘ f)).map f := by
  unfold rdropWhile
  rw [← map_reverse, dropWhile_map, map_reverse]

/-! ### The left end -/

theorem dropWhile_of_head (h : ∀ c ∈ s.head?, p c = false) : s.dropWhile p = s := by
  rcases s with _ | ⟨c, rest⟩
  · rfl
  · rw [dropWhile_cons_of_neg (by rw [h c rfl]; decide)]

theorem head_dropWhile (h : (s.dropWhile p).head? = some c) : p c = false := by
  have hnot := head?_dropWhile_not p s
  rw [h] at hnot
  exact hnot

theorem exists_dropWhile (p : α → Bool) (s : List α) :
    ∃ l, s = l ++ s.dropWhile p ∧ ∀ c ∈ l, p c = true :=
  ⟨s.takeWhile p, (takeWhile_append_dropWhile).symm, fun _ hc => mem_takeWhile_imp hc⟩

/-! ### Both ends -/

theorem length_rdropWhile_dropWhile_le (q : α → Bool) (s : List α) :
    ((s.dropWhile p).rdropWhile q).length ≤ (s.rdropWhile q).length := by
  rcases exists_dropWhile p s with ⟨l, hl, -⟩
  by_cases hq : ∃ c ∈ s.dropWhile p, q c = false
  · have hs : s.rdropWhile q = l ++ (s.dropWhile p).rdropWhile q := by
      conv_lhs => rw [hl]
      exact rdropWhile_append_of_exists hq l
    rw [hs, length_append]
    exact Nat.le_add_left _ _
  · have hnil : (s.dropWhile p).rdropWhile q = [] := by
      rw [rdropWhile_eq_nil_iff]
      intro c hc
      exact Bool.of_not_eq_false fun hcq => hq ⟨c, hc, hcq⟩
    rw [hnil]
    exact Nat.zero_le _

theorem strip_append {l core r : List α} (hl : ∀ c ∈ l, p c = true) (hr : ∀ c ∈ r, p c = true)
    (hh : ∀ c ∈ core.head?, p c = false) (hla : ∀ c ∈ core.getLast?, p c = false) :
    strip p (l ++ core ++ r) = core := by
  unfold strip
  rw [append_assoc, dropWhile_append_of_pos hl]
  rcases core with _ | ⟨c, rest⟩
  · rw [nil_append, rdropWhile_eq_nil_iff]
    intro c hc
    exact hr c (dropWhile_sublist _ |>.subset hc)
  · rw [cons_append, dropWhile_cons_of_neg (by rw [hh c rfl]; decide),
      ← cons_append, rdropWhile_append_all _ hr, rdropWhile_of_last hla]

theorem exists_strip (p : α → Bool) (s : List α) :
    ∃ l r, s = l ++ strip p s ++ r ∧ (∀ c ∈ l, p c = true) ∧ ∀ c ∈ r, p c = true := by
  rcases exists_dropWhile p s with ⟨l, hl, hla⟩
  rcases exists_rdropWhile p (s.dropWhile p) with ⟨r, hr, hra⟩
  refine ⟨l, r, ?_, hla, hra⟩
  rw [append_assoc]
  unfold strip
  rw [← hr, ← hl]

theorem last_strip (h : (strip p s).getLast? = some c) : p c = false :=
  last_rdropWhile h

theorem head_strip (h : (strip p s).head? = some c) : p c = false :=
  head_dropWhile (head_rdropWhile h)

theorem strip_map (f : α → β) (q : β → Bool) (s : List α) :
    strip q (s.map f) = (strip (q ∘ f) s).map f := by
  unfold strip
  rw [dropWhile_map, rdropWhile_map]

end Trim
