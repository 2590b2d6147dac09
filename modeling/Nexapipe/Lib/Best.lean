import Mathlib.Data.List.Induction

/-!
# The first of the best

A walk over a list that keeps the item of the greatest rank among those it accepts,
and of several with that rank the first. The walk answers with the item and its
place, since two items of a list may be equal and still be two.

`IsBest` says what such an answer is without the walk. There is at most one item of
that kind, so two walks give one answer exactly when one item is the best of both.
-/

namespace Best

open List Option

variable {α : Type} (rank : α → Nat) (ok : α → Bool)

/-- One item of the walk. It takes the place of the best so far only if its rank is
    greater. -/
def keep (best : Option (α × Nat)) (x : α × Nat) : Option (α × Nat) :=
  if ok x.1 then
    match best with
    | none => some x
    | some b => if rank b.1 < rank x.1 then some x else some b
  else best

def best (items : List α) : Option (α × Nat) :=
  items.zipIdx.foldl (keep rank ok) none

/-- The item at a place is accepted, no accepted item has a greater rank, and none
    before it has the same. -/
def IsBest (items : List α) (i : Nat) (x : α) : Prop :=
  items[i]? = some x ∧ ok x = true ∧ ∀ j y, items[j]? = some y → ok y = true →
    rank y < rank x ∨ rank y = rank x ∧ i ≤ j

variable {rank ok} {items : List α}

theorem best_append_singleton (items : List α) (x : α) :
    best rank ok (items ++ [x]) = keep rank ok (best rank ok items) (x, items.length) := by
  unfold best
  rw [zipIdx_append, foldl_append]
  simp

variable {x : α}

theorem getElem?_append_singleton {y : α} {j : Nat} :
    (items ++ [x])[j]? = some y ↔ items[j]? = some y ∨ j = items.length ∧ x = y := by
  by_cases hlt : j < items.length
  · rw [getElem?_append_left hlt]
    constructor
    · exact .inl
    · rintro (h | ⟨rfl, -⟩)
      · exact h
      · omega
  · have hn : items[j]? = none := getElem?_eq_none (by omega)
    rw [getElem?_append_right (by omega), hn]
    by_cases heq : j = items.length
    · simp [heq]
    · have hpos : j - items.length ≠ 0 := by omega
      simp [heq, hpos]

theorem IsBest.unique {i j : Nat} {y : α} (hx : IsBest rank ok items i x)
    (hy : IsBest rank ok items j y) : i = j ∧ x = y := by
  have hij := hx.2.2 j y hy.1 hy.2.1
  have hji := hy.2.2 i x hx.1 hx.2.1
  have hp : i = j := by omega
  refine ⟨hp, ?_⟩
  have hsame := hx.1
  rw [hp, hy.1] at hsame
  exact (some_inj.mp hsame).symm

theorem isBest_of_lt {i : Nat} (hget : items[i]? = some x) (hok : ok x = true)
    (hlt : ∀ j y, items[j]? = some y → ok y = true → j ≠ i → rank y < rank x) :
    IsBest rank ok items i x := by
  refine ⟨hget, hok, ?_⟩
  intro j y hj hy
  by_cases hji : j = i
  · have hsame : y = x := by
      rw [hji, hget] at hj
      exact (some_inj.mp hj).symm
    rw [hsame]
    exact .inr ⟨rfl, by omega⟩
  · exact .inl (hlt j y hj hy hji)

theorem best_spec (rank : α → Nat) (ok : α → Bool) (items : List α) :
    (∃ x i, best rank ok items = some (x, i) ∧ IsBest rank ok items i x) ∨
      best rank ok items = none ∧ ∀ x ∈ items, ok x = false := by
  -- From the right end, since the walk decides about the last item last.
  induction items using reverseRecOn with
  | nil => exact .inr ⟨rfl, fun x hx => absurd hx not_mem_nil⟩
  | append_singleton items z ih =>
    rw [best_append_singleton]
    by_cases hz : ok z = true
    · rcases ih with ⟨x, i, hbest, hfst, hok, hmax⟩ | ⟨hnone, hall⟩
      · have hlt : i < items.length := (List.getElem?_eq_some_iff.mp hfst).1
        by_cases hrank : rank x < rank z
        · -- The last item outranks all before it.
          refine .inl ⟨z, items.length, by simp [keep, hbest, hz, hrank], ?_, hz, ?_⟩
          · exact getElem?_append_singleton.mpr (.inr ⟨rfl, rfl⟩)
          · intro j y hj hy
            rcases getElem?_append_singleton.mp hj with hold | ⟨rfl, rfl⟩
            · have hle := hmax j y hold hy
              omega
            · omega
        · refine .inl ⟨x, i, by simp [keep, hbest, hz, hrank], ?_, hok, ?_⟩
          · exact getElem?_append_singleton.mpr (.inl hfst)
          · intro j y hj hy
            rcases getElem?_append_singleton.mp hj with hold | ⟨rfl, rfl⟩
            · exact hmax j y hold hy
            · omega
      · refine .inl ⟨z, items.length, by simp [keep, hnone, hz], ?_, hz, ?_⟩
        · exact getElem?_append_singleton.mpr (.inr ⟨rfl, rfl⟩)
        · intro j y hj hy
          rcases getElem?_append_singleton.mp hj with hold | ⟨rfl, rfl⟩
          · simp [hall y (mem_of_getElem? hold)] at hy
          · omega
    · have hskip : keep rank ok (best rank ok items) (z, items.length) = best rank ok items := by
        simp [keep, hz]
      rw [hskip]
      rcases ih with ⟨x, i, hbest, hfst, hok, hmax⟩ | ⟨hnone, hall⟩
      · refine .inl ⟨x, i, hbest, getElem?_append_singleton.mpr (.inl hfst), hok, ?_⟩
        intro j y hj hy
        rcases getElem?_append_singleton.mp hj with hold | ⟨rfl, rfl⟩
        · exact hmax j y hold hy
        · exact absurd hy hz
      · refine .inr ⟨hnone, ?_⟩
        intro x hx
        rcases mem_append.mp hx with hold | hlast
        · exact hall x hold
        · rw [mem_singleton.mp hlast]
          simpa using hz

theorem best_eq_some_iff {i : Nat} :
    best rank ok items = some (x, i) ↔ IsBest rank ok items i x := by
  rcases best_spec rank ok items with ⟨y, j, hbe, hisb⟩ | ⟨hno, hall⟩
  · rw [hbe, some_inj, Prod.mk.injEq]
    constructor
    · rintro ⟨rfl, rfl⟩
      exact hisb
    · intro h
      rcases hisb.unique h with ⟨rfl, rfl⟩
      exact ⟨rfl, rfl⟩
  · rw [hno]
    constructor
    · intro h
      cases h
    · intro h
      have hok := h.2.1
      rw [hall x (mem_of_getElem? h.1)] at hok
      cases hok

theorem best_eq_none_iff : best rank ok items = none ↔ ∀ x ∈ items, ok x = false := by
  rcases best_spec rank ok items with ⟨y, j, hb, hisb⟩ | ⟨hn, hall⟩
  · rw [hb]
    constructor
    · intro h
      cases h
    · intro h
      have hok := hisb.2.1
      rw [h y (mem_of_getElem? hisb.1)] at hok
      cases hok
  · exact ⟨fun _ => hall, fun _ => hn⟩

theorem best_eq_best_iff {ok' : α → Bool} :
    best rank ok items = best rank ok' items ↔
      (∀ i x, IsBest rank ok items i x → ok' x = true) ∧
        ∀ i x, IsBest rank ok' items i x → ok x = true := by
  constructor
  · intro hsame
    refine ⟨?_, ?_⟩
    · intro i x hbe
      rw [← best_eq_some_iff, hsame, best_eq_some_iff] at hbe
      exact hbe.2.1
    · intro i x hbe
      rw [← best_eq_some_iff, ← hsame, best_eq_some_iff] at hbe
      exact hbe.2.1
  · rintro ⟨hfst, hsec⟩
    rcases best_spec rank ok items with ⟨x, i, hbe, hx⟩ | ⟨hno, hall⟩
    · rcases best_spec rank ok' items with ⟨y, j, hbe', hy⟩ | ⟨hno', hall'⟩
      · -- Each of the two takes part in the other walk, and neither is outranked there.
        have hxy := hx.2.2 j y hy.1 (hsec j y hy)
        have hyx := hy.2.2 i x hx.1 (hfst i x hx)
        have hpl : i = j := by omega
        have hit := hx.1
        rw [hpl, hy.1] at hit
        rw [hbe, hbe', hpl, some_inj.mp hit]
      · have hok := hfst i x hx
        rw [hall' x (mem_of_getElem? hx.1)] at hok
        cases hok
    · rcases best_spec rank ok' items with ⟨y, j, hbe', hy⟩ | ⟨hno', hall'⟩
      · have hok := hsec j y hy
        rw [hall y (mem_of_getElem? hy.1)] at hok
        cases hok
      · rw [hno, hno']

end Best
