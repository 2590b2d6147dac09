import Mathlib.Data.Finmap

/-!
# Finite tables

A finite map from keys to values, in the form a program's hash map takes when
nothing depends on the order of its entries. The representation is Mathlib's
`Finmap`, so two tables with the same lookups are equal; what is added here is
the part of a hash map's interface `Finmap` leaves out: rewriting every value,
dropping the entries a function rejects, building a table from a list of pairs,
and deciding a property of all the entries.

Each operation is given by what a lookup in its result finds.
-/

abbrev Table (K V : Type) : Type :=
  Finmap fun _ : K => V

namespace Table

open Finmap

variable {K V W : Type} [DecidableEq K]

theorem lookup_insert_eq (t : Table K V) (k k' : K) (v : V) :
    (t.insert k v).lookup k' = if k' = k then some v else t.lookup k' := by
  by_cases h : k' = k
  · rw [if_pos h, h, lookup_insert]
  · rw [if_neg h, lookup_insert_of_ne _ h]

theorem lookup_erase_eq (t : Table K V) (k k' : K) :
    (t.erase k).lookup k' = if k' = k then none else t.lookup k' := by
  by_cases h : k' = k
  · rw [if_pos h, h, lookup_erase]
  · rw [if_neg h, lookup_erase_ne h]

theorem erase_insert_of_lookup_none {t : Table K V} {k : K} (v : V)
    (hn : t.lookup k = none) : (t.insert k v).erase k = t := by
  apply ext_lookup
  intro k'
  rw [lookup_erase_eq, lookup_insert_eq]
  by_cases h : k' = k
  · rw [if_pos h, h, hn]
  · rw [if_neg h, if_neg h]

theorem insert_lookup_self {t : Table K V} {k : K} {v : V} (hs : t.lookup k = some v) :
    t.insert k v = t := by
  apply ext_lookup
  intro k'
  rw [lookup_insert_eq]
  by_cases h : k' = k
  · rw [if_pos h, h, hs]
  · rw [if_neg h]

/-! ### Rewriting and dropping entries -/

private def keepList (f : K → V → Option W) (l : List (Sigma fun _ : K => V)) :
    List (Sigma fun _ : K => W) :=
  l.filterMap fun e => (f e.1 e.2).map fun w => ⟨e.1, w⟩

omit [DecidableEq K] in
private theorem keys_keepList_sublist (f : K → V → Option W)
    (l : List (Sigma fun _ : K => V)) : (keepList f l).keys.Sublist l.keys := by
  induction l with
  -- The induction is on the entries: each is dropped or stays where it was, and keeps its key.
  | nil => exact List.Sublist.slnil
  | cons e l ih =>
    unfold keepList at ih ⊢
    rcases h : f e.1 e.2 with _ | w
    · rw [List.filterMap_cons_none (by rw [h]; rfl)]
      exact ih.cons e.1
    · rw [List.filterMap_cons_some (by rw [h]; rfl)]
      exact ih.cons_cons e.1

def filterMapVals (f : K → V → Option W) (t : Table K V) : Table K W :=
  ⟨t.entries.filterMap fun e => (f e.1 e.2).map fun w => ⟨e.1, w⟩, by
    -- A table is a multiset without repeated keys; dropping entries repeats none.
    obtain ⟨entries, hnodup⟩ := t
    induction entries using Quotient.inductionOn with
    | h l => exact (keys_keepList_sublist f l).nodup hnodup⟩

@[simp] theorem lookup_filterMapVals (f : K → V → Option W) (t : Table K V) (k : K) :
    (t.filterMapVals f).lookup k = (t.lookup k).bind (f k) := by
  apply Option.ext
  intro w
  -- A lookup finds a value exactly when the entry is in the multiset, on both sides.
  rw [lookup_eq_some_iff, Option.bind_eq_some_iff]
  simp only [lookup_eq_some_iff]
  unfold filterMapVals
  rw [Multiset.mem_filterMap]
  constructor
  · rintro ⟨⟨k', v⟩, hmem, hv⟩
    obtain ⟨w', hw', heq⟩ := Option.map_eq_some_iff.mp hv
    cases heq
    exact ⟨v, hmem, hw'⟩
  · rintro ⟨v, hmem, hv⟩
    refine ⟨⟨k, v⟩, hmem, ?_⟩
    rw [Option.map_eq_some_iff]
    exact ⟨w, hv, rfl⟩

def mapVals (f : K → V → W) (t : Table K V) : Table K W :=
  t.filterMapVals fun k v => some (f k v)

@[simp] theorem lookup_mapVals (f : K → V → W) (t : Table K V) (k : K) :
    (t.mapVals f).lookup k = (t.lookup k).map (f k) := by
  unfold mapVals
  rw [lookup_filterMapVals]
  cases t.lookup k <;> rfl

theorem filterMapVals_mapVals {X : Type} (f : K → V → W) (g : K → W → Option X) (t : Table K V) :
    (t.mapVals f).filterMapVals g = t.filterMapVals fun k v => g k (f k v) := by
  apply ext_lookup
  intro k
  rw [lookup_filterMapVals, lookup_filterMapVals, lookup_mapVals]
  cases t.lookup k <;> rfl

theorem mapVals_insert (f : K → V → W) (t : Table K V) (k : K) (v : V) :
    mapVals f (t.insert k v) = (t.mapVals f).insert k (f k v) := by
  apply ext_lookup
  intro k'
  rw [lookup_mapVals, lookup_insert_eq, lookup_insert_eq, lookup_mapVals]
  by_cases h : k' = k
  · rw [if_pos h, if_pos h, h]
    rfl
  · rw [if_neg h, if_neg h]

/-! ### Tables from lists, and properties of all entries -/

/-- The table of a list of pairs. Where a key stands twice its first pair wins. -/
def ofList (l : List (K × V)) : Table K V :=
  l.foldr (fun e t => t.insert e.1 e.2) ∅

theorem lookup_ofList (l : List (K × V)) (k : K) : (ofList l).lookup k = l.lookup k := by
  induction l with
  | nil => exact lookup_empty k
  | cons e l ih =>
    -- The head of the list is inserted last, over any later pair of its key.
    change ((ofList l).insert e.1 e.2).lookup k = _
    rw [lookup_insert_eq, List.lookup_cons, ih]
    by_cases h : k = e.1
    · rw [if_pos h, beq_iff_eq.mpr h]
    · rw [if_neg h, beq_eq_false_iff_ne.mpr h]

def Forall (p : K → V → Prop) (t : Table K V) : Prop :=
  ∀ k v, t.lookup k = some v → p k v

theorem forall_iff_keys (p : K → V → Prop) (t : Table K V) :
    t.Forall p ↔ ∀ k ∈ t.keys, ∀ v ∈ t.lookup k, p k v := by
  constructor
  · intro h k _ v hv
    exact h k v hv
  · intro h k v hv
    exact h k (mem_keys.mpr (mem_of_lookup_eq_some hv)) v hv

instance (p : K → V → Prop) [∀ k v, Decidable (p k v)] (t : Table K V) :
    Decidable (t.Forall p) :=
  decidable_of_iff _ (forall_iff_keys p t).symm

end Table
