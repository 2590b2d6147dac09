import Mathlib.Data.List.Basic
import Mathlib.Data.List.Nodup
import Mathlib.Tactic.Common

/-!
# Ordered entries

A table that keeps the order its entries were written in: a list of pairs, read
with `List.lookup`. This is what an edited document is made of, where a write
replaces one value in place, or appends it, and leaves every other entry where
it stands.

The keys of a table are distinct. That is a property of the list here and not a
field of a type, because documents nest such lists inside one another; each
operation keeps it.

The second part is about reading such a list entry by entry with a function that can fail.
-/

abbrev Entries (K V : Type) : Type :=
  List (K × V)

namespace Entries

open List

variable {K V W ε : Type} [DecidableEq K]

/-- Writes `v` at `k`, in place when the key is there and at the end otherwise. -/
def set (k : K) (v : V) : Entries K V → Entries K V
  | [] => [(k, v)]
  | e :: rest => if e.1 = k then (k, v) :: rest else e :: set k v rest

def remove (k : K) (t : Entries K V) : Entries K V :=
  t.filter fun e => e.1 ≠ k

def modify (k : K) (f : V → V) (t : Entries K V) : Entries K V :=
  t.map fun e => if e.1 = k then (e.1, f e.2) else e

def Distinct (t : Entries K V) : Prop :=
  (t.map Prod.fst).Nodup

instance (t : Entries K V) : Decidable t.Distinct :=
  inferInstanceAs (Decidable (List.Nodup _))

/-! ### Lookups -/

section Lookup

variable [BEq K] [LawfulBEq K]

theorem lookup_cons_eq (e : K × V) (t : Entries K V) (k : K) :
    List.lookup k (e :: t) = if k = e.1 then some e.2 else List.lookup k t := by
  rw [lookup_cons]
  by_cases h : k = e.1
  · rw [if_pos h, beq_iff_eq.mpr h]
  · rw [if_neg h, beq_eq_false_iff_ne.mpr h]

theorem lookup_set (k k' : K) (v : V) (t : Entries K V) :
    (set k v t).lookup k' = if k' = k then some v else t.lookup k' := by
  induction t with
  -- Either the head is the entry written over, or the write is further down.
  | nil => exact lookup_cons_eq (k, v) [] k'
  | cons e rest ih =>
    unfold set
    by_cases he : e.1 = k
    · rw [if_pos he, lookup_cons_eq, lookup_cons_eq, he]
      by_cases hk : k' = k
      · rw [if_pos hk, if_pos hk]
      · rw [if_neg hk, if_neg hk, if_neg hk]
    · rw [if_neg he, lookup_cons_eq, lookup_cons_eq, ih]
      by_cases hk : k' = k
      · have hne : k' ≠ e.1 := fun h => he (h.symm.trans hk)
        rw [if_neg hne, if_pos hk, if_pos hk]
      · rw [if_neg hk, if_neg hk]

variable {t : Entries K V}

theorem of_lookup_set {k k' : K} {v w : V} (h : (set k v t).lookup k' = some w) :
    k' = k ∧ w = v ∨ t.lookup k' = some w := by
  rw [lookup_set] at h
  by_cases hk : k' = k
  · rw [if_pos hk] at h
    cases h
    exact .inl ⟨hk, rfl⟩
  · rw [if_neg hk] at h
    exact .inr h

theorem lookup_remove (k k' : K) (t : Entries K V) :
    (remove k t).lookup k' = if k' = k then none else t.lookup k' := by
  unfold remove
  induction t with
  | nil => rw [filter_nil, lookup_nil, ite_self]
  | cons e rest ih =>
    rw [filter_cons, lookup_cons_eq]
    by_cases he : e.1 = k
    -- The head is dropped; a lookup of its key finds nothing below it either.
    · rw [if_neg (by simp [he]), ih, he]
      by_cases hk : k' = k
      · rw [if_pos hk, if_pos hk]
      · rw [if_neg hk, if_neg hk, if_neg hk]
    · rw [if_pos (by simp [he]), lookup_cons_eq, ih]
      by_cases hk : k' = k
      · have hne : k' ≠ e.1 := fun h => he (h.symm.trans hk)
        rw [if_neg hne, if_pos hk, if_pos hk]
      · rw [if_neg hk, if_neg hk]

theorem of_lookup_remove {k k' : K} {v : V} (h : (remove k t).lookup k' = some v) :
    k' ≠ k ∧ t.lookup k' = some v := by
  rw [lookup_remove] at h
  by_cases hk : k' = k
  · simp [hk] at h
  · rw [if_neg hk] at h
    exact ⟨hk, h⟩

theorem lookup_map (f : V → W) (t : Entries K V) (k : K) :
    List.lookup k (t.map fun e => (e.1, f e.2)) = (t.lookup k).map f := by
  induction t with
  | nil => rfl
  | cons e rest ih =>
    rw [map_cons, lookup_cons_eq, lookup_cons_eq, ih]
    by_cases hk : k = e.1
    · rw [if_pos hk, if_pos hk]
      rfl
    · rw [if_neg hk, if_neg hk]

theorem lookup_modify (f : V → V) (t : Entries K V) (k k' : K) :
    List.lookup k' (modify k f t) =
      if k' = k then (t.lookup k').map f else t.lookup k' := by
  unfold modify
  induction t with
  | nil => simp
  | cons e rest ih =>
    rw [map_cons, lookup_cons_eq, lookup_cons_eq, ih]
    by_cases hkey : e.1 = k
    · rw [if_pos hkey]
      by_cases hk : k' = e.1
      · rw [if_pos hk, if_pos hk, if_pos (hk.trans hkey)]
        rfl
      · rw [if_neg hk, if_neg hk]
    · rw [if_neg hkey]
      by_cases hk : k' = e.1
      · have hne : ¬k' = k := fun h => hkey (hk.symm.trans h)
        rw [if_pos hk, if_neg hne, if_pos hk]
      · rw [if_neg hk, if_neg hk]

theorem length_set (k : K) (v : V) (t : Entries K V) :
    (set k v t).length = if (t.lookup k).isSome then t.length else t.length + 1 := by
  induction t with
  | nil => rfl
  | cons e rest ih =>
    unfold set
    rw [lookup_cons_eq]
    by_cases he : e.1 = k
    · rw [if_pos he, if_pos he.symm]
      rfl
    have hne : ¬k = e.1 := fun h => he h.symm
    rw [if_neg he, if_neg hne, length_cons, ih, length_cons]
    split <;> rfl

theorem mem_of_lookup {k : K} {v : V} (h : t.lookup k = some v) : (k, v) ∈ t := by
  induction t with
  | nil => cases h
  | cons e rest ih =>
    rw [lookup_cons_eq] at h
    by_cases hk : k = e.1
    · rw [if_pos hk] at h
      cases h
      rw [hk]
      exact mem_cons_self
    · rw [if_neg hk] at h
      exact mem_cons_of_mem _ (ih h)

theorem Distinct.lookup_of_mem (hd : t.Distinct) {k : K} {v : V} (h : (k, v) ∈ t) :
    t.lookup k = some v := by
  induction t with
  | nil => cases h
  | cons e rest ih =>
    have hc : (e.1 :: rest.map Prod.fst).Nodup := hd
    rw [nodup_cons] at hc
    rw [lookup_cons_eq]
    rcases mem_cons.mp h with hh | ht
    · rw [← hh, if_pos rfl]
    -- The key of an entry further down is not the head's, or it would stand twice.
    · have hne : k ≠ e.1 := by
        intro hk
        exact hc.1 (hk ▸ mem_map_of_mem ht)
      rw [if_neg hne]
      exact ih hc.2 ht

end Lookup

/-! ### Entries and keys after a write -/

variable {e : K × V} {t : Entries K V} {f : K → V → Except ε W}

theorem mem_set {k : K} {v : V} (h : e ∈ set k v t) : e = (k, v) ∨ e ∈ t := by
  induction t with
  | nil => exact .inl (mem_singleton.mp h)
  | cons e' rest ih =>
    unfold set at h
    by_cases he : e'.1 = k
    · rw [if_pos he] at h
      rcases mem_cons.mp h with hh | ht
      · exact .inl hh
      · exact .inr (mem_cons_of_mem _ ht)
    · rw [if_neg he] at h
      rcases mem_cons.mp h with hh | ht
      · exact .inr (hh ▸ mem_cons_self)
      · exact (ih ht).imp_right (mem_cons_of_mem _)

theorem mem_remove {k : K} : e ∈ remove k t ↔ e ∈ t ∧ e.1 ≠ k := by
  unfold remove
  rw [mem_filter, decide_eq_true_iff]

theorem Distinct.set (hd : t.Distinct) (k : K) (v : V) : (Entries.set k v t).Distinct := by
  induction t with
  | nil => exact nodup_singleton k
  | cons e rest ih =>
    have hco : (e.1 :: rest.map Prod.fst).Nodup := hd
    unfold Entries.set
    by_cases he : e.1 = k
    · rw [if_pos he]
      exact he ▸ hd
    rw [if_neg he]
    rw [nodup_cons] at hco
    refine nodup_cons.mpr ⟨?_, ih hco.2⟩
    -- The key of the head is new to the rest, and is not the key written.
    intro hmem
    rcases mem_map.mp hmem with ⟨e', he', hkey⟩
    rcases mem_set he' with hnew | hold
    · exact he (hkey.symm.trans (congrArg Prod.fst hnew))
    · exact hco.1 (hkey ▸ mem_map_of_mem hold)

@[simp] theorem length_modify (k : K) (f : V → V) (t : Entries K V) :
    (modify k f t).length = t.length :=
  length_map _

theorem Distinct.modify (hd : t.Distinct) (k : K) (f : V → V) :
    (Entries.modify k f t).Distinct := by
  have hk : (Entries.modify k f t).map Prod.fst = t.map Prod.fst := by
    unfold Entries.modify
    rw [map_map]
    refine map_congr_left fun e _ => ?_
    rw [Function.comp]
    split <;> rfl
  rw [Distinct, hk]
  exact hd

theorem Distinct.remove (hd : t.Distinct) (k : K) : (Entries.remove k t).Distinct :=
  List.Nodup.sublist (List.Sublist.map _ filter_sublist) hd

theorem remove_set (k : K) (v : V) (t : Entries K V) : remove k (set k v t) = remove k t := by
  induction t with
  | nil => simp [set, remove]
  | cons e rest ih =>
    unfold set
    by_cases he : e.1 = k
    · simp [remove, he]
    rw [if_neg he]
    unfold remove at ih ⊢
    rw [filter_cons, filter_cons, ih]

/-! ### Reading every entry -/

def readEach (f : K → V → Except ε W) : Entries K V → Except ε (Entries K W)
  | [] => .ok []
  | e :: rest =>
    match f e.1 e.2 with
    | .error why => .error why
    | .ok w =>
      match readEach f rest with
      | .error why => .error why
      | .ok ws => .ok ((e.1, w) :: ws)

omit [DecidableEq K] in
theorem readEach_cons_ok {rest : Entries K V} {ws : Entries K W} :
    readEach f (e :: rest) = .ok ws ↔
      ∃ w ws', f e.1 e.2 = .ok w ∧ readEach f rest = .ok ws' ∧ ws = (e.1, w) :: ws' := by
  rw [readEach]
  rcases f e.1 e.2 with why | w
  · simp
  cases readEach f rest with
  | error why => simp
  | ok ws' => simp [eq_comm]

omit [DecidableEq K] in
theorem readEach_isOk_iff : (∃ ws, readEach f t = .ok ws) ↔ ∀ e ∈ t, ∃ w, f e.1 e.2 = .ok w := by
  induction t with
  | nil => exact ⟨fun _ e he => absurd he not_mem_nil, fun _ => ⟨[], rfl⟩⟩
  | cons e rest ih =>
    rw [forall_mem_cons, ← ih]
    constructor
    · intro h
      rcases h with ⟨ws, hws⟩
      rcases readEach_cons_ok.mp hws with ⟨w, ws', hw, hws', _⟩
      exact ⟨⟨w, hw⟩, ws', hws'⟩
    · intro h
      rcases h with ⟨⟨w, hw⟩, ws', hws'⟩
      exact ⟨(e.1, w) :: ws', readEach_cons_ok.mpr ⟨w, ws', hw, hws', rfl⟩⟩

theorem lookup_readEach {ws : Entries K W} (h : readEach f t = .ok ws) (k : K) :
    ws.lookup k = (t.lookup k).bind fun v => (f k v).toOption := by
  induction t generalizing ws with
  | nil =>
    cases h
    rfl
  | cons e rest ih =>
    rcases readEach_cons_ok.mp h with ⟨w, ws', hw, hws', rfl⟩
    rw [lookup_cons_eq, lookup_cons_eq, ih hws']
    by_cases hk : k = e.1
    · rw [if_pos hk, if_pos hk, Option.bind_some, hk, hw]
      rfl
    · rw [if_neg hk, if_neg hk]

section

variable {U ε' : Type} {f : K → V → Except ε W} {g : K → W → Except ε' U} {t : Entries K V}

def readTwice (f : K → V → Except ε W) (g : K → W → Except ε' U) (k : K) (v : V) : Option U :=
  (f k v).toOption.bind fun w => (g k w).toOption

omit [DecidableEq K] in
theorem readTwice_eq_some {k : K} {v : V} {u : U} :
    readTwice f g k v = some u ↔ ∃ w, f k v = .ok w ∧ g k w = .ok u := by
  unfold readTwice
  rcases f k v with why | w
  · simp [Except.toOption]
  · cases hg : g k w with
    | error | ok => simp [Except.toOption, hg]

omit [DecidableEq K] in
theorem readEach_twice_isOk_iff :
    (∃ ws us, readEach f t = .ok ws ∧ readEach g ws = .ok us) ↔
      ∀ e ∈ t, (readTwice f g e.1 e.2).isSome := by
  induction t with
  | nil => exact ⟨fun _ e he => absurd he not_mem_nil, fun _ => ⟨[], [], rfl, rfl⟩⟩
  | cons e rest ih =>
    rw [forall_mem_cons, ← ih, Option.isSome_iff_exists]
    constructor
    · intro h
      rcases h with ⟨ws, us, hws, hus⟩
      rcases readEach_cons_ok.mp hws with ⟨w, ws', hw, hws', rfl⟩
      rcases readEach_cons_ok.mp hus with ⟨u, us', hu, hus', rfl⟩
      exact ⟨⟨u, readTwice_eq_some.mpr ⟨w, hw, hu⟩⟩, ws', us', hws', hus'⟩
    · intro h
      rcases h with ⟨⟨u, hu⟩, ws', us', hws', hus'⟩
      rcases readTwice_eq_some.mp hu with ⟨w, hw, hgu⟩
      exact ⟨(e.1, w) :: ws', (e.1, u) :: us', readEach_cons_ok.mpr ⟨w, ws', hw, hws', rfl⟩,
        readEach_cons_ok.mpr ⟨u, us', hgu, hus', rfl⟩⟩

theorem lookup_readEach_twice {ws : Entries K W} {us : Entries K U} (hws : readEach f t = .ok ws)
    (hus : readEach g ws = .ok us) (k : K) :
    us.lookup k = (t.lookup k).bind (readTwice f g k) := by
  -- The second pass looks up in what the first returned, which looks up in the list.
  rw [lookup_readEach hus, lookup_readEach hws, Option.bind_assoc]
  rfl

end

end Entries
