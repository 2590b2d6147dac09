import Nexapipe.Lib.Table

/-!
# Background tasks kept in step with what is wanted

A program keeps one background task for each thing it wants watched. It holds the handle of
each task in a table by key, beside what the task watches, and from time to time it
brings the table in step with what is wanted now: tasks that watch something no longer
wanted under their key are stopped, and tasks for keys without one are started.

A handle that is lost is a task that cannot be stopped any more, so the tasks that run are kept
apart from the table of handles here.
-/

namespace Reconcile

variable {K R T : Type} [DecidableEq K]

structure Tasks (K R T : Type) where
  running : Table K (R × Nat)
  alive : Table Nat T
  next : Nat

def Tasks.empty : Tasks K R T :=
  { running := ∅, alive := ∅, next := 0 }

def Stale (running : Table K (R × Nat)) (keep : K → R → Bool) (task : Nat) : Prop :=
  ∃ k ∈ running.keys, ∃ v ∈ running.lookup k, v.2 = task ∧ keep k v.1 = false

instance (running : Table K (R × Nat)) (keep : K → R → Bool) (task : Nat) :
    Decidable (Stale running keep task) :=
  inferInstanceAs (Decidable (∃ k ∈ running.keys, ∃ v ∈ running.lookup k, _ ∧ _))

def stopStale (keep : K → R → Bool) (s : Tasks K R T) : Tasks K R T :=
  { s with
    running := s.running.filterMapVals fun k v => if keep k v.1 then some v else none
    alive := s.alive.filterMapVals fun t a => if Stale s.running keep t then none else some a }

def start (key : K) (r : R) (a : T) (s : Tasks K R T) : Tasks K R T :=
  { running := s.running.insert key (r, s.next)
    alive := s.alive.insert s.next a
    next := s.next + 1 }

def startMissing (want : K → Option (R × T)) : List K → Tasks K R T → Tasks K R T
  | [], s => s
  | key :: keys, s =>
    startMissing want keys
      (if (s.running.lookup key).isSome then s
      else
        match want key with
        | some (r, a) => start key r a s
        | none => s)

/-! ### Handles are not lost -/

/-- Every handle is that of a running task that watches what stands beside it, every task
    that runs has its handle in the table, and no two keys have one handle. -/
structure WellKept (watches : T → R) (s : Tasks K R T) : Prop where
  handle : ∀ k r t, s.running.lookup k = some (r, t) →
    ∃ a, s.alive.lookup t = some a ∧ watches a = r
  owner : ∀ t a, s.alive.lookup t = some a → ∃ k, s.running.lookup k = some (watches a, t)
  once : ∀ k k' r r' t, s.running.lookup k = some (r, t) → s.running.lookup k' = some (r', t) →
    k = k'
  below : ∀ t a, s.alive.lookup t = some a → t < s.next

theorem WellKept.empty (watches : T → R) : WellKept watches (Tasks.empty : Tasks K R T) where
  handle k r t h := by simp [Tasks.empty] at h
  owner t a h := by simp [Tasks.empty] at h
  once k k' r r' t h := by simp [Tasks.empty] at h
  below t a h := by simp [Tasks.empty] at h

variable {k : K} {keep : K → R → Bool} {s : Tasks K R T} {watches : T → R} {keys : List K}
  {want : K → Option (R × T)}

theorem lookup_stopStale_eq_some_iff {v : R × Nat} :
    (stopStale keep s).running.lookup k = some v ↔
      s.running.lookup k = some v ∧ keep k v.1 = true := by
  unfold stopStale
  rw [Table.lookup_filterMapVals, Option.bind_eq_some_iff]
  constructor
  · rintro ⟨v', hv', hk⟩
    by_cases h : keep k v'.1 = true
    · rw [if_pos h] at hk
      cases hk
      exact ⟨hv', h⟩
    · simp [if_neg h] at hk
  · rintro ⟨hv, hk⟩
    exact ⟨v, hv, if_pos hk⟩

theorem alive_stopStale_eq_some_iff {t : Nat} {a : T} :
    (stopStale keep s).alive.lookup t = some a ↔
      s.alive.lookup t = some a ∧ ¬Stale s.running keep t := by
  unfold stopStale
  rw [Table.lookup_filterMapVals, Option.bind_eq_some_iff]
  constructor
  · rintro ⟨a', ha', hs⟩
    by_cases h : Stale s.running keep t
    · simp [if_pos h] at hs
    rw [if_neg h] at hs
    cases hs
    exact ⟨ha', h⟩
  · rintro ⟨ha, hs⟩
    exact ⟨a, ha, if_neg hs⟩

theorem WellKept.stopStale (h : WellKept watches s) (keep : K → R → Bool) :
    WellKept watches (stopStale keep s) where
  handle k r t hk := by
    obtain ⟨hrun, hke⟩ := lookup_stopStale_eq_some_iff.mp hk
    obtain ⟨a, ha, hwat⟩ := h.handle k r t hrun
    refine ⟨a, alive_stopStale_eq_some_iff.mpr ⟨ha, ?_⟩, hwat⟩
    -- The handle of a stale task stands under another key, which would be this one.
    rintro ⟨k', -, ⟨r', t'⟩, hrun', rfl, hst⟩
    cases h.once k k' r r' _ hrun hrun'
    cases hrun.symm.trans hrun'
    rw [hke] at hst
    cases hst
  owner t a ha := by
    obtain ⟨hal, hst⟩ := alive_stopStale_eq_some_iff.mp ha
    obtain ⟨k, hk⟩ := h.owner t a hal
    refine ⟨k, lookup_stopStale_eq_some_iff.mpr ⟨hk, ?_⟩⟩
    by_contra hke
    exact hst ⟨k, Finmap.mem_keys.mpr (Finmap.mem_of_lookup_eq_some hk), _, hk, rfl,
      Bool.eq_false_iff.mpr hke⟩
  once k k' r r' t hk hk' :=
    h.once k k' r r' t (lookup_stopStale_eq_some_iff.mp hk).1
      (lookup_stopStale_eq_some_iff.mp hk').1
  below t a ha := h.below t a (alive_stopStale_eq_some_iff.mp ha).1

theorem lookup_start (s : Tasks K R T) (key k : K) (r : R) (a : T) :
    (start key r a s).running.lookup k =
      if k = key then some (r, s.next) else s.running.lookup k :=
  Table.lookup_insert_eq _ _ _ _

theorem alive_start (s : Tasks K R T) (key : K) (r : R) (a : T) (t : Nat) :
    (start key r a s).alive.lookup t = if t = s.next then some a else s.alive.lookup t :=
  Table.lookup_insert_eq _ _ _ _

theorem WellKept.start (h : WellKept watches s) {key : K} {r : R} {a : T}
    (hkey : s.running.lookup key = none) (hwat : watches a = r) :
    WellKept watches (start key r a s) := by
  -- The new task's number is above those of all handles.
  have hbel : ∀ k r t, s.running.lookup k = some (r, t) → t < s.next := by
    intro k r t hk
    obtain ⟨b, hb, -⟩ := h.handle k r t hk
    exact h.below t b hb
  refine ⟨?_, ?_, ?_, ?_⟩
  · intro k r' t hk
    rw [lookup_start] at hk
    by_cases heq : k = key
    · rw [if_pos heq] at hk
      cases hk
      exact ⟨a, by rw [alive_start, if_pos rfl], hwat⟩
    rw [if_neg heq] at hk
    obtain ⟨b, hb, hwb⟩ := h.handle k r' t hk
    have hlt := hbel k r' t hk
    exact ⟨b, by rw [alive_start, if_neg (by omega), hb], hwb⟩
  · intro t b hb
    rw [alive_start] at hb
    by_cases heq : t = s.next
    · rw [if_pos heq] at hb
      cases hb
      exact ⟨key, by rw [lookup_start, if_pos rfl, heq, hwat]⟩
    rw [if_neg heq] at hb
    obtain ⟨k, hk⟩ := h.owner t b hb
    have hne : k ≠ key := by
      rintro rfl
      rw [hkey] at hk
      cases hk
    exact ⟨k, by rw [lookup_start, if_neg hne, hk]⟩
  · intro k k' r₁ r₂ t hk hk'
    rw [lookup_start] at hk hk'
    by_cases heq : k = key
    · by_cases heq' : k' = key
      · rw [heq, heq']
      rw [if_pos heq] at hk
      rw [if_neg heq'] at hk'
      cases hk
      have hlt := hbel k' r₂ _ hk'
      omega
    · rw [if_neg heq] at hk
      by_cases heq' : k' = key
      · rw [if_pos heq'] at hk'
        cases hk'
        have hlt := hbel k r₁ _ hk
        omega
      · rw [if_neg heq'] at hk'
        exact h.once k k' r₁ r₂ t hk hk'
  · intro t b hb
    have hnext : (Reconcile.start key r a s).next = s.next + 1 := rfl
    rw [alive_start] at hb
    by_cases heq : t = s.next
    · omega
    rw [if_neg heq] at hb
    have hlt := h.below t b hb
    omega

/-! ### What is started -/

theorem turn_cases (want : K → Option (R × T)) (key : K) (s : Tasks K R T) :
    let s' := if (s.running.lookup key).isSome then s
      else
        match want key with
        | some (r, a) => start key r a s
        | none => s
    (s' = s ∧ ((s.running.lookup key).isSome = true ∨ want key = none)) ∨
      ∃ r a, s.running.lookup key = none ∧ want key = some (r, a) ∧ s' = start key r a s := by
  intro s'
  by_cases hs : (s.running.lookup key).isSome = true
  · exact .inl ⟨if_pos hs, .inl hs⟩
  have hn : s.running.lookup key = none := Option.not_isSome_iff_eq_none.mp hs
  rcases hw : want key with _ | w
  · exact .inl ⟨by simp only [s', if_neg hs, hw], .inr rfl⟩
  · rcases w with ⟨r, a⟩
    exact .inr ⟨r, a, hn, rfl, by simp only [s', if_neg hs, hw]⟩

theorem WellKept.startMissing (hwa : ∀ k r a, want k = some (r, a) → watches a = r)
    (h : WellKept watches s) : WellKept watches (startMissing want keys s) := by
  induction keys generalizing s with
  | nil => exact h
  | cons key keys ih =>
    apply ih
    rcases turn_cases want key s with ⟨heq, -⟩ | ⟨r, a, hn, hw, heq⟩
    · rw [heq]
      exact h
    · rw [heq]
      exact h.start hn (hwa key r a hw)

theorem lookup_startMissing_of_some {v : R × Nat} (h : s.running.lookup k = some v) :
    (startMissing want keys s).running.lookup k = some v := by
  induction keys generalizing s with
  | nil => exact h
  | cons key keys ih =>
    apply ih
    rcases turn_cases want key s with ⟨heq, -⟩ | ⟨r, a, hn, -, heq⟩
    · rw [heq]
      exact h
    have hne : k ≠ key := by
      rintro rfl
      rw [hn] at h
      cases h
    rw [heq, lookup_start, if_neg hne, h]

theorem lookup_startMissing {r : R} {t : Nat}
    (h : (startMissing want keys s).running.lookup k = some (r, t)) :
    s.running.lookup k = some (r, t) ∨ ∃ a, want k = some (r, a) := by
  induction keys generalizing s with
  | nil => exact .inl h
  | cons key keys ih =>
    rcases ih h with hbef | hwa
    · rcases turn_cases want key s with ⟨heq, -⟩ | ⟨r', a, -, hw, heq⟩
      · rw [heq] at hbef
        exact .inl hbef
      rw [heq, lookup_start] at hbef
      by_cases hk : k = key
      · rw [if_pos hk] at hbef
        cases hbef
        exact .inr ⟨a, hk ▸ hw⟩
      · rw [if_neg hk] at hbef
        exact .inl hbef
    · exact .inr hwa

theorem isSome_startMissing (hmem : k ∈ keys) (hwa : (want k).isSome = true) :
    ((startMissing want keys s).running.lookup k).isSome = true := by
  induction keys generalizing s with
  | nil => cases hmem
  | cons key keys ih =>
    rw [startMissing]
    rcases List.mem_cons.mp hmem with rfl | hmem
    · -- The turn of this key leaves a handle under it, which then stays.
      rcases turn_cases want k s with ⟨heq, hso | hno⟩ | ⟨r, a, -, -, heq⟩
      · rw [heq]
        obtain ⟨v, hv⟩ := Option.isSome_iff_exists.mp hso
        rw [lookup_startMissing_of_some hv]
        rfl
      · simp [hno] at hwa
      · have hv : (start k r a s).running.lookup k = some (r, s.next) := by
          rw [lookup_start, if_pos rfl]
        rw [heq, lookup_startMissing_of_some hv]
        rfl
    · exact ih hmem

/-- When stale tasks were stopped and missing ones started, a key has a handle exactly if it
    is wanted, and its task watches the same as is wanted under it. -/
theorem reconcile_spec (same : R → R → Prop)
    (hke : ∀ k r, keep k r = true ↔ ∃ w, want k = some w ∧ same w.1 r) (hr : ∀ r, same r r)
    (hkey : ∀ k, (want k).isSome = true → k ∈ keys) (s : Tasks K R T) (k : K) :
    (∀ r t, (startMissing want keys (stopStale keep s)).running.lookup k = some (r, t) →
      ∃ w, want k = some w ∧ same w.1 r) ∧
      ((want k).isSome = true →
        ((startMissing want keys (stopStale keep s)).running.lookup k).isSome = true) := by
  refine ⟨?_, fun hw => isSome_startMissing (hkey k hw) hw⟩
  intro r t hk
  rcases lookup_startMissing hk with hbef | ⟨a, hw⟩
  · exact (hke k r).mp (lookup_stopStale_eq_some_iff.mp hbef).2
  · exact ⟨(r, a), hw, hr r⟩

end Reconcile
