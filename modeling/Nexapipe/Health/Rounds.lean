import Nexapipe.Lib.Entries
import Nexapipe.Lib.Usize
import Mathlib.Data.List.Dedup
import Mathlib.Data.List.Induction

/-!
# Health by rounds

A health checker probes every entry of its pool in each round, and a pool may name a backend
several times. What it counts it counts under the address: the failures in a row, the rounds that
were charged, and the status the round began with.

A backend is marked by storing the mark in the flag of every entry with its address, one entry
after the other. Between two stores the entries of one address have two marks, and a lookup that
comes then sees them; between two probes they have one.

## Main definitions

* `recordResult`, `settle`: What a probe does to the slot of its address, and the mark it sets.
* `storeFlags`, `setBackendHealth`: The loop that stores a mark, up to an entry and to the end.
* `checkOne`, `checkAllBackends`: A probe and a round of probes.
* `after`: A new checker of healthy backends after some rounds.
* `failedRounds`, `Down`: What the probes have shown of a backend, without any counter.
* `Slot.Tracks`, `Tracks`: The slots and the flags say what the probes have shown.

## Theorems

* `storeFlags_apply`: The flags after part of the loop.
* `Slot.Tracks.settle`, `Tracks.checkOne`, `Tracks.beginRound`: Each step keeps the invariant.
* `tracks_after`: The invariant after any rounds.
* `marked_by_failed_rounds`: The closed form of the marks, and one mark for each address.
* `flags_differ_between_stores`: Two marks for one address while a mark is being stored.
-/

namespace Nexapipe.HealthRounds

open List

/-- What the checker has under one address: the failures in a row, the status the round began
    with, and whether this round was charged. -/
structure Slot where
  failures : Option Nat
  status : Option Bool
  charged : Bool

/-- A round is charged for its first failure only, and a success clears the count. -/
def recordResult (slot : Slot) (healthy : Bool) : Nat × Slot :=
  if healthy then (0, { slot with failures := none, charged := false })
  else if slot.charged then (slot.failures.getD 0, slot)
  else
    let count := Usize.add (slot.failures.getD 0) 1
    (count, { slot with failures := some count, charged := true })

/-- The mark a probe sets, if it sets one, and the slot with that mark for its status. -/
def settle (threshold : Nat) (slot : Slot) (healthy : Bool) : Option Bool × Slot :=
  let (failures, slot) := recordResult slot healthy
  let mark :=
    if healthy then if slot.status = some false then some true else none
    else if failures < threshold then none
    else if slot.status = some false then none
    else some false
  (mark, { slot with status := mark.or slot.status })

/-- The flags of the entries, by place, and the slots of the addresses. -/
structure Checker where
  healthy : Nat → Bool
  slots : String → Slot

/-- The flags when the loop that marks a backend has passed the first `n` entries. -/
def storeFlags (backends : List String) (healthy : Nat → Bool) (url : String) (mark : Bool) :
    Nat → Nat → Bool
  | 0 => healthy
  | n + 1 =>
    let healthy := storeFlags backends healthy url mark n
    if backends[n]? = some url then Function.update healthy n mark else healthy

def setBackendHealth (backends : List String) (healthy : Nat → Bool) (url : String)
    (mark : Bool) : Nat → Bool :=
  storeFlags backends healthy url mark backends.length

def getBackendStatuses (backends : List String) (healthy : Nat → Bool) : List (String × Bool) :=
  backends.mapIdx fun i url => (url, healthy i)

/-- The outcome of a probe, with the round it was made in. -/
structure Probe where
  url : String
  round : Nat
  healthy : Bool

/-- A probe is answered: its slot is settled, and the mark stored if there is one. -/
def checkOne (threshold : Nat) (backends : List String) (s : Checker) (p : Probe) : Checker :=
  let (mark, slot) := settle threshold (s.slots p.url) p.healthy
  ⟨mark.elim s.healthy (setBackendHealth backends s.healthy p.url),
    Function.update s.slots p.url slot⟩

/-- The start of a round. Of two entries with one address the later is the one collected. -/
def beginRound (backends : List String) (s : Checker) : Checker :=
  { s with
    slots := fun url => { s.slots url with
      status := (getBackendStatuses backends s.healthy).reverse.lookup url
      charged := false } }

def checkAllBackends (threshold : Nat) (backends : List String) (s : Checker)
    (probes : List Probe) : Checker :=
  probes.foldl (checkOne threshold backends) (beginRound backends s)

def probesIn (backends : List String) (round : Nat) (outcome : Nat → Bool) : List Probe :=
  backends.mapIdx fun i url => ⟨url, round, outcome i⟩

/-- A new checker of healthy backends after some rounds. A slot's snapshot and charge are those
    of the last round, and no round reads the one before. -/
def after (threshold : UInt64) (backends : List String) (rounds : List (Nat → Bool)) : Checker :=
  (rounds.mapIdx (probesIn backends)).foldl
    (checkAllBackends (max threshold.toNat 1) backends)
    ⟨fun _ => true, fun _ => ⟨none, some true, false⟩⟩

/-! ### What the probes have shown -/

def probes (backends : List String) (rounds : List (Nat → Bool)) : List Probe :=
  (rounds.mapIdx (probesIn backends)).flatten

/-- The rounds of the failures since the last success. -/
def failedRounds (url : String) (past : List Probe) : List Nat :=
  ((past.filter fun p => p.url = url).reverse.takeWhile fun p => !p.healthy).map Probe.round

/-- The last probe failed, and since the last success so did one in enough rounds. -/
def Down (threshold : Nat) (url : String) (past : List Probe) : Prop :=
  (past.filter fun p => p.url = url).getLast?.map Probe.healthy = some false ∧
    threshold ≤ (failedRounds url past).dedup.length

theorem storeFlags_apply (backends : List String) (healthy : Nat → Bool) (url : String)
    (mark : Bool) (n i : Nat) :
    storeFlags backends healthy url mark n i =
      if i < n ∧ backends[i]? = some url then mark else healthy i := by
  induction n with
  | zero => rfl
  | succ n ih =>
    have hrest : i ≠ n → (i < n + 1 ↔ i < n) := by omega
    unfold storeFlags
    by_cases hin : i = n
    · subst hin
      by_cases hurl : backends[i]? = some url
      · simp only [hurl, if_true, Function.update_self, Nat.lt_succ_self, and_self]
      · simp only [hurl, if_false, ih, and_false]
    · simp only [hrest hin, ← ih]
      split
      · rw [Function.update_of_ne hin]
      · rfl

theorem setBackendHealth_apply (backends : List String) (healthy : Nat → Bool) (url : String)
    (mark : Bool) (i : Nat) :
    setBackendHealth backends healthy url mark i =
      if backends[i]? = some url then mark else healthy i := by
  rw [setBackendHealth, storeFlags_apply]
  refine if_congr ⟨And.right, fun hurl => ⟨?_, hurl⟩⟩ rfl rfl
  exact (List.getElem?_eq_some_iff.mp hurl).1

theorem failedRounds_concat (url : String) (past : List Probe) (p : Probe) :
    failedRounds url (past ++ [p]) =
      if p.url = url then if p.healthy then [] else p.round :: failedRounds url past
      else failedRounds url past := by
  by_cases hurl : p.url = url
  · cases hp : p.healthy <;> simp [failedRounds, hurl, hp]
  · simp [failedRounds, hurl]

theorem failedRounds_dedup_pos (url : String) (past : List Probe) :
    0 < (failedRounds url past).dedup.length ↔
      (past.filter fun p => p.url = url).getLast?.map Probe.healthy = some false := by
  rw [length_pos_iff, Ne, dedup_eq_nil, failedRounds]
  generalize past.filter (fun p => p.url = url) = mine
  rcases mine.eq_nil_or_concat with rfl | ⟨mine, p, rfl⟩
  · simp
  · cases hp : p.healthy <;> simp [hp]

/-- What a slot holds after the failures of these rounds. Beyond the threshold the count may
    wrap around, but the mark stays. -/
structure Slot.Tracks (threshold round : Nat) (failed : List Nat) (slot : Slot) : Prop where
  counts : failed.dedup.length < threshold → slot.failures.getD 0 = failed.dedup.length
  status : ∀ mark, slot.status = some mark → (mark = true ↔ failed.dedup.length < threshold)
  charged : slot.charged = true ↔ round ∈ failed

theorem settle_status (threshold : Nat) (slot : Slot) (healthy : Bool) :
    (settle threshold slot healthy).2.status =
      (settle threshold slot healthy).1.or slot.status := by
  have hsame : (recordResult slot healthy).2.status = slot.status := by
    fun_cases recordResult slot healthy <;> rfl
  simp only [settle, hsame]

theorem mark_after_failure {threshold failures count : Nat} {status : Option Bool} {mark : Bool}
    (hcount : count < threshold → failures = count)
    (hold : failures < threshold → ∀ mark, status = some mark → (mark = true ↔ count < threshold))
    (hmark : (if failures < threshold then none
      else if status = some false then none else some false).or status = some mark) :
    mark = true ↔ count < threshold := by
  by_cases hlt : failures < threshold
  · rw [if_pos hlt] at hmark
    exact hold hlt mark hmark
  · have hfalse : mark = false := by
      rw [if_neg hlt] at hmark
      by_cases hst : status = some false
      · rw [if_pos hst, hst] at hmark
        exact (Option.some.inj hmark).symm
      · rw [if_neg hst] at hmark
        exact (Option.some.inj hmark).symm
    refine iff_of_false (by rw [hfalse]; decide) fun hcl => hlt ?_
    rw [hcount hcl]
    exact hcl

variable {threshold round last : Nat} {backends : List String} {past : List Probe} {s : Checker}
  (hpositive : 0 < threshold) (hsize : threshold ≤ Usize.max)

include hpositive hsize

theorem Slot.Tracks.settle {failed : List Nat} {slot : Slot}
    (h : slot.Tracks threshold round failed) (healthy : Bool) :
    (settle threshold slot healthy).2.Tracks threshold round
      (if healthy then [] else round :: failed) := by
  rcases h with ⟨hco, hst, hch⟩
  have hadd : failed.dedup.length < threshold →
      Usize.add (slot.failures.getD 0) 1 = failed.dedup.length + 1 := by
    intro hlt
    rw [hco hlt]
    exact Usize.add_of_le (by omega)
  unfold HealthRounds.settle recordResult
  cases healthy with
  | true =>
    refine ⟨fun _ => rfl, fun mark hmark => iff_of_true ?_ hpositive, by simp⟩
    -- A backend that was down is marked up, and any other keeps its mark.
    by_cases hdown : slot.status = some false
    · simp only [hdown, if_true, Option.some_or, Option.some.injEq] at hmark
      exact hmark.symm
    · simp only [hdown, if_true, if_false, Option.none_or] at hmark
      exact Bool.of_not_eq_false fun hf => hdown (hf ▸ hmark)
  | false =>
    simp only [Bool.false_eq_true, if_false]
    by_cases hmem : round ∈ failed
    · -- The round was charged before.
      simp only [hch.mpr hmem, if_true]
      refine ⟨?_, fun mark => ?_, by simp⟩
      · rw [dedup_cons_of_mem hmem]
        exact hco
      · rw [dedup_cons_of_mem hmem]
        exact mark_after_failure hco fun _ => hst
    · simp only [Bool.eq_false_iff.mpr fun hc => hmem (hch.mp hc), Bool.false_eq_true, if_false]
      refine ⟨?_, fun mark => ?_, by simp⟩
      · rw [dedup_cons_of_notMem hmem, length_cons]
        exact fun hlt => hadd (by omega)
      · rw [dedup_cons_of_notMem hmem, length_cons]
        refine mark_after_failure (fun hlt => hadd (by omega)) fun hlt mark hmark => ?_
        rw [hst mark hmark]
        -- Below the threshold the count is the number of rounds.
        refine ⟨fun hbelow => ?_, fun hbelow => by omega⟩
        rw [← hadd hbelow]
        exact hlt

/-- Every entry has the status of its address for its flag, and the slot of the address holds what
    the probes have shown. -/
def Tracks (threshold : Nat) (backends : List String) (round : Nat) (past : List Probe)
    (s : Checker) : Prop :=
  ∀ i url, backends[i]? = some url → (s.slots url).status = some (s.healthy i) ∧
    (s.slots url).Tracks threshold round (failedRounds url past)

theorem Tracks.checkOne {p : Probe} (hro : p.round = round)
    (h : Tracks threshold backends round past s) :
    Tracks threshold backends round (past ++ [p]) (checkOne threshold backends s p) := by
  intro i url hi
  rcases h i url hi with ⟨hst, htr⟩
  rw [failedRounds_concat]
  simp only [HealthRounds.checkOne]
  by_cases hurl : p.url = url
  · subst hurl
    rw [if_pos rfl, hro, Function.update_self]
    refine ⟨?_, htr.settle hpositive hsize p.healthy⟩
    rw [settle_status, hst]
    cases (settle threshold (s.slots p.url) p.healthy).1 with
    | none => rfl
    | some mark =>
      rw [Option.elim_some, setBackendHealth_apply, if_pos hi]
      rfl
  · rw [if_neg hurl, Function.update_of_ne (Ne.symm hurl)]
    refine ⟨?_, htr⟩
    rw [hst]
    cases (settle threshold (s.slots p.url) p.healthy).1 with
    | none => rfl
    | some mark =>
      have hoth : backends[i]? ≠ some p.url :=
        fun heq => hurl (Option.some.inj (heq.symm.trans hi))
      rw [Option.elim_some, setBackendHealth_apply, if_neg hoth]

theorem Tracks.checkEach {probes : List Probe} (hr : ∀ p ∈ probes, p.round = round)
    (h : Tracks threshold backends round past s) :
    Tracks threshold backends round (past ++ probes)
      (probes.foldl (HealthRounds.checkOne threshold backends) s) := by
  induction probes generalizing past s with
  | nil => simpa using h
  | cons p probes ih =>
    rw [forall_mem_cons] at hr
    simpa using ih hr.2 (h.checkOne hpositive hsize hr.1)

omit hpositive hsize

theorem Tracks.beginRound (h : Tracks threshold backends last past s)
    (hpa : ∀ p ∈ past, p.round < round) :
    Tracks threshold backends round past (beginRound backends s) := by
  intro i url hi
  rcases h i url hi with ⟨hst, hco, hma, -⟩
  have hlk : (getBackendStatuses backends s.healthy).reverse.lookup url =
      some (s.healthy i) := by
    have hmem : (url, s.healthy i) ∈ getBackendStatuses backends s.healthy := by
      rcases List.getElem?_eq_some_iff.mp hi with ⟨hlt, rfl⟩
      exact mem_mapIdx.mpr ⟨i, hlt, rfl⟩
    rcases Option.isSome_iff_exists.mp (lookup_isSome_iff.mpr
      ⟨_, mem_reverse.mpr hmem, beq_self_eq_true url⟩) with ⟨mark, hso⟩
    rcases mem_mapIdx.mp (mem_reverse.mp (Entries.mem_of_lookup hso)) with ⟨j, hj, heq⟩
    cases heq
    rw [hso, ← hst, (h j _ (getElem?_eq_getElem hj)).1]
  refine ⟨hlk, hco, fun mark hso => hma mark ?_, nofun, fun hmem => ?_⟩
  · exact hst.trans (hlk.symm.trans hso)
  rcases mem_map.mp hmem with ⟨p, hp, rfl⟩
  have hin := mem_of_mem_filter (mem_reverse.mp (takeWhile_subset _ hp))
  exact absurd (hpa p hin) (Nat.lt_irrefl _)

theorem Tracks.checkAllBackends {threshold : UInt64} {probes : List Probe}
    (h : Tracks (max threshold.toNat 1) backends last past s)
    (hp : ∀ p ∈ past, p.round < round) (hr : ∀ p ∈ probes, p.round = round) :
    Tracks (max threshold.toNat 1) backends round (past ++ probes)
      (checkAllBackends (max threshold.toNat 1) backends s probes) := by
  have hsize : max threshold.toNat 1 ≤ Usize.max :=
    Nat.max_le.mpr ⟨Nat.le_of_lt_succ threshold.toNat_lt, by decide⟩
  exact (h.beginRound hp).checkEach (Nat.le_max_right _ 1) hsize hr

theorem round_of_mem_probesIn {outcome : Nat → Bool} {p : Probe}
    (hp : p ∈ probesIn backends round outcome) : p.round = round := by
  rcases mem_mapIdx.mp hp with ⟨i, hi, rfl⟩
  rfl

theorem tracks_after (threshold : UInt64) (backends : List String) (rounds : List (Nat → Bool)) :
    Tracks (max threshold.toNat 1) backends (rounds.length - 1) (probes backends rounds)
        (after threshold backends rounds) ∧
      ∀ p ∈ probes backends rounds, p.round < rounds.length := by
  induction rounds using reverseRecOn with
  | nil =>
    have hpositive : 0 < max threshold.toNat 1 := Nat.le_max_right _ 1
    refine ⟨fun i url hi => ⟨rfl, fun _ => rfl, ?_, by simp [after, probes, failedRounds]⟩, nofun⟩
    rintro _ ⟨⟩
    exact iff_of_true rfl hpositive
  | append_singleton rounds outcome ih =>
    rw [probes, after, mapIdx_concat, flatten_concat, foldl_concat, length_append]
    refine ⟨ih.1.checkAllBackends ih.2 fun p => round_of_mem_probesIn, fun p hp => ?_⟩
    rcases mem_append.mp hp with hold | hnew
    · exact Nat.lt_succ_of_lt (ih.2 p hold)
    · exact Nat.lt_succ_of_le (Nat.le_of_eq (round_of_mem_probesIn hnew))

/-- After every round a backend is marked unhealthy exactly when its last probe failed and it
    failed in as many rounds as the threshold says since its last success, and between any two
    probes of a round the entries with one address have one mark. -/
theorem marked_by_failed_rounds (threshold : UInt64) (backends : List String)
    (rounds : List (Nat → Bool)) :
    (∀ i url, backends[i]? = some url → ((after threshold backends rounds).healthy i = false ↔
      Down threshold.toNat url (probes backends rounds))) ∧
    ∀ outcome n i j url, backends[i]? = some url → backends[j]? = some url →
      let s := checkAllBackends (max threshold.toNat 1) backends (after threshold backends rounds)
        ((probesIn backends rounds.length outcome).take n)
      s.healthy i = s.healthy j := by
  rcases tracks_after threshold backends rounds with ⟨h, hpa⟩
  constructor
  · intro i url hi
    rcases h i url hi with ⟨hst, -, hma, -⟩
    rw [← Bool.not_eq_true, hma _ hst, Down, ← failedRounds_dedup_pos]
    omega
  · intro outcome n i j url hi hj s
    have hro : ∀ p ∈ (probesIn backends rounds.length outcome).take n,
        p.round = rounds.length := fun p hp => round_of_mem_probesIn (mem_of_mem_take hp)
    have htr := h.checkAllBackends hpa hro
    exact Option.some.inj ((htr i url hi).1.symm.trans (htr j url hj).1)

/-- A backend that is named twice fails at a threshold of one. When the first of its two flags has
    been stored, the second still has the old mark. -/
theorem flags_differ_between_stores :
    (settle 1 ((after 1 ["a", "a"] []).slots "a") false).1 = some false ∧
      let flags := storeFlags ["a", "a"] (after 1 ["a", "a"] []).healthy "a" false 1
      flags 0 = false ∧ flags 1 = true := by
  decide

end Nexapipe.HealthRounds
