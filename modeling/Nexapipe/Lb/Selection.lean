import Nexapipe.Lb.Pool
import Mathlib.Data.Nat.ModEq

/-!
# What a selection promises

A pool refuses when nothing in it is healthy, unless it is a pool of one, and when every healthy
backend is cooling down. What it chooses otherwise is healthy and not cooling down, untried if it
can be, and the least busy under that strategy.
-/

namespace Nexapipe

/-! ### The circuit -/

def BackendState.CoolingDown (b : BackendState) (now : Nat) : Prop :=
  ∃ breaker ∈ b.breaker, breaker.enabled = true ∧ b.circuit.phase = .opened ∧
    ∃ at' ∈ b.circuit.openedAt, now - at' < breaker.reset

theorem BackendState.circuitAllows_eq_false_iff {b : BackendState} {now : Nat} :
    b.circuitAllows now = false ↔ b.CoolingDown now := by
  unfold CoolingDown
  fun_cases b.circuitAllows now with
  | case1 hb => simp [hb]
  | case2 breaker hb hoff => simp_all
  | case3 breaker hb hon hph => simp [hph]
  | case4 breaker hb hon hph at' hat =>
    simp only [Bool.not_eq_true, Bool.not_eq_false'] at hon
    simp [hb, hon, hph, hat]
  | case5 breaker hb hon hph hat => simp [hat]

structure Report where
  answered : Bool
  now : Nat

def BackendState.after (b : BackendState) (reports : List Report) : BackendState :=
  reports.foldl (fun b r => if r.answered then b.circuitSucceeded else b.circuitFailed r.now) b

def failuresSince (reports : List Report) : List Nat :=
  (reports.reverse.takeWhile fun r => !r.answered).map Report.now

structure BackendState.Counts (breaker : CircuitBreaker) (failures : List Nat)
    (b : BackendState) : Prop where
  settings : b.breaker = some breaker
  closed : failures.length < breaker.failureThreshold →
    b.circuit.phase = .closed ∧ b.circuit.failures = failures.length
  opened : breaker.failureThreshold ≤ failures.length →
    b.circuit.phase = .opened ∧ b.circuit.openedAt = failures.head?

section

variable {breaker : CircuitBreaker} (henabled : breaker.enabled = true)
  (hpositive : 1 ≤ breaker.failureThreshold) (hsize : breaker.failureThreshold ≤ Usize.max)

include henabled hpositive hsize

theorem BackendState.Counts.report {failures : List Nat} {b : BackendState}
    (h : b.Counts breaker failures) (now : Nat) :
    b.circuitSucceeded.Counts breaker [] ∧
      (b.circuitFailed now).Counts breaker (now :: failures) := by
  refine ⟨⟨h.settings, fun _ => ⟨rfl, rfl⟩, fun hle => ?_⟩, ?_⟩
  · exact absurd (hpositive.trans hle) (by decide)
  simp only [circuitFailed, h.settings, henabled, Bool.not_true, Bool.false_eq_true, if_false]
  by_cases hop : breaker.failureThreshold ≤ failures.length
  · -- An open circuit opens again, whatever its counter has come to.
    rw [if_pos (Or.inl (h.opened hop).1)]
    exact ⟨rfl, fun hlt => absurd hlt (by simp only [List.length_cons]; omega),
      fun _ => ⟨rfl, rfl⟩⟩
  obtain ⟨hph, hcount⟩ := h.closed (by omega)
  have hadd : Usize.add b.circuit.failures 1 = failures.length + 1 := by
    rw [hcount]
    exact Usize.add_of_le (by omega)
  simp only [hph, hadd, reduceCtorEq, false_or]
  by_cases hre : breaker.failureThreshold ≤ failures.length + 1
  · rw [if_pos hre]
    exact ⟨rfl, fun hlt => absurd hlt (by simp only [List.length_cons]; omega),
      fun _ => ⟨rfl, rfl⟩⟩
  · rw [if_neg hre]
    exact ⟨rfl, fun _ => ⟨rfl, rfl⟩, fun hle => absurd hle hre⟩

theorem BackendState.counts_after (reports : List Report) :
    ((BackendState.new (some breaker)).after reports).Counts breaker (failuresSince reports) := by
  -- The last report is the first of the failures that are kept, or ends them.
  induction reports using List.reverseRecOn with
  | nil => exact ⟨rfl, fun _ => ⟨rfl, rfl⟩, fun h => absurd (hpositive.trans h) (by decide)⟩
  | append_singleton reports r ih =>
    unfold BackendState.after failuresSince at ih ⊢
    obtain ⟨hans, hf⟩ := Counts.report henabled hpositive hsize ih r.now
    rcases hr : r.answered with _ | _
    · simpa [hr] using hf
    · simpa [hr] using hans

end

open List BackendState

/-- A backend is out of rotation exactly while at least as many failures as the threshold
    were reported since the last success, and the last of them is not long enough ago. -/
theorem circuit_open_iff (breaker : CircuitBreaker) (henabled : breaker.enabled = true)
    (hpositive : 1 ≤ breaker.failureThreshold) (hsize : breaker.failureThreshold ≤ Usize.max)
    (reports : List Report) (hclock : reports.Pairwise fun r s => r.now ≤ s.now) (now : Nat) :
    ((BackendState.new (some breaker)).after reports).circuitAllows now = false ↔
      breaker.failureThreshold ≤ (failuresSince reports).length ∧
        ∃ last ∈ failuresSince reports, (∀ t ∈ failuresSince reports, t ≤ last) ∧
          now - last < breaker.reset := by
  obtain ⟨hset, hcl, hop⟩ :=
    counts_after henabled hpositive hsize reports
  -- The clock does not go back, so the first of the failures is the latest.
  have hsor : (failuresSince reports).Pairwise fun t u => u ≤ t := by
    refine List.Pairwise.map _ (fun _ _ h => h) ?_
    exact (pairwise_reverse.mpr hclock).sublist (takeWhile_sublist _)
  rw [circuitAllows_eq_false_iff]
  generalize failuresSince reports = failures at *
  by_cases hre : breaker.failureThreshold ≤ failures.length
  case neg =>
    have hph := (hcl (by omega)).1
    refine iff_of_false ?_ fun h => hre h.1
    rintro ⟨_, -, -, hope, -⟩
    simp [hph] at hope
  obtain ⟨hph, hat⟩ := hop hre
  rcases failures with _ | ⟨last, failures⟩
  · simp only [length_nil] at hre
    omega
  have hlat : ∀ t ∈ last :: failures, t ≤ last :=
    forall_mem_cons.mpr ⟨Nat.le_refl _, (pairwise_cons.mp hsor).1⟩
  simp only [BackendState.CoolingDown, hset, hat, List.head?_cons, Option.mem_some_iff,
    exists_eq_left', henabled, hph, true_and]
  refine ⟨fun h => ⟨hre, last, mem_cons_self, hlat, h⟩, ?_⟩
  rintro ⟨-, other, hoth, hmax, h⟩
  rwa [Nat.le_antisymm (hmax last mem_cons_self) (hlat other hoth)]

/-- Two failures after a success open a circuit of two for ten. -/
theorem circuit_open_iff_second_failure :
    ((BackendState.new (some ⟨true, 2, 10⟩)).after
      [⟨false, 1⟩, ⟨true, 2⟩, ⟨false, 3⟩, ⟨false, 5⟩]).circuitAllows 14 = false :=
  (circuit_open_iff ⟨true, 2, 10⟩ rfl (by decide) (by decide) _ (by decide) 14).mpr
    ⟨by decide, 5, by decide, by decide, by decide⟩

/-! ### The choice -/

namespace BackendPool

def candidates (pool : BackendPool) (st : PoolState) (now : Nat) (exclude : List String) :
    List Nat :=
  pool.preferUntried exclude (pool.servingBackends st now)

section

variable {pool : BackendPool} {st : PoolState} {draw : Draw} {exclude : List String} {i : Nat}
  {st' : PoolState}

theorem candidates_ne_nil {now : Nat} :
    pool.candidates st now exclude ≠ [] ↔ pool.servingBackends st now ≠ [] := by
  refine ⟨fun h hnil => ?_, preferUntried_ne_nil⟩
  simp [candidates, preferUntried, hnil] at h

theorem nodup_candidates (now : Nat) : (pool.candidates st now exclude).Nodup := by
  have hser : (pool.servingBackends st now).Nodup :=
    (nodup_range.filter _).filter _
  simp only [candidates, preferUntried]
  split
  · exact hser
  · exact hser.filter _

theorem select_eq_pick (h : pool.candidates st draw.now exclude ≠ []) :
    pool.selectBackendExcluding st draw exclude =
      let picked := pool.pick st draw (pool.candidates st draw.now exclude)
      some (picked.1, picked.2.lease picked.1) := by
  have hser := candidates_ne_nil.mp h
  have hh : pool.healthyBackends st ≠ [] := by
    intro hnil
    simp [servingBackends, hnil] at hser
  rw [selectBackendExcluding, if_neg hh]
  exact if_neg hser

theorem chosen_cases (h : pool.selectBackendExcluding st draw exclude = some (i, st')) :
    pool.servingBackends st draw.now = [] ∧ pool.backends.length = 1 ∧ i = 0 ∨
      i ∈ pool.servingBackends st draw.now ∧ i ∈ pool.candidates st draw.now exclude ∧
        i = (pool.pick st draw (pool.candidates st draw.now exclude)).1 := by
  revert h
  fun_cases selectBackendExcluding pool st draw exclude with
  | case1 hn hone =>
    rintro ⟨⟩
    exact Or.inl ⟨by simp [servingBackends, hn], hone, rfl⟩
  | case4 hn serving hd picked =>
    intro h
    obtain ⟨rfl, -⟩ := Prod.mk.inj (Option.some.inj h)
    have hmem : picked.1 ∈ pool.candidates st draw.now exclude :=
      pool.pick_mem st draw (preferUntried_ne_nil hd)
    exact Or.inr ⟨pool.preferUntried_subset exclude _ _ hmem, hmem, rfl⟩
  | _ => rintro ⟨⟩

theorem untried_of_mem_candidates {now : Nat} (h : i ∈ pool.candidates st now exclude)
    (hs : ∃ j ∈ pool.servingBackends st now, pool.backends.getD j "" ∉ exclude) :
    pool.backends.getD i "" ∉ exclude := by
  simp only [candidates, preferUntried] at h
  split at h
  next hnil =>
    obtain ⟨j, hj, hnew⟩ := hs
    exact absurd (filter_eq_nil_iff.mp hnil j hj) (by simpa using hnew)
  · simpa using (mem_filter.mp h).2

theorem least_of_pick (hstr : pool.strategy = .leastConn) {candidates : List Nat} {j : Nat}
    (hj : j ∈ candidates) :
    (st.entry (pool.pick st draw candidates).1).inFlight ≤ (st.entry j).inFlight := by
  have hco : candidates.map (fun i => (i, (st.entry i).inFlight)) ≠ [] := by
    simpa using ne_nil_of_mem hj
  obtain ⟨c, hc, hpick, hl⟩ := least_of_leastConnPick hco st.roundRobinIndex
  obtain ⟨i, -, rfl⟩ := mem_map.mp hc
  simp only [pick, hstr, ← hpick]
  exact hl _ (mem_map_of_mem hj)

/-! ### A window of the rotation -/

structure Window (pool : BackendPool) (candidates : List Nat) (st : Nat → PoolState)
    (draw : Nat → Draw) (exclude : Nat → List String) : Prop where
  same : ∀ n < candidates.length, pool.candidates (st n) (draw n).now (exclude n) = candidates
  next : ∀ n i st', n + 1 < candidates.length →
    pool.selectBackendExcluding (st n) (draw n) (exclude n) = some (i, st') →
      (st (n + 1)).roundRobinIndex = st'.roundRobinIndex

theorem Window.picks {candidates : List Nat} {st : Nat → PoolState} {draw : Nat → Draw}
    {exclude : Nat → List String} (h : pool.Window candidates st draw exclude)
    (hrot : pool.strategy = .roundRobin)
    (hwr : (st 0).roundRobinIndex + candidates.length ≤ Usize.max + 1) {n : Nat}
    (hn : n < candidates.length) :
    (st n).roundRobinIndex = (st 0).roundRobinIndex + n ∧
      (pool.selectBackendExcluding (st n) (draw n) (exclude n)).map Prod.fst =
        candidates[((st 0).roundRobinIndex + n) % candidates.length]? := by
  have hne : candidates ≠ [] := ne_nil_of_length_pos (by omega)
  have hselect : ∀ n < candidates.length,
      pool.selectBackendExcluding (st n) (draw n) (exclude n) =
        let i := candidates.getD ((st n).roundRobinIndex % candidates.length) 0
        some (i, (st n).advance.lease i) := by
    intro n hn
    have hsame := h.same n hn
    rw [select_eq_pick (by rw [hsame]; exact hne), hsame]
    simp only [pick, hrot]
  have hind : (st n).roundRobinIndex = (st 0).roundRobinIndex + n := by
    induction n with
    | zero => rfl
    | succ n ih =>
      rw [h.next n _ _ hn (hselect n (by omega))]
      change Usize.add (st n).roundRobinIndex 1 = _
      rw [ih (by omega), Usize.add_of_le (by omega), Nat.add_assoc]
  refine ⟨hind, ?_⟩
  have hlt : ((st 0).roundRobinIndex + n) % candidates.length < candidates.length :=
    Nat.mod_lt _ (by omega)
  rw [hselect n hn, hind]
  simp [getD_eq_getElem?_getD, List.getElem?_eq_getElem hlt]

theorem existsUnique_mod {k start place : Nat} (h : place < k) :
    ∃! n, n < k ∧ (start + n) % k = place := by
  have hr : (start + (place + (k - start % k)) % k) % k = place := by
    have hst := Nat.div_add_mod start k
    have hlt := Nat.mod_lt start (show 0 < k by omega)
    have hsum : start + (place + (k - start % k)) = place + k * (start / k + 1) := by
      rw [Nat.mul_succ]
      omega
    rw [Nat.add_mod_mod, hsum, Nat.add_mul_mod_self_left, Nat.mod_eq_of_lt h]
  refine ⟨_, ⟨Nat.mod_lt _ (by omega), hr⟩, ?_⟩
  rintro n ⟨hn, hp⟩
  have hcan := Nat.ModEq.add_left_cancel' start (hp.trans hr.symm)
  rwa [Nat.ModEq, Nat.mod_eq_of_lt hn, Nat.mod_mod] at hcan

structure WellChosen (pool : BackendPool) (st : PoolState) (draw : Draw) (exclude : List String)
    (i : Nat) : Prop where
  serves : i < pool.backends.length ∧ (st.entry i).healthy = true ∧
    ¬(st.entry i).CoolingDown draw.now ∨ pool.backends.length = 1 ∧ i = 0
  untried : (∃ j ∈ pool.servingBackends st draw.now, pool.backends.getD j "" ∉ exclude) →
    pool.backends.getD i "" ∉ exclude
  least : pool.strategy = .leastConn → ∀ j ∈ pool.candidates st draw.now exclude,
    (st.entry i).inFlight ≤ (st.entry j).inFlight

theorem wellChosen (h : pool.selectBackendExcluding st draw exclude = some (i, st')) :
    pool.WellChosen st draw exclude i := by
  rcases chosen_cases h with ⟨hn, hone, rfl⟩ | ⟨hser, hmem, rfl⟩
  · refine ⟨Or.inr ⟨hone, rfl⟩, by simp [hn], ?_⟩
    simp [candidates, preferUntried, hn]
  · obtain ⟨hlt, hh, hall⟩ := mem_servingBackends.mp hser
    refine ⟨Or.inl ⟨hlt, hh, ?_⟩, untried_of_mem_candidates hmem,
      fun hstr j hj => least_of_pick hstr hj⟩
    rw [← circuitAllows_eq_false_iff, hall]
    simp

def Refuses (pool : BackendPool) (st : PoolState) (now : Nat) : Prop :=
  (∀ i < pool.backends.length, (st.entry i).healthy = false) ∧ pool.backends.length ≠ 1 ∨
    (∃ i < pool.backends.length, (st.entry i).healthy = true) ∧
      ∀ i < pool.backends.length, (st.entry i).healthy = true → (st.entry i).CoolingDown now

theorem refuses_iff :
    pool.selectBackendExcluding st draw exclude = none ↔ pool.Refuses st draw.now := by
  simp only [selectBackendExcluding_eq_none_iff, Dark, circuitAllows_eq_false_iff]
  by_cases hso : ∃ i < pool.backends.length, (st.entry i).healthy = true
  · obtain ⟨i, hi, hup⟩ := hso
    constructor
    · exact fun h => Or.inr ⟨⟨i, hi, hup⟩, h.1⟩
    · rintro (⟨hdo, -⟩ | ⟨-, hco⟩)
      · simp [hdo i hi] at hup
      · refine ⟨hco, fun hone => ?_⟩
        rwa [show i = 0 by omega] at hup
  · have hdo : ∀ i < pool.backends.length, (st.entry i).healthy = false := by
      simpa using hso
    constructor
    · refine fun h => Or.inl ⟨hdo, fun hone => ?_⟩
      simp [hdo 0 (by omega)] at h
      exact h.2 hone
    · rintro (⟨-, hone⟩ | ⟨hup, -⟩)
      · refine ⟨fun i hi hup => ?_, fun h => absurd h hone⟩
        simp [hdo i hi] at hup
      · exact absurd hup hso

end

/-- A selection refuses, and chooses, as it is specified, and the rotation chooses each of the
    candidates once in a window in which its counter does not wrap around. -/
theorem backend_selected_as_specified (pool : BackendPool) :
    (∀ st draw exclude,
      (pool.selectBackendExcluding st draw exclude = none ↔ pool.Refuses st draw.now) ∧
      ∀ i st', pool.selectBackendExcluding st draw exclude = some (i, st') →
        pool.WellChosen st draw exclude i) ∧
    ∀ candidates st draw exclude, pool.Window candidates st draw exclude →
      pool.strategy = .roundRobin →
      (st 0).roundRobinIndex + candidates.length ≤ Usize.max + 1 →
      ∀ i ∈ candidates, ∃! n, n < candidates.length ∧
        (pool.selectBackendExcluding (st n) (draw n) (exclude n)).map Prod.fst = some i := by
  refine ⟨fun st draw exclude => ⟨refuses_iff, fun i st' => wellChosen⟩, ?_⟩
  intro candidates st draw exclude hwin hrot hwr i hi
  obtain ⟨place, hpl, rfl⟩ := getElem_of_mem hi
  have hnodup : candidates.Nodup := by
    rw [← hwin.same 0 (by omega)]
    exact nodup_candidates _
  have hpic : ∀ n, n < candidates.length ∧
      (pool.selectBackendExcluding (st n) (draw n) (exclude n)).map Prod.fst =
        some candidates[place] ↔
      n < candidates.length ∧ ((st 0).roundRobinIndex + n) % candidates.length = place := by
    intro n
    refine and_congr_right fun hn => ?_
    rw [(hwin.picks hrot hwr hn).2, List.getElem?_eq_some_iff]
    refine ⟨fun ⟨_, h⟩ => (hnodup.getElem_inj_iff).mp h, ?_⟩
    rintro rfl
    exact ⟨hpl, rfl⟩
  simp only [hpic]
  exact existsUnique_mod hpl

end BackendPool

def threeBackends : BackendPool :=
  ⟨0, .roundRobin, ["a", "b", "c"]⟩

/-- Three selections with a counter that starts at zero. -/
theorem backend_selected_as_specified_three :
    ∀ i ∈ [0, 1, 2], ∃! n, n < 3 ∧
      (threeBackends.selectBackendExcluding ⟨fun _ => .new none, n⟩ ⟨0, 0⟩ []).map Prod.fst =
        some i := by
  refine (BackendPool.backend_selected_as_specified threeBackends).2 [0, 1, 2]
    (fun n => ⟨fun _ => .new none, n⟩) (fun _ => ⟨0, 0⟩) (fun _ => []) ⟨fun _ _ => rfl, ?_⟩ rfl
    (by decide)
  intro n i st' hn h
  cases h
  have hle : n + 1 ≤ Usize.max := hn.le.trans (by decide)
  exact (Usize.add_of_le hle).symm

def wrapping (n : Nat) : PoolState :=
  ⟨fun _ => .new none, Usize.add Usize.max n⟩

open Usize

/-- Where the counter wraps around, a window leaves out a candidate. -/
theorem rotation_wraps_around :
    threeBackends.Window [0, 1, 2] wrapping (fun _ => ⟨0, 0⟩) (fun _ => []) ∧
      ∀ n < 3, (threeBackends.selectBackendExcluding (wrapping n) ⟨0, 0⟩ []).map Prod.fst ≠
        some 2 := by
  refine ⟨⟨fun _ _ => rfl, ?_⟩, by decide⟩
  intro n i st' hn h
  cases h
  change add max (n + 1) = add (add max n) 1
  rw [add, add, add, Nat.mod_add_mod, Nat.add_assoc]

/-! ### Better health -/

def PoolState.Healthier (st st' : PoolState) : Prop :=
  ∀ i, ((st.entry i).healthy = true → (st'.entry i).healthy = true) ∧
    st'.entry i = { st.entry i with healthy := (st'.entry i).healthy }

theorem PoolState.Healthier.circuitAllows {st st' : PoolState} (h : st.Healthier st')
    (i now : Nat) : (st'.entry i).circuitAllows now = (st.entry i).circuitAllows now := by
  rw [(h i).2]
  rfl

theorem PoolState.healthier_probe (st : PoolState) (i : Nat) : st.Healthier (st.probe i true) := by
  intro j
  rw [probe, entry_setEntry]
  by_cases hj : j = i
  · rw [if_pos hj, hj]
    exact ⟨fun _ => rfl, rfl⟩
  · rw [if_neg hj]
    exact ⟨id, rfl⟩

/-- Better health never turns a selection into a refusal, except for a pool of one whose
    backend is unhealthy and has an open circuit. -/
theorem better_health_keeps_selection_iff (pool : BackendPool) (st : PoolState) (draw : Draw)
    (exclude : List String) :
    (∀ st', st.Healthier st' → (pool.selectBackendExcluding st draw exclude).isSome = true →
      (pool.selectBackendExcluding st' draw exclude).isSome = true) ↔
      ¬(pool.backends.length = 1 ∧ (st.entry 0).healthy = false ∧
        (st.entry 0).CoolingDown draw.now) := by
  simp only [Option.isSome_iff_ne_none, ne_eq, BackendPool.selectBackendExcluding_eq_none_iff,
    ← circuitAllows_eq_false_iff]
  constructor
  · rintro h ⟨hone, hdo, hop⟩
    have hbet := st.healthier_probe 0
    have hup : ((st.probe 0 true).entry 0).healthy = true := by
      simp [PoolState.probe, PoolState.setEntry]
    refine h _ hbet (fun hda => ?_) ⟨fun i hi _ => ?_, fun _ => hup⟩
    · simp [hda.2 hone] at hdo
    · rw [hbet.circuitAllows, show i = 0 by omega]
      exact hop
  · rintro hco st' hbet hlit ⟨hop, hone⟩
    refine hlit ⟨fun i hi hup => ?_, fun hlen => ?_⟩
    · rw [← hbet.circuitAllows]
      exact hop i hi ((hbet i).1 hup)
    · by_contra hdo
      rw [Bool.not_eq_true] at hdo
      refine hco ⟨hlen, hdo, ?_⟩
      rw [← hbet.circuitAllows]
      exact hop 0 (by omega) (hone hlen)

/-- A lone backend with an open circuit, handed out until a probe finds it healthy. -/
theorem recovered_backend_refused :
    let pool : BackendPool := ⟨0, .roundRobin, ["a"]⟩
    let st : PoolState := ⟨fun _ => ⟨false, 0, ⟨.opened, 1, some 0⟩, some ⟨true, 1, 10⟩⟩, 0⟩
    st.Healthier (st.probe 0 true) ∧ (pool.selectBackendExcluding st ⟨5, 0⟩ []).isSome = true ∧
      (pool.selectBackendExcluding (st.probe 0 true) ⟨5, 0⟩ []).isSome = false :=
  ⟨PoolState.healthier_probe _ 0, rfl, rfl⟩

end Nexapipe
