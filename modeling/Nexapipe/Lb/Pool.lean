import Nexapipe.Lib.Usize
import Nexapipe.Routes.Table

/-!
# Choosing a backend

A pool keeps, for each of its backends, whether it is healthy, how many flows are
using it, and a circuit that takes it out of rotation after too many failures in a
row. A selection goes through the healthy backends, drops the ones whose circuit is
open, prefers the ones an earlier attempt has not tried, and lets the strategy pick
one of the rest.

A pool of one is a special case. When its only backend is unhealthy it is handed out all the same,
without asking its circuit; when it is healthy its circuit is asked like any other.
-/

namespace Nexapipe

open List

/-! ### The circuit -/

inductive CircuitPhase where
  | closed
  | opened
deriving DecidableEq

structure CircuitState where
  phase : CircuitPhase
  failures : Nat
  openedAt : Option Nat

def CircuitState.new : CircuitState :=
  { phase := .closed, failures := 0, openedAt := none }

structure CircuitBreaker where
  enabled : Bool
  failureThreshold : Nat
  reset : Nat

structure BackendState where
  healthy : Bool
  inFlight : Nat
  circuit : CircuitState
  breaker : Option CircuitBreaker

def BackendState.new (breaker : Option CircuitBreaker) : BackendState :=
  { healthy := true, inFlight := 0, circuit := .new, breaker := breaker }

namespace BackendState

def circuitAllows (b : BackendState) (now : Nat) : Bool :=
  match b.breaker with
  | none => true
  | some breaker =>
    if !breaker.enabled then true
    else
      match b.circuit.phase with
      | .closed => true
      | .opened =>
        match b.circuit.openedAt with
        | some at' => breaker.reset ≤ now - at'
        | none => true

def circuitSucceeded (b : BackendState) : BackendState :=
  { b with circuit := { phase := .closed, failures := 0, openedAt := none } }

/-- The backend did not answer. An open circuit opens again at once. -/
def circuitFailed (b : BackendState) (now : Nat) : BackendState :=
  match b.breaker with
  | none => b
  | some breaker =>
    if !breaker.enabled then b
    else
      let failures := Usize.add b.circuit.failures 1
      if b.circuit.phase = .opened ∨ breaker.failureThreshold ≤ failures then
        { b with circuit := { phase := .opened, failures := failures, openedAt := some now } }
      else { b with circuit := { b.circuit with failures := failures } }

theorem inFlight_circuitFailed (b : BackendState) (now : Nat) :
    (b.circuitFailed now).inFlight = b.inFlight := by
  unfold circuitFailed
  split
  · rfl
  split
  · rfl
  · dsimp only
    split <;> rfl

end BackendState

/-! ### The pool -/

structure PoolState where
  entry : Nat → BackendState
  roundRobinIndex : Nat

namespace PoolState

def setEntry (st : PoolState) (i : Nat) (b : BackendState) : PoolState :=
  { st with entry := Function.update st.entry i b }

def lease (st : PoolState) (i : Nat) : PoolState :=
  st.setEntry i { st.entry i with inFlight := Usize.add (st.entry i).inFlight 1 }

def release (st : PoolState) (i : Nat) : PoolState :=
  st.setEntry i { st.entry i with inFlight := Usize.sub (st.entry i).inFlight 1 }

def report (st : PoolState) (i : Nat) (answered : Bool) (now : Nat) : PoolState :=
  st.setEntry i
    (if answered then (st.entry i).circuitSucceeded else (st.entry i).circuitFailed now)

def probe (st : PoolState) (i : Nat) (healthy : Bool) : PoolState :=
  st.setEntry i { st.entry i with healthy := healthy }

def advance (st : PoolState) : PoolState :=
  { st with roundRobinIndex := Usize.add st.roundRobinIndex 1 }

theorem entry_setEntry (st : PoolState) (i j : Nat) (b : BackendState) :
    (st.setEntry i b).entry j = if j = i then b else st.entry j :=
  Function.update_apply st.entry i b j

theorem inFlight_lease (st : PoolState) (i j : Nat) :
    ((st.lease i).entry j).inFlight =
      if j = i then Usize.add (st.entry j).inFlight 1 else (st.entry j).inFlight := by
  unfold lease
  rw [entry_setEntry]
  by_cases hji : j = i
  · rw [if_pos hji, if_pos hji, hji]
  · rw [if_neg hji, if_neg hji]

theorem inFlight_release (st : PoolState) (i j : Nat) :
    ((st.release i).entry j).inFlight =
      if j = i then Usize.sub (st.entry j).inFlight 1 else (st.entry j).inFlight := by
  unfold release
  rw [entry_setEntry]
  by_cases hji : j = i
  · rw [if_pos hji, if_pos hji, hji]
  · rw [if_neg hji, if_neg hji]

theorem inFlight_report (st : PoolState) (i j : Nat) (answered : Bool) (now : Nat) :
    ((st.report i answered now).entry j).inFlight = (st.entry j).inFlight := by
  unfold report
  rw [entry_setEntry]
  by_cases hji : j = i
  · rw [if_pos hji, hji]
    rcases answered with _ | _
    · exact BackendState.inFlight_circuitFailed _ _
    · rfl
  · rw [if_neg hji]

theorem inFlight_probe (st : PoolState) (i j : Nat) (healthy : Bool) :
    ((st.probe i healthy).entry j).inFlight = (st.entry j).inFlight := by
  unfold probe
  rw [entry_setEntry]
  by_cases hji : j = i
  · rw [if_pos hji, hji]
  · rw [if_neg hji]

end PoolState

structure Draw where
  now : Nat
  random : Nat

namespace BackendPool

/-- The backend with the fewest flows. A tie is broken by the rotation. -/
def leastConnPick (counts : List (Nat × Nat)) (cursor : Nat) : Nat :=
  let least := ((counts.map Prod.snd).min?).getD 0
  let tied := (counts.filter fun c => c.2 = least).map Prod.fst
  tied.getD (cursor % tied.length) 0

def healthyBackends (pool : BackendPool) (st : PoolState) : List Nat :=
  (List.range pool.backends.length).filter fun i => (st.entry i).healthy

def servingBackends (pool : BackendPool) (st : PoolState) (now : Nat) : List Nat :=
  (pool.healthyBackends st).filter fun i => (st.entry i).circuitAllows now

def preferUntried (pool : BackendPool) (exclude : List String) (candidates : List Nat) :
    List Nat :=
  let untried := candidates.filter fun i => !exclude.contains (pool.backends.getD i "")
  if untried = [] then candidates else untried

def pick (pool : BackendPool) (st : PoolState) (draw : Draw) (candidates : List Nat) :
    Nat × PoolState :=
  match pool.strategy with
  | .roundRobin =>
    (candidates.getD (st.roundRobinIndex % candidates.length) 0, st.advance)
  | .random => (candidates.getD (draw.random % candidates.length) 0, st)
  | .leastConn =>
    (leastConnPick (candidates.map fun i => (i, (st.entry i).inFlight)) st.roundRobinIndex,
      st.advance)

def selectBackendExcluding (pool : BackendPool) (st : PoolState) (draw : Draw)
    (exclude : List String) : Option (Nat × PoolState) :=
  if pool.healthyBackends st = [] then
    -- With one candidate health is no information: there is no second choice for it to inform.
    if pool.backends.length = 1 then some (0, st.lease 0) else none
  else
    let serving := pool.servingBackends st draw.now
    if serving = [] then none
    else
      let picked := pool.pick st draw (pool.preferUntried exclude serving)
      some (picked.1, picked.2.lease picked.1)

def selectBackend (pool : BackendPool) (st : PoolState) (draw : Draw) : Option (Nat × PoolState) :=
  pool.selectBackendExcluding st draw []

/-- The pool has nothing to hand out: no healthy backend has a circuit that lets a
    request through, and it is not a pool of one whose backend is unhealthy. -/
def Dark (pool : BackendPool) (st : PoolState) (now : Nat) : Prop :=
  (∀ i < pool.backends.length, (st.entry i).healthy = true →
      (st.entry i).circuitAllows now = false) ∧
    (pool.backends.length = 1 → (st.entry 0).healthy = true)

end BackendPool

/-! ### What a selection finds -/

section

variable {pool : BackendPool} {st : PoolState} {draw : Draw} {exclude : List String}

namespace BackendPool

variable {i : Nat} {candidates : List Nat}

theorem mem_healthyBackends :
    i ∈ pool.healthyBackends st ↔ i < pool.backends.length ∧ (st.entry i).healthy = true := by
  unfold healthyBackends
  rw [mem_filter, mem_range]

theorem mem_servingBackends {now : Nat} :
    i ∈ pool.servingBackends st now ↔
      i < pool.backends.length ∧ (st.entry i).healthy = true ∧
        (st.entry i).circuitAllows now = true := by
  unfold servingBackends
  rw [mem_filter, mem_healthyBackends, and_assoc]

theorem preferUntried_subset (pool : BackendPool) (exclude : List String)
    (candidates : List Nat) : ∀ i ∈ pool.preferUntried exclude candidates, i ∈ candidates := by
  intro i hi
  simp only [preferUntried] at hi
  split at hi
  · exact hi
  · exact (mem_filter.mp hi).1

theorem preferUntried_ne_nil (h : candidates ≠ []) :
    pool.preferUntried exclude candidates ≠ [] := by
  simp only [preferUntried]
  split
  · exact h
  · assumption

theorem getD_mod_mem (h : candidates ≠ []) (n : Nat) :
    candidates.getD (n % candidates.length) 0 ∈ candidates := by
  have hlt : n % candidates.length < candidates.length :=
    Nat.mod_lt _ (length_pos_iff.mpr h)
  rw [getD_eq_getElem?_getD, List.getElem?_eq_getElem hlt, Option.getD_some]
  exact getElem_mem hlt

theorem least_of_leastConnPick {counts : List (Nat × Nat)} (h : counts ≠ []) (cursor : Nat) :
    ∃ c ∈ counts, c.1 = leastConnPick counts cursor ∧ ∀ d ∈ counts, c.2 ≤ d.2 := by
  simp only [leastConnPick]
  rcases hle : (counts.map Prod.snd).min? with _ | least
  · rw [List.min?_eq_none_iff, map_eq_nil_iff] at hle
    exact absurd hle h
  rw [List.min?_eq_some_iff] at hle
  rcases mem_map.mp hle.1 with ⟨c, hc, rfl⟩
  have hti : (counts.filter fun x => x.2 = c.2).map Prod.fst ≠ [] := by
    intro hnil
    rw [map_eq_nil_iff, filter_eq_nil_iff] at hnil
    exact hnil c hc (by simp)
  rcases mem_map.mp (getD_mod_mem hti cursor) with ⟨x, hx, heq⟩
  obtain ⟨hx, hsame⟩ := mem_filter.mp hx
  refine ⟨x, hx, heq, ?_⟩
  intro d hd
  rw [of_decide_eq_true hsame]
  exact hle.2 d.2 (mem_map_of_mem hd)

theorem pick_mem (pool : BackendPool) (st : PoolState) (draw : Draw) (h : candidates ≠ []) :
    (pool.pick st draw candidates).1 ∈ candidates := by
  unfold pick
  cases pool.strategy with
  | roundRobin | random => exact getD_mod_mem h _
  | leastConn =>
    have hco : candidates.map (fun i => (i, (st.entry i).inFlight)) ≠ [] := by
      rw [Ne, map_eq_nil_iff]
      exact h
    rcases least_of_leastConnPick hco st.roundRobinIndex with ⟨c, hc, hpick, -⟩
    rcases mem_map.mp hc with ⟨i, hi, rfl⟩
    exact hpick ▸ hi

theorem selectBackendExcluding_eq_none_iff :
    pool.selectBackendExcluding st draw exclude = none ↔ pool.Dark st draw.now := by
  have hser : pool.servingBackends st draw.now = [] ↔
      ∀ i < pool.backends.length, (st.entry i).healthy = true →
        (st.entry i).circuitAllows draw.now = false := by
    rw [eq_nil_iff_forall_not_mem]
    simp only [mem_servingBackends, not_and, Bool.not_eq_true]
  have hhe : pool.healthyBackends st = [] ↔
      ∀ i < pool.backends.length, (st.entry i).healthy = false := by
    rw [eq_nil_iff_forall_not_mem]
    simp only [mem_healthyBackends, not_and, Bool.not_eq_true]
  fun_cases selectBackendExcluding pool st draw exclude with
  | case1 hno hone =>
    rw [hhe] at hno
    simp [Dark, hone, hno 0 (by omega)]
  | case2 hno hone =>
    rw [hhe] at hno
    refine ⟨fun _ => ⟨?_, fun hlen => absurd hlen hone⟩, fun _ => rfl⟩
    intro i hi hup
    rw [hno i hi] at hup
    cases hup
  | case3 hno serving hda =>
    refine ⟨fun _ => ⟨hser.mp hda, ?_⟩, fun _ => rfl⟩
    -- A pool of one with a healthy backend is that backend.
    intro hlen
    rw [eq_nil_iff_forall_not_mem, not_forall] at hno
    rcases hno with ⟨i, hi⟩
    rw [not_not, mem_healthyBackends] at hi
    have hze : i = 0 := by omega
    rw [← hze]
    exact hi.2
  | case4 hno serving hda => exact ⟨nofun, fun h => absurd (hser.mpr h.1) hda⟩

theorem selectBackendExcluding_cases {st' : PoolState}
    (h : pool.selectBackendExcluding st draw exclude = some (i, st')) :
    i < pool.backends.length ∧ (st' = st.lease i ∨ st' = st.advance.lease i) := by
  revert h
  fun_cases selectBackendExcluding pool st draw exclude with
  | case1 _ hone =>
    rintro ⟨⟩
    exact ⟨by omega, .inl rfl⟩
  | case4 _ serving hda picked =>
    intro h
    rcases Prod.mk.inj (Option.some.inj h) with ⟨hi, rfl⟩
    have hmem : picked.1 ∈ serving :=
      pool.preferUntried_subset exclude _ _ (pool.pick_mem st draw (preferUntried_ne_nil hda))
    rw [hi] at hmem ⊢
    refine ⟨(mem_servingBackends.mp hmem).1, ?_⟩
    unfold picked pick
    cases pool.strategy with
    | roundRobin | leastConn => exact .inr rfl
    | random => exact .inl rfl
  | _ => rintro ⟨⟩

end BackendPool

end

end Nexapipe
