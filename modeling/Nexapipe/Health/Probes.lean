import Nexapipe.Lib.Reconcile
import Nexapipe.Lib.Run
import Nexapipe.Routes.Lookup

/-!
# Health probes across reloads

A pool that traffic goes through is watched by a probe, a background task that asks its backends
how they are.

What is wanted is collected in a map by `poolKey`, one target for each key. A key does not tell two
routes apart that differ in nothing it is made of, and `updateRoutes` gives each such route a pool
of its own, so the second takes the first one's place in the map and the first one's pool is
watched by nobody.
-/

namespace Nexapipe.Health

open List Nat

/-! ### What is wanted -/

structure HealthCheckConfig where
  enabled : Bool
  interval : UInt64
  timeout : UInt64
  threshold : Nat
  path : String

inductive ProbeKind where
  | http (path : String) (protocol : BackendProtocol)
  | tcp

structure ProbeTarget where
  pool : BackendPool
  kind : ProbeKind

structure HealthChecker where
  backendPool : BackendPool
  interval : UInt64
  timeout : UInt64
  failureThreshold : Nat
  kind : ProbeKind

def wantsProbe (r : Route) : Bool :=
  r.serves .http || r.serves .passthrough || r.serves .tcp

/-- How the backends of a route are asked. A route of `udp` alone gets no probe. -/
def probeKind (health : HealthCheckConfig) (r : Route) : Option ProbeKind :=
  if r.serves .http then some (.http health.path r.backendProtocol)
  else if r.serves .passthrough || r.serves .tcp then some .tcp
  else none

theorem probeKind_isSome (health : HealthCheckConfig) (r : Route) :
    (probeKind health r).isSome = wantsProbe r := by
  unfold probeKind wantsProbe
  rcases r.serves .http with _ | _
  · rcases r.serves .passthrough with _ | _
    · cases r.serves .tcp <;> rfl
    · rfl
  · rfl

def wantedTarget (health : HealthCheckConfig) (r : Route) : Option ProbeTarget :=
  (probeKind health r).map fun kind => { pool := r.backendPool, kind := kind }

section

variable (plain : Char → Bool)

/-- Which routes want a probe, and on which pool. A later route of a key replaces an
    earlier one. -/
def wantedTargets (health : HealthCheckConfig) (routes : List Route) :
    Table String ProbeTarget :=
  routes.foldl
    (fun wanted r =>
      match wantedTarget health r with
      | some target => wanted.insert (r.poolKey plain) target
      | none => wanted)
    ∅

/-! ### Bringing the probes in step -/

abbrev HealthProbes : Type :=
  Reconcile.Tasks String BackendPool HealthChecker

def samePool (wanted : Table String ProbeTarget) (key : String) (pool : BackendPool) : Bool :=
  (wanted.lookup key).any fun target => target.pool.id = pool.id

def newChecker (health : HealthCheckConfig) (target : ProbeTarget) : HealthChecker :=
  { backendPool := target.pool
    interval := max health.interval 1
    timeout := max health.timeout 1
    failureThreshold := max health.threshold 1
    kind := target.kind }

def wantedProbe (health : HealthCheckConfig) (wanted : Table String ProbeTarget) (key : String) :
    Option (BackendPool × HealthChecker) :=
  (wanted.lookup key).map fun target => (target.pool, newChecker health target)

/-- Brings the probes in step with the live routes. `order` is the order in which the map of
    what is wanted is walked. -/
def syncHealthChecks (health : HealthCheckConfig) (wanted : Table String ProbeTarget)
    (order : List String) (probes : HealthProbes) : HealthProbes :=
  let probes := Reconcile.stopStale (samePool wanted) probes
  if health.enabled then Reconcile.startMissing (wantedProbe health wanted) order probes
  else probes

/-! ### Reloads -/

structure State where
  routes : List Route
  nextPool : Nat
  probes : HealthProbes

def State.init : State :=
  { routes := [], nextPool := 0, probes := Reconcile.Tasks.empty }

inductive Event where
  | updateRoutes (newRoutes : List Route)
  | syncHealthChecks (health : HealthCheckConfig) (order : List String)

def withNewPools : Nat → List Route → List Route
  | _, [] => []
  | next, r :: rest =>
    { r with backendPool := { r.backendPool with id := next } } :: withNewPools (next + 1) rest

def step (s : State) : Event → Option State
  | .updateRoutes newRoutes =>
    some { s with
      routes := updateRoutes plain s.routes (withNewPools s.nextPool newRoutes)
      nextPool := s.nextPool + newRoutes.length }
  | .syncHealthChecks health order =>
    let wanted := wantedTargets plain health s.routes
    if order.Nodup ∧ order.toFinset = wanted.keys then
      some { s with probes := syncHealthChecks health wanted order s.probes }
    else none

end

/-! ### What the probes are to watch -/

def Watched (s : State) (id : Nat) : Prop :=
  ∃ task checker, s.probes.alive.lookup task = some checker ∧ checker.backendPool.id = id

def Wanted (s : State) (id : Nat) : Prop :=
  ∃ r ∈ s.routes, wantsProbe r = true ∧ r.backendPool.id = id

structure ProbesMatch (s : State) : Prop where
  watched_iff_wanted : ∀ id, Watched s id ↔ Wanted s id
  once : ∀ task task' checker checker', s.probes.alive.lookup task = some checker →
    s.probes.alive.lookup task' = some checker' →
    checker.backendPool.id = checker'.backendPool.id → task = task'

def KeysDistinct (plain : Char → Bool) (routes : List Route) : Prop :=
  ((routes.filter wantsProbe).map (Route.poolKey plain)).Nodup

instance (plain : Char → Bool) (routes : List Route) : Decidable (KeysDistinct plain routes) :=
  inferInstanceAs (Decidable (List.Nodup _))

section

variable (plain : Char → Bool) (health : HealthCheckConfig)

/-! ### The map of what is wanted -/

def probedOfKey (key : String) (routes : List Route) : List Route :=
  (routes.filter wantsProbe).filter fun r => r.poolKey plain = key

variable {r : Route} {routes : List Route} {probes : HealthProbes} {order : List String}
  {wanted : Table String ProbeTarget} {s : State}

theorem wantedTarget_eq (h : wantsProbe r = true) :
    ∃ target, wantedTarget health r = some target ∧ target.pool = r.backendPool := by
  rw [← probeKind_isSome health] at h
  obtain ⟨kind, hk⟩ := Option.isSome_iff_exists.mp h
  exact ⟨{ pool := r.backendPool, kind := kind }, by rw [wantedTarget, hk]; rfl, rfl⟩

theorem wantedTarget_eq_none (h : wantsProbe r = false) : wantedTarget health r = none := by
  rw [← probeKind_isSome health] at h
  rw [wantedTarget]
  rcases hk : probeKind health r with _ | kind
  · rfl
  · simp [hk] at h

theorem wantedTargets_lookup (routes : List Route) (key : String) :
    ((wantedTargets plain health routes).lookup key).map ProbeTarget.pool =
      (probedOfKey plain key routes).getLast?.map Route.backendPool := by
  -- From the right end: the last route of a key is the one that stays in the map.
  induction routes using reverseRecOn with
  | nil => rfl
  | append_singleton routes r ih =>
    have hfo : wantedTargets plain health (routes ++ [r]) =
        match wantedTarget health r with
        | some target => (wantedTargets plain health routes).insert (r.poolKey plain) target
        | none => wantedTargets plain health routes := by
      unfold wantedTargets
      rw [foldl_append]
      rfl
    rw [hfo]
    unfold probedOfKey at ih ⊢
    rcases hwan : wantsProbe r with _ | _
    · rw [wantedTarget_eq_none health hwan, filter_append]
      simp only [filter_cons, hwan, Bool.false_eq_true, if_false, filter_nil,
        append_nil]
      exact ih
    · obtain ⟨target, htar, hpo⟩ := wantedTarget_eq health hwan
      rw [htar, filter_append, filter_append]
      simp only [Table.lookup_insert_eq, filter_cons, hwan, if_true, filter_nil]
      by_cases hkey : r.poolKey plain = key
      · simp [hkey, hpo]
      simp only [Ne.symm hkey, if_false, hkey, decide_false, Bool.false_eq_true,
        append_nil]
      exact ih

variable {plain : Char → Bool} {health : HealthCheckConfig}

theorem exists_of_wanted {key : String} {target : ProbeTarget}
    (h : (wantedTargets plain health routes).lookup key = some target) :
    ∃ r ∈ routes.filter wantsProbe, r.poolKey plain = key ∧ r.backendPool = target.pool := by
  have hlk := wantedTargets_lookup plain health routes key
  rw [h, Option.map_some] at hlk
  obtain ⟨r, hl, hp⟩ := Option.map_eq_some_iff.mp hlk.symm
  have hmem := mem_of_getLast? hl
  rw [probedOfKey, mem_filter, decide_eq_true_iff] at hmem
  exact ⟨r, hmem.1, hmem.2, hp⟩

theorem wanted_isSome (health : HealthCheckConfig) (h : r ∈ routes.filter wantsProbe) :
    ∃ target, (wantedTargets plain health routes).lookup (r.poolKey plain) = some target := by
  have hlk := wantedTargets_lookup plain health routes
    (r.poolKey plain)
  have hmem : r ∈ probedOfKey plain (r.poolKey plain) routes :=
    mem_filter.mpr ⟨h, decide_eq_true rfl⟩
  rcases htar : (wantedTargets plain health routes).lookup (r.poolKey plain) with _ | target
  · rw [htar, Option.map_none] at hlk
    have hn := Option.map_eq_none_iff.mp hlk.symm
    rw [getLast?_eq_none_iff] at hn
    rw [hn] at hmem
    cases hmem
  · exact ⟨target, rfl⟩

/-! ### What is watched -/

theorem kept_syncHealthChecks (health : HealthCheckConfig) (wanted : Table String ProbeTarget)
    (order : List String) (h : Reconcile.WellKept HealthChecker.backendPool probes) :
    Reconcile.WellKept HealthChecker.backendPool
      (syncHealthChecks health wanted order probes) := by
  have hs := h.stopStale (samePool wanted)
  fun_cases syncHealthChecks health wanted order probes with
  | case1 =>
    refine hs.startMissing ?_
    intro key pool checker hw
    obtain ⟨target, -, heq⟩ := Option.map_eq_some_iff.mp hw
    cases heq
    rfl
  | case2 => exact hs

theorem samePool_iff (health : HealthCheckConfig) (wanted : Table String ProbeTarget)
    (key : String) (pool : BackendPool) :
    samePool wanted key pool = true ↔
      ∃ w, wantedProbe health wanted key = some w ∧ w.1.id = pool.id := by
  unfold samePool wantedProbe
  rcases wanted.lookup key with _ | target
  · simp
  · simp

theorem running_sync (hen : health.enabled = true) (hord : order.toFinset = wanted.keys)
    (probes : HealthProbes) (key : String) :
    (∀ pool task,
      (syncHealthChecks health wanted order probes).running.lookup key = some (pool, task) →
        ∃ target, wanted.lookup key = some target ∧ target.pool.id = pool.id) ∧
      ∀ target, wanted.lookup key = some target → ∃ v,
        (syncHealthChecks health wanted order probes).running.lookup key = some v := by
  have hke : ∀ k, (wantedProbe health wanted k).isSome = true → k ∈ order := by
    intro k hk
    rw [wantedProbe, Option.isSome_map] at hk
    obtain ⟨target, htar⟩ := Option.isSome_iff_exists.mp hk
    rw [← mem_toFinset, hord, Finmap.mem_keys]
    exact Finmap.mem_of_lookup_eq_some htar
  have hsp := Reconcile.reconcile_spec (fun p q : BackendPool => p.id = q.id)
    (samePool_iff health wanted) (fun _ => rfl) hke probes key
  unfold syncHealthChecks
  rw [if_pos hen]
  refine ⟨?_, ?_⟩
  · intro pool task hlk
    obtain ⟨w, hw, hid⟩ := hsp.1 pool task hlk
    obtain ⟨target, htar, rfl⟩ := Option.map_eq_some_iff.mp hw
    exact ⟨target, htar, hid⟩
  · intro target htar
    refine Option.isSome_iff_exists.mp (hsp.2 ?_)
    rw [wantedProbe, htar]
    rfl

theorem watched_iff (hke : Reconcile.WellKept HealthChecker.backendPool probes)
    (hen : health.enabled = true) (hord : order.toFinset = wanted.keys) (id : Nat) :
    (∃ task checker, (syncHealthChecks health wanted order probes).alive.lookup task =
        some checker ∧ checker.backendPool.id = id) ↔
      ∃ key target, wanted.lookup key = some target ∧ target.pool.id = id := by
  have hke' := kept_syncHealthChecks health wanted order hke
  constructor
  · rintro ⟨task, checker, hal, rfl⟩
    obtain ⟨key, hkey⟩ := hke'.owner task checker hal
    obtain ⟨target, htar, hid⟩ :=
      (running_sync hen hord probes key).1 _ _ hkey
    exact ⟨key, target, htar, hid⟩
  · rintro ⟨key, target, htar, rfl⟩
    obtain ⟨⟨pool, task⟩, hkey⟩ := (running_sync hen hord probes key).2 target htar
    obtain ⟨target', htar', hid⟩ := (running_sync hen hord probes key).1 _ _ hkey
    cases htar.symm.trans htar'
    obtain ⟨checker, hal, hwat⟩ := hke'.handle key pool task hkey
    exact ⟨task, checker, hal, by rw [hwat, hid]⟩

/-! ### Runs -/

structure Inv (s : State) : Prop where
  unshared : ∀ id i j, i ≠ j → ¬Shared id s.routes i j
  below : ∀ r ∈ s.routes, r.backendPool.id < s.nextPool
  kept : Reconcile.WellKept HealthChecker.backendPool s.probes

theorem inv_init : Inv State.init where
  unshared := by
    rintro id i j - ⟨r, -, hr, -⟩
    cases hr
  below := nofun
  kept := Reconcile.WellKept.empty _

theorem withNewPools_getElem? (next : Nat) (routes : List Route) (i : Nat) :
    (withNewPools next routes)[i]? = routes[i]?.map fun r =>
      { r with backendPool := { r.backendPool with id := next + i } } := by
  induction routes generalizing next i with
  | nil => rfl
  | cons r routes ih =>
    rcases i with _ | i
    · rfl
    · rw [withNewPools, getElem?_cons_succ, ih, getElem?_cons_succ,
        add_right_comm, add_assoc]

theorem id_withNewPools {next i : Nat} (h : (withNewPools next routes)[i]? = some r) :
    r.backendPool.id = next + i ∧ i < routes.length := by
  rw [withNewPools_getElem?] at h
  obtain ⟨r', hr', rfl⟩ := Option.map_eq_some_iff.mp h
  exact ⟨rfl, (List.getElem?_eq_some_iff.mp hr').1⟩

theorem freshPools_withNewPools (h : Inv s) (newRoutes : List Route) :
    FreshPools s.routes (withNewPools s.nextPool newRoutes) := by
  intro r hr live hl heq
  obtain ⟨i, hi⟩ := mem_iff_getElem?.mp hr
  have hid := (id_withNewPools hi).1
  have hbel := h.below live hl
  omega

theorem not_shared_withNewPools {id next i j : Nat} (hne : i ≠ j) :
    ¬Shared id (withNewPools next routes) i j := by
  rintro ⟨r, r', hr, hr', hid, hid'⟩
  have hi := (id_withNewPools hr).1
  have hj := (id_withNewPools hr').1
  omega

theorem inv_updateRoutes (h : Inv s) (newRoutes : List Route) :
    Inv { s with
      routes := updateRoutes plain s.routes (withNewPools s.nextPool newRoutes)
      nextPool := s.nextPool + newRoutes.length } where
  unshared := by
    intro id i j hne hsh
    rcases updateRoutes_unshared (freshPools_withNewPools h newRoutes) hne hsh with
      hnew | ⟨a, b, hab, hold⟩
    · exact not_shared_withNewPools hne hnew
    · exact h.unshared id a b hab hold
  below := by
    intro r hr
    obtain ⟨i, hi⟩ := mem_iff_getElem?.mp hr
    have hlen := (List.getElem?_eq_some_iff.mp hi).1
    rw [updateRoutes_length] at hlen
    have hnew := getElem?_eq_getElem hlen
    obtain ⟨pool, hpo, hown | ⟨-, hold⟩⟩ := updateRoutes_getElem? plain s.routes hnew
    · rw [hpo] at hi
      cases hi
      have hid := id_withNewPools hnew
      simp only [hown]
      omega
    · -- The pool of an old route is below the new ones.
      rw [hpo] at hi
      cases hi
      obtain ⟨a, live, ha, -, rfl⟩ := exists_of_previousPools hold
      have hbel := h.below live (mem_of_getElem? ha)
      exact lt_of_lt_of_le hbel (le_add_right _ _)
  kept := h.kept

theorem step_inv {s' : State} {e : Event} (h : Inv s) (hs : step plain s e = some s') :
    Inv s' := by
  cases e with
  | updateRoutes newRoutes =>
    cases hs
    exact inv_updateRoutes h newRoutes
  | syncHealthChecks health order =>
    simp only [step] at hs
    split at hs
    · cases hs
      exact ⟨h.unshared, h.below, kept_syncHealthChecks health _ order h.kept⟩
    · cases hs

theorem step_sync (plain : Char → Bool) (health : HealthCheckConfig) (s : State)
    (h : order.Nodup ∧ order.toFinset = (wantedTargets plain health s.routes).keys) :
    step plain s (.syncHealthChecks health order) = some { s with
      probes := syncHealthChecks health (wantedTargets plain health s.routes) order s.probes } :=
  if_pos h

theorem ids_nodup (h : ∀ id i j, i ≠ j → ¬Shared id routes i j) :
    (routes.map fun r => r.backendPool.id).Nodup := by
  rw [nodup_iff_getElem?_ne_getElem?]
  intro i j hij hj heq
  rw [length_map] at hj
  have hr := getElem?_eq_getElem (lt_trans hij hj)
  have hr' := getElem?_eq_getElem hj
  rw [getElem?_map, getElem?_map, hr, hr', Option.map_some, Option.map_some,
    Option.some.injEq] at heq
  exact h _ i j (Nat.ne_of_lt hij) ⟨_, _, hr, hr', heq, rfl⟩

theorem eq_of_pool (hids : (routes.map fun r => r.backendPool.id).Nodup) {r' : Route}
    (hr : r ∈ routes.filter wantsProbe) (hr' : r' ∈ routes.filter wantsProbe)
    (hid : r.backendPool.id = r'.backendPool.id) : r = r' :=
  inj_on_of_nodup_map hids (mem_filter.mp hr).1 (mem_filter.mp hr').1 hid

theorem watched_once (hids : (routes.map fun r => r.backendPool.id).Nodup)
    (hke : Reconcile.WellKept HealthChecker.backendPool probes) (hen : health.enabled = true)
    (hord : order.toFinset = (wantedTargets plain health routes).keys) {task task' : Nat}
    {checker checker' : HealthChecker}
    (h : (syncHealthChecks health (wantedTargets plain health routes) order probes).alive.lookup
      task = some checker)
    (h' : (syncHealthChecks health (wantedTargets plain health routes) order probes).alive.lookup
      task' = some checker') (hid : checker.backendPool.id = checker'.backendPool.id) :
    task = task' := by
  have hke' := kept_syncHealthChecks health (wantedTargets plain health routes) order hke
  obtain ⟨key, hkey⟩ := hke'.owner task checker h
  obtain ⟨key', hkey'⟩ := hke'.owner task' checker' h'
  obtain ⟨target, htar, hpo⟩ := (running_sync hen hord probes key).1 _ _ hkey
  obtain ⟨target', htar', hpo'⟩ := (running_sync hen hord probes key').1 _ _ hkey'
  obtain ⟨r, hr, rfl, hrp⟩ := exists_of_wanted htar
  obtain ⟨r', hr', rfl, hrp'⟩ := exists_of_wanted htar'
  -- One pool is one route, and a route has one key, under which there is one handle.
  have hsame : r = r' := eq_of_pool hids hr hr' (by rw [hrp, hrp', hpo, hpo', hid])
  subst hsame
  exact congrArg Prod.snd (Option.some.inj (hkey.symm.trans hkey'))

theorem wanted_pool_iff (health : HealthCheckConfig)
    (hids : (routes.map fun r => r.backendPool.id).Nodup) :
    (∀ r ∈ routes.filter wantsProbe, ∃ key target,
      (wantedTargets plain health routes).lookup key = some target ∧
        target.pool.id = r.backendPool.id) ↔ KeysDistinct plain routes := by
  have hnodup : (routes.filter wantsProbe).Nodup := (List.Nodup.of_map _ hids).filter _
  constructor
  · intro h
    -- One pool is one route, so a pool in the map stands under the key of its route.
    have hown : ∀ r ∈ routes.filter wantsProbe, ∃ target,
        (wantedTargets plain health routes).lookup (r.poolKey plain) = some target ∧
          target.pool.id = r.backendPool.id := by
      intro r hr
      obtain ⟨key, target, htar, hid⟩ := h r hr
      obtain ⟨r', hr', hkey, hpo⟩ := exists_of_wanted htar
      cases eq_of_pool hids hr' hr (by rw [hpo, hid])
      exact ⟨target, hkey ▸ htar, hid⟩
    refine List.Nodup.map_on ?_ hnodup
    intro r hr r' hr' hkey
    obtain ⟨target, htar, hid⟩ := hown r hr
    obtain ⟨target', htar', hid'⟩ := hown r' hr'
    rw [hkey, htar'] at htar
    cases htar
    exact eq_of_pool hids hr hr' (hid.symm.trans hid')
  · intro h r hr
    obtain ⟨target, htar⟩ := wanted_isSome health hr
    obtain ⟨r', hr', hkey, hpo⟩ := exists_of_wanted htar
    cases inj_on_of_nodup_map h hr' hr hkey
    exact ⟨_, target, htar, by rw [hpo]⟩

/-- After the probes have been brought in step, in any run of reloads, they match the pools of
    the live routes exactly when no two live routes that want a probe have one key. -/
theorem probes_match_iff (plain : Char → Bool) {events : List Event} {s s' : State}
    {health : HealthCheckConfig} {order : List String}
    (hrun : Machine.run (step plain) State.init events = some s)
    (henabled : health.enabled = true)
    (hsync : step plain s (.syncHealthChecks health order) = some s') :
    ProbesMatch s' ↔ KeysDistinct plain s.routes := by
  have hinv : Inv s := Machine.invariant Inv (fun _ _ _ h => step_inv h) inv_init hrun
  have hids := ids_nodup hinv.unshared
  simp only [step] at hsync
  split at hsync
  next hord =>
    cases hsync
    have hwat := watched_iff hinv.kept henabled hord.2
    rw [← wanted_pool_iff health hids]
    constructor
    · intro h r hr
      obtain ⟨hmem, hwan⟩ := mem_filter.mp hr
      exact (hwat _).mp ((h.watched_iff_wanted _).mpr ⟨r, hmem, hwan, rfl⟩)
    · intro h
      refine ⟨fun id => ?_, ?_⟩
      · refine (hwat id).trans ⟨?_, ?_⟩
        · rintro ⟨key, target, htar, rfl⟩
          obtain ⟨r, hr, -, hpo⟩ := exists_of_wanted htar
          obtain ⟨hmem, hwan⟩ := mem_filter.mp hr
          exact ⟨r, hmem, hwan, by rw [hpo]⟩
        · rintro ⟨r, hmem, hwan, rfl⟩
          exact h r (mem_filter.mpr ⟨hmem, hwan⟩)
      · intro task task' checker checker' h₁ h₂ hid
        exact watched_once hids hinv.kept henabled hord.2 h₁ h₂ hid
  next => cases hsync

end

/-! ### Two reloads -/

def defaultHealth : HealthCheckConfig :=
  { enabled := true, interval := 10, timeout := 5, threshold := 3, path := "/health" }

def simpleKey (host : String) : String :=
  (Route.simple host true 0).poolKey fun _ => false

def started (routes : List Route) : State :=
  { routes := updateRoutes (fun _ => false) [] (withNewPools 0 routes)
    nextPool := 0 + routes.length
    probes := Reconcile.Tasks.empty }

open Machine

theorem probes_match_iff_two_hosts :
    ∃ s', Machine.run (step fun _ => false) State.init
        [.updateRoutes [.simple "a.example" true 0, .simple "b.example" true 0],
          .syncHealthChecks defaultHealth [simpleKey "a.example", simpleKey "b.example"]] =
        some s' ∧
      ProbesMatch s' := by
  have hs : step (fun _ => false) _
      (.syncHealthChecks defaultHealth [simpleKey "a.example", simpleKey "b.example"]) = some _ :=
    step_sync _ _ (started [.simple "a.example" true 0, .simple "b.example" true 0])
      (by decide +kernel)
  have hrun : run (step fun _ => false) State.init
      [.updateRoutes [.simple "a.example" true 0, .simple "b.example" true 0]] =
      some (started [.simple "a.example" true 0, .simple "b.example" true 0]) := rfl
  refine ⟨_, ?_, (probes_match_iff _ hrun rfl hs).mpr (by decide +kernel)⟩
  exact run_cons_eq_some.mpr ⟨_, rfl, run_cons_eq_some.mpr ⟨_, hs, rfl⟩⟩

/-- Two routes with one key: the pool of the first is watched by nobody. -/
theorem shared_key_unwatched :
    ∃ s', Machine.run (step fun _ => false) State.init
        [.updateRoutes (twoRoutes 0 0),
          .syncHealthChecks defaultHealth [simpleKey "a.example"]] = some s' ∧
      Wanted s' 0 ∧ ¬Watched s' 0 := by
  have hsy : step (fun _ => false) _
      (.syncHealthChecks defaultHealth [simpleKey "a.example"]) = some _ :=
    step_sync _ _ (started (twoRoutes 0 0)) (by decide +kernel)
  refine ⟨_, run_cons_eq_some.mpr ⟨_, rfl, run_cons_eq_some.mpr ⟨_, hsy, rfl⟩⟩,
    ?_, ?_⟩
  · exact ⟨_, mem_cons_self, by decide, by decide +kernel⟩
  · -- The one probe that runs is on the pool of the second.
    have hall : (syncHealthChecks defaultHealth
        (wantedTargets (fun _ => false) defaultHealth (started (twoRoutes 0 0)).routes)
        [simpleKey "a.example"] (started (twoRoutes 0 0)).probes).alive.Forall
          fun _ checker => checker.backendPool.id ≠ 0 := by
      decide +kernel
    rintro ⟨task, checker, hal, hid⟩
    exact hall task checker hal hid

end Nexapipe.Health
