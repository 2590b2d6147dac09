import Nexapipe.Lib.Table
import Nexapipe.Lib.Text

/-!
# Reloading the routing table

A reload builds every route anew, with a pool of its own, and `updateRoutes` gives
a new route the pool of the old route it is the same as. Sameness is equality of
`poolKey`, a text made of everything that makes a pool what it is.

The old pools are collected in a map by key, which keeps one pool of each key, the last. The new
routes take pools out of the map in order, so the first new route of a key finds the pool and a
second one finds nothing. Of a key that stands twice on both sides one pool is dropped while a route
that should have kept it starts over.
-/

namespace Nexapipe

open List

/-! ### Routes -/

inductive RouteMode where
  | http
  | passthrough
  | tcp
  | udp
deriving DecidableEq

def RouteMode.debug : RouteMode → String
  | http => "Http"
  | passthrough => "Passthrough"
  | tcp => "Tcp"
  | udp => "Udp"

inductive LoadBalancingStrategy where
  | roundRobin
  | random
  | leastConn
deriving DecidableEq

def LoadBalancingStrategy.debug : LoadBalancingStrategy → String
  | roundRobin => "RoundRobin"
  | random => "Random"
  | leastConn => "LeastConn"

inductive BackendProtocol where
  | http1
  | h2c
deriving DecidableEq

/-- A pool of backends. `id` is the identity of the shared object. -/
structure BackendPool where
  id : Nat
  strategy : LoadBalancingStrategy
  backends : List String
deriving DecidableEq

structure L4Options where
  clientPorts : Option (List UInt16)
  idleTimeout : Option Nat
  flowTimeout : Option Nat
deriving DecidableEq

structure Route where
  hostPattern : String
  pathPattern : String
  pathIsPrefix : Bool
  modes : List RouteMode
  backendPool : BackendPool
  backendProtocol : BackendProtocol
  pathRewrite : Option String
  l4 : L4Options
deriving DecidableEq

def debugList (items : List String) : String :=
  "[" ++ ", ".intercalate items ++ "]"

section

variable (plain : Char → Bool)

/-- What makes a route the same across a reload. `plain` says which characters
    outside ASCII the debug printer leaves as they are. -/
def Route.poolKey (r : Route) : String :=
  r.hostPattern ++ "|" ++ r.pathPattern ++ "|" ++ debugList (r.modes.map RouteMode.debug) ++ "|" ++
    r.backendPool.strategy.debug ++ "|" ++
    debugList (r.backendPool.backends.map (Text.debugStr plain))

/-- The old pools by key. A later route of a key replaces an earlier one. -/
def previousPools (current : List Route) : Table String BackendPool :=
  current.foldl (fun previous r => previous.insert (r.poolKey plain) r.backendPool) ∅

def takePools : Table String BackendPool → List Route → List Route
  | _, [] => []
  | previous, r :: rest =>
    match previous.lookup (r.poolKey plain) with
    | some pool =>
      { r with backendPool := pool } :: takePools (previous.erase (r.poolKey plain)) rest
    | none => r :: takePools previous rest

def updateRoutes (current new : List Route) : List Route :=
  takePools plain (previousPools plain current) new

/-! ### What a reload is to keep -/

def ofKey (key : String) (routes : List Route) : List Route :=
  routes.filter fun r => r.poolKey plain = key

/-- How many new routes of a key have one of the key's old pools in the updated
    table, which lists them in the same order. -/
def keptCount (current new updated : List Route) (key : String) : Nat :=
  (new.zip updated).countP fun p =>
    p.1.poolKey plain = key ∧
      p.2.backendPool.id ∈ (ofKey plain key current).map fun r => r.backendPool.id

def Shared (id : Nat) (routes : List Route) (i j : Nat) : Prop :=
  ∃ r s, routes[i]? = some r ∧ routes[j]? = some s ∧ r.backendPool.id = id ∧
    s.backendPool.id = id

/-- What a reload is to keep: the new routes in their order, no pool shared that
    was not shared before, and of each key as many old pools as there are routes
    to keep them. -/
structure PoolsPreserved (current new updated : List Route) : Prop where
  inOrder : updated.length = new.length ∧ ∀ (i : Nat) (r : Route), new[i]? = some r →
    ∃ pool, updated[i]? = some { r with backendPool := pool }
  unshared : ∀ id i j : Nat, i ≠ j → Shared id updated i j →
    Shared id new i j ∨ ∃ a b : Nat, a ≠ b ∧ Shared id current a b
  kept : ∀ key, keptCount plain current new updated key =
    min (ofKey plain key current).length (ofKey plain key new).length

end

/-- The pools of the new routes are none of the old ones. A reload builds every
    new route with a pool of its own. -/
def FreshPools (current new : List Route) : Prop :=
  ∀ r ∈ new, ∀ s ∈ current, r.backendPool.id ≠ s.backendPool.id

instance (current new : List Route) : Decidable (FreshPools current new) :=
  inferInstanceAs (Decidable (∀ r ∈ new, ∀ s ∈ current, _ ≠ _))

section

variable {plain : Char → Bool}

/-! ### The map of old pools -/

theorem ofKey_append_singleton (key : String) (routes : List Route) (r : Route) :
    ofKey plain key (routes ++ [r]) =
      ofKey plain key routes ++ if r.poolKey plain = key then [r] else [] := by
  unfold ofKey
  by_cases h : r.poolKey plain = key
  · simp [h]
  · simp [h]

theorem previousPools_lookup (current : List Route) (key : String) :
    (previousPools plain current).lookup key =
      (ofKey plain key current).getLast?.map fun r => r.backendPool := by
  -- From the right end: the last route of a key is the one that stays in the map.
  induction current using reverseRecOn with
  | nil => exact Finmap.lookup_empty key
  | append_singleton routes r ih =>
    have hins : previousPools plain (routes ++ [r]) =
        (previousPools plain routes).insert (r.poolKey plain) r.backendPool := by
      unfold previousPools
      rw [foldl_append]
      rfl
    rw [hins, Table.lookup_insert_eq, ofKey_append_singleton, ih]
    by_cases h : r.poolKey plain = key
    · rw [if_pos h.symm, if_pos h, getLast?_concat]
      rfl
    · rw [if_neg (Ne.symm h), if_neg h, append_nil]

variable {pool : BackendPool} {previous : Table String BackendPool} {r : Route} {i j id : Nat}

theorem exists_of_previousPools {current : List Route} {key : String}
    (h : (previousPools plain current).lookup key = some pool) :
    ∃ (a : Nat) (r : Route), current[a]? = some r ∧ r.poolKey plain = key ∧
      r.backendPool = pool := by
  rw [previousPools_lookup] at h
  rcases Option.map_eq_some_iff.mp h with ⟨r, hl, hp⟩
  have hmem : r ∈ ofKey plain key current := mem_of_getLast? hl
  rw [ofKey, mem_filter, decide_eq_true_iff] at hmem
  rcases mem_iff_getElem?.mp hmem.1 with ⟨a, ha⟩
  exact ⟨a, r, ha, hmem.2, hp⟩

theorem previousPools_isSome (current : List Route) (key : String) :
    ((previousPools plain current).lookup key).isSome =
      decide (0 < (ofKey plain key current).length) := by
  rw [previousPools_lookup, Option.isSome_map]
  rcases h : ofKey plain key current with _ | ⟨r, rest⟩
  · rfl
  · simp

/-! ### Where the pools go -/

theorem takePools_cons_some (h : previous.lookup (r.poolKey plain) = some pool)
    (rest : List Route) :
    takePools plain previous (r :: rest) =
      { r with backendPool := pool } ::
        takePools plain (previous.erase (r.poolKey plain)) rest := by
  simp only [takePools, h]

theorem takePools_cons_none (h : previous.lookup (r.poolKey plain) = none) (rest : List Route) :
    takePools plain previous (r :: rest) = r :: takePools plain previous rest := by
  simp only [takePools, h]

/-- The first new route of a key takes the key's pool. Every other route, and one
    whose key is not in the map, keeps its own. -/
theorem takePools_getElem? (previous : Table String BackendPool) (new : List Route) (i : Nat) :
    (takePools plain previous new)[i]? =
      new[i]?.map fun r =>
        if r.poolKey plain ∈ (new.take i).map (Route.poolKey plain) then r
        else
          match previous.lookup (r.poolKey plain) with
          | some pool => { r with backendPool := pool }
          | none => r := by
  -- The map changes on the way, so the claim is for every map.
  induction new generalizing previous i with
  | nil => rfl
  | cons r rest ih =>
    rcases hlk : previous.lookup (r.poolKey plain) with _ | pool
    · rw [takePools_cons_none hlk]
      rcases i with _ | i
      · simp [hlk]
      simp only [getElem?_cons_succ, ih, take_succ_cons, map_cons,
        mem_cons]
      congr 1
      funext s
      by_cases hsame : s.poolKey plain = r.poolKey plain
      · have hno : previous.lookup (s.poolKey plain) = none := by rw [hsame, hlk]
        simp only [hno, ite_self]
      · simp [hsame]
    · rw [takePools_cons_some hlk]
      rcases i with _ | i
      · simp [hlk]
      simp only [getElem?_cons_succ, ih, take_succ_cons, map_cons,
        mem_cons, Table.lookup_erase_eq]
      congr 1
      funext s
      -- A later route of the key finds the pool gone.
      by_cases hsame : s.poolKey plain = r.poolKey plain
      · simp [hsame]
      · simp [hsame]

theorem kept_takePools {key : String} {old : List Nat} (previous : Table String BackendPool)
    (new : List Route) (hprev : ∀ pool ∈ previous.lookup key, pool.id ∈ old)
    (hfr : ∀ r ∈ new, r.backendPool.id ∉ old) :
    ((new.zip (takePools plain previous new)).countP fun p =>
        p.1.poolKey plain = key ∧ p.2.backendPool.id ∈ old) =
      if (previous.lookup key).isSome then min 1 (ofKey plain key new).length else 0 := by
  induction new generalizing previous with
  | nil => simp [ofKey]
  | cons r rest ih =>
    rw [forall_mem_cons] at hfr
    by_cases hkey : r.poolKey plain = key
    · -- A route of the key: it takes the pool, or there is none to take.
      subst hkey
      have hcount : (ofKey plain (r.poolKey plain) (r :: rest)).length =
          (ofKey plain (r.poolKey plain) rest).length + 1 := by
        simp [ofKey]
      rcases hlk : previous.lookup (r.poolKey plain) with _ | pool
      · have htail := ih previous hprev hfr.2
        rw [hlk] at htail
        rw [takePools_cons_none hlk, zip_cons_cons,
          countP_cons_of_neg (by simp [hfr.1]), htail]
        rfl
      · have hgone : (previous.erase (r.poolKey plain)).lookup (r.poolKey plain) = none :=
          Finmap.lookup_erase _ _
        have htail := ih (previous.erase (r.poolKey plain)) (by simp [hgone]) hfr.2
        have hold : pool.id ∈ old := hprev pool hlk
        rw [takePools_cons_some hlk, zip_cons_cons,
          countP_cons_of_pos (by simp [hold]), htail, hgone, hcount]
        simp
    · have hcount : (ofKey plain key (r :: rest)).length = (ofKey plain key rest).length := by
        simp [ofKey, hkey]
      rw [hcount]
      rcases hlk : previous.lookup (r.poolKey plain) with _ | pool
      · have htail := ih previous hprev hfr.2
        rw [takePools_cons_none hlk, zip_cons_cons,
          countP_cons_of_neg (by simp [hkey]), htail]
      -- Another key's pool was taken, which leaves this key's where it is.
      have hsame : (previous.erase (r.poolKey plain)).lookup key = previous.lookup key := by
        rw [Table.lookup_erase_eq, if_neg (Ne.symm hkey)]
      have htail := ih (previous.erase (r.poolKey plain)) (by rw [hsame]; exact hprev)
        hfr.2
      rw [takePools_cons_some hlk, zip_cons_cons,
        countP_cons_of_neg (by simp [hkey]), htail, hsame]

/-! ### The three parts -/

variable {current new : List Route}

theorem updateRoutes_getElem? (plain : Char → Bool) (current : List Route) (h : new[i]? = some r) :
    ∃ pool, (updateRoutes plain current new)[i]? = some { r with backendPool := pool } ∧
      (pool = r.backendPool ∨
        r.poolKey plain ∉ (new.take i).map (Route.poolKey plain) ∧
          (previousPools plain current).lookup (r.poolKey plain) = some pool) := by
  unfold updateRoutes
  rw [takePools_getElem?, h, Option.map_some]
  by_cases hear : r.poolKey plain ∈ (new.take i).map (Route.poolKey plain)
  · rw [if_pos hear]
    exact ⟨r.backendPool, rfl, .inl rfl⟩
  rw [if_neg hear]
  rcases hlk : (previousPools plain current).lookup (r.poolKey plain) with _ | pool
  · exact ⟨r.backendPool, rfl, .inl rfl⟩
  · exact ⟨pool, rfl, .inr ⟨hear, rfl⟩⟩

theorem updateRoutes_length : (updateRoutes plain current new).length = new.length := by
  unfold updateRoutes
  generalize previousPools plain current = previous
  induction new generalizing previous with
  | nil => rfl
  | cons r rest ih =>
    rcases hlk : previous.lookup (r.poolKey plain) with _ | pool
    · rw [takePools_cons_none hlk, length_cons, length_cons, ih]
    · rw [takePools_cons_some hlk, length_cons, length_cons, ih]

theorem poolKey_mem_take (hij : i < j) (h : new[i]? = some r) :
    r.poolKey plain ∈ (new.take j).map (Route.poolKey plain) := by
  have hmem : r ∈ new.take j := by
    rw [mem_iff_getElem?]
    exact ⟨i, by rw [getElem?_take_of_lt hij, h]⟩
  exact mem_map_of_mem hmem

theorem Shared.symm {routes : List Route} (h : Shared id routes i j) : Shared id routes j i := by
  rcases h with ⟨r, s, hr, hs, hrid, hsid⟩
  exact ⟨s, r, hs, hr, hsid, hrid⟩

theorem updateRoutes_unshared_of_lt (hfr : FreshPools current new) (hij : i < j)
    (h : Shared id (updateRoutes plain current new) i j) :
    Shared id new i j ∨ ∃ a b : Nat, a ≠ b ∧ Shared id current a b := by
  rcases h with ⟨r', s', hr', hs', hrid, hsid⟩
  have hlt : ∀ {k : Nat} {x : Route}, (updateRoutes plain current new)[k]? = some x →
      ∃ y, new[k]? = some y := by
    intro k x hx
    have hk := (List.getElem?_eq_some_iff.mp hx).1
    rw [updateRoutes_length] at hk
    exact ⟨new[k], getElem?_eq_getElem hk⟩
  rcases hlt hr' with ⟨r, hr⟩
  rcases hlt hs' with ⟨s, hs⟩
  rcases updateRoutes_getElem? plain current hr with ⟨p, hp, hpo⟩
  rcases updateRoutes_getElem? plain current hs with ⟨q, hq, hqoo⟩
  rw [hp] at hr'
  rw [hq] at hs'
  cases hr'
  cases hs'
  rcases hpo with rfl | ⟨_, hpol⟩
  · rcases hqoo with rfl | ⟨_, hqo⟩
    · exact .inl ⟨r, s, hr, hs, hrid, hsid⟩
    -- An old pool is no new route's own.
    rcases exists_of_previousPools hqo with ⟨b, t, hb, _, rfl⟩
    exact absurd (hrid.trans hsid.symm)
      (hfr r (mem_of_getElem? hr) t (mem_of_getElem? hb))
  · rcases exists_of_previousPools hpol with ⟨a, t, ha, htk, rfl⟩
    rcases hqoo with rfl | ⟨hfst, hqo⟩
    · exact absurd (hsid.trans hrid.symm)
        (hfr s (mem_of_getElem? hs) t (mem_of_getElem? ha))
    rcases exists_of_previousPools hqo with ⟨b, u, hb, huk, rfl⟩
    -- The later route is the first of its key, so the two keys differ, and so do the old routes.
    have hdif : r.poolKey plain ≠ s.poolKey plain := by
      intro hsame
      exact hfst (hsame ▸ poolKey_mem_take hij hr)
    refine .inr ⟨a, b, ?_, t, u, ha, hb, hrid, hsid⟩
    intro hab
    rw [hab, hb] at ha
    cases ha
    exact hdif (htk.symm.trans huk)

theorem updateRoutes_unshared (hfr : FreshPools current new) (hne : i ≠ j)
    (h : Shared id (updateRoutes plain current new) i j) :
    Shared id new i j ∨ ∃ a b : Nat, a ≠ b ∧ Shared id current a b := by
  rcases Nat.lt_or_gt_of_ne hne with hlt | hgt
  · exact updateRoutes_unshared_of_lt hfr hlt h
  -- Sharing has no order, so the pair is taken the other way round.
  rcases updateRoutes_unshared_of_lt hfr hgt h.symm with hnew | hold
  · exact .inl hnew.symm
  · exact .inr hold

theorem keptCount_updateRoutes (hfr : FreshPools current new) (key : String) :
    keptCount plain current new (updateRoutes plain current new) key =
      if 0 < (ofKey plain key current).length then min 1 (ofKey plain key new).length else 0 := by
  have hids : ∀ id ∈ (ofKey plain key current).map (fun r => r.backendPool.id),
      ∃ s ∈ current, s.backendPool.id = id := by
    intro id hid
    rcases mem_map.mp hid with ⟨s, hs, rfl⟩
    exact ⟨s, (mem_filter.mp hs).1, rfl⟩
  unfold keptCount updateRoutes
  rw [kept_takePools, previousPools_isSome]
  · simp only [decide_eq_true_eq]
  · intro pool hpo
    -- What is in the map under the key is a pool of the key's old routes.
    rcases exists_of_previousPools hpo with ⟨a, r, ha, hkey, rfl⟩
    refine mem_map.mpr ⟨r, mem_filter.mpr ⟨mem_of_getElem? ha, ?_⟩, rfl⟩
    exact decide_eq_true hkey
  · intro r hr hmem
    rcases hids _ hmem with ⟨s, hs, hsame⟩
    exact hfr r hr s hs hsame.symm

/-- A reload keeps every pool it can exactly when no key stands twice in the old
    table and twice in the new one. The routes and their order are kept, and no
    pool comes to be shared, in every reload. -/
theorem pools_preserved_iff (plain : Char → Bool) {current new : List Route}
    (hfresh : FreshPools current new) :
    PoolsPreserved plain current new (updateRoutes plain current new) ↔
      ∀ key, min (ofKey plain key current).length (ofKey plain key new).length ≤ 1 := by
  constructor
  · intro h key
    have hke := h.kept key
    rw [keptCount_updateRoutes hfresh] at hke
    -- At most one pool of a key is kept, so the minimum is at most one.
    split at hke
    · omega
    · omega
  · intro h
    refine
      { inOrder := ⟨updateRoutes_length, ?_⟩
        unshared := ?_
        kept := ?_ }
    · intro i r hr
      rcases updateRoutes_getElem? plain current hr with ⟨pool, hpo, _⟩
      exact ⟨pool, hpo⟩
    · intro id i j hne hsh
      exact updateRoutes_unshared hfresh hne hsh
    · intro key
      have hle := h key
      rw [keptCount_updateRoutes hfresh]
      split
      · omega
      · omega

end

/-! ### Two reloads -/

def Route.simple (host : String) (isPrefix : Bool) (pool : Nat) : Route :=
  { hostPattern := host
    pathPattern := "/"
    pathIsPrefix := isPrefix
    modes := [.http]
    backendPool := { id := pool, strategy := .roundRobin, backends := ["http://10.0.0.5"] }
    backendProtocol := .http1
    pathRewrite := none
    l4 := { clientPorts := none, idleTimeout := none, flowTimeout := none } }

theorem pools_preserved_iff_one_old :
    PoolsPreserved (fun _ => false) [.simple "a.example" true 0]
      [.simple "a.example" true 1, .simple "b.example" true 2, .simple "a.example" false 3]
      (updateRoutes (fun _ => false) [.simple "a.example" true 0]
        [.simple "a.example" true 1, .simple "b.example" true 2,
          .simple "a.example" false 3]) := by
  refine (pools_preserved_iff _ (by decide)).mpr ?_
  intro key
  have hone : (ofKey (fun _ => false) key [Route.simple "a.example" true 0]).length ≤ 1 :=
    length_filter_le _ _
  omega

def twoRoutes (pool pool' : Nat) : List Route :=
  [.simple "a.example" false pool, .simple "a.example" true pool']

/-- The two routes are reloaded unchanged. Both have a pool to keep, and only the
    first keeps one, which was the other's. -/
theorem second_pool_dropped :
    FreshPools (twoRoutes 0 1) (twoRoutes 2 3) ∧
      updateRoutes (fun _ => false) (twoRoutes 0 1) (twoRoutes 2 3) = twoRoutes 1 3 ∧
      ¬PoolsPreserved (fun _ => false) (twoRoutes 0 1) (twoRoutes 2 3)
        (updateRoutes (fun _ => false) (twoRoutes 0 1) (twoRoutes 2 3)) := by
  refine ⟨by decide, by decide, ?_⟩
  intro h
  exact absurd (h.kept ((Route.simple "a.example" true 0).poolKey fun _ => false)) (by decide)

end Nexapipe
