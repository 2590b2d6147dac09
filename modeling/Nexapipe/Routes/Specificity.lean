import Nexapipe.Routes.Lookup

/-!
# Client ports and the routes that have no use for them

The list of client ports is a setting of tunnel routes. It narrows which flows a route takes, and a
route that has one ranks above a route for the same host that has none.

The host is worth more than everything else together, so the list can only decide
between routes whose host patterns are of one kind. Where a lookup has a single
route of the best kind it goes there whatever the lists are. Where it has two,
some choice of lists sends it to either one (`client_ports_ignored_iff`).
-/

namespace Nexapipe

open Option

def Route.withClientPorts (r : Route) (ports : Option (List UInt16)) : Route :=
  { r with l4 := { r.l4 with clientPorts := ports } }

def withClientPorts (routes : List Route) (ports : Nat → Option (List UInt16)) : List Route :=
  routes.mapIdx fun i r => r.withClientPorts (ports i)

def matchedPlace (routes : List Route) (mode : RouteMode) (accepts : Route → Bool) : Option Nat :=
  (bestMatch routes mode accepts).map Prod.snd

def TakesPart (routes : List Route) (mode : RouteMode) (accepts : Route → Bool) (i : Nat)
    (r : Route) : Prop :=
  routes[i]? = some r ∧ r.serves mode = true ∧ accepts r = true

def AloneOnTop (routes : List Route) (mode : RouteMode) (accepts : Route → Bool) : Prop :=
  ∀ i r j s, TakesPart routes mode accepts i r → TakesPart routes mode accepts j s →
    (∀ k u, TakesPart routes mode accepts k u → u.hostTier ≤ r.hostTier) →
    s.hostTier = r.hostTier → j = i

section

variable {routes : List Route} {mode : RouteMode} {accepts : Route → Bool} {r s : Route} {i j : Nat}

theorem Route.pathRank_le (r : Route) : r.pathRank ≤ 199 := by
  unfold Route.pathRank
  split <;> omega

theorem priority_of_hostTier_lt (h : s.hostTier < r.hostTier) : s.priority < r.priority := by
  have hp := s.pathRank_le
  unfold Route.priority
  split <;> split <;> omega

theorem priority_of_clientPorts (ht : s.hostTier ≤ r.hostTier)
    (hr : r.l4.clientPorts.isSome = true) (hs : s.l4.clientPorts = none) :
    s.priority < r.priority := by
  have hp := s.pathRank_le
  unfold Route.priority
  rw [hs, if_pos hr]
  simp only [isSome_none, Bool.false_eq_true, if_false]
  omega

theorem isMatch_iff :
    IsMatch routes mode accepts i r ↔ TakesPart routes mode accepts i r ∧
      ∀ j s, TakesPart routes mode accepts j s →
        s.priority < r.priority ∨ s.priority = r.priority ∧ i ≤ j := by
  unfold IsMatch Best.IsBest TakesPart
  simp only [Bool.and_eq_true, and_assoc, and_imp]

theorem isMatch_of_lt (h : TakesPart routes mode accepts i r)
    (hlt : ∀ j s, TakesPart routes mode accepts j s → j ≠ i → s.priority < r.priority) :
    IsMatch routes mode accepts i r := by
  refine Best.isBest_of_lt h.1 (Bool.and_eq_true_iff.mpr h.2) ?_
  intro j s hj hs hne
  exact hlt j s ⟨hj, Bool.and_eq_true_iff.mp hs⟩ hne

theorem matchedPlace_eq_some_iff :
    matchedPlace routes mode accepts = some i ↔ ∃ r, IsMatch routes mode accepts i r := by
  unfold matchedPlace
  rw [map_eq_some_iff]
  simp only [Prod.exists, bestMatch_eq_some_iff]
  constructor
  · rintro ⟨r, j, hmat, rfl⟩
    exact ⟨r, hmat⟩
  · rintro ⟨r, hmat⟩
    exact ⟨r, i, hmat, rfl⟩

theorem matchedPlace_eq_none_iff :
    matchedPlace routes mode accepts = none ↔ ∀ i r, ¬TakesPart routes mode accepts i r := by
  unfold matchedPlace TakesPart
  rw [map_eq_none_iff, bestMatch_eq_none_iff]
  constructor
  · rintro hn i r ⟨hget, hser, hacc⟩
    rw [hn r (List.mem_of_getElem? hget) hser] at hacc
    cases hacc
  · intro hn r hr hser
    obtain ⟨i, hi⟩ := List.mem_iff_getElem?.mp hr
    by_contra hacc
    exact hn i r ⟨hi, hser, by simpa using hacc⟩

theorem takesPart_withClientPorts {ports : Nat → Option (List UInt16)}
    (hb : ∀ r ports, accepts (r.withClientPorts ports) = accepts r) :
    TakesPart (withClientPorts routes ports) mode accepts i s ↔
      ∃ r, TakesPart routes mode accepts i r ∧ s = r.withClientPorts (ports i) := by
  unfold TakesPart withClientPorts
  rw [List.getElem?_mapIdx, map_eq_some_iff]
  constructor
  · rintro ⟨⟨r, hget, rfl⟩, hser, hacc⟩
    rw [hb] at hacc
    exact ⟨r, ⟨hget, hser, hacc⟩, rfl⟩
  · rintro ⟨r, ⟨hget, hser, hacc⟩, rfl⟩
    refine ⟨⟨r, hget, rfl⟩, hser, ?_⟩
    rw [hb]
    exact hacc

def onlyAt (i : Nat) (k : Nat) : Option (List UInt16) :=
  if k = i then some [443] else none

theorem matchedPlace_onlyAt (hb : ∀ r ports, accepts (r.withClientPorts ports) = accepts r)
    (hi : TakesPart routes mode accepts i r)
    (htop : ∀ k u, TakesPart routes mode accepts k u → u.hostTier ≤ r.hostTier) :
    matchedPlace (withClientPorts routes (onlyAt i)) mode accepts = some i := by
  refine matchedPlace_eq_some_iff.mpr ⟨r.withClientPorts (onlyAt i i), isMatch_of_lt ?_ ?_⟩
  · exact (takesPart_withClientPorts hb).mpr ⟨r, hi, rfl⟩
  · intro k u hk hne
    rcases (takesPart_withClientPorts hb).mp hk with ⟨v, hv, rfl⟩
    have ht : (v.withClientPorts (onlyAt i k)).hostTier ≤
        (r.withClientPorts (onlyAt i i)).hostTier := htop k v hv
    refine priority_of_clientPorts ht ?_ ?_
    · simp [Route.withClientPorts, onlyAt]
    · simp [Route.withClientPorts, onlyAt, hne]

theorem IsMatch.hostTier_le (h : IsMatch routes mode accepts i r)
    (hj : TakesPart routes mode accepts j s) : s.hostTier ≤ r.hostTier := by
  have hr := (isMatch_iff.mp h).2 j s hj
  by_contra hlt
  have hover : r.priority < s.priority := priority_of_hostTier_lt (by omega)
  omega

theorem matchedPlace_withClientPorts_iff
    (hbl : ∀ r ports, accepts (r.withClientPorts ports) = accepts r) :
    (∀ ports, matchedPlace (withClientPorts routes ports) mode accepts =
        matchedPlace routes mode accepts) ↔ AloneOnTop routes mode accepts := by
  constructor
  · intro hall i r j s hi hj htop hti
    have hfst := matchedPlace_onlyAt hbl hi htop
    have hsec := matchedPlace_onlyAt hbl hj fun k u hk => hti ▸ htop k u hk
    rw [hall] at hfst hsec
    rw [hfst] at hsec
    exact (some_inj.mp hsec).symm
  · intro hal ports
    by_cases hno : matchedPlace routes mode accepts = none
    · rw [hno, matchedPlace_eq_none_iff]
      intro k u hk
      rcases (takesPart_withClientPorts hbl).mp hk with ⟨v, hv, -⟩
      exact matchedPlace_eq_none_iff.mp hno k v hv
    · obtain ⟨i, hso⟩ := ne_none_iff_exists'.mp hno
      obtain ⟨r, hmat⟩ := matchedPlace_eq_some_iff.mp hso
      have hi := (isMatch_iff.mp hmat).1
      have htop : ∀ k u, TakesPart routes mode accepts k u → u.hostTier ≤ r.hostTier :=
        fun k u hk => hmat.hostTier_le hk
      rw [hso]
      -- Every other route is of a lesser kind, and no list makes up for that.
      refine matchedPlace_eq_some_iff.mpr ⟨r.withClientPorts (ports i), isMatch_of_lt ?_ ?_⟩
      · exact (takesPart_withClientPorts hbl).mpr ⟨r, hi, rfl⟩
      · intro k u hk hne
        rcases (takesPart_withClientPorts hbl).mp hk with ⟨v, hv, rfl⟩
        have hle := htop k v hv
        have hdi : v.hostTier ≠ r.hostTier :=
          fun heq => hne (hal i r k v hi hv htop heq)
        have hlt : (v.withClientPorts (ports k)).hostTier <
            (r.withClientPorts (ports i)).hostTier := lt_of_le_of_ne hle hdi
        exact priority_of_hostTier_lt hlt

end

/-- The lists of client ports do not decide where a request and a session go exactly
    when neither of them has two routes whose host patterns are of the best kind. -/
theorem client_ports_ignored_iff (routes : List Route) (host path sni : List Char) :
    (∀ ports,
        matchedPlace (withClientPorts routes ports) .http (acceptsRequest host path) =
          matchedPlace routes .http (acceptsRequest host path) ∧
        matchedPlace (withClientPorts routes ports) .passthrough (acceptsSession sni) =
          matchedPlace routes .passthrough (acceptsSession sni)) ↔
      AloneOnTop routes .http (acceptsRequest host path) ∧
        AloneOnTop routes .passthrough (acceptsSession sni) := by
  rw [forall_and, matchedPlace_withClientPorts_iff fun _ _ => rfl,
    matchedPlace_withClientPorts_iff fun _ _ => rfl]

def apiRoutes : List Route :=
  [{ Route.simple "app.example.com" true 0 with modes := [.http, .tcp] },
    { Route.simple "app.example.com" true 1 with pathPattern := "/api", modes := [.http, .tcp] }]

/-- Once the first route names a port for its flows, the requests of the second go to
    the first as well. -/
theorem client_ports_reroute :
    matchedPlace apiRoutes .http (acceptsRequest "app.example.com".toList "/api/users".toList) =
        some 1 ∧
      matchedPlace (withClientPorts apiRoutes (onlyAt 0)) .http
        (acceptsRequest "app.example.com".toList "/api/users".toList) = some 0 := by
  decide +kernel

end Nexapipe
