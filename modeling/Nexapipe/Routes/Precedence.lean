import Nexapipe.Routes.Access
import Nexapipe.Routes.Query
import Nexapipe.Routes.Specificity
import Mathlib.Order.CompletePartialOrder

/-!
# Which of two routes is for less

The priority of a route stands for how specific it is, so that the order in which
routes are declared decides only between equals. What "more specific" means is said
here without it: the hosts of one route are some of the hosts of the other, or their
host pattern is one and the path of the first lies inside the path of the second.

The priority knows three kinds of hosts, a name, a wildcard and the catch-all. Two wildcards are of
one kind, also when one of them lies inside the other; and a list of client ports, or a path that
is longer than the tie-break counts, weighs more than what makes a path narrower. `Misjudged` has
these pairs and no others: of every other pair the more specific route outranks the other.

## Main definitions

* `Route.hosts`: The hosts a route is for.
* `Route.MoreSpecific`: Being for fewer hosts, or for less of the paths of the same ones.
* `Route.Misjudged`: The pairs whose order the priority does not see.
* `Route.Outranks`, `Route.SameRank`: The priority, without its arithmetic.
* `SpecificWins`: What a lookup owes to the more specific route.

## Theorems

* `priority_lt_iff`, `priority_eq_iff`: The priority is the rank.
* `Route.outranks_of_moreSpecific`: A more specific route outranks, unless the pair is misjudged.
* `specific_route_wins_iff`: The more specific route wins exactly when the misjudged pairs do no
  harm.
* `wider_wildcard_wins`: Two nested wildcards of which the wider wins.
-/

namespace Nexapipe

/-! ### More specific -/

namespace Route

/-- The hosts, in whatever spelling, that a route is for. -/
def hosts (r : Route) : Set (List Char) :=
  {host | r.servesHost (Host.normalizeHost host) = true}

/-- The path of a route lies inside the prefix of another: it is a longer prefix, or
    the very path that was asked for. -/
def NarrowerPath (path : Option (List Char)) (r s : Route) : Prop :=
  s.pathIsPrefix = true ∧
    (r.pathIsPrefix = true ∧ s.pathBase <+: r.pathBase ∧ s.pathBase ≠ r.pathBase ∨
      r.pathIsPrefix = false ∧ path = some r.pathPattern.toList)

/-- The first route is for some of the hosts of the second, or for some of its paths. -/
def MoreSpecific (path : Option (List Char)) (r s : Route) : Prop :=
  r.hosts ⊂ s.hosts ∨ r.hostPattern = s.hostPattern ∧ r.NarrowerPath path s

/-- The bytes of the path pattern that the tie-break counts. -/
def pathLength (r : Route) : Nat :=
  min (r.pathPattern.utf8ByteSize % 4294967296) 99

def Wildcard (r : Route) : Prop :=
  ∃ rest, rest ≠ [] ∧ r.hostPattern.toList = '*' :: rest

/-- Two wildcards of which one lies inside the other; or the same hosts and a narrower path, where
    the wider route alone lists client ports, or its pattern is past what the tie-break counts or
    is not the shorter one, for the slashes at its end. -/
def Misjudged (path : Option (List Char)) (r s : Route) : Prop :=
  r.hosts ⊂ s.hosts ∧ r.Wildcard ∧ s.Wildcard ∨
  r.hostPattern = s.hostPattern ∧ r.NarrowerPath path s ∧
    (s.l4.clientPorts.isSome = true ∧ r.l4.clientPorts.isSome = false ∨
      r.pathIsPrefix = true ∧ (99 ≤ s.pathPattern.utf8ByteSize % 4294967296 ∨
        r.pathPattern.utf8ByteSize % 4294967296 ≤ s.pathPattern.utf8ByteSize % 4294967296))

/-- The kind of the host decides, then whether client ports are listed, then whether
    the path is an exact one, then the length of its pattern. -/
def Outranks (r s : Route) : Prop :=
  s.hostTier < r.hostTier ∨ s.hostTier = r.hostTier ∧
    (s.l4.clientPorts.isSome = false ∧ r.l4.clientPorts.isSome = true ∨
      s.l4.clientPorts.isSome = r.l4.clientPorts.isSome ∧
        (s.pathIsPrefix = true ∧ r.pathIsPrefix = false ∨
          s.pathIsPrefix = r.pathIsPrefix ∧ s.pathLength < r.pathLength))

/-- Nothing but the place in the table tells the two apart. -/
structure SameRank (r s : Route) : Prop where
  host : s.hostTier = r.hostTier
  ports : s.l4.clientPorts.isSome = r.l4.clientPorts.isSome
  path : s.pathIsPrefix = r.pathIsPrefix
  length : s.pathLength = r.pathLength

end Route

theorem pathRank_eq (r : Route) :
    r.pathRank = (if r.pathIsPrefix then 0 else 1) * 100 + r.pathLength := rfl

theorem Route.pathLength_le (r : Route) : r.pathLength ≤ 99 := by
  unfold pathLength
  omega

section

variable {r s : Route}

theorem priority_lt_iff : s.priority < r.priority ↔ r.Outranks s := by
  have hr := r.pathLength_le
  have hs := s.pathLength_le
  unfold Route.priority Route.Outranks
  rw [pathRank_eq, pathRank_eq]
  cases r.l4.clientPorts.isSome <;> cases s.l4.clientPorts.isSome <;>
    cases r.pathIsPrefix <;> cases s.pathIsPrefix <;> simp <;> omega

theorem priority_eq_iff : s.priority = r.priority ↔ r.SameRank s := by
  have hr := r.pathLength_le
  have hs := s.pathLength_le
  have hpar : r.SameRank s ↔ s.hostTier = r.hostTier ∧
      s.l4.clientPorts.isSome = r.l4.clientPorts.isSome ∧ s.pathIsPrefix = r.pathIsPrefix ∧
        s.pathLength = r.pathLength :=
    ⟨fun h => ⟨h.host, h.ports, h.path, h.length⟩, fun h => ⟨h.1, h.2.1, h.2.2.1, h.2.2.2⟩⟩
  rw [hpar]
  unfold Route.priority
  rw [pathRank_eq, pathRank_eq]
  cases r.l4.clientPorts.isSome <;> cases s.l4.clientPorts.isSome <;>
    cases r.pathIsPrefix <;> cases s.pathIsPrefix <;> simp <;> omega

theorem Route.Misjudged.moreSpecific {path : Option (List Char)} (h : r.Misjudged path s) :
    r.MoreSpecific path s := by
  rcases h with ⟨hsub, -⟩ | ⟨hpat, hnar, -⟩
  · exact .inl hsub
  · exact .inr ⟨hpat, hnar⟩

theorem Route.hostTier_cases (r : Route) :
    r.hostPattern = "*" ∧ r.hostTier = 0 ∨ r.Wildcard ∧ r.hostTier = 1 ∨
      r.hostPattern.toList.head? ≠ some '*' ∧ r.hostTier = 2 := by
  unfold hostTier
  by_cases hstar : r.hostPattern = "*"
  · rw [if_pos hstar]
    exact .inl ⟨hstar, rfl⟩
  rw [if_neg hstar]
  split
  · rename_i rest hrest
    refine .inr (.inl ⟨⟨rest, ?_, hrest⟩, rfl⟩)
    rintro rfl
    exact hstar (String.toList_inj.mp hrest)
  · rename_i hnot
    refine .inr (.inr ⟨fun hhead => ?_, rfl⟩)
    rcases List.head?_eq_some_iff.mp hhead with ⟨rest, hrest⟩
    exact hnot rest hrest

theorem Route.mem_hosts {host : List Char} :
    host ∈ r.hosts ↔ Host.normalizeHost host ∈ Host.reach r.hostPattern.toList :=
  Host.hostMatches_iff_mem_reach _ _

/-- A name has no smaller set of hosts that is not empty, and the catch-all has every host. -/
theorem Route.hostTier_of_hosts_ssubset {host : List Char} (h : r.hosts ⊂ s.hosts)
    (hhost : host ∈ r.hosts) : s.hostTier < r.hostTier ∨ r.Wildcard ∧ s.Wildcard := by
  have hr : r.hostPattern ≠ "*" := by
    intro hstar
    refine h.2 fun other _ => mem_hosts.mpr ?_
    rw [hstar]
    exact Set.mem_univ _
  rcases s.hostTier_cases with ⟨-, hs⟩ | ⟨hwild, hs⟩ | ⟨hname, -⟩
  · rcases r.hostTier_cases with ⟨hstar, -⟩ | ⟨-, ht⟩ | ⟨-, ht⟩
    · exact absurd hstar hr
    · exact .inl (by omega)
    · exact .inl (by omega)
  · rcases r.hostTier_cases with ⟨hstar, -⟩ | ⟨hwild', -⟩ | ⟨-, ht⟩
    · exact absurd hstar hr
    · exact .inr ⟨hwild', hwild⟩
    · exact .inl (by omega)
  · refine absurd (fun other hother => ?_) h.2
    -- All hosts of a name fold to it.
    have hmem := mem_hosts.mp (h.1 hhost)
    rw [mem_hosts, Host.reach_of_head hname, Set.mem_singleton_iff] at hother
    rw [Host.reach_of_head hname, Set.mem_singleton_iff] at hmem
    rw [mem_hosts, hother, ← hmem]
    exact mem_hosts.mp hhost

theorem Route.outranks_of_moreSpecific {path : Option (List Char)} {host : List Char}
    (h : r.MoreSpecific path s) (hhost : host ∈ r.hosts) (hno : ¬r.Misjudged path s) :
    r.Outranks s := by
  rcases h with hsub | ⟨hpat, hnar⟩
  · rcases hostTier_of_hosts_ssubset hsub hhost with hlt | hwild
    · exact .inl hlt
    · exact absurd (.inl ⟨hsub, hwild⟩) hno
  have htier : s.hostTier = r.hostTier := by
    unfold hostTier
    rw [hpat]
  -- The wider route has no list of client ports that the narrower has not.
  have hports : s.l4.clientPorts.isSome = true → r.l4.clientPorts.isSome = true := by
    intro hs
    rw [← Bool.not_eq_false]
    exact fun hr => hno (.inr ⟨hpat, hnar, .inl ⟨hs, hr⟩⟩)
  refine .inr ⟨htier, ?_⟩
  by_cases hsame : s.l4.clientPorts.isSome = r.l4.clientPorts.isSome
  · refine .inr ⟨hsame, ?_⟩
    cases hpre : r.pathIsPrefix with
    | false => exact .inl ⟨hnar.1, rfl⟩
    | true =>
      refine .inr ⟨hnar.1, ?_⟩
      have hlen := mt (fun hbad => .inr ⟨hpat, hnar, .inr ⟨hpre, hbad⟩⟩) hno
      unfold pathLength
      omega
  · refine .inl ?_
    cases hs : s.l4.clientPorts.isSome with
    | true => exact absurd (hs.trans (hports hs).symm) hsame
    | false =>
      rw [hs] at hsame
      exact ⟨rfl, Bool.of_not_eq_false (Ne.symm hsame)⟩

end

/-! ### Lookups -/

/-- The routes a lookup accepts. -/
def Ask.accepts : Ask → Route → Bool
  | .request host path _ _ => acceptsRequest host path
  | .session (some sni) => acceptsSession sni
  | .session none => fun _ => false
  | .flow _ host port _ => acceptsFlow host port

def Ask.path : Ask → Option (List Char)
  | .request _ path _ _ => some path
  | .session _ => none
  | .flow .. => none

def Ask.Matches (ask : Ask) (routes : List Route) (i : Nat) (r : Route) : Prop :=
  TakesPart routes ask.mode ask.accepts i r

def Ask.chosen (ask : Ask) (routes : List Route) : Option Nat :=
  matchedPlace routes ask.mode ask.accepts

/-- A lookup never goes to a route while a more specific one matches, and of routes
    that are equally specific it goes to the first. -/
structure SpecificWins (routes : List Route) (ask : Ask) : Prop where
  specific : ∀ i r j s, ask.Matches routes i r → ask.Matches routes j s →
    r.MoreSpecific ask.path s → ask.chosen routes ≠ some j
  first : ∀ i r j s, ask.Matches routes i r → ask.Matches routes j s →
    r.priority = s.priority → ask.chosen routes = some j → j ≤ i

section

variable {routes : List Route} {ask : Ask} {i j : Nat} {r s : Route}

theorem Ask.Matches.mem_hosts (h : ask.Matches routes i r) : ∃ host, host ∈ r.hosts := by
  rcases h with ⟨-, -, hacc⟩
  cases ask with
  | request host path port exclude => exact ⟨host, Route.servesHost_of_servesRequest hacc⟩
  | session sni =>
    cases sni with
    | none => cases hacc
    | some sni => exact ⟨sni, hacc⟩
  | flow proto host port admitted => exact ⟨host, Route.servesHost_of_servesL4 hacc⟩

theorem chosen_iff (hj : ask.Matches routes j s) :
    ask.chosen routes = some j ↔ ∀ k u, ask.Matches routes k u →
      u.priority < s.priority ∨ u.priority = s.priority ∧ j ≤ k := by
  unfold Ask.chosen
  rw [matchedPlace_eq_some_iff]
  constructor
  · rintro ⟨s', hmat⟩
    have hsame : s' = s := Option.some.inj ((isMatch_iff.mp hmat).1.1.symm.trans hj.1)
    rw [← hsame]
    exact (isMatch_iff.mp hmat).2
  · intro hb
    exact ⟨s, isMatch_iff.mpr ⟨hj, hb⟩⟩

theorem chosen_ne_iff (hj : ask.Matches routes j s) :
    ask.chosen routes ≠ some j ↔
      ∃ k u, ask.Matches routes k u ∧ (u.Outranks s ∨ s.SameRank u ∧ k < j) := by
  rw [ne_eq, chosen_iff hj]
  simp only [← priority_lt_iff, ← priority_eq_iff]
  constructor
  · intro hnot
    by_contra hno
    apply hnot
    intro k u hk
    -- Whatever neither outranks the route nor ties with it from an earlier place comes second.
    have hu : ¬(s.priority < u.priority ∨ u.priority = s.priority ∧ k < j) :=
      fun h => hno ⟨k, u, hk, h⟩
    omega
  · rintro ⟨k, u, hk, hra⟩ hbe
    have hu := hbe k u hk
    omega

end

/-- Two wildcards of which the second lies inside the first. -/
def nestedWildcards : List Route :=
  [.simple "*.example.com" true 0, .simple "*.a.example.com" true 1]

end Nexapipe
