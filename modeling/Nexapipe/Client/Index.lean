import Nexapipe.Client.Group

/-!
# The index and the membership rule

A client decides twice by the same list of patterns: whether a name is one it proxies, by
`shouldProxyDomain`, and which pools serve it, by the group's index. The index is meant to
be the membership rule asked another way, with the pools of the most specific pattern as
the answer.

Whether it finds any differs from the rule in two cases. A star that no dot follows matches
nothing, but as a key of the table it is found by a host spelled the same. And `*.` is left out of
the index as a pattern that matches nothing, but it matches a host whose folded form still ends in
a dot.
-/

namespace Nexapipe.Client

open Option

open Host

/-! ### The walk -/

theorem walkSuffixes_cases (wildcards : Entries (List Char) (List PoolId)) (host : List Char) :
    (∃ front suffix pools, host = front ++ '.' :: suffix ∧
        wildcards.lookup suffix = some pools ∧ walkSuffixes wildcards host = some pools ∧
        ∀ front' suffix', host = front' ++ '.' :: suffix' → wildcards.lookup suffix' ≠ none →
          suffix'.length ≤ suffix.length) ∨
      walkSuffixes wildcards host = none ∧
        ∀ front suffix, host = front ++ '.' :: suffix → wildcards.lookup suffix = none := by
  induction host with
  | nil =>
    refine .inr ⟨rfl, ?_⟩
    intro front suffix h
    cases front <;> cases h
  | cons c rest ih =>
    -- A suffix of the longer name is the whole rest, behind a dot, or a suffix of the rest.
    have hsp : ∀ front suffix, c :: rest = front ++ '.' :: suffix →
        c = '.' ∧ suffix = rest ∨ ∃ front', rest = front' ++ '.' :: suffix := by
      intro front suffix h
      rcases front with _ | ⟨d, front⟩
      · cases h
        exact .inl ⟨rfl, rfl⟩
      · cases h
        exact .inr ⟨front, rfl⟩
    by_cases hhere : c = '.' ∧ wildcards.lookup rest ≠ none
    · rcases hhere with ⟨hdot, hsome⟩
      rcases ne_none_iff_exists'.mp hsome with ⟨pools, hpool⟩
      refine .inl ⟨[], rest, pools, by rw [hdot]; rfl, hpool, ?_, ?_⟩
      · rw [walkSuffixes, if_pos hdot, hpool, some_or]
      · intro front suffix h _
        rcases hsp front suffix h with ⟨-, rfl⟩ | ⟨front', hfr'⟩
        · exact Nat.le_refl _
        · rw [hfr', List.length_append, List.length_cons]
          omega
    · -- Nothing is found here, so the walk goes on and what it finds is in the rest.
      have hmiss : c = '.' → wildcards.lookup rest = none := by
        intro hdot
        by_cases hnone : wildcards.lookup rest = none
        · exact hnone
        · exact absurd ⟨hdot, hnone⟩ hhere
      have hwalk : walkSuffixes wildcards (c :: rest) = walkSuffixes wildcards rest := by
        rw [walkSuffixes]
        by_cases hdot : c = '.'
        · rw [if_pos hdot, hmiss hdot, none_or]
        · rw [if_neg hdot]
      rcases ih with ⟨front, suffix, pools, hfr, hpool, hfound, hlon⟩ |
        ⟨hnone, hmis⟩
      · refine .inl ⟨c :: front, suffix, pools, by rw [hfr]; rfl, hpool, ?_, ?_⟩
        · rw [hwalk, hfound]
        · intro front' suffix' h hin
          rcases hsp front' suffix' h with ⟨hdot, rfl⟩ | ⟨front'', hfr''⟩
          · exact absurd (hmiss hdot) hin
          · exact hlon front'' suffix' hfr'' hin
      · refine .inr ⟨by rw [hwalk, hnone], ?_⟩
        intro front suffix h
        rcases hsp front suffix h with ⟨hdot, rfl⟩ | ⟨front', hfr'⟩
        · exact hmiss hdot
        · exact hmis front' suffix hfr'

/-! ### What answers for a host -/

def wildcardSuffix (pattern : List Char) : Option (List Char) :=
  if pattern = ['*'] then some [] else stripStarDot pattern

variable {pattern suffix host : List Char}

theorem wildcardSuffix_eq_some :
    wildcardSuffix pattern = some suffix ↔
      pattern = ['*'] ∧ suffix = [] ∨ pattern = '*' :: '.' :: suffix := by
  fun_cases wildcardSuffix pattern with
  | case1 h =>
    rw [some_inj]
    constructor
    · exact fun heq => .inl ⟨h, heq.symm⟩
    · rintro (⟨-, rfl⟩ | heq)
      · rfl
      · simp [h] at heq
  | case2 h =>
    rw [stripStarDot_eq_some]
    exact ⟨.inr, fun hor => hor.resolve_left fun hb => h hb.1⟩

theorem wildcardSuffix_indexed (name : List Char) : wildcardSuffix (indexed name) = some name := by
  rw [wildcardSuffix_eq_some]
  by_cases h : name = []
  · exact .inl ⟨indexed_eq_star.mpr h, h⟩
  · exact .inr (indexed_eq_wildcard.mpr ⟨rfl, h⟩)

/-- The pattern that answers for a folded host: the one spelled like it, if there is one, and
    otherwise a matching wildcard whose suffix no other matching wildcard exceeds. -/
def Answers (patterns : List (List Char)) (host pattern : List Char) : Prop :=
  pattern ∈ patterns ∧ (pattern = host ∨ host ∉ patterns ∧ hostMatches pattern host = true ∧
    ∃ suffix, wildcardSuffix pattern = some suffix ∧ ∀ other ∈ patterns, ∀ suffix',
      wildcardSuffix other = some suffix' → hostMatches other host = true →
        suffix'.length ≤ suffix.length)

theorem hostMatches_wildcard_iff :
    hostMatches ('*' :: '.' :: suffix) host = true ↔ ∃ front, host = front ++ '.' :: suffix :=
  hostMatches_iff_mem_reach ('*' :: '.' :: suffix) host

theorem hostMatches_star (host : List Char) : hostMatches ['*'] host = true :=
  (hostMatches_iff_mem_reach ['*'] host).mpr (Set.mem_univ host)

def starDot : List Char := ['*', '.']

def looseStar : List Char → Bool
  | '*' :: c :: _ => c ≠ '.'
  | _ => false

theorem looseStar_eq_false (h : stripChar '*' pattern = none) : looseStar pattern = false := by
  rcases pattern with _ | ⟨c, rest⟩
  · rfl
  have hs : c ≠ '*' := by
    rintro rfl
    cases h
  unfold looseStar
  split
  · rename_i heq
    exact absurd (List.cons.inj heq).1 hs
  · rfl

theorem hostMatches_cases (h : hostMatches pattern host = true) :
    pattern = host ∧ looseStar host = false ∨ ∃ suffix, wildcardSuffix pattern = some suffix := by
  rw [hostMatches_iff_mem_reach] at h
  unfold reach at h
  rcases hst : stripChar '*' pattern with _ | rest
  · rw [hst] at h
    have heq : host = pattern := h
    refine .inl ⟨heq.symm, ?_⟩
    rw [heq]
    exact looseStar_eq_false hst
  · rw [hst] at h
    rw [stripChar_eq_some] at hst
    rcases rest with _ | ⟨c, cs⟩
    · exact .inr ⟨[], wildcardSuffix_eq_some.mpr (.inl ⟨hst, rfl⟩)⟩
    rcases hdot : stripChar '.' (c :: cs) with _ | suffix
    · simp only [hdot] at h
      exact absurd h (Set.notMem_empty host)
    · rw [stripChar_eq_some.mp hdot] at hst
      exact .inr ⟨suffix, wildcardSuffix_eq_some.mpr (.inr hst)⟩

section Built

variable {ε : Type} {toEndpointAddr : DomainMapping → Except ε BackendId}
  {mappings : List DomainMapping} {byDefault : Option BackendId} {g : EndpointGroup}

/-- What the index finds, and what it misses: the pools of the pattern that answers, or nothing
    where at most `*.` matches. -/
theorem poolsFor_cases (h : build toEndpointAddr mappings byDefault = .ok g) (host : List Char) :
    (∃ pattern, Answers (patterns mappings) (normalizeHost host) pattern ∧
        (pattern = normalizeHost host ∨
          pattern ≠ starDot ∧ hostMatches pattern (normalizeHost host) = true) ∧
        g.poolsFor host = some (patternPools mappings pattern)) ∨
      g.poolsFor host = none ∧ normalizeHost host ∉ patterns mappings ∧
        ∀ pattern ∈ patterns mappings, hostMatches pattern (normalizeHost host) = true →
          pattern = starDot := by
  rcases exists_building h with ⟨b, hof, hdom, hwil, -⟩
  have hget := hof.lookup_domains
  have hind := lookup_wildcardsOf hof.distinct_domains
  unfold EndpointGroup.poolsFor
  simp only [hdom, hwil]
  generalize normalizeHost host = folded
  by_cases hmem : folded ∈ patterns mappings
  · refine .inl ⟨folded, ⟨hmem, .inl rfl⟩, .inl rfl, ?_⟩
    rw [hget, if_pos hmem, some_or]
  have hnone : b.domains.lookup folded = none := by rw [hget, if_neg hmem]
  -- A matching wildcard with something behind its dot is indexed under a suffix of the host.
  have hinde : ∀ pattern ∈ patterns mappings, hostMatches pattern folded = true →
      ∀ suffix, wildcardSuffix pattern = some suffix → suffix ≠ [] →
      (∃ front, folded = front ++ '.' :: suffix) ∧
        (wildcardsOf b.domains).lookup suffix ≠ none := by
    intro pattern hin hmat suffix hsuf hne
    rcases wildcardSuffix_eq_some.mp hsuf with ⟨-, hnil⟩ | rfl
    · exact absurd hnil hne
    refine ⟨hostMatches_wildcard_iff.mp hmat, ?_⟩
    rw [hind, indexed_eq_wildcard.mpr ⟨rfl, hne⟩, hget, if_pos hin]
    exact some_ne_none _
  rw [hnone, none_or]
  rcases walkSuffixes_cases (wildcardsOf b.domains) folded with
    ⟨front, suffix, pools, hfr, hpool, hfound, hlon⟩ | ⟨hwalk, hmis⟩
  · rw [hind, hget] at hpool
    have hin : indexed suffix ∈ patterns mappings := by
      by_cases hin : indexed suffix ∈ patterns mappings
      · exact hin
      · simp [if_neg hin] at hpool
    rw [if_pos hin, some_inj] at hpool
    have hmat : hostMatches (indexed suffix) folded = true := by
      unfold indexed
      by_cases hnil : suffix = []
      · rw [if_pos hnil]
        exact hostMatches_star folded
      · rw [if_neg hnil]
        exact hostMatches_wildcard_iff.mpr ⟨front, hfr⟩
    refine .inl ⟨indexed suffix, ⟨hin, .inr ⟨hmem, hmat, suffix, ?_, ?_⟩⟩,
      .inr ⟨fun hdot => (indexed_eq_wildcard.mp hdot).2 rfl, hmat⟩, ?_⟩
    · exact wildcardSuffix_indexed suffix
    · intro other hoth suffix' hsuf' hmat'
      by_cases hnil : suffix' = []
      · rw [hnil]
        exact Nat.zero_le _
      · rcases hinde other hoth hmat' suffix' hsuf' hnil with ⟨⟨front', hfr'⟩, hsome⟩
        exact hlon front' suffix' hfr' hsome
    · rw [hfound, some_or, hpool]
  · -- No wildcard with a suffix matches, so the catch-all answers if there is one.
    have hsh : ∀ pattern ∈ patterns mappings, hostMatches pattern folded = true →
        ∀ suffix, wildcardSuffix pattern = some suffix → suffix = [] := by
      intro pattern hin hmat suffix hsuf
      by_cases hnil : suffix = []
      · exact hnil
      · rcases hinde pattern hin hmat suffix hsuf hnil with ⟨⟨front, hfr⟩, hsome⟩
        exact absurd (hmis front suffix hfr) hsome
    rw [hwalk, none_or, hind, hget]
    by_cases hstar : indexed [] ∈ patterns mappings
    · refine .inl ⟨['*'], ⟨hstar, .inr ⟨hmem, hostMatches_star folded, [], rfl, ?_⟩⟩,
        .inr ⟨by decide, hostMatches_star folded⟩, if_pos hstar⟩
      intro other hoth suffix' hsuf' hmat'
      rw [hsh other hoth hmat' suffix' hsuf']
    · refine .inr ⟨if_neg hstar, hmem, ?_⟩
      intro pattern hin hmat
      rcases hostMatches_cases hmat with ⟨rfl, -⟩ | ⟨suffix, hsuf⟩
      · exact absurd hin hmem
      rcases wildcardSuffix_eq_some.mp hsuf with ⟨rfl, -⟩ | hpat
      · exact absurd hin hstar
      · rw [hpat, hsh pattern hin hmat suffix hsuf]
        rfl

/-! ### The index against the rule -/

variable {host : List Char}

theorem hostMatches_self (h : looseStar host = false) : hostMatches host host = true := by
  rw [hostMatches_iff_mem_reach]
  rcases host with _ | ⟨c, rest⟩
  · rfl
  by_cases hs : c = '*'
  · subst hs
    rcases rest with _ | ⟨d, rest⟩
    · exact Set.mem_univ _
    have hdot : d = '.' := by simpa [looseStar] using h
    rw [hdot]
    exact ⟨['*'], rfl⟩
  · rw [reach_name (by rw [stripChar, if_neg hs])]
    rfl

def Covers (pattern host : List Char) : Prop :=
  pattern = ['*'] ∨ starDot <+: pattern ∧ pattern.tail <:+ host

instance (pattern host : List Char) : Decidable (Covers pattern host) :=
  inferInstanceAs (Decidable (_ ∨ _ ∧ _))

theorem hostMatches_iff_covers {pattern : List Char} :
    hostMatches pattern host = true ↔
      Covers pattern host ∨ pattern = host ∧ looseStar host = false := by
  constructor
  · intro h
    rcases hostMatches_cases h with hn | ⟨suffix, hsuf⟩
    · exact .inr hn
    rcases wildcardSuffix_eq_some.mp hsuf with ⟨hs, -⟩ | rfl
    · exact .inl (.inl hs)
    · rcases hostMatches_wildcard_iff.mp h with ⟨front, rfl⟩
      exact .inl (.inr ⟨⟨suffix, rfl⟩, ⟨front, rfl⟩⟩)
  · rintro ((rfl | ⟨⟨suffix, rfl⟩, front, rfl⟩) | ⟨rfl, hn⟩)
    · exact hostMatches_star host
    · exact hostMatches_wildcard_iff.mpr ⟨front, rfl⟩
    · exact hostMatches_self hn

theorem shouldProxyDomain_iff (mappings : List DomainMapping) (host : List Char) :
    shouldProxyDomain host (mappings.map (·.domain)) = true ↔
      ∃ pattern ∈ patterns mappings, hostMatches pattern (normalizeHost host) = true := by
  have hany : shouldProxyDomain host (mappings.map (·.domain)) =
      (patterns mappings).any fun pattern => hostMatches pattern (normalizeHost host) := by
    unfold shouldProxyDomain hostMatchesAny patterns
    rw [List.any_map, List.any_map]
    rfl
  rw [hany, List.any_eq_true]

theorem hostMatches_starDot_iff : hostMatches starDot host = true ↔ host.getLast? = some '.' := by
  rw [show starDot = '*' :: '.' :: [] from rfl, hostMatches_wildcard_iff,
    List.getLast?_eq_some_iff]

/-- The index finds pools for a host exactly when the rule accepts it, and those it finds are the
    pools of the pattern that answers. -/
def Implements (mappings : List DomainMapping) (g : EndpointGroup) (host : List Char) : Prop :=
  ((g.poolsFor host).isSome = true ↔
      shouldProxyDomain host (mappings.map (·.domain)) = true) ∧
    ∀ pools, g.poolsFor host = some pools →
      ∃ pattern, Answers (patterns mappings) (normalizeHost host) pattern ∧
        pools = patternPools mappings pattern

/-- A folded host that is spelled like a mapped star without a dot is covered by some pattern; and
    one that ends in a dot, where `*.` is mapped, is itself mapped or covered by another pattern. -/
def Unambiguous (patterns : List (List Char)) (host : List Char) : Prop :=
  (host ∈ patterns → looseStar host = true → ∃ pattern ∈ patterns, Covers pattern host) ∧
    (starDot ∈ patterns → host.getLast? = some '.' →
      host ∈ patterns ∨ ∃ pattern ∈ patterns, pattern ≠ starDot ∧ Covers pattern host)

instance (patterns : List (List Char)) (host : List Char) :
    Decidable (Unambiguous patterns host) :=
  inferInstanceAs (Decidable (
    (host ∈ patterns → looseStar host = true → ∃ pattern ∈ patterns, Covers pattern host) ∧
      (starDot ∈ patterns → host.getLast? = some '.' →
        host ∈ patterns ∨ ∃ pattern ∈ patterns, pattern ≠ starDot ∧ Covers pattern host)))

/-- Exactly when the index of a group without default pools implements the membership rule. -/
theorem index_implements_membership_iff
    (h : build toEndpointAddr mappings none = .ok g) (host : List Char) :
    Implements mappings g host ↔ Unambiguous (patterns mappings) (normalizeHost host) := by
  have hcas := poolsFor_cases h host
  unfold Implements
  rw [shouldProxyDomain_iff]
  constructor
  · rintro ⟨hiff, -⟩
    refine ⟨?_, ?_⟩
    · intro hmem hloos
      -- A key of the table is found, so the rule accepts it, and not for its spelling.
      rcases hcas with ⟨pattern, -, -, hfound⟩ | ⟨-, hnot, -⟩
      · rcases hiff.mp (by rw [hfound]; rfl) with ⟨other, hoth, hmat⟩
        rcases hostMatches_iff_covers.mp hmat with hcov | ⟨-, hname⟩
        · exact ⟨other, hoth, hcov⟩
        · simp [hname] at hloos
      · exact absurd hmem hnot
    · intro hin hlast
      have hfound := hiff.mpr ⟨starDot, hin, hostMatches_starDot_iff.mpr hlast⟩
      rcases hcas with ⟨pattern, hans, heq | ⟨hne, hmat⟩, -⟩ | ⟨hnone, -⟩
      · exact .inl (heq ▸ hans.1)
      · rcases hostMatches_iff_covers.mp hmat with hcov | ⟨heq, -⟩
        · exact .inr ⟨pattern, hans.1, hne, hcov⟩
        · exact .inl (heq ▸ hans.1)
      · simp [hnone] at hfound
  · rintro ⟨hloos, hdot⟩
    refine ⟨⟨?_, ?_⟩, ?_⟩
    · intro hfound
      rcases hcas with ⟨pattern, hans, heq | hmat, -⟩ | ⟨hnone, -⟩
      · by_cases hstar : looseStar (normalizeHost host) = true
        · rcases hloos (heq ▸ hans.1) hstar with ⟨other, hoth, hcov⟩
          exact ⟨other, hoth, hostMatches_iff_covers.mpr (.inl hcov)⟩
        refine ⟨pattern, hans.1, ?_⟩
        rw [heq]
        exact hostMatches_self (by simpa using hstar)
      · exact ⟨pattern, hans.1, hmat.2⟩
      · simp [hnone] at hfound
    · rintro ⟨pattern, hin, hmat⟩
      rcases hcas with ⟨pattern, -, -, hfound⟩ | ⟨-, hnot, honly⟩
      · rw [hfound]
        rfl
      -- Nothing but `*.` matches, and then the host is mapped or something else matches too.
      have hstarDot := honly pattern hin hmat
      rw [hstarDot] at hin hmat
      rcases hdot hin (hostMatches_starDot_iff.mp hmat) with
        hmem | ⟨other, hoth, hne, hcov⟩
      · exact absurd hmem hnot
      · exact absurd (honly other hoth (hostMatches_iff_covers.mpr (.inl hcov))) hne
    · intro pools hpool
      rcases hcas with ⟨pattern, hans, -, hfound⟩ | ⟨hnone, -⟩
      · rw [hfound, some_inj] at hpool
        exact ⟨pattern, hans, hpool.symm⟩
      · simp [hnone] at hpool

theorem index_implements_membership_example :
    ∃ g, build (ε := Empty) (fun _ => .ok 7) [⟨"*.example.com", some "a", none⟩] none = .ok g ∧
      Implements [⟨"*.example.com", some "a", none⟩] g "www.Example.com".toList := by
  refine ⟨_, rfl, ?_⟩
  rw [index_implements_membership_iff
    (show build (ε := Empty) (fun _ => .ok 7) _ none = .ok _ from rfl)]
  decide +kernel

/-- A star that no dot follows matches nothing, yet a host spelled like it is found. -/
theorem loose_star_found :
    ∃ g, build (ε := Empty) (fun _ => .ok 7) [⟨"*foo", some "a", none⟩] none = .ok g ∧
      g.poolsFor "*foo".toList = some [.keyed "node_id:a"] ∧
      shouldProxyDomain "*foo".toList ["*foo"] = false ∧
      ¬Implements [⟨"*foo", some "a", none⟩] g "*foo".toList := by
  refine ⟨_, rfl, by decide +kernel, by decide +kernel, ?_⟩
  rintro ⟨hiff, -⟩
  exact absurd (hiff.mp (by decide +kernel)) (by decide +kernel)

end Built

end Nexapipe.Client
