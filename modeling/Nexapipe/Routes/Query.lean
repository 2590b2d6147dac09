import Nexapipe.Routes.Lookup

/-!
# Paths with a query

The request path hands the routing table the path and the query of a request in one
text, and the patterns are held against all of it. A prefix pattern that a path goes
on behind with a slash covers the path with any query as well. A pattern that is the
path does not: the text goes on with a question mark, which is neither the end nor a
slash. And a pattern that holds a question mark itself covers texts that no path is.

So a query leaves the lookup alone unless one of the two kinds ranks highest (`query_ignored_iff`).
-/

namespace Nexapipe

open List

structure RequestPath where
  path : List Char
  plain : '?' ∉ path

def RequestPath.withQuery (p : RequestPath) (query : List Char) : List Char :=
  p.path ++ '?' :: query

def placeholder : List Char :=
  ['{', '}']

def BackendInfo.rewrittenPath (info : BackendInfo) (path : List Char) : List Char :=
  match info.pathRewrite with
  | none => path
  | some rewrite =>
    if info.pathIsPrefix then
      match pathSuffix info.pathPattern.toList path with
      | some suffix => Text.replace placeholder suffix rewrite.toList
      | none => path
    else if path = info.pathPattern.toList then Text.replace placeholder [] rewrite.toList
    else path

/-! ### What a pattern covers -/

namespace Route

def pathBase (r : Route) : List Char :=
  r.pathPattern.toList.rdropWhile (· = '/')

def StopsAt (r : Route) (path : List Char) : Prop :=
  if r.pathIsPrefix then path = r.pathBase else path = r.pathPattern.toList

def GoesOn (r : Route) (path : List Char) : Prop :=
  r.pathIsPrefix = true ∧ ∃ rest, path = r.pathBase ++ '/' :: rest

end Route

section

variable {r : Route} {host path query : List Char} {p : RequestPath}

variable {pattern : List Char}

theorem pathSuffix_of_eq (h : path = pattern.rdropWhile (· = '/')) :
    pathSuffix pattern path = some [] := by
  simp only [pathSuffix]
  rw [if_pos h]

theorem pathSuffix_of_append {rest : List Char}
    (h : path = pattern.rdropWhile (· = '/') ++ '/' :: rest) :
    pathSuffix pattern path = some ('/' :: rest) := by
  have hne : path ≠ pattern.rdropWhile (· = '/') := by
    rw [h]
    simp
  have hd : path.dropPrefix? (pattern.rdropWhile (· = '/')) = some ('/' :: rest) :=
    List.dropPrefix?_eq_some_iff.mpr ⟨_, h, beq_self_eq_true _⟩
  simp only [pathSuffix]
  rw [if_neg hne, hd]
  rfl

theorem pathSuffix_isSome_iff :
    (pathSuffix pattern path).isSome = true ↔
      path = pattern.rdropWhile (· = '/') ∨
        ∃ rest, path = pattern.rdropWhile (· = '/') ++ '/' :: rest := by
  constructor
  · intro h
    by_cases heq : path = pattern.rdropWhile (· = '/')
    · exact Or.inl heq
    obtain ⟨suffix, hsuf⟩ := Option.isSome_iff_exists.mp h
    simp only [pathSuffix] at hsuf
    rw [if_neg heq, Option.bind_eq_some_iff] at hsuf
    obtain ⟨rest, hdr, hsl⟩ := hsuf
    obtain ⟨tail, hta, -⟩ := Option.map_eq_some_iff.mp hsl
    obtain ⟨front, hpa, hfr⟩ := List.dropPrefix?_eq_some_iff.mp hdr
    rw [Host.stripChar_eq_some] at hta
    rw [eq_of_beq hfr, hta] at hpa
    exact Or.inr ⟨tail, hpa⟩
  · rintro (heq | ⟨rest, happ⟩)
    · rw [pathSuffix_of_eq heq]
      rfl
    · rw [pathSuffix_of_append happ]
      rfl

theorem servesRequest_iff :
    r.servesRequest host path = true ↔
      r.servesHost host = true ∧ (r.StopsAt path ∨ r.GoesOn path) := by
  unfold Route.servesRequest Route.StopsAt Route.GoesOn Route.pathBase
  rw [Bool.and_eq_true]
  by_cases hpre : r.pathIsPrefix = true
  · rw [if_pos hpre, if_pos hpre, pathSuffix_isSome_iff]
    simp only [hpre, true_and]
  · simp [hpre]

theorem mem_rdropWhile_slash (h : '?' ∈ pattern) : '?' ∈ pattern.rdropWhile (· = '/') := by
  induction pattern using List.reverseRecOn with
  | nil => exact h
  | append_singleton front c ih =>
    rw [rdropWhile_concat]
    split
    · rename_i hs
      have hc : c = '/' := by simpa using hs
      refine ih ?_
      rcases mem_append.mp h with hfr | hl
      · exact hfr
      · rw [hc] at hl
        simp at hl
    · exact h

theorem mem_pathBase_iff : '?' ∈ r.pathBase ↔ '?' ∈ r.pathPattern.toList :=
  ⟨fun h => ( rdropWhile_prefix _ _).subset h, mem_rdropWhile_slash⟩

/-! ### Routes and queries -/

theorem not_stopsAt_of_mem (h : '?' ∈ r.pathPattern.toList) : ¬r.StopsAt p.path := by
  intro hs
  unfold Route.StopsAt at hs
  refine p.plain ?_
  split at hs
  · rw [hs]
    exact mem_pathBase_iff.mpr h
  · rw [hs]
    exact h

theorem not_goesOn_of_mem (h : '?' ∈ r.pathPattern.toList) : ¬r.GoesOn p.path := by
  rintro ⟨-, rest, hp⟩
  refine p.plain ?_
  rw [hp]
  exact mem_append_left _ (mem_pathBase_iff.mpr h)

theorem mem_of_stopsAt_withQuery (h : r.StopsAt (p.withQuery query)) :
    '?' ∈ r.pathPattern.toList := by
  have hmem : '?' ∈ p.withQuery query := by simp [RequestPath.withQuery]
  unfold Route.StopsAt at h
  split at h
  · rw [h] at hmem
    exact mem_pathBase_iff.mp hmem
  · rw [h] at hmem
    exact hmem

theorem goesOn_withQuery_iff (h : '?' ∉ r.pathPattern.toList) :
    r.GoesOn (p.withQuery query) ↔ r.GoesOn p.path := by
  unfold Route.GoesOn RequestPath.withQuery
  refine and_congr_right fun _ => ?_
  constructor
  · rintro ⟨rest, hre⟩
    -- The slash behind the pattern stands in the path, since the query starts with no slash.
    rcases append_eq_append_iff.mp hre with ⟨back, hba, hqu⟩ | ⟨back, hpa, hqu⟩
    · rcases cons_eq_append_iff.mp hqu with ⟨rfl, hco⟩ | ⟨back', rfl, hco⟩
      · simp at hco
      refine absurd (mem_pathBase_iff.mp ?_) h
      rw [hba]
      simp
    · rcases cons_eq_append_iff.mp hqu with ⟨rfl, hco⟩ | ⟨back', rfl, hco⟩
      · simp at hco
      · exact ⟨back', hpa⟩
  · rintro ⟨rest, hpa⟩
    refine ⟨rest ++ '?' :: query, ?_⟩
    rw [hpa]
    simp

theorem acceptsRequest_withQuery (h : '?' ∉ r.pathPattern.toList) :
    acceptsRequest host (p.withQuery query) r = true ↔
      acceptsRequest host p.path r = true ∧ ¬r.StopsAt p.path := by
  unfold acceptsRequest
  rw [servesRequest_iff, servesRequest_iff, goesOn_withQuery_iff h]
  have hst : ¬r.StopsAt (p.withQuery query) := fun hst => h (mem_of_stopsAt_withQuery hst)
  have hdis : r.GoesOn p.path → ¬r.StopsAt p.path := by
    rintro ⟨hpre, rest, hp⟩ hs
    unfold Route.StopsAt at hs
    rw [if_pos hpre, hp] at hs
    simp at hs
  tauto

theorem not_acceptsRequest_of_mem (h : '?' ∈ r.pathPattern.toList) :
    acceptsRequest host p.path r = false := by
  unfold acceptsRequest
  rw [← Bool.not_eq_true, servesRequest_iff]
  rintro ⟨-, hs | hon⟩
  · exact not_stopsAt_of_mem h hs
  · exact not_goesOn_of_mem h hon

theorem bestMatch_withQuery_iff {routes : List Route} :
    bestMatch routes .http (acceptsRequest host (p.withQuery query)) =
        bestMatch routes .http (acceptsRequest host p.path) ↔
      (∀ i r, IsMatch routes .http (acceptsRequest host p.path) i r → ¬r.StopsAt p.path) ∧
        ∀ i r, IsMatch routes .http (acceptsRequest host (p.withQuery query)) i r →
          '?' ∉ r.pathPattern.toList := by
  unfold bestMatch
  rw [eq_comm, Best.best_eq_best_iff]
  refine and_congr ?_ ?_
  · refine forall_congr' fun i => forall_congr' fun r => forall_congr' fun hmat => ?_
    have hacc := IsMatch.accepted hmat
    have hpl : '?' ∉ r.pathPattern.toList := by
      intro hmem
      rw [not_acceptsRequest_of_mem hmem] at hacc
      cases hacc
    rw [Bool.and_eq_true, acceptsRequest_withQuery hpl]
    simp only [IsMatch.serves hmat, hacc, true_and]
  · refine forall_congr' fun i => forall_congr' fun r => forall_congr' fun hmat => ?_
    rw [Bool.and_eq_true]
    constructor
    · intro hacc hmem
      rw [not_acceptsRequest_of_mem hmem] at hacc
      cases hacc.2
    · intro hpl
      have hac := (acceptsRequest_withQuery hpl).mp (IsMatch.accepted hmat)
      exact ⟨IsMatch.serves hmat, hac.1⟩

end

/-! ### The query takes no part -/

/-- The query takes no part in routing: the route is the same, so is the answer, and a
    rewrite that ends with its placeholder carries the query along. -/
structure QueryIgnored (parseUrl : UrlParser) (routes : List Route) (host : List Char)
    (p : RequestPath) (query : List Char) : Prop where
  route : bestMatch routes .http (acceptsRequest host (p.withQuery query)) =
    bestMatch routes .http (acceptsRequest host p.path)
  answer : ∀ pools draw port acl exclude,
    getBackendWithAclExcluding parseUrl { routes := routes, pools := pools } draw host
        (p.withQuery query) port acl exclude =
      getBackendWithAclExcluding parseUrl { routes := routes, pools := pools } draw host
        p.path port acl exclude
  rewrite : ∀ pools draw port acl exclude info,
    (getBackendWithAclExcluding parseUrl { routes := routes, pools := pools } draw host
        (p.withQuery query) port acl exclude).1 = .found info →
      ∀ rewrite ∈ info.pathRewrite, Text.EndsWith placeholder rewrite.toList →
        info.rewrittenPath (p.withQuery query) = info.rewrittenPath p.path ++ '?' :: query

section

variable {parseUrl : UrlParser} {routes : List Route} {host query : List Char} {p : RequestPath}

variable {info : BackendInfo} {rest : List Char} {rewrite : String}

theorem rewrittenPath_of_append {base path : List Char} (hrew : info.pathRewrite = some rewrite)
    (hpre : info.pathIsPrefix = true) (hb : rewrite.toList = base ++ placeholder)
    (ho : ∀ k < base.length, ¬placeholder <+: rewrite.toList.drop k)
    (hp : path = info.pathPattern.toList.rdropWhile (· = '/') ++ '/' :: rest) :
    info.rewrittenPath path = base ++ '/' :: rest := by
  rw [hb] at ho
  unfold BackendInfo.rewrittenPath
  simp only [hrew, if_pos hpre, pathSuffix_of_append hp]
  rw [hb, Text.replace_end (by simp [placeholder]) _ _ ho]

theorem rewrittenPath_withQuery (hrew : info.pathRewrite = some rewrite)
    (hpre : info.pathIsPrefix = true) (he : Text.EndsWith placeholder rewrite.toList)
    (hp : p.path = info.pathPattern.toList.rdropWhile (· = '/') ++ '/' :: rest) :
    info.rewrittenPath (p.withQuery query) = info.rewrittenPath p.path ++ '?' :: query := by
  obtain ⟨base, hb, ho⟩ := he
  have hq : p.withQuery query = info.pathPattern.toList.rdropWhile (· = '/') ++
      '/' :: (rest ++ '?' :: query) := by
    unfold RequestPath.withQuery
    rw [hp]
    simp
  rw [rewrittenPath_of_append hrew hpre hb ho hq,
    rewrittenPath_of_append hrew hpre hb ho hp]
  simp

/-- The query takes no part in routing exactly when the highest ranking route for the
    path does not stop at the path, and the highest ranking one for the path with the
    query has no question mark in its pattern. -/
theorem query_ignored_iff (parseUrl : UrlParser) (routes : List Route) (host : List Char)
    (p : RequestPath) (query : List Char) :
    QueryIgnored parseUrl routes host p query ↔
      (∀ i r, IsMatch routes .http (acceptsRequest host p.path) i r → ¬r.StopsAt p.path) ∧
        ∀ i r, IsMatch routes .http (acceptsRequest host (p.withQuery query)) i r →
          '?' ∉ r.pathPattern.toList := by
  constructor
  · intro hign
    exact bestMatch_withQuery_iff.mp hign.route
  · intro hco
    have hro := bestMatch_withQuery_iff.mpr hco
    refine ⟨hro, ?_, ?_⟩
    · intro pools draw port acl exclude
      unfold getBackendWithAclExcluding
      rw [hro]
    · intro pools draw port acl exclude info hfound rewrite hrew hen
      obtain ⟨-, -, r, i, lease, hmat, -, -, rfl⟩ :=
        getBackendWithAclExcluding_found (Prod.ext hfound rfl)
      have hpl := hco.2 i r hmat
      have hacc := (acceptsRequest_withQuery hpl).mp hmat.accepted
      obtain ⟨hpre, rest, hpa⟩ : r.GoesOn p.path :=
        (servesRequest_iff.mp hacc.1).2.resolve_left hacc.2
      exact rewrittenPath_withQuery hrew hpre hen hpa

end

def loginRoutes : List Route :=
  [{ Route.simple "app.example.com" true 0 with pathPattern := "/" },
    { Route.simple "app.example.com" false 1 with pathPattern := "/login" }]

/-- A request for the one path goes to its route, and with a query to the other. -/
theorem query_reroutes :
    bestMatch loginRoutes .http (acceptsRequest "app.example.com".toList "/login".toList) =
        some ({ Route.simple "app.example.com" false 1 with pathPattern := "/login" }, 1) ∧
      bestMatch loginRoutes .http (acceptsRequest "app.example.com".toList "/login?next=1".toList) =
        some ({ Route.simple "app.example.com" true 0 with pathPattern := "/" }, 0) := by
  decide +kernel

end Nexapipe
