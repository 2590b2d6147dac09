import Nexapipe.Lib.Entries
import Nexapipe.Proto.Host

/-!
# The endpoint group

A group is built from a list of domain mappings, each a pattern and the server that serves it.
Mappings that spell their server alike share one pool of connections, and a pattern that stands in
several mappings is served by the pools of all of them.

How the text of a server becomes an address is a parameter: it can fail, and it says which backend
the address is for.
-/

namespace Nexapipe.Client

open List Entries

open Host

abbrev BackendId : Type := Nat

structure DomainMapping where
  domain : String
  serverNodeId : Option String
  serverTicket : Option String

def DomainMapping.key (mapping : DomainMapping) : String :=
  match mapping.serverNodeId, mapping.serverTicket with
  | some id, _ => "node_id:" ++ id
  | none, some ticket => "ticket:" ++ ticket
  | none, none => "unknown"

inductive PoolId where
  | keyed (key : String)
  | default
deriving DecidableEq

structure EndpointGroup where
  domains : Entries (List Char) (List PoolId)
  wildcards : Entries (List Char) (List PoolId)
  defaultPools : Option (List PoolId)
  backends : Entries PoolId BackendId

/-! ### Building a group -/

structure Building where
  poolByKey : Entries String BackendId
  domainToKeys : Entries (List Char) (List String)

def DomainMapping.pattern (mapping : DomainMapping) : List Char :=
  normalizePattern mapping.domain.toList

/-- One mapping. Only the first of those with one key has its address read. -/
def Building.add {ε : Type} (toEndpointAddr : DomainMapping → Except ε BackendId) (b : Building)
    (mapping : DomainMapping) : Except ε Building :=
  let keys := (b.domainToKeys.lookup mapping.pattern).getD []
  let domainToKeys := b.domainToKeys.set mapping.pattern (keys ++ [mapping.key])
  if (b.poolByKey.lookup mapping.key).isSome then .ok { b with domainToKeys }
  else
    match toEndpointAddr mapping with
    | .error e => .error e
    | .ok backend => .ok ⟨b.poolByKey.set mapping.key backend, domainToKeys⟩

def Building.addAll {ε : Type} (toEndpointAddr : DomainMapping → Except ε BackendId) :
    List DomainMapping → Building → Except ε Building
  | [], b => .ok b
  | mapping :: mappings, b =>
    match b.add toEndpointAddr mapping with
    | .error e => .error e
    | .ok b => addAll toEndpointAddr mappings b

def stripStarDot (pattern : List Char) : Option (List Char) :=
  (stripChar '*' pattern).bind (stripChar '.')

/-- One pattern of a table. A wildcard is keyed by the name it covers and the catch-all by the
    empty name, which a wildcard with nothing behind its dot must not be given. -/
def indexEntry (wildcards : Entries (List Char) (List PoolId)) (entry : List Char × List PoolId) :
    Entries (List Char) (List PoolId) :=
  match stripStarDot entry.1 with
  | some suffix => if suffix = [] then wildcards else wildcards.set suffix entry.2
  | none => if entry.1 = ['*'] then wildcards.set [] entry.2 else wildcards

def wildcardsOf (domains : Entries (List Char) (List PoolId)) :
    Entries (List Char) (List PoolId) :=
  domains.foldl indexEntry []

def Building.pools (b : Building) (keys : List String) : List PoolId :=
  keys.filterMap fun key => (b.poolByKey.lookup key).map fun _ => .keyed key

def Building.domains (b : Building) : Entries (List Char) (List PoolId) :=
  b.domainToKeys.filterMap fun entry =>
    if b.pools entry.2 ≠ [] then some (entry.1, b.pools entry.2) else none

def build {ε : Type} (toEndpointAddr : DomainMapping → Except ε BackendId)
    (domainMappings : List DomainMapping) (defaultEndpointAddr : Option BackendId) :
    Except ε EndpointGroup :=
  match Building.addAll toEndpointAddr domainMappings ⟨[], []⟩ with
  | .error e => .error e
  | .ok b =>
    let keyed := b.poolByKey.map fun entry => (PoolId.keyed entry.1, entry.2)
    let byDefault := defaultEndpointAddr.toList.map fun backend => (PoolId.default, backend)
    .ok ⟨b.domains, wildcardsOf b.domains, defaultEndpointAddr.map fun _ => [.default],
      keyed ++ byDefault⟩

/-! ### Asking a group -/

/-- The part of a name behind each of its dots in turn, looked up until one is found: the
    name's suffixes that begin at a label, the longest first. -/
def walkSuffixes (wildcards : Entries (List Char) (List PoolId)) : List Char → Option (List PoolId)
  | [] => none
  | c :: rest =>
    if c = '.' then (wildcards.lookup rest).or (walkSuffixes wildcards rest)
    else walkSuffixes wildcards rest

/-- The pools that serve a name: those of the pattern spelled like it, or else those of the
    wildcard with the longest suffix, and the catch-all last. -/
def EndpointGroup.poolsFor (g : EndpointGroup) (host : List Char) : Option (List PoolId) :=
  let host := normalizeHost host
  (g.domains.lookup host).or ((walkSuffixes g.wildcards host).or (g.wildcards.lookup []))

def EndpointGroup.reached (g : EndpointGroup) (host : List Char) : Option (List PoolId) :=
  (g.poolsFor host).or g.defaultPools

def EndpointGroup.allPools (g : EndpointGroup) : List PoolId :=
  g.domains.flatMap (·.2) ++ g.defaultPools.toList.flatten

def EndpointGroup.keepFirst (g : EndpointGroup) (unique : List (BackendId × PoolId))
    (pool : PoolId) : List (BackendId × PoolId) :=
  match g.backends.lookup pool with
  | none => unique
  | some backend =>
    if unique.any fun entry => entry.1 = backend then unique else unique ++ [(backend, pool)]

def EndpointGroup.uniquePools (g : EndpointGroup) : List (BackendId × PoolId) :=
  g.allPools.foldl g.keepFirst []

def shouldProxyDomain (host : List Char) (proxyDomains : List String) : Bool :=
  hostMatchesAny proxyDomains host

/-! ### What a built group holds -/

def patternPools (mappings : List DomainMapping) (pattern : List Char) : List PoolId :=
  (mappings.filter fun mapping => mapping.pattern = pattern).map fun mapping => .keyed mapping.key

def patterns (mappings : List DomainMapping) : List (List Char) :=
  mappings.map DomainMapping.pattern

def keysOf (mappings : List DomainMapping) (pattern : List Char) : Option (List String) :=
  if pattern ∈ patterns mappings then
    some ((mappings.filter fun mapping => mapping.pattern = pattern).map DomainMapping.key)
  else none

structure Building.Of (mappings : List DomainMapping) (b : Building) : Prop where
  pools : ∀ mapping ∈ mappings, (b.poolByKey.lookup mapping.key).isSome = true
  keys : ∀ pattern, b.domainToKeys.lookup pattern = keysOf mappings pattern
  distinct : b.domainToKeys.Distinct

theorem keysOf_concat (mappings : List DomainMapping) (mapping : DomainMapping)
    (pattern : List Char) :
    keysOf (mappings ++ [mapping]) pattern =
      if pattern = mapping.pattern then
        some ((keysOf mappings mapping.pattern).getD [] ++ [mapping.key])
      else keysOf mappings pattern := by
  have hsp : (mappings ++ [mapping]).filter (fun m => m.pattern = pattern) =
      mappings.filter (fun m => m.pattern = pattern) ++
        [mapping].filter (fun m => m.pattern = pattern) :=
    filter_append mappings [mapping]
  have hmem : pattern ∈ patterns (mappings ++ [mapping]) ↔
      pattern ∈ patterns mappings ∨ pattern = mapping.pattern := by
    simp only [patterns, map_append, mem_append, map_singleton, mem_singleton]
  unfold keysOf
  rw [hsp]
  by_cases h : pattern = mapping.pattern
  · subst h
    have hla : [mapping].filter (fun m => m.pattern = mapping.pattern) = [mapping] := by
      simp
    rw [if_pos (hmem.mpr (.inr rfl)), if_pos rfl, map_append, hla]
    by_cases hold : mapping.pattern ∈ patterns mappings
    · rw [if_pos hold]
      rfl
    -- The pattern is new, so no mapping before this one has it.
    have hno : mappings.filter (fun m => m.pattern = mapping.pattern) = [] := by
      rw [filter_eq_nil_iff]
      intro m hm heq
      exact hold (mem_map.mpr ⟨m, hm, of_decide_eq_true heq⟩)
    rw [if_neg hold, hno]
    rfl
  · have hne : ¬mapping.pattern = pattern := fun heq => h heq.symm
    rw [if_neg h, filter_cons_of_neg (by simpa using hne), filter_nil, append_nil]
    by_cases hold : pattern ∈ patterns mappings
    · rw [if_pos (hmem.mpr (.inl hold)), if_pos hold]
    · rw [if_neg (fun hin => (hmem.mp hin).elim hold h), if_neg hold]

variable {b b' : Building} {mappings todo : List DomainMapping} {ε : Type}
  {byDefault : Option BackendId} {g : EndpointGroup} {suffix name : List Char}
  {entry : BackendId × PoolId} {pool : PoolId} {backend : BackendId}

variable {toEndpointAddr : DomainMapping → Except ε BackendId}

open Building

theorem Building.Of.add {mapping : DomainMapping} (h : b.Of mappings)
    (hadd : b.add toEndpointAddr mapping = .ok b') : b'.Of (mappings ++ [mapping]) := by
  have hke : ∀ pattern, (b.domainToKeys.set mapping.pattern
      ((b.domainToKeys.lookup mapping.pattern).getD [] ++ [mapping.key])).lookup pattern =
        keysOf (mappings ++ [mapping]) pattern := by
    intro pattern
    rw [lookup_set, keysOf_concat, h.keys, h.keys]
  have hdis := h.distinct.set mapping.pattern
    ((b.domainToKeys.lookup mapping.pattern).getD [] ++ [mapping.key])
  revert hadd
  fun_cases Building.add toEndpointAddr b mapping with
  | case1 _ _ hpo =>
    rintro ⟨⟩
    refine ⟨?_, hke, hdis⟩
    intro m hm
    rcases mem_append.mp hm with hold | hnew
    · exact h.pools m hold
    · rw [mem_singleton.mp hnew]
      exact hpo
  | case2 => rintro ⟨⟩
  | case3 =>
    rintro ⟨⟩
    refine ⟨?_, hke, hdis⟩
    intro m hm
    rw [lookup_set]
    by_cases hkey : m.key = mapping.key
    · rw [if_pos hkey]
      rfl
    rw [if_neg hkey]
    rcases mem_append.mp hm with hold | hnew
    · exact h.pools m hold
    · exact absurd (by rw [mem_singleton.mp hnew]) hkey

theorem Building.Of.addAll {done : List DomainMapping} (h : b.Of done)
    (hadd : Building.addAll toEndpointAddr todo b = .ok b') : b'.Of (done ++ todo) := by
  induction todo generalizing done b with
  | nil =>
    cases hadd
    rw [append_nil]
    exact h
  | cons mapping todo ih =>
    rw [addAll] at hadd
    rcases hone : b.add toEndpointAddr mapping with e | next
    · simp [hone] at hadd
    rw [hone] at hadd
    have hr := ih (h.add hone) hadd
    rwa [append_assoc, singleton_append] at hr

theorem Building.Of.domains_eq (h : b.Of mappings) :
    b.domains = b.domainToKeys.map fun entry => (entry.1, entry.2.map PoolId.keyed) := by
  rw [← filterMap_eq_map]
  refine filterMap_congr fun entry hentry => ?_
  have hlk := h.distinct.lookup_of_mem hentry
  rw [h.keys, keysOf] at hlk
  by_cases hmem : entry.1 ∈ patterns mappings
  case neg =>
    rw [if_neg hmem] at hlk
    cases hlk
  rw [if_pos hmem, Option.some_inj] at hlk
  have hpo : b.pools entry.2 = entry.2.map PoolId.keyed := by
    rw [← filterMap_eq_map]
    refine filterMap_congr fun key hkey => ?_
    rw [← hlk] at hkey
    rcases mem_map.mp hkey with ⟨mapping, hmap, rfl⟩
    rcases Option.isSome_iff_exists.mp (h.pools mapping (mem_filter.mp hmap).1) with
      ⟨backend, hbac⟩
    rw [hbac]
    rfl
  -- The pattern stands in some mapping, whose key is among those of the pattern.
  have hne : entry.2.map PoolId.keyed ≠ [] := by
    rcases mem_map.mp hmem with ⟨mapping, hmap, hpat⟩
    rw [← hlk]
    intro hnil
    rw [map_eq_nil_iff, map_eq_nil_iff, filter_eq_nil_iff] at hnil
    exact hnil mapping hmap (decide_eq_true hpat)
  rw [hpo, if_pos hne]
  rfl

theorem build_eq_ok (h : build toEndpointAddr mappings byDefault = .ok g) :
    ∃ b : Building, Building.addAll toEndpointAddr mappings ⟨[], []⟩ = .ok b ∧ b.Of mappings ∧
      g = ⟨b.domains, wildcardsOf b.domains, byDefault.map fun _ => [.default],
        (b.poolByKey.map fun entry => (PoolId.keyed entry.1, entry.2)) ++
          byDefault.toList.map fun backend => (PoolId.default, backend)⟩ := by
  unfold build at h
  have hnil : Building.Of [] ⟨[], []⟩ :=
    ⟨fun m hm => absurd hm not_mem_nil, fun _ => rfl, nodup_nil⟩
  rcases hall : addAll toEndpointAddr mappings ⟨[], []⟩ with e | b
  · simp [hall] at h
  rw [hall] at h
  cases h
  exact ⟨b, rfl, hnil.addAll hall, rfl⟩

theorem exists_building (h : build toEndpointAddr mappings byDefault = .ok g) :
    ∃ b : Building, b.Of mappings ∧ g.domains = b.domains ∧
      g.wildcards = wildcardsOf b.domains ∧
      g.defaultPools = byDefault.map fun _ => [.default] := by
  rcases build_eq_ok h with ⟨b, -, hof, rfl⟩
  exact ⟨b, hof, rfl, rfl, rfl⟩

theorem Building.Of.lookup_domains (h : b.Of mappings) (pattern : List Char) :
    b.domains.lookup pattern =
      if pattern ∈ patterns mappings then some (patternPools mappings pattern) else none := by
  rw [h.domains_eq, lookup_map, h.keys, keysOf]
  by_cases hmem : pattern ∈ patterns mappings
  · rw [if_pos hmem, if_pos hmem, Option.map_some, map_map]
    rfl
  · rw [if_neg hmem, if_neg hmem]
    rfl

theorem Building.Of.distinct_domains (h : b.Of mappings) : b.domains.Distinct := by
  rw [h.domains_eq, Entries.Distinct, map_map]
  exact h.distinct

/-! ### The index -/

theorem stripStarDot_eq_some {pattern : List Char} :
    stripStarDot pattern = some suffix ↔ pattern = '*' :: '.' :: suffix := by
  unfold stripStarDot
  rw [Option.bind_eq_some_iff]
  constructor
  · rintro ⟨rest, hs, hdot⟩
    rw [stripChar_eq_some] at hs hdot
    rw [hs, hdot]
  · intro h
    exact ⟨'.' :: suffix, stripChar_eq_some.mpr h, stripChar_eq_some.mpr rfl⟩

def indexed (name : List Char) : List Char :=
  if name = [] then ['*'] else '*' :: '.' :: name

theorem indexed_eq_wildcard :
    indexed name = '*' :: '.' :: suffix ↔ name = suffix ∧ suffix ≠ [] := by
  fun_cases indexed name with
  | case1 h =>
    constructor
    · intro heq
      cases heq
    · rintro ⟨rfl, hne⟩
      exact absurd h hne
  | case2 h =>
    constructor
    · intro heq
      cases heq
      exact ⟨rfl, h⟩
    · rintro ⟨rfl, -⟩
      rfl

theorem indexed_eq_star : indexed name = ['*'] ↔ name = [] := by
  unfold indexed
  by_cases h : name = []
  · simp [h]
  · simp [h]

theorem lookup_indexEntry (wildcards : Entries (List Char) (List PoolId))
    (entry : List Char × List PoolId) (name : List Char) :
    (indexEntry wildcards entry).lookup name =
      if indexed name = entry.1 then some entry.2 else wildcards.lookup name := by
  unfold indexEntry
  rcases hstr : stripStarDot entry.1 with _ | suffix
  · by_cases hst : entry.1 = ['*']
    · rw [if_pos hst, lookup_set, hst]
      simp only [indexed_eq_star]
    -- Whatever is indexed is the catch-all or a wildcard, and this pattern is neither.
    have hne : indexed name ≠ entry.1 := by
      intro heq
      unfold indexed at heq
      by_cases hna : name = []
      · rw [if_pos hna] at heq
        exact hst heq.symm
      rw [if_neg hna] at heq
      rw [stripStarDot_eq_some.mpr heq.symm] at hstr
      cases hstr
    rw [if_neg hst, if_neg hne]
  · rw [stripStarDot_eq_some.mp hstr]
    simp only [indexed_eq_wildcard]
    by_cases hsuf : suffix = []
    · rw [if_pos hsuf, if_neg (fun h => h.2 hsuf)]
    rw [if_neg hsuf, lookup_set]
    by_cases hna : name = suffix
    · rw [if_pos hna, if_pos ⟨hna, hsuf⟩]
    · rw [if_neg hna, if_neg (fun h => hna h.1)]

theorem lookup_wildcardsOf {domains : Entries (List Char) (List PoolId)}
    (hd : domains.Distinct) (name : List Char) :
    (wildcardsOf domains).lookup name = domains.lookup (indexed name) := by
  unfold wildcardsOf
  -- The walk writes the last entry last, so the induction is from that end.
  induction domains using List.reverseRecOn with
  | nil => rfl
  | append_singleton domains entry ih =>
    have hke : (domains.map Prod.fst ++ [entry.1]).Nodup := by
      have h := hd
      rwa [Entries.Distinct, map_append, map_singleton] at h
    rw [foldl_append, foldl_cons, foldl_nil, lookup_indexEntry,
      ih (nodup_append.mp hke).1, lookup_append, lookup_cons_eq,
      lookup_nil]
    by_cases hna : indexed name = entry.1
    · -- The keys are distinct, so what the last entry is found under is not found before it.
      have hfr : domains.lookup (indexed name) = none := by
        refine Option.eq_none_iff_forall_ne_some.mpr fun v hv => ?_
        have hin := mem_map_of_mem (f := Prod.fst) (mem_of_lookup hv)
        exact (nodup_append.mp hke).2.2 _ hin _ (mem_singleton.mpr hna) rfl
      rw [if_pos hna, if_pos hna, hfr, Option.none_or]
    · rw [if_neg hna, if_neg hna, Option.or_none]

/-! ### The pools of a group -/

def EndpointGroup.OnePoolEach (g : EndpointGroup) : Prop :=
  ∀ pool other backend, g.backends.lookup pool = some backend →
    g.backends.lookup other = some backend → pool = other

open EndpointGroup

theorem EndpointGroup.mem_keepFirst {unique : List (BackendId × PoolId)}
    (h : entry ∈ g.keepFirst unique pool) :
    entry ∈ unique ∨ g.backends.lookup pool = some entry.1 ∧ entry.2 = pool := by
  unfold keepFirst at h
  rcases hb : g.backends.lookup pool with _ | backend
  · rw [hb] at h
    exact .inl h
  simp only [hb] at h
  by_cases hany : (unique.any fun entry => entry.1 = backend) = true
  · rw [if_pos hany] at h
    exact .inl h
  rw [if_neg hany] at h
  rcases mem_append.mp h with hold | hnew
  · exact .inl hold
  · rw [mem_singleton.mp hnew]
    exact .inr ⟨rfl, rfl⟩

theorem EndpointGroup.keepFirst_keeps (g : EndpointGroup) (unique : List (BackendId × PoolId))
    (pool : PoolId) :
    (∀ entry ∈ unique, entry ∈ g.keepFirst unique pool) ∧
      ∀ backend, g.backends.lookup pool = some backend →
        ∃ entry ∈ g.keepFirst unique pool, entry.1 = backend := by
  unfold keepFirst
  rcases hb : g.backends.lookup pool with _ | backend
  · exact ⟨fun _ h => h, nofun⟩
  simp only
  by_cases hany : (unique.any fun entry => entry.1 = backend) = true
  · rw [if_pos hany]
    rcases any_eq_true.mp hany with ⟨entry, hentry, heq⟩
    refine ⟨fun _ h => h, ?_⟩
    intro other hoth
    cases hoth
    exact ⟨entry, hentry, of_decide_eq_true heq⟩
  · rw [if_neg hany]
    refine ⟨fun _ h => mem_append_left _ h, ?_⟩
    intro other hoth
    cases hoth
    exact ⟨(backend, pool), mem_append_right _ mem_cons_self, rfl⟩

theorem EndpointGroup.lookup_of_mem_uniquePools (h : entry ∈ g.uniquePools) :
    g.backends.lookup entry.2 = some entry.1 := by
  have hall : ∀ (pools : List PoolId) (unique : List (BackendId × PoolId)),
      (∀ entry ∈ unique, g.backends.lookup entry.2 = some entry.1) →
        ∀ entry ∈ pools.foldl g.keepFirst unique, g.backends.lookup entry.2 = some entry.1 := by
    intro pools
    induction pools with
    | nil => exact fun _ hu => hu
    | cons pool pools ih =>
      intro unique hu
      refine ih _ fun entry hentry => ?_
      rcases mem_keepFirst hentry with hold | ⟨hb, rfl⟩
      · exact hu entry hold
      · exact hb
  exact hall g.allPools [] (fun _ hnil => absurd hnil not_mem_nil) entry h

theorem EndpointGroup.exists_mem_uniquePools (hpo : pool ∈ g.allPools)
    (hbac : g.backends.lookup pool = some backend) :
    ∃ entry ∈ g.uniquePools, entry.1 = backend := by
  have hke : ∀ (pools : List PoolId) (unique : List (BackendId × PoolId)),
      ((∃ entry ∈ unique, entry.1 = backend) ∨ pool ∈ pools) →
        ∃ entry ∈ pools.foldl g.keepFirst unique, entry.1 = backend := by
    intro pools
    induction pools with
    | nil => exact fun unique h => h.resolve_right not_mem_nil
    | cons next pools ih =>
      intro unique h
      refine ih (g.keepFirst unique next) ?_
      rcases h with ⟨entry, hentry, hb⟩ | hmem
      · exact .inl ⟨entry, (g.keepFirst_keeps unique next).1 entry hentry, hb⟩
      rcases mem_cons.mp hmem with rfl | hlat
      · exact .inl ((g.keepFirst_keeps unique pool).2 backend hbac)
      · exact .inr hlat
  exact hke g.allPools [] (.inr hpo)

theorem EndpointGroup.mem_uniquePools (hone : g.OnePoolEach) (hp : pool ∈ g.allPools)
    (hbac : g.backends.lookup pool = some backend) : (backend, pool) ∈ g.uniquePools := by
  rcases exists_mem_uniquePools hp hbac with ⟨entry, hentry, rfl⟩
  have hsame := hone pool entry.2 entry.1 hbac (g.lookup_of_mem_uniquePools hentry)
  rw [hsame]
  exact hentry

theorem Building.key_of_addAll (hadd : Building.addAll toEndpointAddr todo b = .ok b')
    {entry : String × BackendId} (hentry : entry ∈ b'.poolByKey) :
    entry ∈ b.poolByKey ∨ ∃ mapping ∈ todo, mapping.key = entry.1 := by
  revert hadd
  fun_induction addAll toEndpointAddr todo b with
  | case1 =>
    rintro ⟨⟩
    exact .inl hentry
  | case2 => rintro ⟨⟩
  | case3 mapping todo b next hone ih =>
    intro hadd
    rcases ih hadd with hne | ⟨m, hm, hkey⟩
    case inr => exact .inr ⟨m, mem_cons_of_mem _ hm, hkey⟩
    revert hone
    fun_cases add toEndpointAddr b mapping with
    | case1 =>
      rintro ⟨⟩
      exact .inl hne
    | case2 => rintro ⟨⟩
    | case3 =>
      rintro ⟨⟩
      -- The one mapping adds its own key at most.
      rcases mem_set hne with rfl | hold
      · exact .inr ⟨mapping, mem_cons_self, rfl⟩
      · exact .inl hold

theorem mem_allPools_of_build (h : build toEndpointAddr mappings byDefault = .ok g)
    (hpo : g.backends.lookup pool = some backend) : pool ∈ g.allPools := by
  rcases build_eq_ok h with ⟨b, hall, hof, rfl⟩
  rcases mem_append.mp (mem_of_lookup hpo) with hke | hdef
  · rcases mem_map.mp hke with ⟨entry, hentry, heq⟩
    cases heq
    rcases key_of_addAll hall hentry with hnil | ⟨mapping, hmap, hkey⟩
    · cases hnil
    -- The pattern of the mapping has the pool among its own.
    have hin : mapping.pattern ∈ patterns mappings := mem_map_of_mem hmap
    have hlk := hof.lookup_domains mapping.pattern
    rw [if_pos hin] at hlk
    have hser : PoolId.keyed entry.1 ∈ patternPools mappings mapping.pattern :=
      mem_map.mpr ⟨mapping, mem_filter.mpr ⟨hmap, decide_eq_true rfl⟩,
        congrArg PoolId.keyed hkey⟩
    exact mem_append_left _ (mem_flatMap.mpr
      ⟨_, mem_of_lookup hlk, hser⟩)
  · rcases mem_map.mp hdef with ⟨address, hadd, heq⟩
    cases heq
    refine mem_append_right _ ?_
    rw [Option.mem_toList.mp hadd]
    exact mem_cons_self

end Nexapipe.Client
