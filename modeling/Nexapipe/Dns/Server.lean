import Nexapipe.Client.Group
import Nexapipe.Dns.Message
import Nexapipe.Dns.VirtualIp
import Nexapipe.Proto.Fold

/-!
# The DNS server

The resolver the device asks. A name on the list of proxied names is answered with a virtual
address, and what the tunnel later knows of a connection is the name that address stands for. So
that name is asked of the list again, and it chooses the pools.

The two names are not folded alike. The list and the pools fold a name with `normalizeHost`, which
lowers ASCII letters, and the addresses are kept under `foldDomain`, which lowers letters of every
script and takes white space off as well.
-/

namespace Nexapipe.Dns

open List Option

open Host Client VirtualIp

/-- What becomes of a query: no answer, an answer without records, one with a virtual address, or
    the answer of another resolver. -/
inductive Handled where
  | dropped
  | empty (response : List UInt8)
  | address (addr : IpAddr) (response : List UInt8)
  | forwarded (parsed : Query)

def isIroh (lower : List Char → List Char) (domain : List Char) : Bool :=
  ".iroh.link".toList.isSuffixOf (lower domain) || ".n0.iroh.link".toList.isSuffixOf (lower domain)

def virtualAnswer (lower : List Char → List Char) (ipMapping : IpMapping) (domain : List Char)
    (qtype now : Nat) : Option IpAddr × IpMapping :=
  if qtype = dnsTypeA then
    let (ip, ipMapping) := ipMapping.allocate lower domain now
    (some (.v4 (BitVec.ofNat 32 ip)), ipMapping)
  else if qtype = dnsTypeAaaa then
    let (ip, ipMapping) := ipMapping.allocateV6 lower domain now
    (ip.map fun ip => .v6 (BitVec.ofNat 128 ip), ipMapping)
  else (none, ipMapping)

def handleDnsQuery (lower : List Char → List Char) (proxyDomains : List String)
    (ipMapping : IpMapping) (query : List UInt8) (now : Nat) : Handled × IpMapping :=
  match parseQuery query with
  | none => (.dropped, ipMapping)
  | some parsed =>
    if parsed.domain = [] then (.dropped, ipMapping)
    else if !isIroh lower parsed.domain && shouldProxyDomain parsed.domain proxyDomains then
      if parsed.qclass ≠ dnsClassIn ∨ parsed.qtype ≠ dnsTypeA ∧ parsed.qtype ≠ dnsTypeAaaa then
        (.empty (buildEmptyResponse parsed), ipMapping)
      else
        match virtualAnswer lower ipMapping parsed.domain parsed.qtype now with
        | (none, ipMapping) => (.empty (buildEmptyResponse parsed), ipMapping)
        | (some answer, ipMapping) => (.address answer (buildResponse parsed answer), ipMapping)
    else (.forwarded parsed, ipMapping)

def nameBehind (ipMapping : IpMapping) : IpAddr → Option (List Char)
  | .v4 ip => (ipMapping.lookupDomain ip.toNat).1
  | .v6 ip => (ipMapping.lookupDomainV6 ip.toNat).1

def StandsFor (ipMapping : IpMapping) (addr : IpAddr) (domain : List Char)
    (proxyDomains : List String) (g : EndpointGroup) : Prop :=
  ∃ name, nameBehind ipMapping addr = some name ∧ shouldProxyDomain name proxyDomains = true ∧
    g.reached name = g.reached domain

section Answered

variable {lower : List Char → List Char} {m m' : IpMapping} {query response : List UInt8}
  {addr : IpAddr} {now : Nat}

theorem handleDnsQuery_eq_address {proxyDomains : List String} {q : Query}
    (hpa : parseQuery query = some q) :
    handleDnsQuery lower proxyDomains m query now = (.address addr response, m') ↔
      (q.domain ≠ [] ∧ isIroh lower q.domain = false ∧ q.qclass = dnsClassIn ∧
        virtualAnswer lower m q.domain q.qtype now = (some addr, m') ∧
        response = buildResponse q addr) ∧ shouldProxyDomain q.domain proxyDomains = true := by
  fun_cases handleDnsQuery lower proxyDomains m query now with
  | case1 hno => simp [hno] at hpa
  | case2 parsed hpar hnil =>
    cases hpar.symm.trans hpa
    exact ⟨nofun, fun h => absurd hnil h.1.1⟩
  | case3 parsed hpar hnil hpr hki =>
    cases hpar.symm.trans hpa
    refine ⟨nofun, ?_⟩
    rintro ⟨⟨-, -, hcl, hans, -⟩, -⟩
    rcases hki with hoth | ⟨hnot, hnot6⟩
    · exact absurd hcl hoth
    -- A type that is none of the two is given no address.
    rw [virtualAnswer, if_neg hnot, if_neg hnot6] at hans
    cases hans
  | case4 parsed hpar hnil hpr hki after hans =>
    cases hpar.symm.trans hpa
    refine ⟨nofun, ?_⟩
    rintro ⟨⟨-, -, -, heq, -⟩, -⟩
    cases hans.symm.trans heq
  | case5 parsed hpar hnil hpr hki answer after hans =>
    cases hpar.symm.trans hpa
    rw [Bool.and_eq_true, Bool.not_eq_true'] at hpr
    constructor
    · rintro ⟨⟩
      exact ⟨⟨hnil, hpr.1, Classical.not_not.mp fun h => hki (.inl h), hans, rfl⟩,
        hpr.2⟩
    · rintro ⟨⟨-, -, -, heq, rfl⟩, -⟩
      cases hans.symm.trans heq
      rfl
  | case6 parsed hpar hnil hpr =>
    cases hpar.symm.trans hpa
    refine ⟨nofun, ?_⟩
    rintro ⟨⟨-, hir, -⟩, hli⟩
    simp [hir, hli] at hpr

theorem nameBehind_virtualAnswer {w : World} (hw : w.Names) {domain : List Char} {qtype : Nat}
    (h : virtualAnswer lower w.mapping domain qtype now = (some addr, m')) :
    nameBehind m' addr = some (foldDomain lower domain) := by
  unfold virtualAnswer at h
  by_cases h4 : qtype = dnsTypeA
  · rw [if_pos h4] at h
    cases h
    have hnam : w.mapping.v4.Names (2 ^ 32) := hw .v4 _ rfl
    have hlt := (hnam.alloc lower domain now).1
    -- The address fits in 32 bits, so it is looked up as it was handed out.
    have hnat : (BitVec.ofNat 32 (w.mapping.allocate lower domain now).1).toNat =
        (w.mapping.v4.alloc lower domain now).1 := by
      unfold IpMapping.allocate
      rw [BitVec.toNat_ofNat, Nat.mod_mod, Nat.mod_eq_of_lt hlt]
    show ((w.mapping.allocate lower domain now).2.v4.lookup
      (BitVec.ofNat 32 (w.mapping.allocate lower domain now).1).toNat).1 = _
    rw [hnat, Pool.lookup_fst]
    exact hnam.inverse.nameOf_alloc lower domain now
  rw [if_neg h4] at h
  by_cases h6 : qtype = dnsTypeAaaa
  · rw [if_pos h6] at h
    rcases hpo : w.mapping.v6 with _ | p
    · simp [IpMapping.allocateV6, hpo, map_none] at h
    simp only [IpMapping.allocateV6, hpo, map_some] at h
    cases h
    have hnam : p.Names (2 ^ 128) := hw .v6 p hpo
    have hlt := (hnam.alloc lower domain now).1
    have hnat : (BitVec.ofNat 128 (p.alloc lower domain now).1).toNat =
        (p.alloc lower domain now).1 := by
      rw [BitVec.toNat_ofNat, Nat.mod_eq_of_lt hlt]
    show ((p.alloc lower domain now).2.lookup
      (BitVec.ofNat 128 (p.alloc lower domain now).1).toNat).1 = _
    rw [hnat, Pool.lookup_fst]
    exact hnam.inverse.nameOf_alloc lower domain now
  · simp [if_neg h6] at h

end Answered

/-! ### The two folds -/

variable {domain name : List Char} {mappings : List DomainMapping} {byDefault : Option BackendId}

theorem shouldProxyDomain_congr (h : normalizeHost name = normalizeHost domain)
    (proxyDomains : List String) :
    shouldProxyDomain name proxyDomains = shouldProxyDomain domain proxyDomains := by
  unfold shouldProxyDomain hostMatchesAny
  rw [h]

open EndpointGroup

theorem reached_congr (h : normalizeHost name = normalizeHost domain) (g : EndpointGroup) :
    g.reached name = g.reached domain := by
  unfold reached poolsFor
  rw [h]

def mappingTo (server : String) (pattern : List Char) : DomainMapping :=
  ⟨String.ofList pattern, some server, none⟩

def apart (one two : List Char) : List DomainMapping :=
  [mappingTo "all" ['*'], mappingTo "one" one, mappingTo "two" two]

theorem pattern_mappingTo (server : String) (pattern : List Char) :
    (mappingTo server pattern).pattern = normalizePattern pattern := by
  rw [DomainMapping.pattern, mappingTo, String.toList_ofList]

theorem normalizePattern_eq_or (name : List Char) :
    normalizePattern name = normalizeHost name ∨ normalizeHost name = ['*'] := by
  unfold normalizePattern
  by_cases h : normalizeHost name = ['*'] ∧ name ≠ ['*']
  · exact .inr h.1
  · rw [if_neg h]
    exact .inl rfl

theorem patternPools_disjoint {p q : List Char} (hk : (mappings.map DomainMapping.key).Nodup)
    (hp : p ∈ patterns mappings) (hne : p ≠ q) :
    patternPools mappings p ≠ patternPools mappings q := by
  intro heq
  rcases mem_map.mp hp with ⟨mapping, hmap, hpat⟩
  have hpo : PoolId.keyed mapping.key ∈ patternPools mappings p :=
    mem_map.mpr ⟨mapping, mem_filter.mpr ⟨hmap, decide_eq_true hpat⟩, rfl⟩
  rw [heq] at hpo
  rcases mem_map.mp hpo with ⟨other, hoth, hkey⟩
  rcases mem_filter.mp hoth with ⟨hin, hq⟩
  -- The keys are distinct, so the mapping with this key is the one it was.
  have hsame : other = mapping :=
    inj_on_of_nodup_map hk hin hmap (PoolId.keyed.inj hkey)
  rw [hsame, decide_eq_true_eq] at hq
  exact hne (hpat.symm.trans hq)

theorem reached_of_mem {ε : Type} {toEndpointAddr : DomainMapping → Except ε BackendId}
    {g : EndpointGroup} (h : build toEndpointAddr mappings byDefault = .ok g)
    (hmem : normalizeHost name ∈ patterns mappings) :
    g.reached name = some (patternPools mappings (normalizeHost name)) := by
  rcases exists_building h with ⟨b, hb, hdom, -, -⟩
  unfold reached poolsFor
  simp only [hdom, hb.lookup_domains, if_pos hmem, some_or]

theorem reached_apart {ε : Type} {toEndpointAddr : DomainMapping → Except ε BackendId}
    {one two : List Char} {g : EndpointGroup}
    (h : build toEndpointAddr (apart one two) byDefault = .ok g)
    (hne : normalizeHost one ≠ normalizeHost two) : g.reached one ≠ g.reached two := by
  have hpat : patterns (apart one two) =
      [normalizePattern ['*'], normalizePattern one, normalizePattern two] := by
    simp only [patterns, apart, map_cons, map_nil, pattern_mappingTo]
  have hst : normalizePattern ['*'] = ['*'] := by decide
  have hone : normalizeHost one ∈ patterns (apart one two) := by
    rw [hpat]
    rcases normalizePattern_eq_or one with heq | heq
    · simp [heq]
    · simp [heq, hst]
  have htwo : normalizeHost two ∈ patterns (apart one two) := by
    rw [hpat]
    rcases normalizePattern_eq_or two with heq | heq
    · simp [heq]
    · simp [heq, hst]
  rw [reached_of_mem h hone, reached_of_mem h htwo]
  intro heq
  refine patternPools_disjoint ?_ hone hne (some.inj heq)
  show ["node_id:" ++ "all", "node_id:" ++ "one", "node_id:" ++ "two"].Nodup
  decide

section Stands

variable {lower : List Char → List Char} {v4 : Nat × Nat} {v6 : Option (Nat × Nat)}
  {events : List VirtualIp.Event} {w : World} {query : List UInt8} {q : Query} {now : Nat}

/-- The name behind the address a query is answered with is as good as the queried name, for every
    list and every group, exactly when both folds agree on the queried name. The mapping may have
    been used in any way before. -/
theorem address_stands_for_name_iff (hv4 : v4.1 < 2 ^ 32 ∧ v4.2 < 2 ^ 32)
    (hv6 : ∀ range ∈ v6, range.1 < 2 ^ 128 ∧ range.2 < 2 ^ 128)
    (hrun : Machine.run (VirtualIp.step lower) (.start v4 v6) events = some w)
    (hparse : parseQuery query = some q)
    (hanswered : ∃ proxyDomains addr response m',
      handleDnsQuery lower proxyDomains w.mapping query now = (.address addr response, m')) :
    (∀ (ε : Type) (toEndpointAddr : DomainMapping → Except ε BackendId)
        (mappings : List DomainMapping) (byDefault : Option BackendId) (g : EndpointGroup),
        build toEndpointAddr mappings byDefault = .ok g →
        ∀ (proxyDomains : List String) (addr : IpAddr) (response : List UInt8) (m' : IpMapping),
        handleDnsQuery lower proxyDomains w.mapping query now = (.address addr response, m') →
        StandsFor m' addr q.domain proxyDomains g) ↔
      normalizeHost (foldDomain lower q.domain) = normalizeHost q.domain := by
  have hnam : w.Names :=
    Machine.invariant World.Names (fun _ _ _ h => h.step) (World.names_start hv4 hv6) hrun
  constructor
  · intro hall
    rcases hanswered with ⟨_, addr, response, m', hso⟩
    rw [handleDnsQuery_eq_address hparse] at hso
    -- A list that names everything is answered for the same query.
    have hli : shouldProxyDomain q.domain ["*"] = true := by
      rfl
    have hag : handleDnsQuery lower ["*"] w.mapping query now = (.address addr response, m') :=
      (handleDnsQuery_eq_address hparse).mpr ⟨hso.1, hli⟩
    by_cases hagr : normalizeHost (foldDomain lower q.domain) = normalizeHost q.domain
    · exact hagr
    rcases hbu : build (ε := Empty) (fun _ => .ok 0) (apart (foldDomain lower q.domain)
      q.domain) none with e | g
    · exact e.elim
    · rcases hall Empty _ _ _ g hbu ["*"] addr response m' hag with
        ⟨name, hna, -, hre⟩
      rw [nameBehind_virtualAnswer hnam hso.1.2.2.2.1] at hna
      cases hna
      exact absurd hre (reached_apart hbu hagr)
  · intro hagr ε toEndpointAddr mappings byDefault g hbu proxyDomains addr response m' hso
    rw [handleDnsQuery_eq_address hparse] at hso
    refine ⟨_, nameBehind_virtualAnswer hnam hso.1.2.2.2.1, ?_, reached_congr hagr g⟩
    rw [shouldProxyDomain_congr hagr]
    exact hso.2

end Stands

def plainQuestion : List UInt8 :=
  [0x12, 0x34, 1, 0, 0, 1, 0, 0, 0, 0, 0, 0, 2, 65, 98, 1, 99, 0, 0, 1, 0, 1]

theorem address_stands_for_plain_name :
    ∃ g addr response m',
      build (ε := Empty) (fun _ => .ok 7) [⟨"*.c", some "n", none⟩] none = .ok g ∧
      handleDnsQuery (List.map Char.toLower) ["*.c"] (.withRange 1 9) plainQuestion 0 =
        (.address addr response, m') ∧
      StandsFor m' addr "Ab.c".toList ["*.c"] g := by
  have hpar : parseQuery plainQuestion = some ⟨0x1234, "Ab.c".toList, 1, 1,
      [2, 65, 98, 1, 99, 0, 0, 1, 0, 1]⟩ := by decide +kernel
  have hans : ∃ addr response m', handleDnsQuery (map Char.toLower) ["*.c"]
      (.withRange 1 9) plainQuestion 0 = (.address addr response, m') :=
    ⟨.v4 1, _, _, (handleDnsQuery_eq_address hpar).mpr ⟨⟨by decide +kernel,
      by decide +kernel, rfl, Prod.ext (by decide +kernel) rfl, rfl⟩, by decide +kernel⟩⟩
  have hrun : Machine.run (VirtualIp.step (map Char.toLower)) (.start (1, 9) none) [] =
      some (.start (1, 9) none) := rfl
  have hst := (address_stands_for_name_iff (by decide)
    (fun _ h => absurd h (not_mem_none _)) hrun hpar ⟨["*.c"], hans⟩).mpr
    (by decide +kernel)
  rcases hans with ⟨addr, response, m', hso⟩
  rcases hbu : build (ε := Empty) (fun _ => .ok 7) [⟨"*.c", some "n", none⟩] none with e | g
  · exact e.elim
  · exact ⟨g, addr, response, m', rfl, hso,
      hst Empty _ _ _ g hbu ["*.c"] addr response m' hso⟩

def lowerLatin (s : List Char) : List Char :=
  s.map fun c =>
    if 0xc0 ≤ c.toNat ∧ c.toNat ≤ 0xde ∧ c.toNat ≠ 0xd7 then Char.ofNat (c.toNat + 32)
    else c.toLower

def accentedQuestion : List UInt8 :=
  [0x12, 0x34, 1, 0, 0, 1, 0, 0, 0, 0, 0, 0, 2, 0xc3, 0x89, 1, 120, 0, 0, 1, 0, 1]

/-- The name on the list is answered with an address, and the name behind the address is not on
    the list. -/
theorem accented_name_lost :
    ∃ addr response m', handleDnsQuery lowerLatin ["É.x"] (.withRange 1 9) accentedQuestion 0 =
        (.address addr response, m') ∧
      nameBehind m' addr = some "é.x".toList ∧ shouldProxyDomain "é.x".toList ["É.x"] = false ∧
      ∀ g, ¬StandsFor m' addr "É.x".toList ["É.x"] g := by
  have hpar : parseQuery accentedQuestion = some ⟨0x1234, "É.x".toList, 1, 1,
      [2, 0xc3, 0x89, 1, 120, 0, 0, 1, 0, 1]⟩ := by decide +kernel
  have hbehind : nameBehind (virtualAnswer lowerLatin (.withRange 1 9) "É.x".toList 1 0).2
      (.v4 1) = some "é.x".toList := by decide +kernel
  have hli : shouldProxyDomain "é.x".toList ["É.x"] = false := by decide +kernel
  refine ⟨.v4 1, _, _, (handleDnsQuery_eq_address hpar).mpr ⟨⟨by decide +kernel,
    by decide +kernel, rfl, ?_, rfl⟩, by decide +kernel⟩, hbehind, hli, ?_⟩
  · exact Prod.ext (by decide +kernel) rfl
  · rintro g ⟨name, hna, hacc, -⟩
    rw [hbehind] at hna
    cases hna
    cases hacc

end Nexapipe.Dns
