import Nexapipe.Auth.Config

/-!
# What a reload takes away

A connection carries the access list it was given at its handshake and never
reads the table again, so a reload that tightens a client's list has to close
the client's connections. Whether it tightened is decided here, by comparing the
live entry with the incoming one.

Ports and the strict flag are compared as lists and flags. Hosts are compared as patterns:
`patternCovers` decides, pattern by pattern, whether what the live list let through is still let
through. The soundness of the whole comparison, `permits_of_not_tightened`, is that an entry the
reload does not call tightened permits every request it permitted before.

A live pattern the configuration would refuse is skipped by the comparison, so
the result is for entries whose patterns the loader accepts; the loader accepts
no others.
-/

namespace Nexapipe

open Host List Bool

/-- Whether every host `pattern` matches is also matched by `other`, read off
    their folded shapes. -/
def patternCovers (other pattern : List Char) : Bool :=
  let other := normalizePattern other
  let pattern := normalizePattern pattern
  match stripChar '*' other, stripChar '*' pattern with
  | some [], _ => true
  | none, none => other = pattern
  | some rest, none =>
    match stripChar '.' rest with
    | some suffix =>
      match pattern.dropSuffix? suffix with
      | some front => front ≠ [] && front.getLast? = some '.'
      | none => false
    | none => false
  | none, some _ => false
  | some otherRest, some patternRest =>
    match stripChar '.' otherRest, stripChar '.' patternRest with
    | some otherSuffix, some patternSuffix =>
      patternSuffix = otherSuffix ||
        match patternSuffix.dropSuffix? otherSuffix with
        | some head => head.getLast? = some '.'
        | none => false
    | _, _ => false

structure ClientAuthorization where
  hosts : Option (List String)
  ports : Option (List UInt16)
  strictPorts : Bool

namespace ClientAuthorization

def of (client : ClientAuth) : ClientAuthorization :=
  { hosts := client.allowHosts
    ports := client.allowPorts
    strictPorts := client.allowPortsStrict }

/-- A host that was allowed no longer is. A pattern the configuration refuses
    allowed nothing, so nothing was taken away with it. -/
def hostsTakenAway (live : ClientAuthorization) (incoming : Option (List String)) : Bool :=
  match live.hosts, incoming with
  | none, none => false
  | none, some _ => true
  | some _, none => false
  | some patterns, some incoming =>
    (patterns.filter fun pattern => (patternError pattern).isNone).any fun pattern =>
      !incoming.any fun other => patternCovers other.toList pattern.toList

def portsTakenAway (live : ClientAuthorization) (incoming : Option (List UInt16)) : Bool :=
  match live.ports, incoming with
  | none, none => false
  | none, some _ => true
  | some _, none => false
  | some ports, some incoming => ports.any fun port => !incoming.contains port

def portsCheckedStricter (live incoming : ClientAuthorization) : Bool :=
  !live.strictPorts && incoming.strictPorts && incoming.ports.isSome

def tightenedBy (live incoming : ClientAuthorization) : Bool :=
  live.hostsTakenAway incoming.hosts || live.portsTakenAway incoming.ports ||
    live.portsCheckedStricter incoming

end ClientAuthorization

/-! ### Coverage of patterns -/

variable {pattern suffix other : List Char} {after before : ClientAuth}

theorem mem_reach_wildcard_of_dropSuffix? {front : List Char}
    (hd : pattern.dropSuffix? suffix = some front) (hl : front.getLast? = some '.') :
    pattern ∈ reach ('*' :: '.' :: suffix) :=
  dropSuffix?_dot_iff.mp ⟨front, hd, hl⟩

theorem reach_wildcard_subset_of_suffix
    (h : suffix = other ∨ suffix ∈ reach ('*' :: '.' :: other)) :
    reach ('*' :: '.' :: suffix) ⊆ reach ('*' :: '.' :: other) := by
  rcases h with heq | ⟨head, hh⟩
  · rw [heq]
  · rw [hh]
    exact reach_wildcard_subset head other

theorem mem_reach_of_covers_name (h : (match pattern.dropSuffix? suffix with
      | some front => decide (front ≠ []) && decide (front.getLast? = some '.')
      | none => false) = true) : pattern ∈ reach ('*' :: '.' :: suffix) := by
  rcases hd : pattern.dropSuffix? suffix with _ | front
  · simp [hd] at h
  · simp only [hd, and_eq_true, decide_eq_true_eq] at h
    exact mem_reach_wildcard_of_dropSuffix? hd h.2

theorem reach_subset_of_covers_wildcard
    (h : (decide (suffix = other) || match suffix.dropSuffix? other with
      | some head => decide (head.getLast? = some '.')
      | none => false) = true) : reach ('*' :: '.' :: suffix) ⊆ reach ('*' :: '.' :: other) := by
  apply reach_wildcard_subset_of_suffix
  rw [or_eq_true, decide_eq_true_iff] at h
  rcases h with heq | hdr
  · exact .inl heq
  right
  rcases hd : suffix.dropSuffix? other with _ | head
  · simp [hd] at hdr
  · simp only [hd, decide_eq_true_eq] at hdr
    exact mem_reach_wildcard_of_dropSuffix? hd hdr

theorem reach_subset_of_patternCovers (h : patternCovers other pattern = true) :
    reach (normalizePattern pattern) ⊆ reach (normalizePattern other) := by
  unfold patternCovers at h
  rcases ho : stripChar '*' (normalizePattern other) with _ | otherRest
  · rcases hp : stripChar '*' (normalizePattern pattern) with _ | patternRest
    · -- Two names: equal once folded.
      simp only [ho, hp, decide_eq_true_eq] at h
      rw [h]
    · simp [ho, hp] at h
  · have hoth := stripChar_eq_some.mp ho
    rcases otherRest with _ | ⟨c, cs⟩
    · -- `*` reaches everything.
      rw [hoth, reach_catchAll]
      exact Set.subset_univ _
    rcases hod : stripChar '.' (c :: cs) with _ | suffix
    · cases hp : stripChar '*' (normalizePattern pattern) <;> simp [ho, hp, hod] at h
    rw [hoth, stripChar_eq_some.mp hod]
    rcases hp : stripChar '*' (normalizePattern pattern) with _ | patternRest
    · rw [reach_name hp, Set.singleton_subset_iff]
      simp only [ho, hp, hod] at h
      exact mem_reach_of_covers_name h
    rcases hpd : stripChar '.' patternRest with _ | patternSuffix
    · simp [ho, hp, hod, hpd] at h
    rw [stripChar_eq_some.mp hp, stripChar_eq_some.mp hpd]
    simp only [ho, hp, hod, hpd] at h
    exact reach_subset_of_covers_wildcard h

/-! ### Soundness of the comparison -/

def ClientAuth.HostsAccepted (c : ClientAuth) : Prop :=
  ∀ hosts ∈ c.allowHosts, ∀ pattern ∈ hosts, patternError pattern = none

instance (c : ClientAuth) : Decidable c.HostsAccepted :=
  inferInstanceAs (Decidable (∀ hosts ∈ c.allowHosts, ∀ pattern ∈ hosts, _ = none))

structure LoadedConfig where
  cfg : AuthConfig
  hostsAccepted : cfg.clients.Forall fun _ client => client.HostsAccepted

open ClientAcl

theorem acl_allows_iff (c : ClientAuth) (host : List Char) :
    c.acl.allows host = true ↔
      ∀ hosts ∈ c.allowHosts,
        ∃ pattern ∈ hosts, normalizeHost host ∈ reach (normalizePattern pattern.toList) := by
  simp only [ClientAuth.acl, fromHostsAndPorts, withStrictPorts,
    allows]
  rcases c.allowHosts with _ | hosts
  · simp
  · simp [hostMatches_iff_mem_reach]

open ClientAuthorization

theorem allows_of_not_hostsTakenAway {host : List Char} (hacc : before.HostsAccepted)
    (h : (ClientAuthorization.of before).hostsTakenAway after.allowHosts = false)
    (hall : before.acl.allows host = true) : after.acl.allows host = true := by
  rw [acl_allows_iff] at hall ⊢
  intro incoming hinc
  rcases hli : before.allowHosts with _ | patterns
  · simp [hostsTakenAway, of, hli,
      Option.mem_def.mp hinc] at h
  -- The pattern that let the host in was accepted by the loader, so the comparison looked at it
  -- and found one that covers it.
  rcases hall patterns hli with ⟨pattern, hmem, hre⟩
  have hno : patternError pattern = none := hacc patterns hli pattern hmem
  simp only [hostsTakenAway, of, hli,
    Option.mem_def.mp hinc, any_eq_false, mem_filter, Option.isNone_iff_eq_none,
    not_eq_true, not_eq_false', any_eq_true] at h
  rcases h pattern ⟨hmem, hno⟩ with ⟨other, hoth, hcov⟩
  exact ⟨other, hoth, reach_subset_of_patternCovers hcov hre⟩

theorem allowsPort_of_not_portsTakenAway {port : UInt16}
    (h : (ClientAuthorization.of before).portsTakenAway after.allowPorts = false)
    (hall : before.acl.allowsPort port = true) : after.acl.allowsPort port = true := by
  simp only [ClientAuth.acl, fromHostsAndPorts, withStrictPorts,
    allowsPort] at hall ⊢
  simp only [portsTakenAway, of] at h
  rcases haft : after.allowPorts with _ | incoming
  · rfl
  rcases hbef : before.allowPorts with _ | ports
  · -- From every port to a list of them is a tightening.
    rw [hbef, haft] at h
    cases h
  simp only [hbef] at hall
  simp only [hbef, haft, any_eq_false, not_eq_true, not_eq_false'] at h
  exact h port (contains_iff_mem.mp hall)

theorem allowsBackendPort_iff (c : ClientAuth) (port : UInt16) :
    c.acl.allowsBackendPort port = true ↔
      c.allowPortsStrict = false ∨ c.acl.allowsPort port = true := by
  have hstr : c.acl.strictPorts = c.allowPortsStrict := rfl
  unfold allowsBackendPort
  rw [hstr]
  cases c.allowPortsStrict <;> simp

theorem acl_allowsPort_of_none {c : ClientAuth} (h : c.allowPorts = none) (port : UInt16) :
    c.acl.allowsPort port = true := by
  simp [ClientAuth.acl, fromHostsAndPorts, withStrictPorts,
    allowsPort, h]

theorem permits_of_not_tightened {before after : ClientAuth} {host : List Char}
    {port backendPort : UInt16} (hacc : before.HostsAccepted)
    (h : (ClientAuthorization.of before).tightenedBy (.of after) = false)
    (hper : before.acl.Permits host port backendPort) :
    after.acl.Permits host port backendPort := by
  simp only [tightenedBy, or_eq_false_iff] at h
  rcases h with ⟨⟨hhosts, hpor⟩, hstr⟩
  rcases hper with ⟨htar, hbac⟩
  simp only [allowsTarget, and_eq_true] at htar
  refine ⟨?_, ?_⟩
  · simp only [allowsTarget, and_eq_true]
    exact ⟨allows_of_not_hostsTakenAway hacc hhosts htar.1,
      allowsPort_of_not_portsTakenAway hpor htar.2⟩
  · rw [allowsBackendPort_iff] at hbac ⊢
    rcases hbac with hlo | hpo
    · -- A check that came on is a tightening unless there is no list to check against.
      rcases haft : after.allowPortsStrict with _ | _
      · exact .inl rfl
      have hno : after.allowPorts = none := by
        simpa [portsCheckedStricter, of, hlo,
          haft] using hstr
      exact .inr (acl_allowsPort_of_none hno backendPort)
    · exact .inr (allowsPort_of_not_portsTakenAway hpor hpo)

/-! ### The list an authorization builds -/

def ClientAuthorization.acl (a : ClientAuthorization) : ClientAcl :=
  (ClientAcl.fromHostsAndPorts a.hosts a.ports).withStrictPorts a.strictPorts

def ClientAuthorization.client (a : ClientAuthorization) : ClientAuth :=
  { ClientAuth.ofSecret "" with
    allowHosts := a.hosts
    allowPorts := a.ports
    allowPortsStrict := a.strictPorts }

/-- An authorization that is not called tightened by the next one permits nothing that
    the next one does not, and a pattern that covers another matches what it matches. -/
theorem tightening_is_detected (live incoming : ClientAuthorization)
    (haccepted : ∀ hosts ∈ live.hosts, ∀ pattern ∈ hosts, patternError pattern = none) :
    (live.tightenedBy incoming = false → ∀ host port backendPort,
        live.acl.Permits host port backendPort → incoming.acl.Permits host port backendPort) ∧
      ∀ other pattern host : List Char, patternCovers other pattern = true →
        hostMatches (normalizePattern pattern) (normalizeHost host) = true →
          hostMatches (normalizePattern other) (normalizeHost host) = true := by
  refine ⟨?_, ?_⟩
  · intro hnot host port backendPort hper
    exact @permits_of_not_tightened live.client incoming.client host port backendPort haccepted
      hnot hper
  · intro other pattern host hcov hmat
    rw [hostMatches_iff_mem_reach] at hmat ⊢
    exact reach_subset_of_patternCovers hcov hmat

def authorizationFor (pattern : String) (ports : List UInt16) : ClientAuthorization :=
  { hosts := some [pattern], ports := some ports, strictPorts := false }

theorem tightening_is_detected_wildcards :
    (authorizationFor "*.a.example.com" [443]).tightenedBy
        (authorizationFor "*.example.com" [80, 443]) = false ∧
      ∀ host port backendPort,
        (authorizationFor "*.a.example.com" [443]).acl.Permits host port backendPort →
          (authorizationFor "*.example.com" [80, 443]).acl.Permits host port backendPort := by
  have hnot : (authorizationFor "*.a.example.com" [443]).tightenedBy
      (authorizationFor "*.example.com" [80, 443]) = false := by decide +kernel
  refine ⟨hnot, (tightening_is_detected _ _ ?_).1 hnot⟩
  intro hosts hhosts pattern hpat
  cases hhosts
  rw [mem_singleton.mp hpat]
  decide +kernel

end Nexapipe
