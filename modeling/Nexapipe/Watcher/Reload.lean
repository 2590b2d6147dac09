import Nexapipe.Conn.Peers
import Nexapipe.Watcher.Authorization

/-!
# Merging a reloaded auth section

What a reload does to the live table and the registry once it holds the auth
lock: it moves `enabled` when it may, folds the incoming clients into the live
ones, and closes the connections whose authorization went away, in four passes
over the registry (unauthenticated, removed client, removed device, tightened
client).
-/

namespace Nexapipe

open Option Finmap

/-! ### The table -/

def newestStep (live fromFile : Option UInt64) : Option UInt64 :=
  match live, fromFile with
  | some a, some b => some (max a b)
  | some a, none => some a
  | none, b => b

def replacesToken (existing incoming : ClientAuth) : Bool :=
  incoming.pendingEnrollment ≠ existing.pendingEnrollment

/-- A client on both sides: its counters come from memory, everything else from
    the file. A new invite starts with its own enrollment counter. -/
def mergeClient (existing incoming : ClientAuth) : ClientAuth :=
  { incoming with
    failedAttempts := existing.failedAttempts
    lockedUntil := existing.lockedUntil
    enrollmentFailedAttempts :=
      if replacesToken existing incoming then 0 else existing.enrollmentFailedAttempts
    enrollmentLockedUntil :=
      if replacesToken existing incoming then none else existing.enrollmentLockedUntil
    lastUsed := existing.lastUsed
    lastUsedStep := newestStep existing.lastUsedStep incoming.lastUsedStep
    devices := incoming.devices.mapVals fun name device =>
      match existing.devices.lookup name with
      | some existingDevice =>
        { device with
          lastUsedStep := newestStep existingDevice.lastUsedStep device.lastUsedStep }
      | none => device }

structure MergeReport where
  added : Finset String
  removed : Finset String
  rotated : Finset String

def onBoth (ask : ClientAuth → ClientAuth → Bool) (live incoming : AuthConfig) (id : String) :
    Bool :=
  match live.clients.lookup id, incoming.clients.lookup id with
  | some existing, some client => ask existing client
  | _, _ => false

def mergeAuthClients (live incoming : AuthConfig) : AuthConfig × MergeReport :=
  ({ live with
      clients := incoming.clients.mapVals fun id client =>
        match live.clients.lookup id with
        | some existing => mergeClient existing client
        | none => client },
    { added := incoming.clients.keys.filter fun id => (live.clients.lookup id).isNone
      removed := live.clients.keys.filter fun id => (incoming.clients.lookup id).isNone
      rotated := incoming.clients.keys.filter fun id =>
        onBoth replacesToken live incoming id })

theorem mergeAuthClients_lookup (live incoming : AuthConfig) (id : String) :
    (mergeAuthClients live incoming).1.clients.lookup id =
      (incoming.clients.lookup id).map fun client =>
        match live.clients.lookup id with
        | some existing => mergeClient existing client
        | none => client :=
  Table.lookup_mapVals _ _ _

theorem configured_mergeClient (existing incoming : ClientAuth) :
    (mergeClient existing incoming).configured = incoming.configured := by
  have hdev : Table.mapVals (fun _ d => d.configured) (mergeClient existing incoming).devices =
      incoming.devices.mapVals fun _ d => d.configured := by
    apply ext_lookup
    intro name
    simp only [mergeClient, Table.lookup_mapVals, map_map]
    congr 1
    funext device
    -- A device that memory knows gets its step from there, which is no part of what it is
    -- configured as.
    cases existing.devices.lookup name <;> rfl
  unfold ClientAuth.configured
  rw [hdev]
  rfl

/-! ### The gate -/

structure PlaintextListener where
  addr : String
  exposed : Bool

def plaintextAuthConflict (bound : String) (exposed authEnabled : Bool) : Option String :=
  if exposed && authEnabled then
    some (s!"[server] expose = true leaves {bound} unauthenticated even though [auth] is " ++
      "enabled: 2FA only runs on the iroh listener, so this address would reach every " ++
      "route and every passthrough backend without credentials. Gate the port with " ++
      "something else, or disable [auth]")
  else none

/-- Why this reload must not move `enabled`, when it must not: the file wants
    two-factor off, or a plaintext listener is reachable from the network. -/
def authEnabledRefusal (live incoming : AuthConfig) (plaintext : Option PlaintextListener) :
    Option String :=
  if live.enabled = incoming.enabled then none
  else if live.enabled then
    some ("[auth] enabled = false is ignored: 2FA gates this listener and a reload cannot " ++
      "drop the only gate it has. Restart to disable 2FA.")
  else
    match plaintext with
    | none => none
    | some plaintext =>
      if (plaintextAuthConflict plaintext.addr plaintext.exposed true).isSome then
        some (s!"[auth] enabled = true is ignored: the plaintext listener on {plaintext.addr} " ++
          "would still reach every route without credentials, because 2FA only runs on the " ++
          "iroh listener. Remove [server] listen_addr or set expose = false, then restart.")
      else none

def applyAuthEnabled (live incoming : AuthConfig) : AuthConfig × Option Bool :=
  if live.enabled = incoming.enabled then (live, none)
  else ({ live with enabled := incoming.enabled }, some incoming.enabled)

def moveEnabled (plaintext : Option PlaintextListener) (live incoming : AuthConfig) :
    AuthConfig × Bool :=
  match authEnabledRefusal live incoming plaintext with
  | some _ => (live, false)
  | none =>
    let r := applyAuthEnabled live incoming
    (r.1, r.2 = some true)

theorem moveEnabled_cases (plaintext : Option PlaintextListener) (live incoming : AuthConfig) :
    moveEnabled plaintext live incoming = (live, false) ∨
      live.enabled = false ∧ incoming.enabled = true ∧
        moveEnabled plaintext live incoming = ({ live with enabled := true }, true) := by
  unfold moveEnabled
  rcases href : authEnabledRefusal live incoming plaintext with _ | message
  · unfold applyAuthEnabled
    by_cases heq : live.enabled = incoming.enabled
    · rw [if_pos heq]
      exact .inl rfl
    unfold authEnabledRefusal at href
    rw [if_neg heq] at href
    rcases hli : live.enabled with _ | _
    · have hinc : incoming.enabled = true := by
        rw [hli] at heq
        simpa using Ne.symm heq
      rw [hinc]
      exact .inr ⟨rfl, rfl, rfl⟩
    · -- Turning it off is refused, whatever the listener.
      rw [if_pos hli] at href
      cases href
  · exact .inl rfl

/-! ### The connections a reload closes -/

def removedDevices (before after : Table String ClientAuth) : Finset (String × String) :=
  before.keys.biUnion fun id =>
    match before.lookup id, after.lookup id with
    | some client, some client' =>
      (client.devices.keys.filter fun name => (client'.devices.lookup name).isNone).image
        fun name => (id, name)
    | _, _ => ∅

def tightenedClients (live incoming : AuthConfig) : Finset String :=
  incoming.clients.keys.filter fun id =>
    onBoth (fun before client => (ClientAuthorization.of before).tightenedBy (.of client))
      live incoming id

def PeerIdentity.isClientIn (identity : PeerIdentity) (ids : Finset String) : Bool :=
  identity.clientId.any fun id => id ∈ ids

def PeerIdentity.isDeviceIn (identity : PeerIdentity) (ids : Finset (String × String)) : Bool :=
  identity.clientId.any fun id => identity.device.any fun name => (id, name) ∈ ids

structure ReloadOutcome where
  cfg : AuthConfig
  registry : PeerRegistry
  /-- The state file has to be written: an invite was replaced. -/
  persist : Bool

/-- The critical section of a reload with a current snapshot of the file. A pass
    over an empty set selects nothing, so the source's checks for one are not
    repeated here. -/
def reloadLocked (plaintext : Option PlaintextListener) (live : AuthConfig)
    (registry : PeerRegistry) (snapshot : Option AuthConfig) : ReloadOutcome :=
  match snapshot with
  | none =>
    -- The section is gone while it is live: a bad edit, not "disable everything".
    { cfg := live, registry := registry, persist := false }
  | some newAuth =>
    let gate := moveEnabled plaintext live newAuth
    let registry := if gate.2 then registry.closeUnauthenticated.1 else registry
    let merged := mergeAuthClients gate.1 newAuth
    let registry := (registry.closeWhere fun identity =>
      identity.isClientIn merged.2.removed).1
    let registry := (registry.closeWhere fun identity =>
      identity.isDeviceIn (removedDevices live.clients merged.1.clients)).1
    let registry := (registry.closeWhere fun identity =>
      identity.isClientIn (tightenedClients live newAuth)).1
    { cfg := merged.1, registry := registry, persist := merged.2.rotated.Nonempty }

def reloadTable (plaintext : Option PlaintextListener) (live newAuth : AuthConfig) : AuthConfig :=
  (mergeAuthClients (moveEnabled plaintext live newAuth).1 newAuth).1

def reloadSelects (plaintext : Option PlaintextListener) (live newAuth : AuthConfig)
    (identity : PeerIdentity) : Bool :=
  let gate := moveEnabled plaintext live newAuth
  let merged := mergeAuthClients gate.1 newAuth
  ((gate.2 && identity.clientId.isNone || identity.isClientIn merged.2.removed) ||
    identity.isDeviceIn (removedDevices live.clients merged.1.clients)) ||
    identity.isClientIn (tightenedClients live newAuth)

section

variable (plaintext : Option PlaintextListener) (live newAuth : AuthConfig)
  (registry : PeerRegistry)

theorem reloadLocked_registry :
    (reloadLocked plaintext live registry (some newAuth)).registry =
      (registry.closeWhere (reloadSelects plaintext live newAuth)).1 := by
  have hg : (if (moveEnabled plaintext live newAuth).2 then registry.closeUnauthenticated.1
      else registry) =
      (registry.closeWhere fun identity =>
        (moveEnabled plaintext live newAuth).2 && identity.clientId.isNone).1 := by
    -- The first pass is made only when the gate was just turned on.
    rcases (moveEnabled plaintext live newAuth).2 with _ | _
    · exact (PeerRegistry.closeWhere_false registry).symm
    · rfl
  simp only [reloadLocked, hg, PeerRegistry.closeWhere_closeWhere]
  rfl

theorem moveEnabled_clients : (moveEnabled plaintext live newAuth).1.clients = live.clients := by
  rcases moveEnabled_cases plaintext live newAuth with heq | ⟨-, -, heq⟩
  · rw [heq]
  · rw [heq]

theorem reloadLocked_cfg :
    (reloadLocked plaintext live registry (some newAuth)).cfg =
      reloadTable plaintext live newAuth := rfl

theorem reloadTable_lookup (id : String) :
    (reloadTable plaintext live newAuth).clients.lookup id =
      (newAuth.clients.lookup id).map fun client =>
        match live.clients.lookup id with
        | some existing => mergeClient existing client
        | none => client := by
  have hlk := mergeAuthClients_lookup (moveEnabled plaintext live newAuth).1 newAuth id
  rw [moveEnabled_clients] at hlk
  exact hlk

theorem reloadLocked_enabled :
    (reloadLocked plaintext live registry (some newAuth)).cfg.enabled =
      (moveEnabled plaintext live newAuth).1.enabled := rfl

theorem reloadLocked_enabled_of_enabled (snapshot : Option AuthConfig)
    (h : live.enabled = true) :
    (reloadLocked plaintext live registry snapshot).cfg.enabled = true := by
  rcases snapshot with _ | newAuth
  · exact h
  rw [reloadLocked_enabled]
  rcases moveEnabled_cases plaintext live newAuth with heq | ⟨-, -, heq⟩
  · rw [heq]
    exact h
  · rw [heq]

end

open Finset

theorem mem_removedDevices {before after : Table String ClientAuth} {id name : String} :
    (id, name) ∈ removedDevices before after ↔
      ∃ client client', before.lookup id = some client ∧ after.lookup id = some client' ∧
        (client.devices.lookup name).isSome = true ∧ client'.devices.lookup name = none := by
  unfold removedDevices
  rw [mem_biUnion]
  constructor
  · rintro ⟨id', -, hmem⟩
    rcases hb : before.lookup id' with _ | client
    · simp [hb] at hmem
    cases ha : after.lookup id' with
    | none => simp [hb, ha] at hmem
    | some client' =>
      simp only [hb, ha, mem_image, mem_filter, Prod.mk.injEq,
        isNone_iff_eq_none, mem_keys] at hmem
      rcases hmem with ⟨name', ⟨hin, hout⟩, rfl, rfl⟩
      exact ⟨client, client', hb, ha, lookup_isSome.mpr hin, hout⟩
  · rintro ⟨client, client', hb, ha, hin, hout⟩
    refine ⟨id, mem_keys.mpr (mem_of_lookup_eq_some hb), ?_⟩
    simp only [hb, ha, mem_image, mem_filter, Prod.mk.injEq,
      isNone_iff_eq_none, mem_keys]
    exact ⟨name, ⟨lookup_isSome.mp hin, hout⟩, trivial, rfl⟩

theorem not_reloadSelects {plaintext : Option PlaintextListener} {live newAuth : AuthConfig}
    {identity : PeerIdentity} {id : String} {before : ClientAuth}
    (h : reloadSelects plaintext live newAuth identity = false)
    (hid : identity.clientId = some id) (hbef : live.clients.lookup id = some before) :
    ∃ client, newAuth.clients.lookup id = some client ∧
      (ClientAuthorization.of before).tightenedBy (.of client) = false ∧
      ∀ name, identity.device = some name → (before.devices.lookup name).isSome = true →
        (client.devices.lookup name).isSome = true := by
  simp only [reloadSelects, Bool.or_eq_false_iff] at h
  rcases h with ⟨⟨⟨-, hrem⟩, hdev⟩, hti⟩
  simp only [PeerIdentity.isClientIn, hid, any_some, decide_eq_false_iff_not]
    at hrem hti
  have hkey : id ∈ live.clients.keys :=
    mem_keys.mpr (mem_of_lookup_eq_some hbef)
  rcases hcl : newAuth.clients.lookup id with _ | client
  · -- A client the file no longer has is in the removed set.
    refine absurd ?_ hrem
    simp only [mergeAuthClients, moveEnabled_clients, mem_filter]
    exact ⟨hkey, by rw [hcl]; rfl⟩
  · refine ⟨client, rfl, ?_, ?_⟩
    · rw [Bool.eq_false_iff]
      intro htig
      apply hti
      unfold tightenedClients
      rw [mem_filter]
      refine ⟨mem_keys.mpr (mem_of_lookup_eq_some hcl), ?_⟩
      simp only [onBoth, hbef, hcl]
      exact htig
    · intro name hna hin
      have hmer := mergeAuthClients_lookup (moveEnabled plaintext live newAuth).1 newAuth id
      rw [moveEnabled_clients, hcl, hbef] at hmer
      simp only [PeerIdentity.isDeviceIn, hid, hna, any_some,
        decide_eq_false_iff_not, mem_removedDevices] at hdev
      rcases hde : client.devices.lookup name with _ | device
      · refine absurd ⟨before, _, hbef, hmer, hin, ?_⟩ hdev
        simp [mergeClient, hde]
      · rfl

end Nexapipe
