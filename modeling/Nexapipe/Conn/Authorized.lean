import Nexapipe.Conn.Serving

/-!
# No connection outlives its authorization

A connection serves under the access list it was given at its handshake.

The invariant ties three things together: the registry, the tasks that hold its entries, and the
live table. A handshake adds an entry with the list the table has at that moment. A reload replaces
the table, and signals every connection whose client or device is gone and every connection of a
client it tightened; for the others the lists only grew (`permits_of_not_tightened`), over any
number of reloads, because the snapshot is contained in the list of the table before each of them.
-/

namespace Nexapipe

open Option Nat PeerRegistry

/-- The table has the identity's client, and its device if it named one, and
    permits that client every request the access list permits. -/
def AuthConfig.Grants (cfg : AuthConfig) (identity : PeerIdentity) (acl : ClientAcl) : Prop :=
  ∃ id client, identity.clientId = some id ∧ cfg.clients.lookup id = some client ∧
    (∀ name, identity.device = some name → (client.devices.lookup name).isSome = true) ∧
    ∀ host port backendPort, acl.Permits host port backendPort →
      client.acl.Permits host port backendPort

variable {identity : PeerIdentity}

theorem AuthConfig.Grants.keeps {cfg cfg' : AuthConfig} {acl : ClientAcl} (hke : cfg.Keeps cfg')
    (h : cfg.Grants identity acl) : cfg'.Grants identity acl := by
  rcases h with ⟨id, client, hid, hcl, hdev, hper⟩
  have hrel := hke.clients id
  rw [hcl] at hrel
  cases hcl' : cfg'.clients.lookup id with
  | none => simp [hcl'] at hrel
  | some client' =>
    rw [hcl'] at hrel
    cases hrel with
    | some hgr =>
      refine ⟨id, client', hid, hcl', ?_, ?_⟩
      · intro name hna
        exact hgr.devices name (hdev name hna)
      · intro host port backendPort hacl
        rw [hgr.acl]
        exact hper host port backendPort hacl

theorem AuthConfig.Grants.reload {live newAuth : AuthConfig} {acl : ClientAcl}
    {plaintext : Option PlaintextListener} (registry : PeerRegistry)
    (hacc : live.clients.Forall fun _ client => client.HostsAccepted)
    (hop : reloadSelects plaintext live newAuth identity = false) (h : live.Grants identity acl) :
    (reloadLocked plaintext live registry (some newAuth)).cfg.Grants identity acl := by
  rcases h with ⟨id, before, hid, hbef, hde, hper⟩
  rcases not_reloadSelects hop hid hbef with ⟨client, hcl, htig, hdev⟩
  have hmer := reloadTable_lookup plaintext live newAuth id
  rw [hcl, hbef] at hmer
  -- The entry after the reload is the new one with the old counters, and neither the access list
  -- nor the devices are counters.
  have hcon := configured_mergeClient before client
  refine ⟨id, mergeClient before client, hid, hmer, ?_, ?_⟩
  · intro name hna
    rw [ClientAuth.device_isSome_of_configured_eq hcon]
    exact hdev name hna (hde name hna)
  · intro host port backendPort hacl
    exact permits_of_not_tightened (hacc id before hbef) htig
      (hper host port backendPort hacl)

namespace Server

def Holds (s : Server) (task : Nat) (guard : PeerGuard) (acl : Option ClientAcl) : Prop :=
  ∃ t, s.tasks.lookup task = some t ∧ t.phase.registration = some (guard, acl)

theorem holds_setTask (s : Server) (task task' : Nat) (e : EndpointId) (phase : Phase)
    (guard : PeerGuard) (acl : Option ClientAcl) :
    (s.setTask task e phase).Holds task' guard acl ↔
      if task' = task then phase.registration = some (guard, acl) else s.Holds task' guard acl := by
  unfold Holds Server.setTask
  simp only [Table.lookup_insert_eq]
  by_cases heq : task' = task
  · simp [heq]
  · simp [heq]

theorem holds_endTask (s : Server) (task task' : Nat) (phase : Phase) (guard : PeerGuard)
    (acl : Option ClientAcl) :
    (s.endTask task phase).Holds task' guard acl ↔ task' ≠ task ∧ s.Holds task' guard acl := by
  unfold Holds Server.endTask
  simp only [Table.lookup_erase_eq]
  by_cases heq : task' = task
  · simp [heq]
  · simp [heq]

variable {e : EndpointId} {phase : Phase} {s : Server} {task : Nat}

theorem holds_of_found (hfound : s.tasks.lookup task = some ⟨e, phase⟩) (guard : PeerGuard)
    (acl : Option ClientAcl) : s.Holds task guard acl ↔ phase.registration = some (guard, acl) := by
  unfold Holds
  rw [hfound]
  constructor
  · rintro ⟨t, ht, hreg⟩
    cases ht
    exact hreg
  · intro hreg
    exact ⟨⟨e, phase⟩, rfl, hreg⟩

structure Authorized (s : Server) : Prop where
  hosts : s.live.clients.Forall fun _ client => client.HostsAccepted
  guard_le : ∀ task guard acl, s.Holds task guard acl → guard.id ≤ s.peers.nextId
  peer_le : ∀ e peer, s.peers.Listed e peer → peer.id ≤ s.peers.nextId
  held : ∀ e peer, s.peers.Listed e peer → peer.identity.clientId.isSome = true →
    ∃ task acl, s.Holds task ⟨e, peer.id⟩ (some acl)
  granted : ∀ task e acl peer, s.Holds task ⟨e, peer.id⟩ (some acl) → s.peers.Listed e peer →
    peer.revoked = false → s.live.Grants peer.identity acl

theorem authorized_start (config : LoadedConfig) (plaintext : Option PlaintextListener) :
    (start config plaintext).Authorized where
  hosts := config.hostsAccepted
  guard_le := by
    rintro task guard acl ⟨t, hfound, -⟩
    simp [start] at hfound
  peer_le := fun e peer hl => absurd hl (not_listed_new e peer)
  held := fun e peer hl => absurd hl (not_listed_new e peer)
  granted := fun _ e _ peer _ hl => absurd hl (not_listed_new e peer)

theorem Authorized.setTask (h : s.Authorized) (e : EndpointId)
    (hsame : ∀ guard acl, phase.registration = some (guard, acl) ↔ s.Holds task guard acl) :
    (s.setTask task e phase).Authorized := by
  -- The task holds after the move what it held before, and so does every other task.
  have hhol : ∀ task' guard acl,
      (s.setTask task e phase).Holds task' guard acl ↔ s.Holds task' guard acl := by
    intro task' guard acl
    rw [holds_setTask]
    by_cases heq : task' = task
    · rw [if_pos heq, heq]
      exact hsame guard acl
    · rw [if_neg heq]
  refine ⟨h.hosts, ?_, h.peer_le, ?_, ?_⟩
  · intro task' guard acl hhe
    exact h.guard_le task' guard acl ((hhol task' guard acl).mp hhe)
  · intro e' peer hli hcl
    rcases h.held e' peer hli hcl with ⟨task', acl, hhe⟩
    exact ⟨task', acl, (hhol _ _ _).mpr hhe⟩
  · intro task' e' acl peer hhe
    exact h.granted task' e' acl peer ((hhol _ _ _).mp hhe)

theorem Authorized.endTask (h : s.Authorized) (hfound : s.tasks.lookup task = some ⟨e, phase⟩) :
    (s.endTask task phase).Authorized := by
  -- What is still listed was listed before, and is not the entry of the ended task.
  have hlist : ∀ e' peer, (s.endTask task phase).peers.Listed e' peer →
      s.peers.Listed e' peer ∧
        ∀ guard acl, phase.registration = some (guard, acl) → guard ≠ ⟨e', peer.id⟩ := by
    intro e' peer hl
    simp only [Server.endTask] at hl
    rcases hreg : phase.registration with _ | r
    · rw [hreg] at hl
      refine ⟨hl, ?_⟩
      intro guard acl heq
      cases heq
    · rw [hreg] at hl
      rcases (listed_remove _ _ _ _).mp hl with ⟨hl, hoth⟩
      refine ⟨hl, ?_⟩
      intro guard acl heq hguar
      cases heq
      apply hoth
      rw [hguar]
      exact ⟨rfl, rfl⟩
  have hnext : (s.endTask task phase).peers.nextId = s.peers.nextId := by
    simp only [Server.endTask]
    split
    · exact remove_nextId _ _
    · rfl
  refine ⟨h.hosts, ?_, ?_, ?_, ?_⟩
  · intro task' guard acl hheld
    rw [hnext]
    exact h.guard_le task' guard acl ((holds_endTask _ _ _ _ _ _).mp hheld).2
  · intro e' peer hl
    rw [hnext]
    exact h.peer_le e' peer (hlist e' peer hl).1
  · intro e' peer hl hcl
    rcases h.held e' peer (hlist e' peer hl).1 hcl with ⟨task', acl, hheld⟩
    refine ⟨task', acl, (holds_endTask _ _ _ _ _ _).mpr ⟨?_, hheld⟩⟩
    -- The ended task's own entry is no longer listed.
    rintro rfl
    exact (hlist e' peer hl).2 _ _ ((holds_of_found hfound _ _).mp hheld) rfl
  · intro task' e' acl peer hheld hl
    exact h.granted task' e' acl peer ((holds_endTask _ _ _ _ _ _).mp hheld).2
      (hlist e' peer hl).1

theorem Authorized.setLive (h : s.Authorized) {live : AuthConfig} (hke : s.live.Keeps live) :
    ({ s with live := live } : Server).Authorized where
  hosts := by
    intro id client' hcl'
    -- An entry of the new table has one in the old table it keeps the hosts of.
    have hrel := hke.clients id
    rw [show live.clients.lookup id = some client' from hcl'] at hrel
    rcases hcl : s.live.clients.lookup id with _ | client
    · simp [hcl] at hrel
    rw [hcl] at hrel
    cases hrel with
    | some hgr =>
      unfold ClientAuth.HostsAccepted
      rw [hgr.hosts]
      exact h.hosts id client hcl
  guard_le := h.guard_le
  peer_le := h.peer_le
  held := h.held
  granted := by
    intro task e acl peer hhe hli hrev
    exact (h.granted task e acl peer hhe hli hrev).keeps hke

theorem Authorized.register (h : s.Authorized) (e : EndpointId) (identity : PeerIdentity)
    {acl : Option ClientAcl} (hnone : ∀ guard acl, ¬ s.Holds task guard acl)
    (hph : phase.registration = some ((s.peers.insert e identity).2, acl))
    (hcl : identity.clientId.isSome = acl.isSome)
    (hgran : ∀ a, acl = some a → s.live.Grants identity a) :
    ({ s with peers := (s.peers.insert e identity).1 }.setTask task e phase).Authorized := by
  -- The task holds the new registration and no other; the other tasks hold what they held.
  have hhol : ∀ task' guard acl',
      ({ s with peers := (s.peers.insert e identity).1 }.setTask task e phase).Holds
        task' guard acl' ↔
      if task' = task then (⟨e, s.peers.nextId + 1⟩, acl) = (guard, acl')
      else s.Holds task' guard acl' := by
    intro task' guard acl'
    rw [holds_setTask, hph, some_inj]
    rfl
  refine ⟨h.hosts, ?_, ?_, ?_, ?_⟩
  · intro task' guard acl' hheld
    rw [hhol] at hheld
    by_cases heq : task' = task
    · rw [if_pos heq] at hheld
      cases hheld
      exact le_refl _
    · rw [if_neg heq] at hheld
      exact le_succ_of_le (h.guard_le task' guard acl' hheld)
  · intro e' peer hlist
    rcases (listed_insert _ _ _ _ _).mp hlist with hold | ⟨-, hnew⟩
    · exact le_succ_of_le (h.peer_le e' peer hold)
    · rw [hnew]
      exact le_refl _
  · intro e' peer hlist hsome
    rcases (listed_insert _ _ _ _ _).mp hlist with hold | ⟨he, hnew⟩
    · rcases h.held e' peer hold hsome with ⟨task', acl', hheld⟩
      refine ⟨task', acl', (hhol _ _ _).mpr ?_⟩
      -- An entry that was listed before is held by another task, since this one held none.
      have hne : task' ≠ task := by
        rintro rfl
        exact hnone _ _ hheld
      rw [if_neg hne]
      exact hheld
    · rw [hnew] at hsome
      rcases isSome_iff_exists.mp (hcl.symm.trans hsome) with ⟨a, ha⟩
      refine ⟨task, a, (hhol _ _ _).mpr ?_⟩
      rw [if_pos rfl, he, hnew, ha]
  · intro task' e' acl' peer hheld hlist hrev
    rw [hhol] at hheld
    by_cases heq : task' = task
    · -- The new entry: its number is above every number listed before.
      rw [if_pos heq] at hheld
      have hid : s.peers.nextId + 1 = peer.id := congrArg (fun r => r.1.id) hheld
      rcases (listed_insert _ _ _ _ _).mp hlist with hold | ⟨-, hnew⟩
      · have hle := h.peer_le e' peer hold
        omega
      · rw [hnew]
        exact hgran acl' (congrArg Prod.snd hheld)
    · rw [if_neg heq] at hheld
      -- An old guard cannot name the new entry, whose number is above every number handed out.
      have hle : peer.id ≤ s.peers.nextId := h.guard_le task' _ _ hheld
      rcases (listed_insert _ _ _ _ _).mp hlist with hold | ⟨-, hnew⟩
      · exact h.granted task' e' acl' peer hheld hold hrev
      · rw [hnew] at hle
        exact absurd hle (not_succ_le_self _)

theorem Authorized.reload (h : s.Authorized) (config : LoadedConfig) :
    ({ s with
        live := (reloadLocked s.plaintext s.live s.peers (some config.cfg)).cfg
        peers := (reloadLocked s.plaintext s.live s.peers (some config.cfg)).registry } :
      Server).Authorized := by
  -- A reload lists the same connections, some of them signalled.
  have hlist : ∀ e peer,
      (reloadLocked s.plaintext s.live s.peers (some config.cfg)).registry.Listed e peer →
      ∃ before, s.peers.Listed e before ∧
        peer = before.signal (reloadSelects s.plaintext s.live config.cfg) := by
    intro e peer hl
    rw [reloadLocked_registry] at hl
    exact (listed_closeWhere _ _ _ _).mp hl
  have hnext : (reloadLocked s.plaintext s.live s.peers (some config.cfg)).registry.nextId =
      s.peers.nextId := by
    rw [reloadLocked_registry]
    rfl
  refine ⟨?_, ?_, ?_, ?_, ?_⟩
  · intro id client hcl
    rw [reloadLocked_cfg, reloadTable_lookup, map_eq_some_iff] at hcl
    rcases hcl with ⟨incoming, hinc, rfl⟩
    -- A merged entry has the hosts of the loaded one, with or without an entry before it.
    have hacc := config.hostsAccepted id incoming hinc
    cases s.live.clients.lookup id <;> exact hacc
  · intro task guard acl hheld
    exact hnext ▸ h.guard_le task guard acl hheld
  · intro e peer hl
    rcases hlist e peer hl with ⟨before, hbef, rfl⟩
    rw [Peer.signal_id]
    exact hnext ▸ h.peer_le e before hbef
  · intro e peer hl hcl
    rcases hlist e peer hl with ⟨before, hbef, rfl⟩
    rw [Peer.signal_identity] at hcl
    rw [Peer.signal_id]
    exact h.held e before hbef hcl
  · intro task e acl peer hheld hl hrev
    rcases hlist e peer hl with ⟨before, hbef, rfl⟩
    rw [Peer.signal_id] at hheld
    -- Not signalled after the reload means not signalled before it and not selected by it.
    rw [Peer.signal_revoked, Bool.or_eq_false_iff] at hrev
    rw [Peer.signal_identity]
    exact (h.granted task e acl before hheld hbef hrev.2).reload s.peers h.hosts hrev.1

theorem not_holds_of_found (hfound : s.tasks.lookup task = some ⟨e, phase⟩)
    (hreg : phase.registration = none) (guard : PeerGuard) (acl : Option ClientAcl) :
    ¬ s.Holds task guard acl := by
  rw [holds_of_found hfound, hreg]
  exact nofun

theorem Authorized.setUnregistered (h : s.Authorized) (e : EndpointId)
    (hph : phase.registration = none) (hn : ∀ guard acl, ¬ s.Holds task guard acl) :
    (s.setTask task e phase).Authorized := by
  apply h.setTask e
  intro guard acl
  rw [hph]
  exact iff_of_false nofun (hn guard acl)

theorem authorized_step {cr : Crypto} {s' : Server} {e : Event} (hgat : s.HandshakesGated)
    (h : s.Authorized) (hst : step cr s e = some s') : s'.Authorized := by
  cases step_inv hst with
  | accepted fresh =>
    refine h.setUnregistered _ rfl ?_
    rintro guard acl ⟨t, hfound, -⟩
    rw [fresh] at hfound
    cases hfound
  | guarded found | unguarded found | cleared found =>
    exact h.setUnregistered _ rfl (not_holds_of_found found rfl)
  | enrolled found => exact h.setLive (keeps_enrollClient _ _ _ _ _ _)
  | notEnrolled found => exact (h.endTask found).setLive (keeps_enrollClient _ _ _ _ _ _)
  | @admitted task endpoint clock req acl found verdict =>
    have hen := hgat task endpoint found
    have hli := h.setLive (keeps_authenticateLocked cr clock req hen)
    refine hli.register endpoint { clientId := some req.clientId, device := req.deviceId }
      (not_holds_of_found found rfl) rfl rfl ?_
    intro a ha
    cases ha
    rcases authenticateLocked_admitted hen verdict with ⟨client, hcl, hacl, hdev⟩
    -- The connection's list is the table's at this moment.
    refine ⟨req.clientId, client, rfl, hcl, hdev, ?_⟩
    intro host port backendPort hper
    rw [hacl]
    exact hper
  | notAdmitted found =>
    exact (h.endTask found).setLive (keeps_authenticateLocked cr _ _ (hgat _ _ found))
  | turnedAway found | hungUp found => exact h.endTask found
  | registered found =>
    exact h.register _ { clientId := none, device := none } (not_holds_of_found found rfl) rfl rfl
      nofun
  | served found =>
    -- Serving changes the phase and keeps the registration.
    apply h.setTask _
    intro guard acl
    exact (holds_of_found found guard acl).symm
  | keptSection => exact h
  | reloaded => exact h.reload _

/-- No live connection outlives its authorization: in every state a server can
    reach, a registered connection that authenticated and has not been told to
    close serves under an access list, and the table has its client and device
    and permits everything on that list. -/
theorem live_connection_authorized (cr : Crypto) (config : LoadedConfig)
    (plaintext : Option PlaintextListener) (events : List Event) (s : Server)
    (hrun : Machine.run (step cr) (start config plaintext) events = some s)
    (e : EndpointId) (peer : Peer) (hlisted : s.peers.Listed e peer)
    (hclient : peer.identity.clientId ≠ none) (hopen : peer.revoked = false) :
    (∃ task acl, s.Holds task ⟨e, peer.id⟩ (some acl)) ∧
      ∀ task acl, s.Holds task ⟨e, peer.id⟩ (some acl) → s.live.Grants peer.identity acl := by
  have hinv : s.HandshakesGated ∧ s.Authorized :=
    Machine.invariant (fun s => s.HandshakesGated ∧ s.Authorized)
      (fun _ _ _ h hs => ⟨handshakesGated_step h.1 hs, authorized_step h.1 h.2 hs⟩)
      ⟨handshakesGated_start config plaintext, authorized_start config plaintext⟩ hrun
  refine ⟨hinv.2.held e peer hlisted (isSome_iff_ne_none.mpr hclient), ?_⟩
  intro task acl hh
  exact hinv.2.granted task e acl peer hh hlisted hopen

def alice (pattern : String) : ClientAuth :=
  { ClientAuth.ofSecret "JBSWY3DPEHPK3PXP" with allowHosts := some [pattern] }

def aliceUnder : LoadedConfig :=
  { cfg := .gated [("alice", alice "*.example.com")]
    hostsAccepted := by decide }

def aliceWider : LoadedConfig :=
  { cfg := .gated [("alice", alice "*.com")]
    hostsAccepted := by decide }

def aliceLogin : Event :=
  .authenticate 0
    { refresh := 60, verify := { lockout := 60, timestamp := 60, code := 60 }, device := 60
      record := 60 }
    { clientId := "alice", deviceId := none, nonce := [5], timestamp := 60, signature := [5]
      code := "000000" }

def aliceRun : List Event :=
  [.accept 0 [1], .readEnabled 0, aliceLogin, .serve 0, .reload (some aliceWider)]

/-- It stays open, and is granted what it serves. -/
theorem live_connection_authorized_widened :
    ∃ s peer acl, Machine.run (step .toy) (start aliceUnder none) aliceRun = some s ∧
      s.peers.Listed [1] peer ∧ peer.identity = ⟨some "alice", none⟩ ∧ peer.revoked = false ∧
      s.Holds 0 ⟨[1], peer.id⟩ (some acl) ∧ s.live.Grants peer.identity acl := by
  have hl : ((Machine.run (step .toy) (start aliceUnder none) aliceRun).bind fun s =>
      s.peers.peers.lookup [1]) = some [⟨1, ⟨some "alice", none⟩, false⟩] := by decide
  have hh : ((Machine.run (step .toy) (start aliceUnder none) aliceRun).bind fun s =>
      s.tasks.lookup 0) =
        some ⟨[1], .serving ⟨[1], 1⟩ (some (alice "*.example.com").acl)⟩ := by decide
  rcases bind_eq_some_iff.mp hl with ⟨s, hrun, hpe⟩
  rw [hrun, bind_some] at hh
  have hp : s.peers.Listed [1] ⟨1, ⟨some "alice", none⟩, false⟩ :=
    ⟨_, hpe, List.mem_singleton.mpr rfl⟩
  refine ⟨s, _, (alice "*.example.com").acl, hrun, hp, rfl, rfl, ⟨_, hh, rfl⟩, ?_⟩
  exact (live_connection_authorized .toy aliceUnder none aliceRun s hrun [1] _ hp nofun rfl).2
    0 _ ⟨_, hh, rfl⟩

end Server

end Nexapipe
