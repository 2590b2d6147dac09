import Nexapipe.Conn.Authenticator
import Nexapipe.Conn.Enrollment
import Nexapipe.Lib.Run
import Nexapipe.Watcher.Reload

/-!
# Connections and reloads

The server as its connections see it: any number of connection set-ups, each a
task that walks through `handle_connection`, and reloads of the auth section.
Every step below is one stretch of the source between two points at which the
task can wait, so an interleaving of tasks and reloads is a list of events.

A set-up reads `enabled` once to decide whether a handshake runs. With two-factor
on it may enroll, and authenticates; both run under the auth lock. With it off
the task reads `enabled` a second time and then registers itself, and the lock
is free between the two.

`Step` is the inversion of the step function: for each event, the state it can be taken in and the
state it leads to.
-/

namespace Nexapipe

inductive Phase where
  /-- Before the first read of `enabled`. -/
  | accepted
  /-- Two-factor was on: the handshake runs. -/
  | handshake
  /-- Two-factor was off: no handshake. -/
  | unguarded
  /-- Two-factor was still off at the second read; not registered yet. -/
  | cleared
  /-- Past the authentication's critical section, which registered it. -/
  | admitted (guard : PeerGuard) (acl : ClientAcl)
  /-- In the serving loop. Without a handshake there is no access list. -/
  | serving (guard : PeerGuard) (acl : Option ClientAcl)
deriving DecidableEq

def Phase.registration : Phase → Option (PeerGuard × Option ClientAcl)
  | admitted guard acl => some (guard, some acl)
  | serving guard acl => some (guard, acl)
  | _ => none

structure Task where
  endpointId : EndpointId
  phase : Phase
deriving DecidableEq

structure Server where
  live : AuthConfig
  peers : PeerRegistry
  plaintext : Option PlaintextListener
  tasks : Table Nat Task

namespace Server

def start (config : LoadedConfig) (plaintext : Option PlaintextListener) : Server :=
  { live := config.cfg, peers := PeerRegistry.new, plaintext := plaintext, tasks := ∅ }

def setTask (s : Server) (task : Nat) (endpointId : EndpointId) (phase : Phase) : Server :=
  { s with tasks := s.tasks.insert task { endpointId := endpointId, phase := phase } }

def endTask (s : Server) (task : Nat) (phase : Phase) : Server :=
  { s with
    tasks := s.tasks.erase task
    peers :=
      match phase.registration with
      | some (guard, _) => s.peers.remove guard
      | none => s.peers }

inductive Event where
  | accept (task : Nat) (endpointId : EndpointId)
  | readEnabled (task : Nat)
  | enroll (task : Nat) (clock : EnrollClock) (req : EnrollRequest) (secret : String)
      (outcome : WriteOutcome)
  | authenticate (task : Nat) (clock : AuthClock) (req : AuthRequest)
  | rereadEnabled (task : Nat)
  | register (task : Nat)
  | serve (task : Nat)
  | hangUp (task : Nat)
  | reload (snapshot : Option LoadedConfig)

def step (cr : Crypto) (s : Server) : Event → Option Server
  | .accept task endpointId =>
    match s.tasks.lookup task with
    | some _ => none
    | none => some (s.setTask task endpointId .accepted)
  | .readEnabled task =>
    match s.tasks.lookup task with
    | some ⟨endpointId, .accepted⟩ =>
      some (s.setTask task endpointId (if s.live.enabled then .handshake else .unguarded))
    | _ => none
  | .enroll task clock req secret outcome =>
    match s.tasks.lookup task with
    | some ⟨_, .handshake⟩ =>
      let r := enrollClient cr s.live clock req secret outcome
      match r.2 with
      -- An enrolled client goes on to log in over the same connection.
      | .issued _ => some { s with live := r.1 }
      | _ => some { s.endTask task .handshake with live := r.1 }
    | _ => none
  | .authenticate task clock req =>
    match s.tasks.lookup task with
    | some ⟨endpointId, .handshake⟩ =>
      let r := Nexapipe.authenticate cr s.live s.peers endpointId clock req
      match r.verdict with
      | .ok (acl, guard) =>
        some ({ s with live := r.cfg, peers := r.registry }.setTask task endpointId
          (.admitted guard acl))
      | .error _ => some { s.endTask task .handshake with live := r.cfg }
    | _ => none
  | .rereadEnabled task =>
    match s.tasks.lookup task with
    | some ⟨endpointId, .unguarded⟩ =>
      if s.live.enabled then some (s.endTask task .unguarded)
      else some (s.setTask task endpointId .cleared)
    | _ => none
  | .register task =>
    match s.tasks.lookup task with
    | some ⟨endpointId, .cleared⟩ =>
      -- The auth lock is not held here, and `enabled` is not read again.
      let r := s.peers.insert endpointId { clientId := none, device := none }
      some ({ s with peers := r.1 }.setTask task endpointId (.serving r.2 none))
    | _ => none
  | .serve task =>
    match s.tasks.lookup task with
    | some ⟨endpointId, .admitted guard acl⟩ =>
      some (s.setTask task endpointId (.serving guard (some acl)))
    | _ => none
  | .hangUp task =>
    match s.tasks.lookup task with
    | some ⟨_, phase⟩ => some (s.endTask task phase)
    | none => none
  | .reload snapshot =>
    let r := reloadLocked s.plaintext s.live s.peers (snapshot.map LoadedConfig.cfg)
    some { s with live := r.cfg, peers := r.registry }

inductive Step (cr : Crypto) (s : Server) : Event → Server → Prop
  | accepted {task : Nat} {e : EndpointId} (fresh : s.tasks.lookup task = none) :
      Step cr s (.accept task e) (s.setTask task e .accepted)
  | guarded {task : Nat} {e : EndpointId} (found : s.tasks.lookup task = some ⟨e, .accepted⟩)
      (enabled : s.live.enabled = true) :
      Step cr s (.readEnabled task) (s.setTask task e .handshake)
  | unguarded {task : Nat} {e : EndpointId} (found : s.tasks.lookup task = some ⟨e, .accepted⟩)
      (disabled : s.live.enabled = false) :
      Step cr s (.readEnabled task) (s.setTask task e .unguarded)
  | enrolled {task : Nat} {e : EndpointId} {clock : EnrollClock} {req : EnrollRequest}
      {secret : String} {outcome : WriteOutcome}
      (found : s.tasks.lookup task = some ⟨e, .handshake⟩) :
      Step cr s (.enroll task clock req secret outcome)
        { s with live := (enrollClient cr s.live clock req secret outcome).1 }
  | notEnrolled {task : Nat} {e : EndpointId} {clock : EnrollClock} {req : EnrollRequest}
      {secret : String} {outcome : WriteOutcome}
      (found : s.tasks.lookup task = some ⟨e, .handshake⟩) :
      Step cr s (.enroll task clock req secret outcome)
        { s.endTask task .handshake with
          live := (enrollClient cr s.live clock req secret outcome).1 }
  | admitted {task : Nat} {e : EndpointId} {clock : AuthClock} {req : AuthRequest}
      {acl : ClientAcl} (found : s.tasks.lookup task = some ⟨e, .handshake⟩)
      (verdict : (authenticateLocked cr s.live clock req).verdict = .ok acl) :
      Step cr s (.authenticate task clock req)
        ({ s with
            live := (authenticateLocked cr s.live clock req).cfg
            peers := (s.peers.insert e
              { clientId := some req.clientId, device := req.deviceId }).1 }.setTask task e
          (.admitted (s.peers.insert e
            { clientId := some req.clientId, device := req.deviceId }).2 acl))
  | notAdmitted {task : Nat} {e : EndpointId} {clock : AuthClock} {req : AuthRequest}
      (found : s.tasks.lookup task = some ⟨e, .handshake⟩) :
      Step cr s (.authenticate task clock req)
        { s.endTask task .handshake with live := (authenticateLocked cr s.live clock req).cfg }
  | turnedAway {task : Nat} {e : EndpointId} (found : s.tasks.lookup task = some ⟨e, .unguarded⟩)
      (enabled : s.live.enabled = true) :
      Step cr s (.rereadEnabled task) (s.endTask task .unguarded)
  | cleared {task : Nat} {e : EndpointId} (found : s.tasks.lookup task = some ⟨e, .unguarded⟩)
      (disabled : s.live.enabled = false) :
      Step cr s (.rereadEnabled task) (s.setTask task e .cleared)
  | registered {task : Nat} {e : EndpointId}
      (found : s.tasks.lookup task = some ⟨e, .cleared⟩) :
      Step cr s (.register task)
        ({ s with peers := (s.peers.insert e { clientId := none, device := none }).1 }.setTask
          task e (.serving (s.peers.insert e { clientId := none, device := none }).2 none))
  | served {task : Nat} {e : EndpointId} {guard : PeerGuard} {acl : ClientAcl}
      (found : s.tasks.lookup task = some ⟨e, .admitted guard acl⟩) :
      Step cr s (.serve task) (s.setTask task e (.serving guard (some acl)))
  | hungUp {task : Nat} {e : EndpointId} {phase : Phase}
      (found : s.tasks.lookup task = some ⟨e, phase⟩) :
      Step cr s (.hangUp task) (s.endTask task phase)
  | keptSection :
      Step cr s (.reload none) s
  | reloaded {config : LoadedConfig} :
      Step cr s (.reload (some config))
        { s with
          live := (reloadLocked s.plaintext s.live s.peers (some config.cfg)).cfg
          peers := (reloadLocked s.plaintext s.live s.peers (some config.cfg)).registry }

theorem step_inv {cr : Crypto} {s s' : Server} {e : Event} (h : step cr s e = some s') :
    Step cr s e s' := by
  revert h
  fun_cases step cr s e with
  | case2 _ _ hfound =>
    rintro ⟨⟩
    exact .accepted hfound
  | case3 _ _ hfound =>
    rcases henab : s.live.enabled with _ | _
    · rintro ⟨⟩
      exact .unguarded hfound henab
    · rintro ⟨⟩
      exact .guarded hfound henab
  | case5 _ _ _ _ _ _ hfound =>
    rintro ⟨⟩
    exact .enrolled hfound
  | case6 _ _ _ _ _ _ hfound =>
    rintro ⟨⟩
    exact .notEnrolled hfound
  | case8 _ clock req _ hfound r _ _ hver =>
    simp only [r, Nexapipe.authenticate] at hver ⊢
    rcases hloc : (authenticateLocked cr s.live clock req).verdict with _ | _
    · simp [hloc] at hver
    rw [hloc] at hver
    cases hver
    rintro ⟨⟩
    exact .admitted hfound hloc
  | case9 _ clock req _ hfound r _ hver =>
    simp only [r, Nexapipe.authenticate] at hver ⊢
    rcases hloc : (authenticateLocked cr s.live clock req).verdict with _ | _
    · rintro ⟨⟩
      exact .notAdmitted hfound
    · simp [hloc] at hver
  | case11 _ _ hfound henab =>
    rintro ⟨⟩
    exact .turnedAway hfound henab
  | case12 _ _ hfound henab =>
    rintro ⟨⟩
    exact .cleared hfound (Bool.eq_false_iff.mpr henab)
  | case14 _ _ hfound =>
    rintro ⟨⟩
    exact .registered hfound
  | case16 _ _ _ _ hfound =>
    rintro ⟨⟩
    exact .served hfound
  | case18 _ _ _ hfound =>
    rintro ⟨⟩
    exact .hungUp hfound
  | case20 snapshot =>
    rintro ⟨⟩
    rcases snapshot with _ | config
    · exact .keptSection
    · exact .reloaded
  | _ => rintro ⟨⟩

end Server

/-! ### What a handshake leaves alone

A handshake moves counters and stamps, and an enrollment adds a credential.
Neither takes a client or a device away, and neither edits an access list. -/

structure ClientAuth.KeepsGrant (c c' : ClientAuth) : Prop where
  hosts : c'.allowHosts = c.allowHosts
  ports : c'.allowPorts = c.allowPorts
  strict : c'.allowPortsStrict = c.allowPortsStrict
  devices : ∀ name, (c.devices.lookup name).isSome = true → (c'.devices.lookup name).isSome = true

structure AuthConfig.Keeps (cfg cfg' : AuthConfig) : Prop where
  enabled : cfg'.enabled = cfg.enabled
  clients : ∀ id, Option.Rel ClientAuth.KeepsGrant (cfg.clients.lookup id) (cfg'.clients.lookup id)

namespace ClientAuth

variable {c c' : ClientAuth}

theorem KeepsGrant.acl (h : c.KeepsGrant c') : c'.acl = c.acl := by
  unfold ClientAuth.acl
  rw [h.hosts, h.ports, h.strict]

theorem keepsGrant_refl (c : ClientAuth) : c.KeepsGrant c :=
  ⟨rfl, rfl, rfl, fun _ h => h⟩

theorem keepsGrant_of_configured_eq (h : c'.configured = c.configured) :
    c.KeepsGrant c' where
  hosts := show c'.configured.allowHosts = c.configured.allowHosts by rw [h]
  ports := show c'.configured.allowPorts = c.configured.allowPorts by rw [h]
  strict := show c'.configured.allowPortsStrict = c.configured.allowPortsStrict by rw [h]
  devices := by
    intro name hn
    rw [device_isSome_of_configured_eq h name]
    exact hn

theorem keepsGrant_issueDevice (c : ClientAuth) (name : String) (row : DeviceAuth) :
    c.KeepsGrant (c.issueDevice name row).1 where
  hosts := rfl
  ports := rfl
  strict := rfl
  devices := by
    intro name' hn
    simp only [issueDevice, Table.lookup_insert_eq]
    -- A device enrolled again keeps its name, with a new row under it.
    by_cases heq : name' = name
    · rw [if_pos heq]
      rfl
    · rw [if_neg heq]
      exact hn

theorem keepsGrant_issue (c : ClientAuth) (issued : IssuedCredential) (now : UInt64) :
    c.KeepsGrant (c.issue issued now).1 := by
  cases issued with
  | deviceSecret name | deviceKey name => exact keepsGrant_issueDevice c name _
  | sharedSecret secret => exact ⟨rfl, rfl, rfl, fun _ h => h⟩

theorem KeepsGrant.trans {c'' : ClientAuth} (h : c.KeepsGrant c') (h' : c'.KeepsGrant c'') :
    c.KeepsGrant c'' where
  hosts := h'.hosts.trans h.hosts
  ports := h'.ports.trans h.ports
  strict := h'.strict.trans h.strict
  devices := fun name hn => h'.devices name (h.devices name hn)

theorem keepsGrant_of_effect {cr : Crypto} {cfg : AuthConfig} {clock : EnrollClock}
    {req : EnrollRequest} {secret : String} {reply : EnrollReply}
    (h : EnrollEffect cr cfg clock req secret c c' reply) : c.KeepsGrant c' := by
  -- Every effect starts with the refresh of the two lockouts.
  have href : c.KeepsGrant (c.refreshBoth clock) :=
    keepsGrant_of_configured_eq (configured_refreshBoth c clock)
  cases h with
  | refused | unrecordable | notSaved => exact href
  | counted verdict => exact href.trans (keepsGrant_of_configured_eq rfl)
  | lost credential verdict asked => exact href.trans (keepsGrant_issue _ _ _)
  | issued credential verdict asked =>
    exact (href.trans (keepsGrant_issue _ _ _)).trans
      (keepsGrant_of_configured_eq (configured_enrolled _ _))

end ClientAuth

namespace AuthConfig

theorem Keeps.refl (cfg : AuthConfig) : cfg.Keeps cfg where
  enabled := rfl
  clients := by
    intro id
    rcases cfg.clients.lookup id with _ | c
    · exact .none
    · exact .some (ClientAuth.keepsGrant_refl c)

theorem keeps_setClient {cfg : AuthConfig} {id : String} {c c' : ClientAuth}
    (hc : cfg.clients.lookup id = some c) (hg : c.KeepsGrant c') :
    cfg.Keeps (cfg.setClient id c') where
  enabled := rfl
  clients := by
    intro id'
    rw [setClient_lookup]
    by_cases heq : id' = id
    · rw [if_pos heq, heq, hc]
      exact .some hg
    · rw [if_neg heq]
      exact (Keeps.refl cfg).clients id'

end AuthConfig

theorem keeps_enrollClient (cr : Crypto) (cfg : AuthConfig) (clock : EnrollClock)
    (req : EnrollRequest) (secret : String) (outcome : WriteOutcome) :
    cfg.Keeps (enrollClient cr cfg clock req secret outcome).1 := by
  rcases hc : cfg.clients.lookup req.clientId with _ | c
  · rw [enrollClient_absent outcome hc]
    exact AuthConfig.Keeps.refl cfg
  rcases enrollClient_effect outcome hc with ⟨c', reply, heq, heff⟩
  rw [heq]
  exact AuthConfig.keeps_setClient hc (ClientAuth.keepsGrant_of_effect heff)

theorem keeps_authenticateLocked (cr : Crypto) {cfg : AuthConfig} (clock : AuthClock)
    (req : AuthRequest) (he : cfg.enabled = true) :
    cfg.Keeps (authenticateLocked cr cfg clock req).cfg := by
  rcases hc : cfg.clients.lookup req.clientId with _ | c
  · rw [authenticateLocked_absent he hc]
    exact AuthConfig.Keeps.refl cfg
  rw [authenticateLocked_present he hc]
  exact AuthConfig.keeps_setClient hc
    (ClientAuth.keepsGrant_of_configured_eq (configured_login cr cfg clock req c))

namespace Server

def HandshakesGated (s : Server) : Prop :=
  ∀ task e, s.tasks.lookup task = some ⟨e, .handshake⟩ → s.live.enabled = true

theorem handshakesGated_start (config : LoadedConfig) (plaintext : Option PlaintextListener) :
    (start config plaintext).HandshakesGated := by
  intro task e hfound
  simp [start] at hfound

variable {s : Server}

theorem HandshakesGated.setTask (h : s.HandshakesGated) (task : Nat) (e : EndpointId)
    {phase : Phase} (hph : phase = .handshake → s.live.enabled = true) :
    (s.setTask task e phase).HandshakesGated := by
  intro task' e' hfound
  simp only [Server.setTask, Table.lookup_insert_eq] at hfound
  by_cases heq : task' = task
  · rw [if_pos heq] at hfound
    cases hfound
    exact hph rfl
  · rw [if_neg heq] at hfound
    exact h task' e' hfound

theorem HandshakesGated.endTask (h : s.HandshakesGated) (task : Nat) (phase : Phase) :
    (s.endTask task phase).HandshakesGated := by
  intro task' e' hfound
  simp only [Server.endTask, Table.lookup_erase_eq] at hfound
  split at hfound
  · cases hfound
  · exact h task' e' hfound

theorem enabled_step {cr : Crypto} {s' : Server} {e : Event} (h : s.live.enabled = true)
    (hs : step cr s e = some s') : s'.live.enabled = true := by
  cases step_inv hs with
  | enrolled | notEnrolled => exact (keeps_enrollClient _ _ _ _ _ _).enabled.trans h
  | admitted | notAdmitted => exact (keeps_authenticateLocked cr _ _ h).enabled.trans h
  | reloaded => exact reloadLocked_enabled_of_enabled _ _ _ _ h
  | _ => exact h

theorem handshakesGated_step {cr : Crypto} {s' : Server} {e : Event} (h : s.HandshakesGated)
    (hst : step cr s e = some s') : s'.HandshakesGated := by
  -- A task that was in its handshake read `enabled` as on, and nothing turns it off.
  have hli : ∀ task e, s.tasks.lookup task = some ⟨e, .handshake⟩ → s'.live.enabled = true :=
    fun task e hfound => enabled_step (h task e hfound) hst
  cases step_inv hst with
  | accepted | unguarded | cleared | served => exact h.setTask _ _ nofun
  | guarded found enabled => exact h.setTask _ _ fun _ => enabled
  | enrolled | reloaded => exact hli
  | notEnrolled found =>
    intro task e hfound
    exact (keeps_enrollClient _ _ _ _ _ _).enabled.trans (h _ _ found)
  | admitted found | notAdmitted found =>
    intro task e hfound
    have hen := h _ _ found
    exact (keeps_authenticateLocked cr _ _ hen).enabled.trans hen
  | turnedAway | hungUp => exact h.endTask _ _
  | @registered task endpoint found => exact HandshakesGated.setTask h task endpoint nofun
  | keptSection => exact h

end Server

end Nexapipe
