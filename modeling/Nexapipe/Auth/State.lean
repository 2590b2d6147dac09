import Nexapipe.Auth.Totp
import Nexapipe.Storage.File

/-!
# The runtime state file

The counters a running server keeps live in a file of their own beside the
configuration: the failed attempts and lockouts of each client, the stamps and
the replay memory of each credential. `snapshot` is what is written, `apply`
moves what was read onto a freshly loaded table, and the two have to agree, or a
restart forgets a lockout or a step.

The enrollment counters were paid for one token; the file records that token's fingerprint, and
`apply` leaves them behind when the table is waiting for another.
-/

namespace Nexapipe

open Option Table

structure DeviceState where
  lastUsed : Option UInt64
  lastUsedStep : Option UInt64
deriving DecidableEq

structure ClientState where
  failedAttempts : UInt32
  lockedUntil : Option UInt64
  enrollmentFailedAttempts : UInt32
  enrollmentLockedUntil : Option UInt64
  enrollmentTokenFingerprint : Option String
  lastUsed : Option UInt64
  lastUsedStep : Option UInt64
  devices : Table String DeviceState
deriving DecidableEq

structure RuntimeState where
  clients : Table String ClientState
deriving DecidableEq

def RuntimeState.empty : RuntimeState :=
  { clients := ∅ }

/-! ### Taking the counters -/

def ClientState.isEmpty (state : ClientState) : Bool :=
  state.failedAttempts = 0 && state.lockedUntil.isNone &&
    state.enrollmentFailedAttempts = 0 && state.enrollmentLockedUntil.isNone &&
    state.lastUsed.isNone && state.lastUsedStep.isNone && decide (state.devices = ∅)

def deviceState (device : DeviceAuth) : Option DeviceState :=
  if device.lastUsed.isNone && device.lastUsedStep.isNone then none
  else some { lastUsed := device.lastUsed, lastUsedStep := device.lastUsedStep }

section

variable (cr : Crypto)

def enrollmentFingerprint (client : ClientAuth) : Option String :=
  if client.enrollmentFailedAttempts = 0 && client.enrollmentLockedUntil.isNone then none
  else client.pendingEnrollment.map cr.tokenFingerprint

def clientState (client : ClientAuth) : ClientState :=
  { failedAttempts := client.failedAttempts
    lockedUntil := client.lockedUntil
    enrollmentFailedAttempts := client.enrollmentFailedAttempts
    enrollmentLockedUntil := client.enrollmentLockedUntil
    enrollmentTokenFingerprint := enrollmentFingerprint cr client
    lastUsed := client.lastUsed
    lastUsedStep := client.lastUsedStep
    devices := client.devices.filterMapVals fun _ device => deviceState device }

def snapshot (cfg : AuthConfig) : RuntimeState :=
  { clients := cfg.clients.filterMapVals fun _ client =>
      let state := clientState cr client
      if state.isEmpty then none else some state }

/-! ### Moving the counters onto a table -/

/-- Whether the enrollment counters in the file are the ones this client owes. A
    file that names no token is one written before it did, and keeps them. -/
def enrollmentCountersBelongToThisToken (state : ClientState) (client : ClientAuth) : Bool :=
  match state.enrollmentTokenFingerprint with
  | none => true
  | some recorded =>
    match client.pendingEnrollment with
    | none => false
    | some pending => recorded = cr.tokenFingerprint pending

def applyDevice (state : Option DeviceState) (device : DeviceAuth) : DeviceAuth :=
  match state with
  | none => device
  | some state =>
    { device with lastUsed := state.lastUsed, lastUsedStep := state.lastUsedStep }

def applyClient (state : ClientState) (client : ClientAuth) : ClientAuth :=
  let belongs := enrollmentCountersBelongToThisToken cr state client
  { client with
    failedAttempts := state.failedAttempts
    lockedUntil := state.lockedUntil
    enrollmentFailedAttempts :=
      if belongs then state.enrollmentFailedAttempts else client.enrollmentFailedAttempts
    enrollmentLockedUntil :=
      if belongs then state.enrollmentLockedUntil else client.enrollmentLockedUntil
    lastUsed := state.lastUsed
    lastUsedStep := state.lastUsedStep
    devices := client.devices.mapVals fun name device =>
      applyDevice (state.devices.lookup name) device }

/-- Moves the counters onto a table. A client the file does not name keeps the
    counters it was loaded with. -/
def RuntimeState.apply (state : RuntimeState) (cfg : AuthConfig) : AuthConfig :=
  { cfg with
    clients := cfg.clients.mapVals fun id client =>
      match state.clients.lookup id with
      | none => client
      | some clientState => applyClient cr clientState client }

/-- The auth half of what the store holds: its document, with the counters of the
    state file moved onto it when it has an auth section. `state` is `none` when
    the state file cannot be read, which then fails the whole load. -/
def loadConfigWithAuth (env : LoadEnv) (doc : Entries String Toml) (state : Option RuntimeState) :
    Option (Option AuthConfig) :=
  match parseWithAuth env doc with
  | .error _ => none
  | .ok none => some none
  | .ok (some cfg) => state.map fun state => some (state.apply cr cfg)

theorem loadConfigWithAuth_eq_some {env : LoadEnv} {doc : Entries String Toml}
    {state : Option RuntimeState} {cfg : AuthConfig}
    (h : loadConfigWithAuth cr env doc state = some (some cfg)) :
    ∃ parsed counters, parseWithAuth env doc = .ok (some parsed) ∧ state = some counters ∧
      cfg = counters.apply cr parsed := by
  unfold loadConfigWithAuth at h
  split at h
  · cases h
  · cases h
  next parsed hpar =>
    rcases map_eq_some_iff.mp h with ⟨counters, hst, hcfg⟩
    exact ⟨parsed, counters, hpar, hst, (Option.some.inj hcfg).symm⟩

end

/-! ### The file -/

inductive StateError where
  | cannotRead
  | unparsable
  | cannotRender
  | store (error : StoreError)

structure StateIo where
  lockFails : Option FileStep
  renders : Bool
  write : WriteIo RuntimeState

/-- Writes the state under the file's own lock. Returns the contents of the file,
    `none` when it is not a state, and the result. -/
def putState (io : StateIo) (file : Option RuntimeState) (state : RuntimeState) :
    Option RuntimeState × Except StateError Unit :=
  match io.lockFails with
  | some step => (file, .error (.store (.lockFile step)))
  | none =>
    if !io.renders then (file, .error .cannotRender)
    else
      let r := io.write.writeFile file state
      (r.1, r.2.mapError .store)

def StateIo.tears (io : StateIo) : Bool :=
  match io.write with
  | .torn _ => true
  | _ => false

def saveAuthStateTo (cr : Crypto) (io : StateIo) (file : Option RuntimeState)
    (cfg : AuthConfig) : Option RuntimeState × Except StateError Unit :=
  putState io file (snapshot cr cfg)

def StateIo.reaches (io : StateIo) : Bool :=
  io.lockFails.isNone && io.renders &&
    match io.write with
    | .tempFailed _ | .modeFailed => false
    | .replaced | .inPlace | .torn _ | .modeFailedAfter => true

theorem putState_of_not_reaches {io : StateIo} (file : Option RuntimeState) (state : RuntimeState)
    (h : io.reaches = false) :
    (putState io file state).1 = file ∧ ∃ why, (putState io file state).2 = .error why := by
  unfold putState
  rcases hl : io.lockFails with _ | step
  · rcases hren : io.renders with _ | _
    · exact ⟨rfl, _, rfl⟩
    simp only [StateIo.reaches, hl, hren, isNone_none, Bool.true_and] at h
    cases hw : io.write with
    | tempFailed step => exact ⟨rfl, _, rfl⟩
    | modeFailed => exact ⟨rfl, _, rfl⟩
    -- The other outcomes got as far as the file.
    | replaced | inPlace | torn left | modeFailedAfter => simp [hw] at h
  · exact ⟨rfl, _, rfl⟩

theorem putState_of_reaches {io : StateIo} (file : Option RuntimeState) (state : RuntimeState)
    (h : io.reaches = true) (hwh : io.tears = false) :
    (putState io file state).1 = some state := by
  simp only [StateIo.reaches, Bool.and_eq_true, isNone_iff_eq_none] at h
  simp only [putState, h.1.1, h.1.2]
  cases hw : io.write with
  | replaced | inPlace | modeFailedAfter => rfl
  | torn left => simp [StateIo.tears, hw] at hwh
  | tempFailed step | modeFailed =>
    rw [hw] at h
    cases h.2

/-! ### What a snapshot keeps -/

section

variable (cr : Crypto)

theorem snapshot_lookup (cfg : AuthConfig) (id : String) :
    (snapshot cr cfg).clients.lookup id =
      (cfg.clients.lookup id).bind fun client =>
        if (clientState cr client).isEmpty then none else some (clientState cr client) :=
  lookup_filterMapVals _ _ _

theorem apply_lookup (state : RuntimeState) (cfg : AuthConfig) (id : String) :
    (state.apply cr cfg).clients.lookup id =
      (cfg.clients.lookup id).map fun client =>
        match state.clients.lookup id with
        | none => client
        | some clientState => applyClient cr clientState client :=
  lookup_mapVals _ _ _

theorem snapshot_counterSnapshot (cfg : AuthConfig) :
    snapshot cr cfg.counterSnapshot = snapshot cr cfg := by
  simp only [snapshot, AuthConfig.counterSnapshot, clientState, filterMapVals_mapVals]
  rfl

end

/-! ### The replay memory in the file -/

structure Credential where
  clientId : String
  device : Option String
deriving DecidableEq

def ClientAuth.stepFor (client : ClientAuth) : Option String → Option UInt64
  | none => client.lastUsedStep
  | some name => (client.devices.lookup name).bind DeviceAuth.lastUsedStep

def ClientAuth.hasTotp (client : ClientAuth) : Option String → Bool
  | none => true
  | some name => (client.devices.lookup name).any fun device => device.publicKey.isNone

def AuthConfig.stepOf (cfg : AuthConfig) (key : Credential) : Option UInt64 :=
  (cfg.clients.lookup key.clientId).bind fun client => client.stepFor key.device

def AuthConfig.hasTotp (cfg : AuthConfig) (key : Credential) : Bool :=
  (cfg.clients.lookup key.clientId).any fun client => client.hasTotp key.device

def ClientState.stepFor (state : ClientState) : Option String → Option UInt64
  | none => state.lastUsedStep
  | some name => (state.devices.lookup name).bind DeviceState.lastUsedStep

def RuntimeState.stepOf (state : RuntimeState) (key : Credential) : Option UInt64 :=
  (state.clients.lookup key.clientId).bind fun client => client.stepFor key.device

def AuthConfig.NoSteps (cfg : AuthConfig) : Prop :=
  ∀ key, cfg.stepOf key = none

open AuthConfig

theorem AuthConfig.hasTotp_iff {cfg : AuthConfig} {key : Credential} :
    cfg.hasTotp key = true ↔
      ∃ client, cfg.clients.lookup key.clientId = some client ∧
        client.hasTotp key.device = true := by
  unfold hasTotp
  rw [any_eq_true]

theorem AuthConfig.stepOf_of_lookup {cfg : AuthConfig} {key : Credential} {client : ClientAuth}
    (h : cfg.clients.lookup key.clientId = some client) :
    cfg.stepOf key = client.stepFor key.device := by
  unfold stepOf
  rw [h]
  rfl

section

variable (cr : Crypto)

open ClientState

theorem stepFor_clientState (client : ClientAuth) (device : Option String) :
    (clientState cr client).stepFor device = client.stepFor device := by
  rcases device with _ | name
  · rfl
  simp only [stepFor, ClientAuth.stepFor, clientState,
    lookup_filterMapVals]
  rcases client.devices.lookup name with _ | d
  · rfl
  simp only [bind_some, deviceState]
  split
  next hnil =>
    -- A device without stamps is not written, and had no step to forget.
    rw [Bool.and_eq_true, isNone_iff_eq_none, isNone_iff_eq_none] at hnil
    exact hnil.2.symm
  · rfl

theorem ClientState.stepFor_of_isEmpty {state : ClientState} (h : state.isEmpty = true)
    (device : Option String) : state.stepFor device = none := by
  simp only [isEmpty, Bool.and_eq_true, isNone_iff_eq_none,
    decide_eq_true_eq] at h
  rcases device with _ | name
  · exact h.1.2
  · simp only [stepFor, h.2, Finmap.lookup_empty]
    rfl

theorem stepOf_snapshot (cfg : AuthConfig) (key : Credential) :
    (snapshot cr cfg).stepOf key = cfg.stepOf key := by
  simp only [RuntimeState.stepOf, stepOf, snapshot_lookup]
  rcases cfg.clients.lookup key.clientId with _ | client
  · rfl
  simp only [bind_some, ← stepFor_clientState cr client]
  split
  -- A client that is left out remembered nothing.
  next hnil => exact (stepFor_of_isEmpty hnil key.device).symm
  · rfl

theorem stepOf_apply {cfg : AuthConfig} {key : Credential} (state : RuntimeState)
    (hbl : cfg.NoSteps) (hpr : cfg.hasTotp key = true) :
    (state.apply cr cfg).stepOf key = state.stepOf key := by
  rcases hasTotp_iff.mp hpr with ⟨client, hcl, hto⟩
  have hno : client.stepFor key.device = none := by
    rw [← stepOf_of_lookup hcl]
    exact hbl key
  simp only [stepOf, RuntimeState.stepOf, apply_lookup, hcl, map_some,
    bind_some]
  rcases state.clients.lookup key.clientId with _ | recorded
  · exact hno
  rcases hdev : key.device with _ | name
  · rfl
  rw [hdev] at hto hno
  simp only [ClientAuth.stepFor, stepFor, applyClient, lookup_mapVals,
    bind_some]
  rcases (any_eq_true _ _).mp hto with ⟨d, hd, -⟩
  simp only [ClientAuth.stepFor, hd] at hno
  rw [hd]
  rcases recorded.devices.lookup name with _ | stamps
  · exact hno
  · rfl

end

end Nexapipe
