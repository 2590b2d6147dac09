import Nexapipe.Lib.Table
import Nexapipe.Proto.Host

/-!
# The auth configuration

The live table of two-factor clients: what a client and a device entry hold,
the lockout and enrollment counters a connection moves, the replay memory of a
TOTP credential, and the access list an entry grants.

The clock is a parameter. Counters and times have the source's widths, and additions wrap as they
do in a release build.

The login counters and the enrollment counters are two copies of one rule.
`refresh`, `countFailure` and `isLocked` state it once, over a pair of an
attempt count and an expiry; each method of the source is that rule on one of
the two pairs of fields.
-/

namespace Nexapipe

open Table

/-! ### Steps -/

inductive StepVerdict where
  | accepted (moved : Bool)
  | refused

/-- Accepts a step unless it is earlier than the last one, and remembers it.
    Returns the verdict with the memory after it. -/
def acceptStep (last : Option UInt64) (step : UInt64) : StepVerdict × Option UInt64 :=
  match last with
  | some previous =>
    if step < previous then (.refused, last)
    -- The step of the last code is accepted again: two logins may share one code's step.
    else (.accepted (decide (last ≠ some step)), some step)
  | none => (.accepted true, some step)

theorem acceptStep_refused {last : Option UInt64} {step : UInt64}
    (h : (acceptStep last step).1 = .refused) : (acceptStep last step).2 = last := by
  rcases last with _ | previous
  · cases h
  simp only [acceptStep] at h ⊢
  by_cases hlt : step < previous
  · rw [if_pos hlt]
  · simp [if_neg hlt] at h

theorem acceptStep_accepted {last : Option UInt64} {step : UInt64} {moved : Bool}
    (h : (acceptStep last step).1 = .accepted moved) :
    (acceptStep last step).2 = some step ∧ ∀ previous ∈ last, previous ≤ step := by
  rcases last with _ | previous
  · exact ⟨rfl, fun previous hmem => absurd hmem (Option.not_mem_none previous)⟩
  simp only [acceptStep] at h ⊢
  by_cases hlt : step < previous
  · simp [if_pos hlt] at h
  rw [if_neg hlt]
  refine ⟨rfl, ?_⟩
  intro p hp
  cases hp
  exact UInt64.not_lt.mp hlt

/-! ### Access lists -/

structure ClientAcl where
  hosts : Option (List (List Char))
  ports : Option (List UInt16)
  strictPorts : Bool
deriving DecidableEq

namespace ClientAcl

def unrestricted : ClientAcl :=
  { hosts := none, ports := none, strictPorts := false }

def fromHostsAndPorts (hosts : Option (List String)) (ports : Option (List UInt16)) : ClientAcl :=
  { hosts := hosts.map fun hosts => hosts.map fun h => Host.normalizePattern h.toList
    ports := ports
    strictPorts := false }

variable (acl : ClientAcl)

def withStrictPorts (strict : Bool) : ClientAcl :=
  { acl with strictPorts := strict }

def allows (host : List Char) : Bool :=
  match acl.hosts with
  | none => true
  | some patterns =>
    let host := Host.normalizeHost host
    patterns.any fun pattern => Host.hostMatches pattern host

def allowsPort (port : UInt16) : Bool :=
  match acl.ports with
  | none => true
  | some ports => ports.contains port

def allowsBackendPort (port : UInt16) : Bool :=
  if !acl.strictPorts then true else acl.allowsPort port

def allowsTarget (host : List Char) (port : UInt16) : Bool :=
  acl.allows host && acl.allowsPort port

def Permits (host : List Char) (port backendPort : UInt16) : Prop :=
  acl.allowsTarget host port = true ∧ acl.allowsBackendPort backendPort = true

end ClientAcl

/-! ### Counters -/

/-- An attempt count and the lockout it leads to. A client has two of them, one
    for login codes and one for enrollment tokens. -/
structure Counter where
  failed : UInt32
  lockedUntil : Option UInt64
deriving DecidableEq

namespace Counter

def clear : Counter :=
  { failed := 0, lockedUntil := none }

def isLocked (c : Counter) (now : UInt64) : Bool :=
  match c.lockedUntil with
  | some expiry => now < expiry
  | none => false

def isExpired (c : Counter) (now : UInt64) : Bool :=
  match c.lockedUntil with
  | some expiry => expiry ≤ now
  | none => false

def refresh (c : Counter) (now : UInt64) : Counter :=
  if c.isExpired now then clear else c

def countFailure (c : Counter) (maxAttempts : UInt32) (lockoutDuration now : UInt64) : Counter :=
  -- Both additions wrap, as they do in a release build.
  let failed := c.failed + 1
  if failed ≥ maxAttempts then { failed := failed, lockedUntil := some (now + lockoutDuration) }
  else { c with failed := failed }

end Counter

/-! ### Devices and clients -/

def defaultCreatedAt (now : UInt64) : String :=
  toString now.toNat

structure DeviceAuth where
  secret : String
  publicKey : Option String
  createdAt : String
  lastUsed : Option UInt64
  lastUsedStep : Option UInt64
deriving DecidableEq

structure ClientAuth where
  secret : String
  createdAt : String
  allowHosts : Option (List String)
  allowPorts : Option (List UInt16)
  allowPortsStrict : Bool
  pendingEnrollment : Option String
  devices : Table String DeviceAuth
  unnamedDeviceAllowed : Bool
  lastUsed : Option UInt64
  lastUsedStep : Option UInt64
  failedAttempts : UInt32
  lockedUntil : Option UInt64
  enrollmentFailedAttempts : UInt32
  enrollmentLockedUntil : Option UInt64
deriving DecidableEq

namespace ClientAuth

def ofSecret (secret : String) : ClientAuth :=
  { secret := secret
    createdAt := ""
    allowHosts := none
    allowPorts := none
    allowPortsStrict := false
    pendingEnrollment := none
    devices := ∅
    unnamedDeviceAllowed := true
    lastUsed := none
    lastUsedStep := none
    failedAttempts := 0
    lockedUntil := none
    enrollmentFailedAttempts := 0
    enrollmentLockedUntil := none }

variable (c : ClientAuth)

def loginCounter : Counter :=
  { failed := c.failedAttempts, lockedUntil := c.lockedUntil }

def withLoginCounter (k : Counter) : ClientAuth :=
  { c with failedAttempts := k.failed, lockedUntil := k.lockedUntil }

def enrollmentCounter : Counter :=
  { failed := c.enrollmentFailedAttempts, lockedUntil := c.enrollmentLockedUntil }

def withEnrollmentCounter (k : Counter) : ClientAuth :=
  { c with enrollmentFailedAttempts := k.failed, enrollmentLockedUntil := k.lockedUntil }

def isLockedOut (now : UInt64) : Bool :=
  c.loginCounter.isLocked now

def refreshLockout (now : UInt64) : ClientAuth :=
  c.withLoginCounter (c.loginCounter.refresh now)

def recordFailure (maxAttempts : UInt32) (lockoutDuration now : UInt64) :
    ClientAuth :=
  c.withLoginCounter (c.loginCounter.countFailure maxAttempts lockoutDuration now)

def isEnrollmentLockedOut (now : UInt64) : Bool :=
  c.enrollmentCounter.isLocked now

def refreshEnrollmentLockout (now : UInt64) : ClientAuth :=
  c.withEnrollmentCounter (c.enrollmentCounter.refresh now)

def recordEnrollmentFailure (maxAttempts : UInt32)
    (lockoutDuration now : UInt64) : ClientAuth :=
  c.withEnrollmentCounter (c.enrollmentCounter.countFailure maxAttempts lockoutDuration now)

def recordEnrollmentSuccess : ClientAuth :=
  c.withEnrollmentCounter Counter.clear

def recordSuccess (now : UInt64) : ClientAuth :=
  { c.withLoginCounter Counter.clear with lastUsed := some now }

def recordDeviceSuccess (device : String) (now : UInt64) : ClientAuth × Bool :=
  match c.devices.lookup device with
  | none => (c, false)
  | some entry =>
    ({ c with devices := c.devices.insert device { entry with lastUsed := some now } },
      decide (entry.lastUsed ≠ some now))

/-- The replay memory of one of the client's credentials: the named device's own
    when a login named one, the client's otherwise. A device that is gone
    refuses the step. -/
def acceptStepFor (deviceId : Option String) (step : UInt64) :
    StepVerdict × ClientAuth :=
  match deviceId with
  | some name =>
    match c.devices.lookup name with
    | none => (.refused, c)
    | some device =>
      -- A device remembers its own steps, apart from the client's.
      let r := acceptStep device.lastUsedStep step
      (r.1, { c with devices := c.devices.insert name { device with lastUsedStep := r.2 } })
  | none =>
    let r := acceptStep c.lastUsedStep step
    (r.1, { c with lastUsedStep := r.2 })

def acl : ClientAcl :=
  (ClientAcl.fromHostsAndPorts c.allowHosts c.allowPorts).withStrictPorts c.allowPortsStrict

end ClientAuth

/-! ### The configured part of an entry

What an operator and an enrollment decide, with everything a login moves left
out. Logins move counters, stamps and steps only, so each of their operations
leaves this part alone, and that one fact is what revocation, access lists and
enrollment rest on. -/

def DeviceAuth.configured (d : DeviceAuth) : DeviceAuth :=
  { d with lastUsed := none, lastUsedStep := none }

namespace ClientAuth

def configured (c : ClientAuth) : ClientAuth :=
  { c with
    devices := c.devices.mapVals fun _ d => d.configured
    lastUsed := none
    lastUsedStep := none
    failedAttempts := 0
    lockedUntil := none
    enrollmentFailedAttempts := 0
    enrollmentLockedUntil := none }

theorem configured_lookup (c : ClientAuth) (name : String) :
    c.configured.devices.lookup name = (c.devices.lookup name).map DeviceAuth.configured :=
  lookup_mapVals _ _ _

theorem device_isSome_of_configured_eq {c c' : ClientAuth} (h : c.configured = c'.configured)
    (name : String) : (c.devices.lookup name).isSome = (c'.devices.lookup name).isSome := by
  have hn := congrArg (fun x : ClientAuth => (x.devices.lookup name).isSome) h
  simpa only [configured_lookup, Option.isSome_map] using hn

theorem configured_insert_device {c : ClientAuth} {name : String} {d d' : DeviceAuth}
    (hd : c.devices.lookup name = some d) (hc : d'.configured = d.configured) :
    ({ c with devices := c.devices.insert name d' } : ClientAuth).configured = c.configured := by
  have hdev : Table.mapVals (fun _ d => d.configured) (c.devices.insert name d') =
      c.devices.mapVals fun _ d => d.configured := by
    apply Finmap.ext_lookup
    intro k
    rw [lookup_mapVals, lookup_mapVals, lookup_insert_eq]
    -- Only the row under `name` is written, and its configured part is the old one's.
    by_cases hk : k = name
    · rw [if_pos hk, hk, hd, Option.map_some, Option.map_some, hc]
    · rw [if_neg hk]
  unfold configured
  rw [hdev]

@[simp] theorem configured_recordDeviceSuccess (c : ClientAuth) (name : String) (now : UInt64) :
    (c.recordDeviceSuccess name now).1.configured = c.configured := by
  unfold recordDeviceSuccess
  rcases hd : c.devices.lookup name with _ | d
  · rfl
  · exact configured_insert_device hd rfl

@[simp] theorem configured_acceptStepFor (c : ClientAuth) (deviceId : Option String)
    (step : UInt64) : (c.acceptStepFor deviceId step).2.configured = c.configured := by
  rcases deviceId with _ | name
  · rfl
  rcases hd : c.devices.lookup name with _ | d
  · simp only [acceptStepFor, hd]
  · simp only [acceptStepFor, hd]
    exact configured_insert_device hd rfl

end ClientAuth

namespace ClientAuth

theorem acceptStepFor_refused {c : ClientAuth} {deviceId : Option String} {step : UInt64}
    (h : (c.acceptStepFor deviceId step).1 = .refused) :
    (c.acceptStepFor deviceId step).2 = c := by
  rcases deviceId with _ | name
  · have hl : (acceptStep c.lastUsedStep step).2 = c.lastUsedStep := acceptStep_refused h
    simp only [acceptStepFor, hl]
  rcases hd : c.devices.lookup name with _ | d
  · simp only [acceptStepFor, hd]
  simp only [acceptStepFor, hd] at h ⊢
  -- The row is written back with the step it had, which changes nothing.
  rw [acceptStep_refused h, insert_lookup_self hd]

end ClientAuth

/-! ### The table -/

inductive TotpAlgorithm where
  | sha1
  | sha256
  | sha512
deriving DecidableEq

structure AuthConfig where
  enabled : Bool
  issuer : String
  algorithm : TotpAlgorithm
  timeStep : UInt32
  digits : UInt32
  window : UInt32
  clients : Table String ClientAuth
  maxAttempts : UInt32
  lockoutDuration : UInt64
deriving DecidableEq

namespace AuthConfig

def default : AuthConfig :=
  { enabled := false
    issuer := "NexaPipe"
    algorithm := .sha1
    timeStep := 30
    digits := 6
    window := 1
    clients := ∅
    maxAttempts := 5
    lockoutDuration := 300 }

def gated (clients : List (String × ClientAuth)) : AuthConfig :=
  { default with enabled := true, clients := Table.ofList clients }

variable (cfg : AuthConfig)

def setClient (clientId : String) (client : ClientAuth) : AuthConfig :=
  { cfg with clients := cfg.clients.insert clientId client }

def editClient (clientId : String) (f : ClientAuth → ClientAuth) : AuthConfig :=
  match cfg.clients.lookup clientId with
  | some client => cfg.setClient clientId (f client)
  | none => cfg

@[simp] theorem setClient_lookup (k k' : String) (client : ClientAuth) :
    (cfg.setClient k client).clients.lookup k' =
      if k' = k then some client else cfg.clients.lookup k' :=
  lookup_insert_eq _ _ _ _

@[simp] theorem setClient_setClient (k : String) (c c' : ClientAuth) :
    (cfg.setClient k c).setClient k c' = cfg.setClient k c' := by
  unfold setClient
  simp only [Finmap.insert_insert]

theorem editClient_present {cfg : AuthConfig} {k : String} {c : ClientAuth}
    (f : ClientAuth → ClientAuth) (h : cfg.clients.lookup k = some c) :
    cfg.editClient k f = cfg.setClient k (f c) := by
  unfold editClient
  rw [h]

theorem editClient_absent {cfg : AuthConfig} {k : String} (f : ClientAuth → ClientAuth)
    (h : cfg.clients.lookup k = none) : cfg.editClient k f = cfg := by
  unfold editClient
  rw [h]

theorem editClient_lookup (k k' : String) (f : ClientAuth → ClientAuth) :
    (cfg.editClient k f).clients.lookup k' =
      if k' = k then (cfg.clients.lookup k).map f else cfg.clients.lookup k' := by
  rcases h : cfg.clients.lookup k with _ | c
  · rw [editClient_absent f h]
    by_cases hk : k' = k
    · rw [if_pos hk, hk, h]
      rfl
    · rw [if_neg hk]
  · rw [editClient_present f h, setClient_lookup]
    rfl

theorem editClient_setClient (k : String) (c : ClientAuth)
    (f : ClientAuth → ClientAuth) :
    (cfg.setClient k c).editClient k f = cfg.setClient k (f c) := by
  rw [editClient_present f (by rw [setClient_lookup, if_pos rfl]), setClient_setClient]

def acceptStep (clientId : String) (deviceId : Option String)
    (step : UInt64) : StepVerdict × AuthConfig :=
  match cfg.clients.lookup clientId with
  | none => (.refused, cfg)
  | some client =>
    let r := client.acceptStepFor deviceId step
    (r.1, cfg.setClient clientId r.2)

/-- A copy of the counters and stamps, with every credential left out. The
    pending token travels because the state file records its fingerprint. -/
def counterSnapshot : AuthConfig :=
  { cfg with
    issuer := ""
    clients := cfg.clients.mapVals fun _ client =>
      { client with
        secret := ""
        createdAt := ""
        allowHosts := none
        allowPorts := none
        allowPortsStrict := false
        devices := client.devices.mapVals fun _ device =>
          -- Stamps stay: they are what the file is for.
          { device with secret := "", publicKey := none, createdAt := "" } } }

end AuthConfig

end Nexapipe
