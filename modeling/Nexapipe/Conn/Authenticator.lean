import Nexapipe.Auth.Totp
import Nexapipe.Conn.Peers

/-!
# Authenticating a connection

The built-in authenticator's critical section: under one write lock it drops a
lockout that has run out, verifies the response, accounts for the result in the
counters and the replay memory, takes the access list of the client, and
registers the connection. Nothing of it can interleave with a reload, which
takes the same lock.

`authenticateLocked` is everything up to the registration, as a function on the table;
`authenticate` adds the registry.
-/

namespace Nexapipe

open AuthConfig ClientAuth

structure AuthClock where
  refresh : UInt64
  verify : VerifyClock
  device : UInt64
  record : UInt64

def AuthClock.all (now : UInt64) : AuthClock :=
  ⟨now, ⟨now, now, now⟩, now, now⟩

structure AuthStep where
  cfg : AuthConfig
  /-- The state file has to be written. -/
  dirty : Bool
  verdict : Except AuthError ClientAcl

def AuthConfig.acceptVerified (cfg : AuthConfig) (clientId : String) (deviceId : Option String)
    (step : Option UInt64) : StepVerdict × AuthConfig :=
  match step with
  | some step => cfg.acceptStep clientId deviceId step
  | none => (.accepted false, cfg)

def AuthConfig.stampDevice (cfg : AuthConfig) (clientId : String) (deviceId : Option String)
    (now : UInt64) : AuthConfig × Bool :=
  match deviceId with
  | none => (cfg, false)
  | some name =>
    match cfg.clients.lookup clientId with
    | none => (cfg, false)
    | some client =>
      let r := client.recordDeviceSuccess name now
      (cfg.setClient clientId r.1, r.2)

def admitLogin (cfg : AuthConfig) (clock : AuthClock) (req : AuthRequest) (stepMoved : Bool) :
    AuthStep :=
  let stamped := cfg.stampDevice req.clientId req.deviceId clock.device
  let cfg := stamped.1
  let dirty := stepMoved || stamped.2 ||
    (cfg.clients.lookup req.clientId).any fun c =>
      c.failedAttempts ≠ 0 || c.lockedUntil.isSome
  -- A login that moved nothing is not stamped either, so that it costs no write.
  let cfg := if dirty then cfg.editClient req.clientId (·.recordSuccess clock.record) else cfg
  let acl := ((cfg.clients.lookup req.clientId).map ClientAuth.acl).getD ClientAcl.unrestricted
  { cfg := cfg, dirty := dirty, verdict := .ok acl }

section

variable (cr : Crypto)

def authenticateLocked (cfg : AuthConfig) (clock : AuthClock) (req : AuthRequest) : AuthStep :=
  let cfg := cfg.editClient req.clientId (·.refreshLockout clock.refresh)
  match verifyResponse cr cfg clock.verify req with
  | .ok (.accepted step) =>
    match cfg.acceptVerified req.clientId req.deviceId step with
    | (.refused, cfg) =>
      -- Not counted: a code that was used before is not a guess.
      { cfg := cfg, dirty := false, verdict := .error .invalidCode }
    | (.accepted stepMoved, cfg) => admitLogin cfg clock req stepMoved
  | .ok .wrongCode =>
    { cfg := cfg.editClient req.clientId
        (·.recordFailure cfg.maxAttempts cfg.lockoutDuration clock.record)
      dirty := true
      verdict := .error .invalidCode }
  | .error e => { cfg := cfg, dirty := false, verdict := .error e }

structure AuthOutcome where
  cfg : AuthConfig
  registry : PeerRegistry
  dirty : Bool
  verdict : Except AuthError (ClientAcl × PeerGuard)

/-- The critical section of an authentication. A connection is registered while
    the lock is still held, and nothing is registered on a refusal. -/
def authenticate (cfg : AuthConfig) (registry : PeerRegistry) (endpointId : EndpointId)
    (clock : AuthClock) (req : AuthRequest) : AuthOutcome :=
  let step := authenticateLocked cr cfg clock req
  match step.verdict with
  | .error e =>
    { cfg := step.cfg, registry := registry, dirty := step.dirty, verdict := .error e }
  | .ok acl =>
    let (registry, guard) := registry.insert endpointId
      { clientId := some req.clientId, device := req.deviceId }
    { cfg := step.cfg, registry := registry, dirty := step.dirty, verdict := .ok (acl, guard) }

end

/-! ### A login as an edit of one entry

For a client that is in the table, the whole critical section is a function of
that client's entry. The table is read in many places above; here it is read
once. -/

namespace ClientAuth

variable (c : ClientAuth)

def stampFor (deviceId : Option String) (now : UInt64) : ClientAuth × Bool :=
  match deviceId with
  | none => (c, false)
  | some name => c.recordDeviceSuccess name now

def acceptVerified (deviceId : Option String) (step : Option UInt64) :
    StepVerdict × ClientAuth :=
  match step with
  | some step => c.acceptStepFor deviceId step
  | none => (.accepted false, c)

def admitted (clock : AuthClock) (deviceId : Option String) (stepMoved : Bool) :
    ClientAuth × Bool :=
  let stamped := c.stampFor deviceId clock.device
  let dirty := stepMoved || stamped.2 ||
    (stamped.1.failedAttempts ≠ 0 || stamped.1.lockedUntil.isSome)
  (if dirty then stamped.1.recordSuccess clock.record else stamped.1, dirty)

@[simp] theorem configured_stampFor (deviceId : Option String) (now : UInt64) :
    (c.stampFor deviceId now).1.configured = c.configured := by
  rcases deviceId with _ | name
  · rfl
  · exact configured_recordDeviceSuccess c name now

@[simp] theorem configured_acceptVerified (deviceId : Option String)
    (step : Option UInt64) : (c.acceptVerified deviceId step).2.configured = c.configured := by
  rcases step with _ | step
  · rfl
  · exact configured_acceptStepFor c deviceId step

@[simp] theorem configured_admitted (clock : AuthClock)
    (deviceId : Option String) (stepMoved : Bool) :
    (c.admitted clock deviceId stepMoved).1.configured = c.configured := by
  simp only [admitted]
  split
  · exact configured_stampFor c deviceId clock.device
  · exact configured_stampFor c deviceId clock.device

end ClientAuth

/-- The critical section for a client that is in the table, as an edit of its
    entry: the entry after it, whether it has to be saved, and the verdict. -/
def login (cr : Crypto) (cfg : AuthConfig) (clock : AuthClock) (req : AuthRequest)
    (client : ClientAuth) : ClientAuth × Bool × Except AuthError ClientAcl :=
  let client := client.refreshLockout clock.refresh
  match verifyClient cr cfg clock.verify req client with
  | .ok (.accepted step) =>
    match client.acceptVerified req.deviceId step with
    | (.refused, client) => (client, false, .error .invalidCode)
    | (.accepted stepMoved, client) =>
      let r := client.admitted clock req.deviceId stepMoved
      (r.1, r.2, .ok r.1.acl)
  | .ok .wrongCode =>
    (client.recordFailure cfg.maxAttempts cfg.lockoutDuration clock.record, true,
      .error .invalidCode)
  | .error e => (client, false, .error e)

section

variable {cr : Crypto} {cfg : AuthConfig} {clock : AuthClock} {req : AuthRequest}
  {client : ClientAuth}

theorem authenticateLocked_absent (he : cfg.enabled = true)
    (habs : cfg.clients.lookup req.clientId = none) :
    authenticateLocked cr cfg clock req =
      { cfg := cfg, dirty := false, verdict := .error .clientNotFound } := by
  unfold authenticateLocked
  -- There is no entry whose lockout could have run out, and none to verify against.
  rw [editClient_absent _ habs]
  simp [verifyResponse, habs, he]

theorem acceptVerified_setClient (cfg : AuthConfig) (k : String) (c : ClientAuth)
    (deviceId : Option String) (step : Option UInt64) :
    (cfg.setClient k c).acceptVerified k deviceId step =
      ((c.acceptVerified deviceId step).1, cfg.setClient k (c.acceptVerified deviceId step).2) := by
  rcases step with _ | step
  · rfl
  · simp only [AuthConfig.acceptVerified, AuthConfig.acceptStep, setClient_lookup,
      if_true, setClient_setClient, ClientAuth.acceptVerified]

theorem stampDevice_setClient (cfg : AuthConfig) (k : String) (c : ClientAuth)
    (deviceId : Option String) (now : UInt64) :
    (cfg.setClient k c).stampDevice k deviceId now =
      (cfg.setClient k (c.stampFor deviceId now).1, (c.stampFor deviceId now).2) := by
  rcases deviceId with _ | name
  · rfl
  · simp only [stampDevice, setClient_lookup, if_true,
      setClient_setClient, stampFor]

theorem admit_setClient (stepMoved : Bool) (c : ClientAuth) :
    admitLogin (cfg.setClient req.clientId c) clock req stepMoved =
      { cfg := cfg.setClient req.clientId (c.admitted clock req.deviceId stepMoved).1
        dirty := (c.admitted clock req.deviceId stepMoved).2
        verdict := .ok (c.admitted clock req.deviceId stepMoved).1.acl } := by
  unfold admitLogin admitted
  simp only [stampDevice_setClient, setClient_lookup, if_true,
    Option.any_some]
  split
  · simp [editClient_setClient]
  · simp

theorem verifyResponse_setClient (he : cfg.enabled = true) (c : ClientAuth) :
    verifyResponse cr (cfg.setClient req.clientId c) clock.verify req =
      verifyClient cr cfg clock.verify req c := by
  have he' : (cfg.setClient req.clientId c).enabled = true := he
  unfold verifyResponse
  rw [he', setClient_lookup, if_pos rfl]
  rfl

/-- For a client in the table the critical section is `login` on its entry. -/
theorem authenticateLocked_present (hen : cfg.enabled = true)
    (hpr : cfg.clients.lookup req.clientId = some client) :
    authenticateLocked cr cfg clock req =
      { cfg := cfg.setClient req.clientId (login cr cfg clock req client).1
        dirty := (login cr cfg clock req client).2.1
        verdict := (login cr cfg clock req client).2.2 } := by
  unfold authenticateLocked login
  rw [editClient_present _ hpr]
  -- The verification reads the entry the refresh has just written back.
  simp only [verifyResponse_setClient hen]
  rcases verifyClient cr cfg clock.verify req (client.refreshLockout clock.refresh) with e | v
  · rfl
  cases v with
  | wrongCode =>
    simp only [editClient_setClient]
    rfl
  | accepted step =>
    simp only [acceptVerified_setClient]
    rcases (client.refreshLockout clock.refresh).acceptVerified req.deviceId step with
      ⟨verdict, client'⟩
    cases verdict with
    | refused => rfl
    | accepted moved => exact admit_setClient moved client'

theorem authenticateLocked_cfg (he : cfg.enabled = true) :
    (authenticateLocked cr cfg clock req).cfg =
      cfg.editClient req.clientId fun client => (login cr cfg clock req client).1 := by
  rcases hc : cfg.clients.lookup req.clientId with _ | client
  · rw [authenticateLocked_absent he hc, editClient_absent _ hc]
  · rw [authenticateLocked_present he hc, editClient_present _ hc]

/-! ### What a login does to the entry -/

theorem acceptVerified_refused {c : ClientAuth} {deviceId : Option String}
    {step : Option UInt64} (h : (c.acceptVerified deviceId step).1 = .refused) :
    (c.acceptVerified deviceId step).2 = c := by
  rcases step with _ | step
  · rfl
  · exact acceptStepFor_refused h

theorem login_cases (cr : Crypto) (cfg : AuthConfig) (clock : AuthClock) (req : AuthRequest)
    (client : ClientAuth) :
    (∃ e, login cr cfg clock req client =
        (client.refreshLockout clock.refresh, false, .error e) ∧
      verifyClient cr cfg clock.verify req (client.refreshLockout clock.refresh) ≠
        .ok .wrongCode) ∨
    (login cr cfg clock req client =
        ((client.refreshLockout clock.refresh).recordFailure cfg.maxAttempts
          cfg.lockoutDuration clock.record, true, .error .invalidCode) ∧
      verifyClient cr cfg clock.verify req (client.refreshLockout clock.refresh) =
        .ok .wrongCode) ∨
    ∃ step moved client',
      verifyClient cr cfg clock.verify req (client.refreshLockout clock.refresh) =
        .ok (.accepted step) ∧
      (client.refreshLockout clock.refresh).acceptVerified req.deviceId step =
        (.accepted moved, client') ∧
      login cr cfg clock req client =
        ((client'.admitted clock req.deviceId moved).1,
          (client'.admitted clock req.deviceId moved).2,
          .ok (client'.admitted clock req.deviceId moved).1.acl) := by
  unfold login
  rcases hv : verifyClient cr cfg clock.verify req (client.refreshLockout clock.refresh) with e | v
  · exact .inl ⟨e, by simp only [hv], by simp⟩
  cases v with
  | wrongCode => exact .inr (.inl ⟨by simp only [hv], rfl⟩)
  | accepted step =>
    cases hst : (client.refreshLockout clock.refresh).acceptVerified req.deviceId step with
    | mk verdict client' =>
      cases verdict with
      | refused =>
        -- A code whose step was used before leaves the entry as the refresh left it.
        have hsame := acceptVerified_refused (congrArg Prod.fst hst)
        rw [hst] at hsame
        refine .inl ⟨.invalidCode, ?_, by simp⟩
        simp only [hv, hst]
        rw [← hsame]
      | accepted moved =>
        refine .inr (.inr ⟨step, moved, client', rfl, hst, ?_⟩)
        simp only [hv, hst]

theorem configured_login (cr : Crypto) (cfg : AuthConfig) (clock : AuthClock) (req : AuthRequest)
    (client : ClientAuth) : (login cr cfg clock req client).1.configured = client.configured := by
  rcases login_cases cr cfg clock req client with
    ⟨e, heq, -⟩ | ⟨heq, -⟩ | ⟨step, moved, client', -, hs, heq⟩
  · rw [heq]
    rfl
  · rw [heq]
    rfl
  · have hk := configured_acceptVerified (client.refreshLockout clock.refresh)
      req.deviceId step
    rw [hs] at hk
    rw [heq, configured_admitted, hk]
    rfl

theorem authenticateLocked_admitted {acl : ClientAcl} (hen : cfg.enabled = true)
    (hver : (authenticateLocked cr cfg clock req).verdict = .ok acl) :
    ∃ client, (authenticateLocked cr cfg clock req).cfg.clients.lookup req.clientId =
        some client ∧ client.acl = acl ∧
      ∀ name, req.deviceId = some name → (client.devices.lookup name).isSome = true := by
  rcases hc : cfg.clients.lookup req.clientId with _ | client
  · simp [authenticateLocked_absent hen hc] at hver
  rw [authenticateLocked_present hen hc] at hver ⊢
  refine ⟨_, by rw [setClient_lookup, if_pos rfl], ?_⟩
  rcases login_cases cr cfg clock req client with
    ⟨e, heq, -⟩ | ⟨heq, -⟩ | ⟨step, moved, client', hve, -, heq⟩
  · simp [heq] at hver
  · simp [heq] at hver
  · refine ⟨?_, ?_⟩
    · rw [heq] at hver ⊢
      exact Except.ok.inj hver
    · intro name hna
      -- The proof that was verified is one of the device named, so the entry had that device; a
      -- login takes none away.
      rcases (verifyClient_ok hve).2 with ⟨proof, hpr, -⟩
      rw [device_isSome_of_configured_eq (configured_login cr cfg clock req client)]
      exact device_isSome_of_selectProof hpr hna

end

end Nexapipe
