import Nexapipe.Auth.Totp
import Nexapipe.Lib.Ascii
import Nexapipe.Storage.File

/-!
# Enrolling a device

An ENROLL message spends a one-time token on a credential: a fresh secret for a
named device, a public key the device offers, or a new shared secret for the
client itself. The token is checked and the credential is put into the live
table under the auth lock, the stored document is written while that lock is
still held, and only a write that succeeded lets the enrollment stand.

The handler has one point at which it waits while it holds the lock, the storage write, so it is
modelled in two parts. `enrollDecide` is everything before the wait and `enrollFinish` everything
after it; what lies between is somebody else's step.
-/

namespace Nexapipe

open Bool AuthConfig
open Ascii (utf8)

/-- Texts are compared by their bytes. -/
theorem constantTimeEq_utf8 (s t : String) : constantTimeEq (utf8 s) (utf8 t) = true ↔ s = t := by
  rw [constantTimeEq_iff]
  exact ⟨Ascii.utf8_injective, congrArg utf8⟩

/-! ### The verdict -/

structure EnrollRequest where
  clientId : String
  token : String
  device : Option String
  publicKey : Option String
deriving DecidableEq

inductive EnrollmentVerdict where
  | accept
  | refuse (counted : Bool)
deriving DecidableEq

/-- Whether the offered key is the one the device's entry holds: a device that
    proves its key again may enroll under its own name. -/
def holdsTheKeyOnFile (cr : Crypto) (entry : DeviceAuth) (offered : Option String) : Bool :=
  match offered with
  | none => false
  | some offered =>
    match entry.publicKey with
    | none => false
    | some stored =>
      match parsePublicKey cr.onCurve offered with
      | .error _ => false
      | .ok key => constantTimeEq (utf8 stored) (utf8 (publicKeyHex key))

structure EnrollClock where
  refresh : UInt64
  refreshEnrollment : UInt64
  lockout : UInt64
  enrollmentLockout : UInt64
  createdAt : UInt64
  record : UInt64

def EnrollClock.all (now : UInt64) : EnrollClock :=
  ⟨now, now, now, now, now, now⟩

section

variable (cr : Crypto)

/-- The verdict for a client that is in the table. Only a wrong token is
    counted: nothing else about the request was a guess at it. -/
def clientVerdict (clock : EnrollClock) (req : EnrollRequest) (client : ClientAuth) :
    EnrollmentVerdict :=
  if client.isLockedOut clock.lockout then .refuse false
  else if client.isEnrollmentLockedOut clock.enrollmentLockout then .refuse false
  else
    match client.pendingEnrollment.filter (· ≠ "") with
    | none => .refuse false
    | some expected =>
      if !constantTimeEq (utf8 expected) (utf8 req.token) then .refuse true
      else
        match req.device.bind client.devices.lookup with
        | none => .accept
        | some entry =>
          if holdsTheKeyOnFile cr entry req.publicKey then .accept else .refuse false

def enrollmentVerdict (cfg : AuthConfig) (clock : EnrollClock) (req : EnrollRequest) :
    EnrollmentVerdict :=
  match cfg.clients.lookup req.clientId with
  | none => .refuse false
  | some client => clientVerdict cr clock req client

end

/-! ### Issuing and undoing -/

inductive IssuedCredential where
  | deviceSecret (name secret : String)
  | deviceKey (name key : String)
  | sharedSecret (secret : String)
deriving DecidableEq

inductive EnrollmentSlot where
  | device (name : String) (previous : Option DeviceAuth)
  | shared (previous : String)

namespace ClientAuth

def issueDevice (c : ClientAuth) (name : String) (row : DeviceAuth) :
    ClientAuth × EnrollmentSlot :=
  ({ c with devices := c.devices.insert name row, pendingEnrollment := none },
    .device name (c.devices.lookup name))

def issue (c : ClientAuth) (issued : IssuedCredential) (now : UInt64) :
    ClientAuth × EnrollmentSlot :=
  match issued with
  | .deviceSecret name secret =>
    c.issueDevice name
      { secret := secret
        publicKey := none
        createdAt := defaultCreatedAt now
        lastUsed := none
        lastUsedStep := none }
  | .deviceKey name key =>
    c.issueDevice name
      { secret := ""
        publicKey := some key
        createdAt := defaultCreatedAt now
        lastUsed := none
        lastUsedStep := none }
  | .sharedSecret secret =>
    ({ c with secret := secret, pendingEnrollment := none }, .shared c.secret)

def undo (c : ClientAuth) (slot : EnrollmentSlot) (token : String) : ClientAuth :=
  match slot with
  | .device name (some previous) =>
    { c with devices := c.devices.insert name previous, pendingEnrollment := some token }
  | .device name none =>
    { c with devices := c.devices.erase name, pendingEnrollment := some token }
  | .shared previous => { c with secret := previous, pendingEnrollment := some token }

end ClientAuth

def issueEnrolledSecret (cfg : AuthConfig) (clientId : String) (issued : IssuedCredential)
    (now : UInt64) : AuthConfig × EnrollmentSlot :=
  match cfg.clients.lookup clientId with
  | none => (cfg, .shared "")
  | some client =>
    let r := client.issue issued now
    (cfg.setClient clientId r.1, r.2)

def undoEnrolledSecret (cfg : AuthConfig) (clientId : String) (slot : EnrollmentSlot)
    (token : String) : AuthConfig :=
  cfg.editClient clientId (·.undo slot token)

/-! ### The handler -/

inductive UnrecordableReason where
  | keyWithoutDevice
  | badKey (why : KeyError)
deriving DecidableEq

def credentialFor (cr : Crypto) (req : EnrollRequest) (secret : String) :
    Except UnrecordableReason IssuedCredential :=
  match req.publicKey with
  | none =>
    match req.device with
    | some name => .ok (.deviceSecret name secret)
    | none => .ok (.sharedSecret secret)
  | some offered =>
    match req.device with
    | none => .error .keyWithoutDevice
    | some name =>
      match parsePublicKey cr.onCurve offered with
      | .ok key => .ok (.deviceKey name (publicKeyHex key))
      | .error why => .error (.badKey why)

def IssuedCredential.storeOp (clientId : String) : IssuedCredential → StoreOp
  | deviceSecret name secret => .completeDeviceEnrollment clientId name (.secret secret)
  | deviceKey name key => .completeDeviceEnrollment clientId name (.publicKey key)
  | sharedSecret secret => .completeEnrollment clientId secret

/-- Where the critical section stands when the handler has to wait or is done.
    `issued` waits for the storage write with the lock held. -/
inductive EnrollDecision where
  | refused (cfg : AuthConfig) (counted : Bool)
  | unrecordable (cfg : AuthConfig) (reason : UnrecordableReason)
  | issued (cfg : AuthConfig) (credential : IssuedCredential) (slot : EnrollmentSlot)

def ClientAuth.refreshBoth (c : ClientAuth) (clock : EnrollClock) : ClientAuth :=
  (c.refreshLockout clock.refresh).refreshEnrollmentLockout clock.refreshEnrollment

def countEnrollmentFailure (cfg : AuthConfig) (clientId : String) (maxAttempts : UInt32)
    (lockoutDuration now : UInt64) : AuthConfig :=
  cfg.editClient clientId (·.recordEnrollmentFailure maxAttempts lockoutDuration now)

def enrollDecide (cr : Crypto) (cfg : AuthConfig) (clock : EnrollClock) (req : EnrollRequest)
    (secret : String) : EnrollDecision :=
  let cfg := cfg.editClient req.clientId (·.refreshBoth clock)
  match enrollmentVerdict cr cfg clock req with
  | .refuse true =>
    .refused (countEnrollmentFailure cfg req.clientId cfg.maxAttempts cfg.lockoutDuration
      clock.record) true
  | .refuse false => .refused cfg false
  | .accept =>
    match credentialFor cr req secret with
    | .error reason => .unrecordable cfg reason
    | .ok credential =>
      -- The credential is live, and the token spent, before the write has run.
      let r := issueEnrolledSecret cfg req.clientId credential clock.createdAt
      .issued r.1 credential r.2

def ClientAuth.hasCounters (c : ClientAuth) : Bool :=
  c.failedAttempts ≠ 0 || c.lockedUntil.isSome || c.enrollmentFailedAttempts ≠ 0 ||
    c.enrollmentLockedUntil.isSome

def ClientAuth.enrolled (c : ClientAuth) (now : UInt64) : ClientAuth :=
  if c.hasCounters then (c.recordSuccess now).recordEnrollmentSuccess else c

def enrollFinish (cfg : AuthConfig) (clock : EnrollClock) (req : EnrollRequest)
    (slot : EnrollmentSlot) (saved : Bool) : AuthConfig :=
  if saved then cfg.editClient req.clientId (·.enrolled clock.record)
  else undoEnrolledSecret cfg req.clientId slot req.token

/-- How the storage write of an enrollment ended for the handler. A handshake
    that is dropped while it waits never learns how. -/
inductive WriteOutcome where
  | saved
  | failed
  | dropped

inductive EnrollReply where
  | refused (counted : Bool)
  | unrecordable (reason : UnrecordableReason)
  | issued (credential : IssuedCredential)
  | notSaved
  | lost
deriving DecidableEq

def enrollClient (cr : Crypto) (cfg : AuthConfig) (clock : EnrollClock) (req : EnrollRequest)
    (secret : String) (outcome : WriteOutcome) : AuthConfig × EnrollReply :=
  match enrollDecide cr cfg clock req secret with
  | .refused cfg counted => (cfg, .refused counted)
  | .unrecordable cfg reason => (cfg, .unrecordable reason)
  | .issued cfg credential slot =>
    match outcome with
    | .saved => (enrollFinish cfg clock req slot true, .issued credential)
    | .failed => (enrollFinish cfg clock req slot false, .notSaved)
    -- Nothing is undone: the write is a task of its own and may still succeed.
    | .dropped => (cfg, .lost)

theorem credentialFor_cases {cr : Crypto} {req : EnrollRequest} {secret : String}
    {credential : IssuedCredential} (h : credentialFor cr req secret = .ok credential) :
    (∃ name, req.device = some name ∧ credential = .deviceSecret name secret) ∨
      (∃ (name : String) (key : PublicKey cr.onCurve), req.device = some name ∧
        credential = .deviceKey name (publicKeyHex key)) ∨
      credential = .sharedSecret secret := by
  revert h
  fun_cases credentialFor cr req secret with
  | case1 _ name hna =>
    rintro ⟨⟩
    exact .inl ⟨name, hna, rfl⟩
  | case2 =>
    rintro ⟨⟩
    exact .inr (.inr rfl)
  | case4 _ _ name hna key =>
    rintro ⟨⟩
    exact .inr (.inl ⟨name, key, hna, rfl⟩)
  | _ => rintro ⟨⟩

/-! ### The verdict and the entry -/

section

variable {cr : Crypto} {cfg : AuthConfig} {clock : EnrollClock} {req : EnrollRequest}
  {client : ClientAuth} {secret : String}

theorem clientVerdict_unlocked {v : EnrollmentVerdict}
    (h : clientVerdict cr clock req client = v) (hv : v ≠ .refuse false) :
    client.isLockedOut clock.lockout = false ∧
      client.isEnrollmentLockedOut clock.enrollmentLockout = false ∧
      ∃ expected, client.pendingEnrollment = some expected ∧
        (v = .accept ↔ expected = req.token) := by
  subst h
  revert hv
  fun_cases clientVerdict cr clock req client with
  | case1 | case2 | case3 | case7 => exact absurd rfl
  | case4 hloc henr expected hexp hdif =>
    refine fun _ => ⟨eq_false_iff.mpr hloc, eq_false_iff.mpr henr, expected,
      (Option.filter_eq_some_iff.mp hexp).1, iff_of_false nofun ?_⟩
    intro htoken
    simp [(constantTimeEq_utf8 _ _).mpr htoken] at hdif
  -- With the right token only the device's own refusal is left, and it is not counted.
  | case5 hloc henr expected hexp heq
  | case6 hloc henr expected hexp heq =>
    rw [not_eq_true, not_eq_false'] at heq
    exact fun _ => ⟨eq_false_iff.mpr hloc, eq_false_iff.mpr henr, expected,
      (Option.filter_eq_some_iff.mp hexp).1,
      iff_of_true rfl ((constantTimeEq_utf8 _ _).mp heq)⟩

theorem clientVerdict_accept (h : clientVerdict cr clock req client = .accept) :
    client.isLockedOut clock.lockout = false ∧
      client.isEnrollmentLockedOut clock.enrollmentLockout = false ∧
      client.pendingEnrollment = some req.token := by
  rcases clientVerdict_unlocked h (by simp) with ⟨hloc, henr, expected, hpen, htoken⟩
  rw [hpen, htoken.mp rfl]
  exact ⟨hloc, henr, rfl⟩

theorem clientVerdict_counted (h : clientVerdict cr clock req client = .refuse true) :
    client.isLockedOut clock.lockout = false ∧
      client.isEnrollmentLockedOut clock.enrollmentLockout = false ∧
      client.pendingEnrollment ≠ some req.token := by
  rcases clientVerdict_unlocked h (by simp) with ⟨hloc, henr, expected, hpen, htoken⟩
  refine ⟨hloc, henr, ?_⟩
  rw [hpen]
  intro heq
  exact absurd (htoken.mpr (Option.some.inj heq)) (by simp)

variable {entry : DeviceAuth}

theorem clientVerdict_accept_device {name : String}
    (h : clientVerdict cr clock req client = .accept) (hn : req.device = some name)
    (hentry : client.devices.lookup name = some entry) :
    holdsTheKeyOnFile cr entry req.publicKey = true := by
  revert h
  fun_cases clientVerdict cr clock req client with
  | case5 _ _ _ _ _ hno => simp [hn, hentry] at hno
  | case6 _ _ _ _ _ found hfound hhol =>
    rw [hn, Option.bind_some, hentry] at hfound
    cases hfound
    exact fun _ => hhol
  | _ => rintro ⟨⟩

theorem publicKey_isSome_of_holdsTheKeyOnFile {offered : Option String}
    (h : holdsTheKeyOnFile cr entry offered = true) : entry.publicKey.isSome = true := by
  unfold holdsTheKeyOnFile at h
  split at h
  · cases h
  split at h
  · cases h
  next hkey =>
    rw [hkey]
    rfl

open ClientAuth

theorem undo_issueDevice (name : String) (row : DeviceAuth) {token : String}
    (hpen : client.pendingEnrollment = some token) :
    (client.issueDevice name row).1.undo (client.issueDevice name row).2 token = client := by
  unfold issueDevice
  rcases hp : client.devices.lookup name with _ | previous
  · simp only [undo, Table.erase_insert_of_lookup_none row hp, ← hpen]
  · -- The device had a row, and gets it back.
    simp only [undo, Finmap.insert_insert, Table.insert_lookup_self hp, ← hpen]

theorem undo_issue (issued : IssuedCredential) (now : UInt64) {token : String}
    (hpen : client.pendingEnrollment = some token) :
    (client.issue issued now).1.undo (client.issue issued now).2 token = client := by
  cases issued with
  | deviceSecret name | deviceKey name => exact undo_issueDevice name _ hpen
  | sharedSecret secret => simp only [issue, undo, ← hpen]

theorem ClientAuth.configured_refreshBoth (c : ClientAuth) (clock : EnrollClock) :
    (c.refreshBoth clock).configured = c.configured := rfl

theorem ClientAuth.configured_enrolled (c : ClientAuth) (now : UInt64) :
    (c.enrolled now).configured = c.configured := by
  unfold enrolled
  split <;> rfl

/-! ### An enrollment as an edit of one entry -/

theorem enrollDecide_absent (habs : cfg.clients.lookup req.clientId = none) :
    enrollDecide cr cfg clock req secret = .refused cfg false := by
  unfold enrollDecide enrollmentVerdict
  rw [editClient_absent _ habs]
  simp only [habs]

theorem enrollDecide_present (hpr : cfg.clients.lookup req.clientId = some client) :
    enrollDecide cr cfg clock req secret =
      match clientVerdict cr clock req (client.refreshBoth clock) with
      | .refuse true =>
        .refused (cfg.setClient req.clientId
          ((client.refreshBoth clock).recordEnrollmentFailure cfg.maxAttempts
            cfg.lockoutDuration clock.record)) true
      | .refuse false => .refused (cfg.setClient req.clientId (client.refreshBoth clock)) false
      | .accept =>
        match credentialFor cr req secret with
        | .error reason =>
          .unrecordable (cfg.setClient req.clientId (client.refreshBoth clock)) reason
        | .ok credential =>
          let r := (client.refreshBoth clock).issue credential clock.createdAt
          .issued (cfg.setClient req.clientId r.1) credential r.2 := by
  have hse : (cfg.setClient req.clientId (client.refreshBoth clock)).clients.lookup
      req.clientId = some (client.refreshBoth clock) := by
    rw [setClient_lookup, if_pos rfl]
  unfold enrollDecide enrollmentVerdict
  rw [editClient_present _ hpr]
  simp only [hse]
  split
  · simp only [countEnrollmentFailure, editClient_setClient]
    rfl
  · rfl
  · rcases credentialFor cr req secret with reason | credential
    · rfl
    · simp only [issueEnrolledSecret, hse, setClient_setClient]

/-- What an enrollment can do to the entry `c`, with the reply that goes with
    it: clear lockouts that ran out and nothing else, count a wrong token, or put
    a credential in, which is settled when the write was saved. -/
inductive EnrollEffect (cr : Crypto) (cfg : AuthConfig) (clock : EnrollClock)
    (req : EnrollRequest) (secret : String) (c : ClientAuth) : ClientAuth → EnrollReply → Prop
  | refused (verdict : clientVerdict cr clock req (c.refreshBoth clock) = .refuse false) :
      EnrollEffect cr cfg clock req secret c (c.refreshBoth clock) (.refused false)
  | counted (verdict : clientVerdict cr clock req (c.refreshBoth clock) = .refuse true) :
      EnrollEffect cr cfg clock req secret c
        ((c.refreshBoth clock).recordEnrollmentFailure cfg.maxAttempts cfg.lockoutDuration
          clock.record) (.refused true)
  | unrecordable (reason : UnrecordableReason)
      (verdict : clientVerdict cr clock req (c.refreshBoth clock) = .accept) :
      EnrollEffect cr cfg clock req secret c (c.refreshBoth clock) (.unrecordable reason)
  | notSaved (verdict : clientVerdict cr clock req (c.refreshBoth clock) = .accept) :
      EnrollEffect cr cfg clock req secret c (c.refreshBoth clock) .notSaved
  | lost (credential : IssuedCredential)
      (verdict : clientVerdict cr clock req (c.refreshBoth clock) = .accept)
      (asked : credentialFor cr req secret = .ok credential) :
      EnrollEffect cr cfg clock req secret c
        ((c.refreshBoth clock).issue credential clock.createdAt).1 .lost
  | issued (credential : IssuedCredential)
      (verdict : clientVerdict cr clock req (c.refreshBoth clock) = .accept)
      (asked : credentialFor cr req secret = .ok credential) :
      EnrollEffect cr cfg clock req secret c
        (((c.refreshBoth clock).issue credential clock.createdAt).1.enrolled clock.record)
        (.issued credential)

theorem enrollClient_absent (outcome : WriteOutcome)
    (habs : cfg.clients.lookup req.clientId = none) :
    enrollClient cr cfg clock req secret outcome = (cfg, .refused false) := by
  unfold enrollClient
  rw [enrollDecide_absent habs]

theorem enrollClient_effect (outcome : WriteOutcome)
    (hpr : cfg.clients.lookup req.clientId = some client) :
    ∃ client' reply,
      enrollClient cr cfg clock req secret outcome =
        (cfg.setClient req.clientId client', reply) ∧
      EnrollEffect cr cfg clock req secret client client' reply := by
  unfold enrollClient
  rw [enrollDecide_present hpr]
  cases hv : clientVerdict cr clock req (client.refreshBoth clock) with
  | refuse counted =>
    rcases counted with _ | _
    · exact ⟨_, _, rfl, .refused hv⟩
    · exact ⟨_, _, rfl, .counted hv⟩
  | accept =>
    rcases hask : credentialFor cr req secret with reason | credential
    · exact ⟨_, _, rfl, .unrecordable reason hv⟩
    cases outcome with
    | saved =>
      simp only [enrollFinish, if_true, editClient_setClient]
      exact ⟨_, _, rfl, .issued credential hv hask⟩
    | failed =>
      have hpen := (clientVerdict_accept hv).2.2
      simp only [enrollFinish, false_eq_true, if_false, undoEnrolledSecret,
        editClient_setClient, undo_issue credential clock.createdAt hpen]
      exact ⟨_, _, rfl, .notSaved hv⟩
    | dropped => exact ⟨_, _, rfl, .lost credential hv hask⟩

end

end Nexapipe
