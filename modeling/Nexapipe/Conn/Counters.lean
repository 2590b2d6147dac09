import Nexapipe.Conn.Authenticator
import Nexapipe.Conn.Enrollment

/-!
# What attempts do to the counters

A client has two attempt counters, one for login codes and one for enrollment tokens, under one
law: a counter that is not locked is below the limit, and no more guesses were judged wrong since
it was last cleared than it counts. A login keeps the law of the first and does not touch the
second; an enrollment keeps both.

The clock is read several times in one attempt. A lockout can run out between the
reading that would have cleared it and the reading that judges, so expiry is
counted from the time of the judgement: such an attempt is the first one after
the lockout, although the counter still holds the old count.
-/

namespace Nexapipe

open Option ClientAuth

/-! ### One counter -/

/-- The wrong guesses since the last clear, after an attempt: a lockout that ran
    out starts the count anew, and so does an attempt that succeeds. -/
def tally (wrong : Nat) (expired counted cleared : Bool) : Nat :=
  if cleared then 0 else (if expired then 0 else wrong) + (if counted then 1 else 0)

namespace Counter

def Open (k : Counter) (maxAttempts : UInt32) : Prop :=
  k.lockedUntil = none → k.failed < maxAttempts

structure Within (k : Counter) (maxAttempts : UInt32) (wrong : Nat) : Prop where
  bound : wrong ≤ maxAttempts.toNat
  belowLimit : k.Open maxAttempts
  counted : k.lockedUntil = none → wrong ≤ k.failed.toNat

variable {k : Counter} {maxAttempts : UInt32} {wrong : Nat}

theorem Within.zero (h : k.Open maxAttempts) : k.Within maxAttempts 0 :=
  { bound := Nat.zero_le _, belowLimit := h, counted := fun _ => Nat.zero_le _ }

theorem within_clear (hmax : 0 < maxAttempts) : clear.Within maxAttempts 0 :=
  Within.zero fun _ => hmax

variable {now : UInt64}

theorem not_expired_of_open (h : k.lockedUntil = none) : k.isExpired now = false := by
  unfold isExpired
  rw [h]

theorem isExpired_of_not_locked {expiry : UInt64} (hexp : k.lockedUntil = some expiry)
    (h : k.isLocked now = false) : k.isExpired now = true := by
  simp only [isLocked, hexp, decide_eq_false_iff_not, UInt64.not_lt] at h
  simp only [isExpired, hexp, decide_eq_true_eq]
  exact h

theorem refresh_of_locked (h : k.isLocked now = true) : k.refresh now = k := by
  unfold refresh
  rcases hexp : k.lockedUntil with _ | expiry
  · rw [not_expired_of_open hexp]
    rfl
  have hl : k.isExpired now = false := by
    simp only [isLocked, hexp, decide_eq_true_eq] at h
    simp only [isExpired, hexp, decide_eq_false_iff_not, UInt64.not_le]
    exact h
  rw [hl]
  rfl

theorem Within.refresh (h : k.Within maxAttempts wrong) (hmax : 0 < maxAttempts) (now : UInt64) :
    (k.refresh now).Within maxAttempts (if k.isExpired now then 0 else wrong) := by
  unfold Counter.refresh
  split
  · exact within_clear hmax
  · exact h

theorem Within.countFailure (h : k.Within maxAttempts wrong) (hmax : 0 < maxAttempts)
    (hloc : k.isLocked now = false) (lockoutDuration record : UInt64) :
    (k.countFailure maxAttempts lockoutDuration record).Within maxAttempts
      ((if k.isExpired now then 0 else wrong) + 1) := by
  have hpos : 0 < maxAttempts.toNat := UInt32.lt_iff_toNat_lt.mp hmax
  rcases hexp : k.lockedUntil with _ | expiry
  · -- Not locked, so the count is below the limit and the successor does not wrap.
    rw [not_expired_of_open hexp, if_neg Bool.false_ne_true]
    have hlt : k.failed.toNat < maxAttempts.toNat :=
      UInt32.lt_iff_toNat_lt.mp (h.belowLimit hexp)
    have hle : wrong ≤ k.failed.toNat := h.counted hexp
    have hne : (k.failed + 1).toNat = k.failed.toNat + 1 := by
      have hma := maxAttempts.toNat_lt
      rw [UInt32.toNat_add, UInt32.toNat_one]
      omega
    simp only [Counter.countFailure]
    split
    · exact ⟨by omega, fun hno => absurd hno (some_ne_none _),
        fun hno => absurd hno (some_ne_none _)⟩
    -- Still below the limit after this failure.
    next hbel =>
      refine ⟨by omega, fun _ => UInt32.not_le.mp hbel, fun _ => ?_⟩
      rw [hne]
      omega
  · rw [isExpired_of_not_locked hexp hloc, if_pos rfl]
    -- Locked or not by this failure, the expiry time stays or is set anew.
    have hso : (k.countFailure maxAttempts lockoutDuration record).lockedUntil ≠ none := by
      simp only [Counter.countFailure]
      split
      · exact some_ne_none _
      · rw [hexp]
        exact some_ne_none _
    exact ⟨hpos, fun hno => absurd hno hso, fun hno => absurd hno hso⟩

theorem Within.judged (h : k.Within maxAttempts wrong) (hmax : 0 < maxAttempts) {refresh : UInt64}
    (hloc : (k.refresh refresh).isLocked now = false) (lockoutDuration record : UInt64) :
    ((k.refresh refresh).countFailure maxAttempts lockoutDuration record).Within maxAttempts
      (tally wrong (k.isExpired refresh || k.isExpired now) true false) := by
  have hcount := (h.refresh hmax refresh).countFailure hmax hloc lockoutDuration record
  -- Whether the lockout ran out before the clear or between it and the judgement, the failure is
  -- the first of a new count.
  rcases hexp : k.isExpired refresh with _ | _
  · have hsame : k.refresh refresh = k := by
      unfold Counter.refresh
      rw [hexp]
      rfl
    rw [hsame] at hcount ⊢
    rw [hexp] at hcount
    exact hcount
  · have hcl : k.refresh refresh = clear := by
      unfold Counter.refresh
      rw [if_pos hexp]
    rw [hcl] at hcount ⊢
    rw [hexp] at hcount
    exact hcount

theorem Within.passed (h : k.Within maxAttempts wrong) (hmax : 0 < maxAttempts)
    (refresh : UInt64) {expired : Bool} (hexp : k.isExpired refresh = true → expired = true) :
    (k.refresh refresh).Within maxAttempts (tally wrong expired false false) := by
  have href := h.refresh hmax refresh
  rcases expired with _ | _
  · have hl : k.isExpired refresh = false :=
      Bool.eq_false_iff.mpr fun hyes => Bool.false_ne_true (hexp hyes)
    rw [hl] at href
    exact href
  · exact Within.zero href.belowLimit

end Counter

/-! ### One client's counters -/

def isWrongCode : Except AuthError Verified → Bool
  | .ok .wrongCode => true
  | .ok (.accepted _) | .error _ => false

def EnrollReply.isIssued : EnrollReply → Bool
  | issued _ => true
  | refused _ | unrecordable _ | notSaved | lost => false

def EnrollReply.isCounted : EnrollReply → Bool
  | refused counted => counted
  | issued _ | unrecordable _ | notSaved | lost => false

namespace ClientAuth

variable (c : ClientAuth)

theorem loginCounter_admitted (clock : AuthClock) (named : Option String)
    (moved : Bool) : (c.admitted clock named moved).1.loginCounter = Counter.clear := by
  simp only [admitted]
  split
  · rfl
  -- Nothing was to be saved, so both fields were clear already.
  next hc =>
    simp only [Bool.or_eq_true, decide_eq_true_eq, not_or, not_not, Bool.not_eq_true,
      isSome_eq_false_iff, isNone_iff_eq_none] at hc
    simp only [loginCounter, Counter.clear, hc.2.1, hc.2.2]

theorem enrollmentCounter_stampFor (named : Option String) (now : UInt64) :
    (c.stampFor named now).1.enrollmentCounter = c.enrollmentCounter := by
  rcases named with _ | name
  · rfl
  · simp only [stampFor, recordDeviceSuccess]
    cases c.devices.lookup name <;> rfl

theorem enrollmentCounter_admitted (clock : AuthClock) (named : Option String)
    (moved : Bool) : (c.admitted clock named moved).1.enrollmentCounter = c.enrollmentCounter := by
  simp only [admitted]
  split
  · exact c.enrollmentCounter_stampFor named clock.device
  · exact c.enrollmentCounter_stampFor named clock.device

theorem enrollmentCounter_acceptVerified (named : Option String)
    (step : Option UInt64) :
    (c.acceptVerified named step).2.enrollmentCounter = c.enrollmentCounter := by
  rcases step with _ | step
  · rfl
  rcases named with _ | name
  · rfl
  · simp only [acceptVerified, acceptStepFor]
    cases c.devices.lookup name <;> rfl

theorem loginCounter_issue (credential : IssuedCredential) (now : UInt64) :
    (c.issue credential now).1.loginCounter = c.loginCounter := by
  cases credential <;> rfl

theorem enrollmentCounter_issue (credential : IssuedCredential) (now : UInt64) :
    (c.issue credential now).1.enrollmentCounter = c.enrollmentCounter := by
  cases credential <;> rfl

theorem counters_enrolled (now : UInt64) :
    (c.enrolled now).loginCounter = Counter.clear ∧
      (c.enrolled now).enrollmentCounter = Counter.clear := by
  unfold enrolled
  split
  · exact ⟨rfl, rfl⟩
  next hn =>
    simp only [hasCounters, Bool.or_eq_true, decide_eq_true_eq, not_or, not_not,
      Bool.not_eq_true, isSome_eq_false_iff, isNone_iff_eq_none] at hn
    rcases hn with ⟨⟨⟨hf, hloc⟩, htok⟩, henr⟩
    simp only [loginCounter, enrollmentCounter, Counter.clear, hf, hloc, htok, henr,
      and_self]

end ClientAuth

section

variable {cr : Crypto} {cfg : AuthConfig} {client : ClientAuth} {wrong : Nat}

theorem within_login (clock : AuthClock) (req : AuthRequest) (hmax : 0 < cfg.maxAttempts)
    (h : client.loginCounter.Within cfg.maxAttempts wrong) :
    (login cr cfg clock req client).1.loginCounter.Within cfg.maxAttempts
      (tally wrong
        (client.loginCounter.isExpired clock.refresh ||
          client.loginCounter.isExpired clock.verify.lockout)
        (isWrongCode (verifyClient cr cfg clock.verify req
          (client.refreshLockout clock.refresh)))
        (login cr cfg clock req client).2.2.isOk) := by
  rcases login_cases cr cfg clock req client with
    ⟨e, heq, hnot⟩ | ⟨heq, hver⟩ | ⟨step, moved, client', -, -, heq⟩
  -- Refused for something else than the code: nothing is counted.
  · have hunj : isWrongCode (verifyClient cr cfg clock.verify req
        (client.refreshLockout clock.refresh)) = false := by
      unfold isWrongCode
      split
      next hwr => exact absurd hwr hnot
      · rfl
      · rfl
    rw [heq, hunj]
    exact h.passed hmax clock.refresh fun hexp => by rw [hexp]; rfl
  -- A code is judged only after the lockout was found not to hold.
  · have hloc := (verifyClient_ok hver).1
    rw [heq, hver]
    exact h.judged hmax hloc cfg.lockoutDuration clock.record
  · rw [heq, loginCounter_admitted]
    exact Counter.within_clear hmax

theorem enrollmentCounter_login (clock : AuthClock) (req : AuthRequest) :
    (login cr cfg clock req client).1.enrollmentCounter = client.enrollmentCounter := by
  rcases login_cases cr cfg clock req client with
    ⟨e, heq, -⟩ | ⟨heq, -⟩ | ⟨step, moved, client', -, hs, heq⟩
  · rw [heq]
    rfl
  · rw [heq]
    rfl
  · have hk := (client.refreshLockout clock.refresh).enrollmentCounter_acceptVerified
      req.deviceId step
    rw [hs] at hk
    rw [heq, enrollmentCounter_admitted, hk]
    rfl

variable {client' : ClientAuth} {clock : EnrollClock} {reply : EnrollReply} {req : EnrollRequest}
  {secret : String}

theorem within_login_enroll (hmax : 0 < cfg.maxAttempts)
    (heff : EnrollEffect cr cfg clock req secret client client' reply)
    (h : client.loginCounter.Within cfg.maxAttempts wrong) :
    client'.loginCounter.Within cfg.maxAttempts
      (tally wrong (client.loginCounter.isExpired clock.refresh) false reply.isIssued) := by
  have hpas := h.passed hmax clock.refresh (fun hexp => hexp)
  cases heff with
  | refused | counted | unrecordable | notSaved => exact hpas
  | lost credential verdict asked =>
    rw [loginCounter_issue]
    exact hpas
  | issued credential verdict asked =>
    rw [(counters_enrolled _ clock.record).1]
    exact Counter.within_clear hmax

theorem within_enroll (hmax : 0 < cfg.maxAttempts)
    (heff : EnrollEffect cr cfg clock req secret client client' reply)
    (h : client.enrollmentCounter.Within cfg.maxAttempts wrong) :
    client'.enrollmentCounter.Within cfg.maxAttempts
      (tally wrong
        (client.enrollmentCounter.isExpired clock.refreshEnrollment ||
          client.enrollmentCounter.isExpired clock.enrollmentLockout)
        reply.isCounted reply.isIssued) := by
  have hpas : (client.enrollmentCounter.refresh clock.refreshEnrollment).Within
      cfg.maxAttempts
      (tally wrong
        (client.enrollmentCounter.isExpired clock.refreshEnrollment ||
          client.enrollmentCounter.isExpired clock.enrollmentLockout) false false) :=
    h.passed hmax clock.refreshEnrollment fun hexp => by rw [hexp]; rfl
  cases heff with
  | refused | unrecordable | notSaved => exact hpas
  | counted verdict =>
    -- A token is judged only after its own lockout was found not to hold.
    exact h.judged hmax (clientVerdict_counted verdict).2.1 cfg.lockoutDuration clock.record
  | lost credential verdict asked =>
    rw [enrollmentCounter_issue]
    exact hpas
  | issued credential verdict asked =>
    rw [(counters_enrolled _ clock.record).2]
    exact Counter.within_clear hmax

end

/-! ### While a lockout lasts -/

section

variable {cr : Crypto} {cfg : AuthConfig} {client : ClientAuth}

theorem authenticateLocked_locked {clock : AuthClock} {req : AuthRequest}
    (hen : cfg.enabled = true) (hcl : cfg.clients.lookup req.clientId = some client)
    (href : client.loginCounter.isLocked clock.refresh = true)
    (hver : client.loginCounter.isLocked clock.verify.lockout = true) :
    authenticateLocked cr cfg clock req =
      { cfg := cfg, dirty := false, verdict := .error .lockedOut } := by
  -- A lockout that lasts is not cleared, so the refresh does nothing.
  have hsame : client.refreshLockout clock.refresh = client := by
    unfold refreshLockout
    rw [Counter.refresh_of_locked href]
    rfl
  have hlog : login cr cfg clock req client = (client, false, .error .lockedOut) := by
    simp only [login, hsame, verifyClient_locked (show client.isLockedOut clock.verify.lockout =
      true from hver)]
  rw [authenticateLocked_present hen hcl, hlog]
  unfold AuthConfig.setClient
  rw [Table.insert_lookup_self hcl]

theorem enrollClient_locked {clock : EnrollClock} {req : EnrollRequest} {secret : String}
    {outcome : WriteOutcome} (hcl : cfg.clients.lookup req.clientId = some client)
    (href : client.enrollmentCounter.isLocked clock.refreshEnrollment = true)
    (hver : client.enrollmentCounter.isLocked clock.enrollmentLockout = true) :
    (enrollClient cr cfg clock req secret outcome).2 = .refused false ∧
      ((enrollClient cr cfg clock req secret outcome).1.clients.lookup req.clientId).map
        ClientAuth.enrollmentCounter = some client.enrollmentCounter := by
  have hsame : (client.refreshBoth clock).enrollmentCounter = client.enrollmentCounter :=
    Counter.refresh_of_locked href
  have hloc : (client.refreshBoth clock).isEnrollmentLockedOut clock.enrollmentLockout =
      true := by
    unfold isEnrollmentLockedOut
    rw [hsame]
    exact hver
  have hre : clientVerdict cr clock req (client.refreshBoth clock) = .refuse false := by
    unfold clientVerdict
    rw [if_pos hloc, ite_self]
  have henr : enrollClient cr cfg clock req secret outcome =
      (cfg.setClient req.clientId (client.refreshBoth clock), .refused false) := by
    unfold enrollClient
    rw [enrollDecide_present hcl, hre]
  rw [henr]
  refine ⟨rfl, ?_⟩
  rw [AuthConfig.setClient_lookup, if_pos rfl, map_some, hsame]

end

end Nexapipe
