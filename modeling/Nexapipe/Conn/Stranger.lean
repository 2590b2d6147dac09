import Nexapipe.Conn.Counters
import Nexapipe.Lib.Run

/-!
# What a stranger can do to a client

Anyone can open a connection and name a client. This module follows the messages
of peers that hold none of a client's credentials, in any number and any order,
and says what is left of the client's entry afterwards: everything but its
enrollment counter, and but a lockout that had run out, which the next message
that names the client clears.

That a response cannot be produced without the key is an assumption about the cryptography, and is
stated as one: a message that carries a right signature over its challenge was sent by someone who
holds the credential the signature is right for.
-/

namespace Nexapipe

open Option AuthConfig

/-! ### Messages -/

/-- A message of the handshake. Bytes that do not parse, and the messages the
    server sends itself, are `other`. -/
inductive AuthMessage where
  | start (clientId : String)
  | enrollStart (clientId token : String) (device publicKey : Option String)
  | response (clientId : String) (device : Option String) (timestamp : Int64) (code : String)
      (signature : List UInt8)
  | other

/-- The enrollment a first message asks for. One that names a client or a device
    that cannot be printed is turned away before the table is looked at. -/
def enrollRequest : AuthMessage → Option EnrollRequest
  | .enrollStart clientId token device publicKey =>
    if isPresentableClientId clientId && device.all isPresentableDeviceId then
      some { clientId := clientId, token := token, device := device, publicKey := publicKey }
    else none
  | .start _ | .response .. | .other => none

def authRequest (clientId : String) (nonce : List UInt8) : AuthMessage → Option AuthRequest
  | .response named device timestamp code signature =>
    if named = clientId ∧ device.all isPresentableDeviceId then
      some
        { clientId := clientId
          deviceId := device
          nonce := nonce
          timestamp := timestamp
          signature := signature
          code := code }
    else none
  | .start _ | .enrollStart .. | .other => none

inductive PeerMessage where
  | first (clock : EnrollClock) (secret : String) (outcome : WriteOutcome) (msg : AuthMessage)
  | answer (clock : AuthClock) (clientId : String) (nonce : List UInt8) (msg : AuthMessage)

namespace PeerMessage

def step (cr : Crypto) (cfg : AuthConfig) : PeerMessage → Option AuthConfig
  | first clock secret outcome msg =>
    match enrollRequest msg with
    | none => some cfg
    | some req => some (enrollClient cr cfg clock req secret outcome).1
  | answer clock clientId nonce msg =>
    if cfg.enabled then
      match authRequest clientId nonce msg with
      | none => some cfg
      | some req => some (authenticateLocked cr cfg clock req).cfg
    else none

def clearsAt (id : String) : PeerMessage → Option UInt64
  | first clock _ _ msg =>
    (enrollRequest msg).bind fun req => if req.clientId = id then some clock.refresh else none
  | answer clock clientId nonce msg =>
    (authRequest clientId nonce msg).bind fun req =>
      if req.clientId = id then some clock.refresh else none

def clears (id : String) (counter : Counter) (m : PeerMessage) : Bool :=
  (m.clearsAt id).any counter.isExpired

theorem clears_eq (id : String) (counter : Counter) (m : PeerMessage) :
    (if m.clears id counter then Counter.clear else counter) =
      ((m.clearsAt id).map counter.refresh).getD counter := by
  unfold clears
  cases m.clearsAt id <;> rfl

end PeerMessage

/-! ### What peers hold -/

/-- The credentials the peers hold: TOTP secrets, private keys by their public
    half, and enrollment tokens. -/
structure Holdings (cr : Crypto) where
  secret : List UInt8 → Prop
  key : PublicKey cr.onCurve → Prop
  token : String → Prop

variable {cr : Crypto}

def Holdings.proof (held : Holdings cr) : Proof cr → Prop
  | .secret bytes => held.secret bytes
  | .key k => held.key k

structure Holdings.StrangerTo (held : Holdings cr) (client : ClientAuth) : Prop where
  proof : ∀ device proof, selectProof cr client device = .ok proof → ¬held.proof proof
  token : ∀ token, client.pendingEnrollment = some token → ¬held.token token

/-- The message can have been sent by the peers: a signature that is right for a
    credential was made with it, and a token that is sent is one they hold. -/
def PeerMessage.SentBy (held : Holdings cr) : PeerMessage → Prop
  | first _ _ _ msg => ∀ req, enrollRequest msg = some req → held.token req.token
  | answer _ clientId nonce msg => ∀ req, authRequest clientId nonce msg = some req →
      ∀ proof : Proof cr, proof.Signs req → held.proof proof

/-! ### An entry with nothing but its counters moved -/

namespace ClientAuth

def OnlyCounters (c c' : ClientAuth) : Prop :=
  c' = (c.withLoginCounter c'.loginCounter).withEnrollmentCounter c'.enrollmentCounter

theorem OnlyCounters.refl (c : ClientAuth) : c.OnlyCounters c := rfl

variable {c c' : ClientAuth}

theorem OnlyCounters.trans {c'' : ClientAuth} (h : c.OnlyCounters c') (h' : c'.OnlyCounters c'') :
    c.OnlyCounters c'' := by
  rw [h] at h'
  exact h'

theorem onlyCounters_refreshLockout (c : ClientAuth) (now : UInt64) :
    c.OnlyCounters (c.refreshLockout now) := rfl

theorem onlyCounters_refreshBoth (c : ClientAuth) (clock : EnrollClock) :
    c.OnlyCounters (c.refreshBoth clock) := rfl

theorem onlyCounters_recordEnrollmentFailure (c : ClientAuth) (maxAttempts : UInt32)
    (lockoutDuration now : UInt64) :
    c.OnlyCounters (c.recordEnrollmentFailure maxAttempts lockoutDuration now) := rfl

theorem OnlyCounters.selectProof_eq (h : c.OnlyCounters c') (device : Option String) :
    selectProof cr c' device = selectProof cr c device := by
  rw [h]
  cases device <;> rfl

theorem OnlyCounters.pendingEnrollment_eq (h : c.OnlyCounters c') :
    c'.pendingEnrollment = c.pendingEnrollment := by
  rw [h]
  rfl

end ClientAuth

theorem Holdings.StrangerTo.onlyCounters {held : Holdings cr} {c c' : ClientAuth}
    (h : held.StrangerTo c) (hc : c.OnlyCounters c') : held.StrangerTo c' where
  proof := by
    intro device proof hp
    rw [hc.selectProof_eq] at hp
    exact h.proof device proof hp
  token := by
    intro token htoken
    rw [hc.pendingEnrollment_eq] at htoken
    exact h.token token htoken

/-! ### One message -/

section

variable {cfg : AuthConfig} {c : ClientAuth} {held : Holdings cr}

/-- Whoever sent it, a login that is refused for anything but a wrong code moves
    no counter, whether the signature, the timestamp or the device was wrong or
    the step was used before. A lockout that has run out is cleared, as always. -/
theorem authenticateLocked_uncounted {clock : AuthClock} {req : AuthRequest} {e : AuthError}
    (hen : cfg.enabled = true)
    (hver : (authenticateLocked cr cfg clock req).verdict = .error e)
    (hwhy : e ≠ .invalidCode ∨ ∃ step,
      verifyResponse cr (cfg.editClient req.clientId (·.refreshLockout clock.refresh))
        clock.verify req = .ok (.accepted step)) :
    (authenticateLocked cr cfg clock req).cfg =
      cfg.editClient req.clientId (·.refreshLockout clock.refresh) := by
  rcases hc : cfg.clients.lookup req.clientId with _ | client
  · rw [authenticateLocked_absent hen hc, editClient_absent _ hc]
  rw [editClient_present _ hc] at hwhy ⊢
  rw [authenticateLocked_present hen hc] at hver ⊢
  rw [verifyResponse_setClient hen] at hwhy
  rcases login_cases cr cfg clock req client with
    ⟨_, heq, -⟩ | ⟨heq, hve⟩ | ⟨step, moved, client', -, -, heq⟩
  · rw [heq]
  · rw [heq] at hver
    rw [hve] at hwhy
    -- A wrong code is the one refusal that is counted, and it is excluded.
    rcases hwhy with hne | ⟨step, hst⟩
    · exact absurd (Except.error.inj hver).symm hne
    · cases hst
  · simp [heq] at hver

variable {clock : EnrollClock} {req : EnrollRequest} {secret id : String} {cfg' : AuthConfig}

theorem enrollClient_counted {outcome : WriteOutcome}
    (hrep : (enrollClient cr cfg clock req secret outcome).2 = .refused true) :
    (enrollClient cr cfg clock req secret outcome).1 =
      cfg.editClient req.clientId fun c =>
        (c.refreshBoth clock).recordEnrollmentFailure cfg.maxAttempts cfg.lockoutDuration
          clock.record := by
  rcases hc : cfg.clients.lookup req.clientId with _ | client
  · simp [enrollClient_absent outcome hc] at hrep
  rcases enrollClient_effect outcome hc with ⟨client', reply, heq, heff⟩
  rw [heq] at hrep ⊢
  rw [editClient_present _ hc]
  cases heff with
  | counted verdict => rfl
  | refused verdict | unrecordable reason verdict | notSaved verdict
  | lost credential verdict asked | issued credential verdict asked => cases hrep

theorem login_unsigned {clock : AuthClock} {req : AuthRequest} (hstr : held.StrangerTo c)
    (hsent : ∀ proof : Proof cr, proof.Signs req → held.proof proof) :
    (login cr cfg clock req c).1 = c.refreshLockout clock.refresh := by
  have href := hstr.onlyCounters (c.onlyCounters_refreshLockout clock.refresh)
  -- A verdict of any kind needs a signature that checks, which only a holder of the credential can
  -- have made.
  have huns : ∀ v, verifyClient cr cfg clock.verify req (c.refreshLockout clock.refresh) ≠
      .ok v := by
    intro v hv
    rcases (verifyClient_ok hv).2 with ⟨proof, hp, hc⟩
    exact href.proof req.deviceId proof hp (hsent proof (checkProof_ok hc))
  rcases login_cases cr cfg clock req c with
    ⟨_, heq, -⟩ | ⟨-, hver⟩ | ⟨step, moved, client', hver, -, -⟩
  · rw [heq]
  · exact absurd hver (huns _)
  · exact absurd hver (huns _)

theorem enroll_uninvited {c' : ClientAuth} {reply : EnrollReply} (hstr : held.StrangerTo c)
    (hsent : held.token req.token) (heff : EnrollEffect cr cfg clock req secret c c' reply) :
    c'.loginCounter = c.loginCounter.refresh clock.refresh ∧ c.OnlyCounters c' := by
  have hb := c.onlyCounters_refreshBoth clock
  -- Only the invite itself is accepted, and a stranger does not hold it.
  have href : clientVerdict cr clock req (c.refreshBoth clock) ≠ .accept := by
    intro hacc
    exact (hstr.onlyCounters hb).token req.token (clientVerdict_accept hacc).2.2 hsent
  cases heff with
  | refused verdict => exact ⟨rfl, hb⟩
  | counted verdict =>
    exact ⟨rfl, hb.trans (ClientAuth.onlyCounters_recordEnrollmentFailure _ _ _ _)⟩
  | unrecordable reason verdict | notSaved verdict | lost credential verdict asked
  | issued credential verdict asked => exact absurd verdict href

theorem stranger_enroll (secret : String) (outcome : WriteOutcome)
    (hc : cfg.clients.lookup id = some c) (hstr : held.StrangerTo c)
    (hsent : held.token req.token) :
    ∃ c', (enrollClient cr cfg clock req secret outcome).1.clients.lookup id = some c' ∧
      c.OnlyCounters c' ∧
      c'.loginCounter =
        if req.clientId = id then c.loginCounter.refresh clock.refresh else c.loginCounter := by
  by_cases hid : req.clientId = id
  · subst hid
    rcases enrollClient_effect outcome hc with ⟨c', reply, heq, heff⟩
    rcases enroll_uninvited hstr hsent heff with ⟨hco, hon⟩
    rw [heq, setClient_lookup, if_pos rfl, if_pos rfl]
    exact ⟨c', rfl, hon, hco⟩
  · -- At most the entry of the other client is edited.
    refine ⟨c, ?_, .refl c, (if_neg hid).symm⟩
    rcases hfound : cfg.clients.lookup req.clientId with _ | found
    · rw [enrollClient_absent outcome hfound]
      exact hc
    rcases enrollClient_effect outcome hfound with ⟨c', reply, heq, -⟩
    rw [heq, setClient_lookup, if_neg (Ne.symm hid)]
    exact hc

theorem stranger_login (clock : AuthClock) {req : AuthRequest} (he : cfg.enabled = true)
    (hc : cfg.clients.lookup id = some c) (hstr : held.StrangerTo c)
    (hsent : ∀ proof : Proof cr, proof.Signs req → held.proof proof) :
    ∃ c', (authenticateLocked cr cfg clock req).cfg.clients.lookup id = some c' ∧
      c.OnlyCounters c' ∧
      c'.loginCounter =
        if req.clientId = id then c.loginCounter.refresh clock.refresh else c.loginCounter := by
  rw [authenticateLocked_cfg he, editClient_lookup]
  by_cases hid : req.clientId = id
  · subst hid
    rw [if_pos rfl, if_pos rfl, hc, map_some, login_unsigned hstr hsent]
    exact ⟨_, rfl, c.onlyCounters_refreshLockout clock.refresh, rfl⟩
  · rw [if_neg (Ne.symm hid), if_neg hid]
    exact ⟨c, hc, .refl c, rfl⟩

open PeerMessage

theorem stranger_step {m : PeerMessage} (hc : cfg.clients.lookup id = some c)
    (hstr : held.StrangerTo c) (hsent : m.SentBy held) (hst : m.step cr cfg = some cfg') :
    ∃ c', cfg'.clients.lookup id = some c' ∧ c.OnlyCounters c' ∧
      c'.loginCounter =
        if m.clears id c.loginCounter then Counter.clear else c.loginCounter := by
  rw [clears_eq]
  cases m with
  | first clock secret outcome msg =>
    rcases hreq : enrollRequest msg with _ | req
    · simp only [step, hreq, some.injEq] at hst
      subst hst
      simp only [clearsAt, hreq]
      exact ⟨c, hc, .refl c, rfl⟩
    · simp only [step, hreq, some.injEq] at hst
      subst hst
      rcases stranger_enroll secret outcome hc hstr (hsent req hreq) with
        ⟨c', hc', hon, hco⟩
      refine ⟨c', hc', hon, hco.trans ?_⟩
      simp only [clearsAt, hreq, bind_some]
      split <;> rfl
  | answer clock clientId nonce msg =>
    simp only [step] at hst
    split at hst
    next hen =>
      rcases hreq : authRequest clientId nonce msg with _ | req
      · simp only [hreq, some.injEq] at hst
        subst hst
        simp only [clearsAt, hreq]
        exact ⟨c, hc, .refl c, rfl⟩
      · simp only [hreq, some.injEq] at hst
        subst hst
        rcases stranger_login clock hen hc hstr (hsent req hreq) with
          ⟨c', hc', hon, hco⟩
        refine ⟨c', hc', hon, hco.trans ?_⟩
        simp only [clearsAt, hreq, bind_some]
        split <;> rfl
    · cases hst

theorem stranger_run {ms : List PeerMessage} (hc : cfg.clients.lookup id = some c)
    (hstr : held.StrangerTo c) (hsent : ∀ m ∈ ms, m.SentBy held)
    (hrun : Machine.run (PeerMessage.step cr) cfg ms = some cfg') :
    ∃ c', cfg'.clients.lookup id = some c' ∧ c.OnlyCounters c' ∧
      c'.loginCounter =
        if ms.any (·.clears id c.loginCounter) then Counter.clear else c.loginCounter := by
  induction ms generalizing cfg c with
  | nil =>
    cases hrun
    exact ⟨c, hc, .refl c, rfl⟩
  | cons m ms ih =>
    rcases Machine.run_cons_eq_some.mp hrun with ⟨cfg₁, hst, hre⟩
    rw [List.forall_mem_cons] at hsent
    rcases stranger_step hc hstr hsent.1 hst with ⟨c₁, hc₁, hon, hco⟩
    rcases ih hc₁ (hstr.onlyCounters hon) hsent.2 hre with ⟨c', hc', hon', hco'⟩
    refine ⟨c', hc', hon.trans hon', ?_⟩
    rw [hco', hco, List.any_cons]
    rcases hcl : m.clears id c.loginCounter with _ | _
    · simp only [Bool.false_eq_true, if_false, Bool.false_or]
    · -- Once cleared, a counter that is clear is all there is to clear.
      simp only [if_true, Bool.true_or, ite_self]

/-- A stranger cannot lock a client out. Messages of peers that hold none of a
    client's credentials, whatever they say and however many, leave its login
    counter and its lockout as they were, but for a lockout that had run out, and
    move nothing else of its entry but the enrollment counter. And whoever sends
    them, a wrong token moves the enrollment counter alone, and a response that is
    refused for its signature, its timestamp, its device or a step that was used
    before moves no counter at all. -/
theorem stranger_cannot_lock_out {id : String} {cfg' : AuthConfig} {ms : List PeerMessage}
    (hc : cfg.clients.lookup id = some c) (hstranger : held.StrangerTo c)
    (hsent : ∀ m ∈ ms, m.SentBy held)
    (hrun : Machine.run (PeerMessage.step cr) cfg ms = some cfg') :
    (∃ c', cfg'.clients.lookup id = some c' ∧ c.OnlyCounters c' ∧
      c'.loginCounter =
        if ms.any (·.clears id c.loginCounter) then Counter.clear else c.loginCounter) ∧
    (∀ clock req secret outcome,
      (enrollClient cr cfg' clock req secret outcome).2 = .refused true →
      (enrollClient cr cfg' clock req secret outcome).1 =
        cfg'.editClient req.clientId fun c =>
          (c.refreshBoth clock).recordEnrollmentFailure cfg'.maxAttempts cfg'.lockoutDuration
            clock.record) ∧
    ∀ clock req e, cfg'.enabled = true →
      (authenticateLocked cr cfg' clock req).verdict = .error e →
      (e ≠ .invalidCode ∨ ∃ step,
        verifyResponse cr (cfg'.editClient req.clientId (·.refreshLockout clock.refresh))
          clock.verify req = .ok (.accepted step)) →
      (authenticateLocked cr cfg' clock req).cfg =
        cfg'.editClient req.clientId (·.refreshLockout clock.refresh) :=
  ⟨stranger_run hc hstranger hsent hrun,
    fun _ _ _ _ hreply => enrollClient_counted hreply,
    fun _ _ _ henabled hverdict hwhy => authenticateLocked_uncounted henabled hverdict hwhy⟩

end

/-! ### Strangers at work -/

def nobody : Holdings Crypto.toy :=
  { secret := fun _ => False
    key := fun _ => False
    token := (· = "guess") }

def lockedClient : ClientAuth :=
  { ClientAuth.ofSecret "K" with
    pendingEnrollment := some "T"
    failedAttempts := 5
    lockedUntil := some 100 }

def forgedAnswer (now : UInt64) : PeerMessage :=
  .answer (.all now) "alice" [1] (.response "alice" none now.toInt64 "000000" [2])

def guessedToken (now : UInt64) : PeerMessage :=
  .first (.all now) "S" .saved (.enrollStart "alice" "guess" none none)

theorem nobody_strangerTo_lockedClient : nobody.StrangerTo lockedClient where
  proof := by
    intro device proof _ hh
    cases proof <;> exact hh
  token := by
    intro token htoken hh
    cases htoken
    exact absurd (show "T" = "guess" from hh) (by decide)

theorem forgedAnswer_sentBy_nobody (now : UInt64) : (forgedAnswer now).SentBy nobody := by
  intro req hreq proof hsig
  cases hreq
  cases proof with
  | secret bytes =>
    have he : ([1] : List UInt8) = [2] := some.inj hsig
    exact absurd he (by decide)
  | key k => exact absurd hsig Bool.false_ne_true

theorem guessedToken_sentBy_nobody (now : UInt64) : (guessedToken now).SentBy nobody := by
  intro req hreq
  cases hreq
  rfl

def strangersAtWork : List PeerMessage :=
  [forgedAnswer 50, guessedToken 60, .first (.all 70) "S" .saved .other, guessedToken 110,
    forgedAnswer 120]

/-- While the lockout runs the counters stand, a message after it clears them, and
    the guesses that follow are counted on the other side only. -/
theorem stranger_cannot_lock_out_guesses :
    ∃ cfg' c', Machine.run (PeerMessage.step Crypto.toy)
        (AuthConfig.gated [("alice", lockedClient)]) strangersAtWork = some cfg' ∧
      cfg'.clients.lookup "alice" = some c' ∧ c'.loginCounter = Counter.clear ∧
      c'.enrollmentFailedAttempts = 1 := by
  have hsent : ∀ m ∈ strangersAtWork, m.SentBy nobody := by
    unfold strangersAtWork
    simp only [List.forall_mem_cons]
    refine ⟨forgedAnswer_sentBy_nobody 50, guessedToken_sentBy_nobody 60, ?_,
      guessedToken_sentBy_nobody 110, forgedAnswer_sentBy_nobody 120, ?_⟩
    · intro req hreq
      cases hreq
    · exact fun _ hm => absurd hm List.not_mem_nil
  have hvi : ((Machine.run (PeerMessage.step Crypto.toy)
      (AuthConfig.gated [("alice", lockedClient)]) strangersAtWork).bind fun cfg =>
        (cfg.clients.lookup "alice").map ClientAuth.enrollmentFailedAttempts) = some 1 := by decide
  rcases bind_eq_some_iff.mp hvi with ⟨cfg', hrun, hfound⟩
  rcases map_eq_some_iff.mp hfound with ⟨c', hc', hfa⟩
  have hal : (gated [("alice", lockedClient)]).clients.lookup "alice" =
      some lockedClient := rfl
  rcases (stranger_cannot_lock_out hal nobody_strangerTo_lockedClient hsent hrun).1 with
    ⟨c'', hc'', -, hco⟩
  rw [hc'] at hc''
  cases hc''
  exact ⟨cfg', c', hrun, hc', hco.trans (by decide), hfa⟩

/-- A message of a stranger does move the two fields when it finds a lockout that
    has run out: it clears them. -/
theorem stranger_clears_expired_lockout :
    nobody.StrangerTo lockedClient ∧ (forgedAnswer 200).SentBy nobody ∧
      ∃ cfg' c', Machine.run (PeerMessage.step Crypto.toy)
          (AuthConfig.gated [("alice", lockedClient)]) [forgedAnswer 200] = some cfg' ∧
        cfg'.clients.lookup "alice" = some c' ∧
        c'.failedAttempts ≠ lockedClient.failedAttempts ∧
        c'.lockedUntil ≠ lockedClient.lockedUntil := by
  refine ⟨nobody_strangerTo_lockedClient, forgedAnswer_sentBy_nobody 200, ?_⟩
  exact ⟨_, _, rfl, rfl, by decide, by decide⟩

end Nexapipe
