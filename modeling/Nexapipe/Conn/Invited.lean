import Nexapipe.Conn.Enrollment

/-!
# What an enrollment may touch

An accepted enrollment is an edit of one client's entry. It spends the token the
client was waiting with and puts one credential in: the client's own, or the row of
the device the message names. `InvitedChange` says what else may differ afterwards,
which is the counters of the two lockouts and the stamp of the last use, and it is
closed under doing one change after another, so the handler is followed change by
change: lockouts that ran out are cleared, the credential is issued, the counters
are cleared.

A storage write that fails takes the credential out again.
-/

namespace Nexapipe

section

variable {cr : Crypto} {cfg : AuthConfig} {clock : EnrollClock} {req : EnrollRequest}
  {client : ClientAuth}

/-! ### Taking an enrollment back -/

theorem setClient_self (h : cfg.clients.lookup req.clientId = some client) :
    cfg.setClient req.clientId client = cfg := by
  unfold AuthConfig.setClient
  rw [Table.insert_lookup_self h]

theorem clientVerdict_of_accept (h : enrollmentVerdict cr cfg clock req = .accept) :
    ∃ client, cfg.clients.lookup req.clientId = some client ∧
      clientVerdict cr clock req client = .accept := by
  unfold enrollmentVerdict at h
  rcases hcl : cfg.clients.lookup req.clientId with _ | client
  · simp [hcl] at h
  · rw [hcl] at h
    exact ⟨client, rfl, h⟩

/-- Issuing any credential on an accepted token and undoing it leaves the
    configuration as it was. -/
theorem undo_restores_configuration (cr : Crypto) (cfg : AuthConfig) (clock : EnrollClock)
    (req : EnrollRequest) (issued : IssuedCredential) (now : UInt64)
    (haccept : enrollmentVerdict cr cfg clock req = .accept) :
    undoEnrolledSecret (issueEnrolledSecret cfg req.clientId issued now).1 req.clientId
      (issueEnrolledSecret cfg req.clientId issued now).2 req.token = cfg := by
  rcases clientVerdict_of_accept haccept with ⟨client, hcl, hver⟩
  have hpen := (clientVerdict_accept hver).2.2
  unfold undoEnrolledSecret issueEnrolledSecret
  rw [hcl]
  simp only [AuthConfig.editClient_setClient]
  -- The entry is what it was, and so is the table it is written back to.
  rw [undo_issue issued now hpen, setClient_self hcl]

def keyedPhone : DeviceAuth :=
  { secret := "", publicKey := some "ab", createdAt := "", lastUsed := some 7,
    lastUsedStep := none }

def waitingClient : ClientAuth :=
  { ClientAuth.ofSecret "MFRGGZDF" with
    pendingEnrollment := some "token"
    devices := Table.ofList [("phone", keyedPhone)]
    failedAttempts := 1 }

def waitingAsks (device : Option String) : EnrollRequest :=
  { clientId := "alice", token := "token", device := device, publicKey := none }

theorem undo_restores_configuration_laptop :
    undoEnrolledSecret
      (issueEnrolledSecret (.gated [("alice", waitingClient)]) "alice"
        (.deviceSecret "laptop" "NB2HI4DT") 9).1 "alice"
      (issueEnrolledSecret (.gated [("alice", waitingClient)]) "alice"
        (.deviceSecret "laptop" "NB2HI4DT") 9).2 "token" = .gated [("alice", waitingClient)] :=
  undo_restores_configuration Crypto.toy (.gated [("alice", waitingClient)]) (.all 0)
    (waitingAsks (some "laptop")) (.deviceSecret "laptop" "NB2HI4DT") 9 (by decide)

/-! ### What is invited -/

def ClientAuth.uninvited (c : ClientAuth) : ClientAuth :=
  { c with
    secret := ""
    pendingEnrollment := none
    devices := ∅
    lastUsed := none
    failedAttempts := 0
    lockedUntil := none
    enrollmentFailedAttempts := 0
    enrollmentLockedUntil := none }

structure InvitedChange (device : Option String) (now : UInt64) (before after : ClientAuth) :
    Prop where
  standing : after.uninvited = before.uninvited
  token : after.pendingEnrollment = before.pendingEnrollment ∨ after.pendingEnrollment = none
  /-- A named enrollment leaves the client's own credential alone. -/
  secret : device ≠ none → after.secret = before.secret
  /-- Every device but the named one keeps its row. -/
  others : ∀ name, device ≠ some name → after.devices.lookup name = before.devices.lookup name
  enrollment : after.enrollmentCounter = before.enrollmentCounter ∨
    after.enrollmentCounter = Counter.clear
  login : after.loginCounter = before.loginCounter ∨ after.loginCounter = Counter.clear
  stamp : after.lastUsed = before.lastUsed ∨ after.lastUsed = some now

theorem InvitedChange.trans {device : Option String} {now : UInt64} {a b c : ClientAuth}
    (hab : InvitedChange device now a b) (hbc : InvitedChange device now b c) :
    InvitedChange device now a c := by
  have either {α : Type} {x y z w : α} (hxy : y = x ∨ y = w) (hyz : z = y ∨ z = w) :
      z = x ∨ z = w := by
    rcases hyz with rfl | hw
    · exact hxy
    · exact .inr hw
  exact
    { standing := hbc.standing.trans hab.standing
      token := either hab.token hbc.token
      secret := fun h => (hbc.secret h).trans (hab.secret h)
      others := fun name h => (hbc.others name h).trans (hab.others name h)
      enrollment := either hab.enrollment hbc.enrollment
      login := either hab.login hbc.login
      stamp := either hab.stamp hbc.stamp }

theorem Counter.refresh_cases (c : Counter) (now : UInt64) :
    c.refresh now = c ∨ c.refresh now = Counter.clear := by
  unfold Counter.refresh
  split
  · exact .inr rfl
  · exact .inl rfl

theorem invitedChange_refreshBoth (client : ClientAuth) (clock : EnrollClock)
    (device : Option String) :
    InvitedChange device clock.record client (client.refreshBoth clock) :=
  { standing := rfl
    token := .inl rfl
    secret := fun _ => rfl
    others := fun _ _ => rfl
    enrollment := Counter.refresh_cases client.enrollmentCounter clock.refreshEnrollment
    login := Counter.refresh_cases client.loginCounter clock.refresh
    stamp := .inl rfl }

theorem invitedChange_issueDevice (client : ClientAuth) (name : String) (row : DeviceAuth)
    (now : UInt64) : InvitedChange (some name) now client (client.issueDevice name row).1 := by
  refine ⟨rfl, .inr rfl, fun _ => rfl, ?_, .inl rfl, .inl rfl, .inl rfl⟩
  intro other hoth
  have hne : other ≠ name := fun h => hoth (congrArg some h.symm)
  simp only [ClientAuth.issueDevice, Table.lookup_insert_eq, if_neg hne]

theorem device_eq_none_of_credentialFor {secret shared : String}
    (h : credentialFor cr req secret = .ok (.sharedSecret shared)) : req.device = none := by
  unfold credentialFor at h
  split at h
  · split at h
    · cases h
    next hdev => exact hdev
  · split at h
    · cases h
    · split at h <;> cases h

theorem invitedChange_issue {secret : String} {credential : IssuedCredential}
    (h : credentialFor cr req secret = .ok credential) (client : ClientAuth) (at' now : UInt64) :
    InvitedChange req.device now client (client.issue credential at').1 := by
  rcases credentialFor_cases h with ⟨name, hn, rfl⟩ | ⟨name, key, hn, rfl⟩ | rfl
  · rw [hn]
    exact invitedChange_issueDevice client name _ now
  · rw [hn]
    exact invitedChange_issueDevice client name _ now
  · -- The client's own credential is issued to nobody who gave a name.
    have hno := device_eq_none_of_credentialFor h
    exact ⟨rfl, .inr rfl, fun hs => absurd hno hs, fun _ _ => rfl, .inl rfl,
      .inl rfl, .inl rfl⟩

theorem invitedChange_enrolled (client : ClientAuth) (device : Option String) (now : UInt64) :
    InvitedChange device now client (client.enrolled now) := by
  unfold ClientAuth.enrolled
  split
  · exact ⟨rfl, .inl rfl, fun _ => rfl, fun _ _ => rfl, .inr rfl, .inr rfl, .inr rfl⟩
  · exact ⟨rfl, .inl rfl, fun _ => rfl, fun _ _ => rfl, .inl rfl, .inl rfl, .inl rfl⟩

/-! ### What was asked -/

theorem token_ne_empty_of_accept (h : clientVerdict cr clock req client = .accept) :
    req.token ≠ "" := by
  rcases clientVerdict_accept h with ⟨hloc, henr, hpen⟩
  intro hnil
  have hn : client.pendingEnrollment.filter (· ≠ "") = none := by
    rw [hpen, hnil]
    decide
  unfold clientVerdict at h
  simp only [hloc, henr, hn, Bool.false_eq_true, if_false] at h
  cases h

theorem unlocked_of_refreshed {c : Counter} {refreshed asked : UInt64}
    (h : (c.refresh refreshed).isLocked asked = false) :
    c.isLocked refreshed = false ∨ c.isLocked asked = false := by
  by_cases hexp : c.isExpired refreshed = true
  · left
    unfold Counter.isExpired at hexp
    unfold Counter.isLocked
    rcases hloc : c.lockedUntil with _ | expiry
    · rfl
    · simp only [hloc, decide_eq_true_eq] at hexp
      simpa using hexp
  · right
    rwa [Counter.refresh, if_neg hexp] at h

theorem key_on_file {entry : DeviceAuth} {offered : Option String}
    (h : holdsTheKeyOnFile cr entry offered = true) :
    ∃ text key, offered = some text ∧ parsePublicKey cr.onCurve text = .ok key ∧
      entry.publicKey = some (publicKeyHex key) := by
  revert h
  fun_cases holdsTheKeyOnFile cr entry offered with
  | case4 text stored hstored key hkey =>
    intro h
    refine ⟨text, key, rfl, hkey, ?_⟩
    rw [hstored, (constantTimeEq_utf8 _ _).mp h]
  | _ => rintro ⟨⟩

end

/-- Whatever comes of an ENROLL message whose token is accepted, the token is the
    client's and not empty, and nothing but what it invites to has changed. -/
theorem enrollment_touches_invited (cr : Crypto) (cfg : AuthConfig) (clock : EnrollClock)
    (req : EnrollRequest) (secret : String) (outcome : WriteOutcome)
    (haccepted : ∀ counted, (enrollClient cr cfg clock req secret outcome).2 ≠ .refused counted) :
    ∃ before after, cfg.clients.lookup req.clientId = some before ∧
      (enrollClient cr cfg clock req secret outcome).1 = cfg.setClient req.clientId after ∧
      req.token ≠ "" ∧ before.pendingEnrollment = some req.token ∧
      (before.isEnrollmentLockedOut clock.refreshEnrollment = false ∨
        before.isEnrollmentLockedOut clock.enrollmentLockout = false) ∧
      InvitedChange req.device clock.record before after ∧
      ∀ name entry, req.device = some name → before.devices.lookup name = some entry →
        ∃ text key, req.publicKey = some text ∧ parsePublicKey cr.onCurve text = .ok key ∧
          entry.publicKey = some (publicKeyHex key) := by
  rcases hcl : cfg.clients.lookup req.clientId with _ | before
  · rw [enrollClient_absent outcome hcl] at haccepted
    exact absurd rfl (haccepted false)
  rcases @enrollClient_effect cr cfg clock req before secret outcome hcl with
    ⟨after, reply, hrun, heff⟩
  rw [hrun] at haccepted ⊢
  have href := invitedChange_refreshBoth before clock req.device
  -- Every reply but a refusal comes after the same verdict.
  have hca : clientVerdict cr clock req (before.refreshBoth clock) = .accept ∧
      InvitedChange req.device clock.record before after := by
    cases heff with
    | refused | counted => exact absurd rfl (haccepted _)
    | unrecordable _ verdict | notSaved verdict => exact ⟨verdict, href⟩
    | lost _ verdict asked =>
      exact ⟨verdict, href.trans (invitedChange_issue asked _ _ _)⟩
    | issued _ verdict asked =>
      exact ⟨verdict, (href.trans (invitedChange_issue asked _ _ _)).trans
        (invitedChange_enrolled _ _ _)⟩
  rcases hca with ⟨hver, hch⟩
  rcases clientVerdict_accept hver with ⟨-, hunl, hpen⟩
  refine ⟨before, after, rfl, rfl, token_ne_empty_of_accept hver, hpen,
    unlocked_of_refreshed hunl, hch, ?_⟩
  intro name entry hna hentry
  exact key_on_file (clientVerdict_accept_device hver hna hentry)

theorem enrollment_touches_invited_laptop :
    ∃ after, (enrollClient Crypto.toy (.gated [("alice", waitingClient)]) (.all 9)
        (waitingAsks (some "laptop")) "NB2HI4DT" .saved).1 =
        AuthConfig.setClient (.gated [("alice", waitingClient)]) "alice" after ∧
      after.secret = "MFRGGZDF" ∧ after.devices.lookup "phone" = some keyedPhone := by
  rcases enrollment_touches_invited Crypto.toy (.gated [("alice", waitingClient)]) (.all 9)
    (waitingAsks (some "laptop")) "NB2HI4DT" .saved (by decide) with
    ⟨before, after, hbef, haft, -, -, -, hc, -⟩
  have hentry : before = waitingClient := Option.some.inj (hbef.symm.trans (by decide))
  rw [hentry] at hc
  refine ⟨after, haft, hc.secret (by decide), ?_⟩
  exact (hc.others "phone" (by decide)).trans (by decide)

/-- A saved enrollment forgives the codes the client mistyped and stamps the client as
    used, for a device that was not there before. -/
theorem enrollment_clears_login_counter :
    ((enrollClient Crypto.toy (.gated [("alice", waitingClient)]) (.all 9)
        (waitingAsks (some "laptop")) "NB2HI4DT" .saved).1.clients.lookup "alice").map
          (fun c => (c.failedAttempts, c.lastUsed)) = some (0, some 9) ∧
      (waitingClient.failedAttempts, waitingClient.lastUsed) = (1, none) := by
  decide

end Nexapipe
