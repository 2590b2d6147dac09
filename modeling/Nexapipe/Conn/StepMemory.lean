import Nexapipe.Auth.State
import Nexapipe.Config.Accepted
import Nexapipe.Conn.Authenticator
import Nexapipe.Conn.Enrollment
import Nexapipe.Watcher.Reload

/-!
# The hands a replay memory passes through

The step a TOTP credential was last accepted on is moved by a login under the auth lock, kept by an
enrollment, merged by a reload with the one the file records, and taken from the state file by a
load.
-/

namespace Nexapipe

open Option AuthConfig ClientAuth Table

/-! ### The order on memories -/

def StepLe (a b : Option UInt64) : Prop :=
  ∀ x ∈ a, ∃ y ∈ b, x ≤ y

theorem StepLe.refl (a : Option UInt64) : StepLe a a :=
  fun x hx => ⟨x, hx, UInt64.le_refl x⟩

theorem StepLe.trans {a b c : Option UInt64} (hab : StepLe a b) (hbc : StepLe b c) :
    StepLe a c := by
  intro x hx
  rcases hab x hx with ⟨y, hy, hxy⟩
  rcases hbc y hy with ⟨z, hz, hyz⟩
  exact ⟨z, hz, UInt64.le_trans hxy hyz⟩

theorem stepLe_none (a : Option UInt64) : StepLe none a :=
  fun x hx => absurd hx (not_mem_none x)

theorem newestStep_of_le {a b : Option UInt64} (h : StepLe b a) : newestStep a b = a := by
  rcases b with _ | y
  · cases a <;> rfl
  rcases h y rfl with ⟨x, hx, hyx⟩
  cases hx
  simp only [newestStep, UInt64.max_def, some.injEq]
  split
  next hxy => exact (UInt64.le_antisymm hxy hyx).symm
  · rfl

/-! ### One client's memory -/

namespace ClientAuth

variable (c : ClientAuth)

theorem stepFor_withLoginCounter (k : Counter) (device : Option String) :
    (c.withLoginCounter k).stepFor device = c.stepFor device := by
  cases device <;> rfl

theorem stepFor_withEnrollmentCounter (k : Counter) (device : Option String) :
    (c.withEnrollmentCounter k).stepFor device = c.stepFor device := by
  cases device <;> rfl

theorem stepFor_recordSuccess (now : UInt64) (device : Option String) :
    (c.recordSuccess now).stepFor device = c.stepFor device := by
  cases device <;> rfl

theorem stepFor_stampFor (named : Option String) (now : UInt64)
    (device : Option String) : (c.stampFor named now).1.stepFor device = c.stepFor device := by
  rcases named with _ | name
  · rfl
  simp only [stampFor, recordDeviceSuccess]
  rcases hd : c.devices.lookup name with _ | entry
  · rfl
  rcases device with _ | other
  · rfl
  simp only [stepFor, lookup_insert_eq]
  -- A stamp rewrites the device's row, with its step as it was.
  by_cases hoth : other = name
  · rw [if_pos hoth, hoth, hd]
    rfl
  · rw [if_neg hoth]

theorem stepFor_admitted (clock : AuthClock) (named : Option String)
    (moved : Bool) (device : Option String) :
    (c.admitted clock named moved).1.stepFor device = c.stepFor device := by
  simp only [admitted]
  split
  · rw [stepFor_recordSuccess, stepFor_stampFor]
  · exact stepFor_stampFor c named clock.device device

variable {named : Option String}

theorem stepFor_acceptStepFor_ne {device : Option String} (step : UInt64)
    (h : device ≠ named) : (c.acceptStepFor named step).2.stepFor device = c.stepFor device := by
  rcases named with _ | name
  · rcases device with _ | name
    · exact absurd rfl h
    · rfl
  simp only [acceptStepFor]
  rcases c.devices.lookup name with _ | entry
  · rfl
  rcases device with _ | other
  · rfl
  · have hoth : other ≠ name := fun heq => h (congrArg some heq)
    simp only [stepFor, lookup_insert_eq, if_neg hoth]

theorem stepFor_acceptStepFor {c : ClientAuth} {step : UInt64} {moved : Bool}
    (h : (c.acceptStepFor named step).1 = .accepted moved) :
    (c.acceptStepFor named step).2.stepFor named = some step ∧
      StepLe (c.stepFor named) (some step) := by
  rcases named with _ | name
  · -- Without a device the memory is the client's own.
    have hacc := @acceptStep_accepted c.lastUsedStep step moved h
    exact ⟨hacc.1, fun previous hp => ⟨step, rfl, hacc.2 previous hp⟩⟩
  simp only [acceptStepFor] at h ⊢
  rcases hd : c.devices.lookup name with _ | entry
  · simp [hd] at h
  rw [hd] at h
  have hacc := @acceptStep_accepted entry.lastUsedStep step moved h
  simp only [stepFor, lookup_insert_eq, if_pos, hd, bind_some]
  exact ⟨hacc.1, fun previous hp =>
    ⟨step, rfl, hacc.2 previous hp⟩⟩

end ClientAuth

def admittedStep (verified : Except AuthError Verified) (verdict : Except AuthError ClientAcl) :
    Option UInt64 :=
  match verdict with
  | .error _ => none
  | .ok _ =>
    match verified with
    | .ok (.accepted step) => step
    | .ok .wrongCode | .error _ => none

section

variable (cr : Crypto)

def loginStep (cfg : AuthConfig) (clock : AuthClock) (req : AuthRequest) (client : ClientAuth) :
    Option UInt64 :=
  admittedStep (verifyClient cr cfg clock.verify req (client.refreshLockout clock.refresh))
    (login cr cfg clock req client).2.2

def acceptedStep (cfg : AuthConfig) (clock : AuthClock) (req : AuthRequest) : Option UInt64 :=
  admittedStep (verifyResponse cr
      (cfg.editClient req.clientId (·.refreshLockout clock.refresh)) clock.verify req)
    (authenticateLocked cr cfg clock req).verdict

theorem acceptedStep_eq {cfg : AuthConfig} (clock : AuthClock) (req : AuthRequest)
    (he : cfg.enabled = true) :
    acceptedStep cr cfg clock req =
      (cfg.clients.lookup req.clientId).bind (loginStep cr cfg clock req) := by
  unfold acceptedStep
  rcases hc : cfg.clients.lookup req.clientId with _ | client
  · rw [authenticateLocked_absent he hc]
    rfl
  rw [authenticateLocked_present he hc, editClient_present _ hc,
    verifyResponse_setClient he]
  rfl

theorem stepFor_login (cfg : AuthConfig) (clock : AuthClock) (req : AuthRequest)
    (client : ClientAuth) (device : Option String) :
    (login cr cfg clock req client).1.stepFor device =
      if device = req.deviceId then
        (loginStep cr cfg clock req client).or (client.stepFor device)
      else client.stepFor device := by
  have href : (client.refreshLockout clock.refresh).stepFor device = client.stepFor device :=
    client.stepFor_withLoginCounter _ device
  unfold loginStep
  rcases login_cases cr cfg clock req client with
    ⟨e, heq, -⟩ | ⟨heq, -⟩ | ⟨step, moved, client', hver, hst, heq⟩
  -- Refused: nothing was admitted, so there is no step.
  · simp only [heq, href, admittedStep, none_or, ite_self]
  -- A wrong code moves the counter and no memory.
  · have hfa := (client.refreshLockout clock.refresh).stepFor_withLoginCounter
      ((client.refreshLockout clock.refresh).loginCounter.countFailure cfg.maxAttempts
        cfg.lockoutDuration clock.record) device
    simp only [heq, admittedStep, none_or, ite_self]
    exact hfa.trans href
  · simp only [hver, heq, admittedStep, stepFor_admitted]
    rcases step with _ | step
    · -- A key device: there was no code, and no step to remember.
      cases hst
      simp only [href, none_or, ite_self]
    have hmov : ((client.refreshLockout clock.refresh).acceptStepFor req.deviceId step) =
        (.accepted moved, client') := hst
    by_cases hdev : device = req.deviceId
    · rw [if_pos hdev, hdev]
      have hacc := stepFor_acceptStepFor (congrArg Prod.fst hmov)
      rw [hmov] at hacc
      exact hacc.1
    · rw [if_neg hdev]
      have hoth := (client.refreshLockout clock.refresh).stepFor_acceptStepFor_ne step hdev
      rw [hmov] at hoth
      exact hoth.trans href

theorem stepLe_loginStep {cfg : AuthConfig} {clock : AuthClock} {req : AuthRequest}
    {client : ClientAuth} {step : UInt64} (h : loginStep cr cfg clock req client = some step) :
    StepLe (client.stepFor req.deviceId) (some step) := by
  unfold loginStep at h
  rcases login_cases cr cfg clock req client with
    ⟨e, heq, -⟩ | ⟨heq, -⟩ | ⟨step', moved, client', hver, hs, heq⟩
  · simp [heq, admittedStep] at h
  · simp [heq, admittedStep] at h
  · simp only [hver, heq, admittedStep] at h
    subst h
    have hmov : ((client.refreshLockout clock.refresh).acceptStepFor req.deviceId step) =
        (.accepted moved, client') := hs
    exact (stepFor_acceptStepFor (congrArg Prod.fst hmov)).2

end

namespace ClientAuth

variable {device : Option String}

theorem stepFor_issueDevice {c : ClientAuth} {name : String} (row : DeviceAuth)
    (hkey : ∀ entry, c.devices.lookup name = some entry → entry.publicKey.isSome = true)
    (ht : c.hasTotp device = true) :
    (c.issueDevice name row).1.stepFor device = c.stepFor device := by
  rcases device with _ | other
  · rfl
  simp only [issueDevice, stepFor, lookup_insert_eq]
  by_cases hoth : other = name
  -- The row that is replaced holds a key, and the credential in question is not one.
  · rcases (any_eq_true _ _).mp ht with ⟨entry, hentry, hn⟩
    rw [hoth] at hentry
    have hs := hkey entry hentry
    rw [isNone_iff_eq_none] at hn
    rw [hn] at hs
    cases hs
  · rw [if_neg hoth]

theorem stepFor_issue {cr : Crypto} {clock : EnrollClock} {req : EnrollRequest} {secret : String}
    {c : ClientAuth} {credential : IssuedCredential} (now : UInt64)
    (hver : clientVerdict cr clock req c = .accept)
    (hask : credentialFor cr req secret = .ok credential) (ht : c.hasTotp device = true) :
    (c.issue credential now).1.stepFor device = c.stepFor device := by
  have hkey : ∀ name, req.device = some name → ∀ entry, c.devices.lookup name = some entry →
      entry.publicKey.isSome = true := fun name hn entry hentry =>
    publicKey_isSome_of_holdsTheKeyOnFile (clientVerdict_accept_device hver hn hentry)
  -- The shared secret has the client's own memory, which an enrollment does not touch.
  rcases credentialFor_cases hask with ⟨name, hn, rfl⟩ | ⟨name, key, hn, rfl⟩ | rfl
  · exact stepFor_issueDevice _ (hkey name hn) ht
  · exact stepFor_issueDevice _ (hkey name hn) ht
  · cases device <;> rfl

theorem stepFor_refreshBoth (c : ClientAuth) (clock : EnrollClock) (device : Option String) :
    (c.refreshBoth clock).stepFor device = c.stepFor device := by
  cases device <;> rfl

theorem stepFor_enrolled (c : ClientAuth) (now : UInt64) (device : Option String) :
    (c.enrolled now).stepFor device = c.stepFor device := by
  unfold enrolled
  split
  · cases device <;> rfl
  · rfl

theorem stepFor_mergeClient {existing incoming : ClientAuth}
    (hbef : existing.hasTotp device = true)
    (haft : (mergeClient existing incoming).hasTotp device = true) :
    (mergeClient existing incoming).stepFor device =
      newestStep (existing.stepFor device) (incoming.stepFor device) := by
  rcases device with _ | name
  · rfl
  rcases (any_eq_true _ _).mp hbef with ⟨entry, hentry, -⟩
  rcases (any_eq_true _ _).mp haft with ⟨merged, hmer, -⟩
  simp only [mergeClient, lookup_mapVals] at hmer
  rcases map_eq_some_iff.mp hmer with ⟨row, hrow, -⟩
  simp only [mergeClient, stepFor, lookup_mapVals, hrow, hentry, map_some,
    bind_some]

end ClientAuth

theorem stepFor_enroll {cr : Crypto} {cfg : AuthConfig} {clock : EnrollClock}
    {req : EnrollRequest} {secret : String} {client client' : ClientAuth} {reply : EnrollReply}
    {device : Option String} (h : EnrollEffect cr cfg clock req secret client client' reply)
    (hto : client.hasTotp device = true) :
    client'.stepFor device = client.stepFor device := by
  have hbo : (client.refreshBoth clock).hasTotp device = true := by
    cases device <;> exact hto
  have href := client.stepFor_refreshBoth clock device
  cases h with
  | refused | unrecordable | notSaved => exact href
  | counted verdict =>
    exact ((client.refreshBoth clock).stepFor_withEnrollmentCounter _ device).trans href
  | lost credential verdict asked =>
    exact (stepFor_issue clock.createdAt verdict asked hbo).trans href
  | issued credential verdict asked =>
    rw [stepFor_enrolled]
    exact (stepFor_issue clock.createdAt verdict asked hbo).trans href

/-! ### The memory of the table -/

section

variable {cr : Crypto} {cfg : AuthConfig} {key : Credential}

theorem stepOf_authenticate (clock : AuthClock) (req : AuthRequest)
    (he : cfg.enabled = true) :
    (authenticateLocked cr cfg clock req).cfg.stepOf key =
      if key = ⟨req.clientId, req.deviceId⟩ then
        (acceptedStep cr cfg clock req).or (cfg.stepOf key)
      else cfg.stepOf key := by
  rcases key with ⟨clientId, device⟩
  rw [authenticateLocked_cfg he, acceptedStep_eq cr clock req he]
  simp only [stepOf, editClient_lookup, Credential.mk.injEq]
  by_cases hid : clientId = req.clientId
  · subst hid
    rcases cfg.clients.lookup req.clientId with _ | client
    · simp
    · simp only [if_true, true_and, map_some, bind_some]
      exact stepFor_login cr cfg clock req client device
  · simp only [hid, false_and, if_false]

theorem stepLe_acceptedStep {clock : AuthClock} {req : AuthRequest} {step : UInt64}
    (he : cfg.enabled = true) (h : acceptedStep cr cfg clock req = some step) :
    StepLe (cfg.stepOf ⟨req.clientId, req.deviceId⟩) (some step) := by
  rw [acceptedStep_eq cr clock req he] at h
  rcases bind_eq_some_iff.mp h with ⟨client, hcl, hs⟩
  simp only [stepOf, hcl, bind_some]
  exact stepLe_loginStep cr hs

theorem stepOf_enrollClient (clock : EnrollClock) (req : EnrollRequest) (secret : String)
    (outcome : WriteOutcome) (ht : cfg.hasTotp key = true) :
    (enrollClient cr cfg clock req secret outcome).1.stepOf key = cfg.stepOf key := by
  rcases hasTotp_iff.mp ht with ⟨client, hcl, hdev⟩
  rcases hc : cfg.clients.lookup req.clientId with _ | found
  · rw [enrollClient_absent outcome hc]
  rcases enrollClient_effect outcome hc with ⟨client', reply, heq, heff⟩
  rw [heq]
  simp only [stepOf, setClient_lookup, hcl, bind_some]
  by_cases hid : key.clientId = req.clientId
  · rw [hid, hc] at hcl
    cases hcl
    rw [if_pos hid]
    exact stepFor_enroll heff hdev
  · rw [if_neg hid]
    rfl

theorem stepOf_reloadTable {plaintext : Option PlaintextListener} {live newAuth : AuthConfig}
    (hbef : live.hasTotp key = true)
    (haft : (reloadTable plaintext live newAuth).hasTotp key = true) :
    (reloadTable plaintext live newAuth).stepOf key =
      newestStep (live.stepOf key) (newAuth.stepOf key) := by
  rcases hasTotp_iff.mp hbef with ⟨existing, he, hdev⟩
  rcases hasTotp_iff.mp haft with ⟨merged, hmer, hdev'⟩
  -- The entry after the reload is the merge of the two, and its memory the newer one.
  have hlk := hmer
  rw [reloadTable_lookup, he] at hlk
  rcases map_eq_some_iff.mp hlk with ⟨incoming, hinc, rfl⟩
  rw [stepOf_of_lookup hmer, stepOf_of_lookup he,
    stepOf_of_lookup hinc]
  exact stepFor_mergeClient hdev hdev'

theorem stepLe_apply (state : RuntimeState) (hbl : cfg.NoSteps) :
    StepLe ((state.apply cr cfg).stepOf key) (state.stepOf key) := by
  have hno := hbl key
  simp only [stepOf, RuntimeState.stepOf, apply_lookup] at hno ⊢
  rcases hc : cfg.clients.lookup key.clientId with _ | client
  · exact stepLe_none _
  simp only [hc, bind_some, map_some] at hno ⊢
  -- A client the state does not know stays as the document gave it, without a memory.
  rcases state.clients.lookup key.clientId with _ | recorded
  · rw [hno]
    exact stepLe_none _
  rcases hdev : key.device with _ | name
  · exact StepLe.refl _
  simp only [hdev, stepFor, ClientState.stepFor, applyClient,
    lookup_mapVals, bind_some] at hno ⊢
  rcases hd : client.devices.lookup name with _ | row
  · exact stepLe_none _
  rw [hd] at hno
  rcases recorded.devices.lookup name with _ | stamps
  · rw [show (Option.map (applyDevice none) (some row)).bind
      DeviceAuth.lastUsedStep = none from hno]
    exact stepLe_none _
  · exact StepLe.refl _

theorem hasTotp_apply (state : RuntimeState) :
    (state.apply cr cfg).hasTotp key = cfg.hasTotp key := by
  simp only [AuthConfig.hasTotp, apply_lookup]
  rcases cfg.clients.lookup key.clientId with _ | client
  · rfl
  rcases state.clients.lookup key.clientId with _ | recorded
  · rfl
  rcases key.device with _ | name
  · rfl
  simp only [map_some, any_some, ClientAuth.hasTotp, applyClient,
    lookup_mapVals]
  rcases client.devices.lookup name with _ | row
  · rfl
  · cases recorded.devices.lookup name <;> rfl

theorem noSteps_of_parse {env : LoadEnv} {doc : Entries String Toml}
    (h : parseWithAuth env doc = .ok (some cfg)) : cfg.NoSteps := by
  intro key
  unfold stepOf
  rw [parseWithAuth_lookup h]
  rcases hread : ((clientsOf doc).lookup key.clientId).bind (readClient env key.clientId)
    with _ | client
  · rfl
  rcases bind_eq_some_iff.mp hread with ⟨v, -, hv⟩
  -- Neither a client nor a device has a field for the step in the document.
  rcases readClient_ok hv with ⟨t, -, -, -, hdev, -, hst, -⟩
  rcases hde : key.device with _ | name
  · exact hst
  simp only [bind_some, stepFor, hdev]
  cases hrow : ((Toml.entriesAt "devices" t).lookup name).bind
      (readDevice env key.clientId name) with
  | none => rfl
  | some row =>
    rcases bind_eq_some_iff.mp hrow with ⟨w, -, hw⟩
    rcases Entries.readTwice_eq_some.mp hw with ⟨toml, -, hload⟩
    exact (loadDevice_ok hload).2.2

end

end Nexapipe
