import Nexapipe.Conn.Enrollment
import Nexapipe.Storage.Loadable

/-!
# Revoking while an enrollment is being written

A client or a device is revoked by deleting it from the document. An enrollment
that was accepted before the deletion may still have its storage write to run,
and that write makes the tables it needs: after it the client is in the document
again, or the device is.

A client's removal is undone by any enrollment of that client, a device's by
an enrollment of that device.
-/

namespace Nexapipe

open Toml Entries

/-! ### Removals and writes in flight -/

inductive Revocation where
  | client (clientId : String)
  | device (clientId device : String)
deriving DecidableEq

namespace Revocation

def op : Revocation → StoreOp
  | client clientId => .removeClient clientId
  | device clientId name => .removeDevice clientId name

def isPresent (doc : Entries String Toml) : Revocation → Bool
  | client clientId => ((clientsOf doc).lookup clientId).isSome
  | device clientId name =>
    ((entriesAt "devices" (entriesAt clientId (clientsOf doc))).lookup name).isSome

end Revocation

/-- An enrollment that was accepted in memory and whose storage write is still to
    run. The secret it carries was generated, and is not empty. -/
structure PendingWrite (cr : Crypto) where
  req : EnrollRequest
  secret : String
  credential : IssuedCredential
  secret_ne : secret ≠ ""
  issued : credentialFor cr req secret = .ok credential

def PendingWrite.op {cr : Crypto} (w : PendingWrite cr) : StoreOp :=
  w.credential.storeOp w.req.clientId

/-- A writer that can put back what was revoked. The writers that ask for the
    client's secret first cannot put back a client. -/
def StoreOp.Recreates (r : Revocation) : StoreOp → Prop
  | writeClientSecret clientId _ _ => r = .client clientId
  | writePendingEnrollment _ _ => False
  | completeEnrollment clientId _ => r = .client clientId
  | completeDeviceEnrollment clientId device _ =>
    r = .client clientId ∨ r = .device clientId device
  | writeDeviceCredential clientId device _ _ => r = .device clientId device
  | removeDevice _ _ => False
  | removeClient _ => False

instance (r : Revocation) (op : StoreOp) : Decidable (op.Recreates r) :=
  match op with
  | .writeClientSecret .. | .completeEnrollment .. | .writeDeviceCredential .. =>
    inferInstanceAs (Decidable (r = _))
  | .completeDeviceEnrollment .. => inferInstanceAs (Decidable (_ ∨ _))
  | .writePendingEnrollment .. | .removeDevice .. | .removeClient _ => isFalse id

/-- A write cut short leaves a piece of the text it was writing, and the piece
    names nothing the whole would not. -/
def StoreStep.TornWithin (onCurve : List UInt8 → Bool) (r : Revocation)
    (file : Option (Entries String Toml)) (step : StoreStep) : Prop :=
  ∀ left doc edited, step.io.write = .torn (some left) → file = some doc →
    step.op.edit onCurve step.io.now doc = .ok edited → r.isPresent left = true →
    r.isPresent edited.1 = true

/-! ### Writers that leave the removed out -/

section

variable {onCurve : List UInt8 → Bool} {now : UInt64} {doc : Entries String Toml}
  {r : Revocation}

theorem isPresent_client_eq (clients : Entries String Toml) (hd : clients.Distinct)
    (clientId : String) :
    (Revocation.client clientId).isPresent (withClients doc clients) =
      (clients.lookup clientId).isSome := by
  unfold Revocation.isPresent
  rw [clientsOf_withClients hd]

theorem isPresent_device_eq (clients : Entries String Toml) (hd : clients.Distinct)
    (clientId name : String) :
    (Revocation.device clientId name).isPresent (withClients doc clients) =
      ((entriesAt "devices" (entriesAt clientId clients)).lookup name).isSome := by
  unfold Revocation.isPresent
  rw [clientsOf_withClients hd]

variable {client client' parent clients : Entries String Toml} {op : StoreOp} {clientId : String}
  {refusal : StoreError}

theorem clientEdit_devices (hed : ClientEdit onCurve now client op client') {name : String}
    (hnot : ¬op.Recreates (.device op.clientId name))
    (hpr : ((entriesAt "devices" client').lookup name).isSome) :
    ((entriesAt "devices" client).lookup name).isSome := by
  cases hed with
  | secret | token =>
    rwa [entriesAt_set_ne (by decide)] at hpr
  | enrolled clientId secret =>
    rwa [entriesAt_remove_ne (by decide), entriesAt_set_ne (by decide)] at hpr
  | deviceEnrolled clientId device credential entry hentry =>
    -- Another device is written; the one asked about was there already.
    have hne : name ≠ device := by
      intro hsame
      exact hnot (.inr (by rw [hsame]; rfl))
    rwa [entriesAt_remove_ne (by decide), entriesAt_set (entriesAt_distinct.set _ _),
      lookup_set, if_neg hne] at hpr
  | device clientId device credential force entry hsec hentry =>
    have hne : name ≠ device := by
      intro hsame
      exact hnot (by rw [hsame]; rfl)
    rwa [entriesAt_set (entriesAt_distinct.set _ _), lookup_set, if_neg hne] at hpr
  | deviceRemoved clientId device hdev =>
    rw [entriesAt_set (entriesAt_distinct.remove _), lookup_remove] at hpr
    by_cases hsame : name = device
    · simp [if_pos hsame] at hpr
    · rwa [if_neg hsame] at hpr

theorem recreates_of_clientEdit (he : ClientEdit onCurve now client op client')
    (hnil : client = []) : op.Recreates (.client op.clientId) := by
  cases he with
  | secret clientId secret force => rfl
  | enrolled clientId secret => rfl
  | deviceEnrolled clientId device credential entry hentry => exact .inl rfl
  -- The writers below asked for a secret or a device first, and found none.
  | token clientId token hsec => simp [hnil] at hsec
  | device clientId device credential force entry hsec hentry => simp [hnil] at hsec
  | deviceRemoved clientId device hdev =>
    rw [hnil] at hdev
    cases hdev

theorem isPresent_of_remove
    (h : r.isPresent (withClients doc (Entries.remove clientId (clientsOf doc))) = true) :
    r.isPresent doc = true := by
  have hd := (clientsOf_distinct doc).remove clientId
  cases r with
  | client c =>
    rw [isPresent_client_eq _ hd, lookup_remove] at h
    by_cases hc : c = clientId
    · simp [if_pos hc] at h
    · rwa [if_neg hc] at h
  | device c name =>
    rw [isPresent_device_eq _ hd] at h
    by_cases hc : c = clientId
    · -- The devices of the dropped client went with it.
      have hno : entriesAt c (remove clientId (clientsOf doc)) = [] := by
        unfold entriesAt field
        rw [lookup_remove, if_pos hc]
        rfl
      rw [hno] at h
      cases h
    · rwa [entriesAt_remove_ne hc] at h

theorem isPresent_of_clientEdit
    (hcl : ClientEdit onCurve now (entriesAt op.clientId (clientsOf doc)) op client)
    (hnot : ¬op.Recreates r) (h : r.isPresent (withClients doc
      (Entries.set op.clientId (table client) (clientsOf doc))) = true) :
    r.isPresent doc = true := by
  have hd := (clientsOf_distinct doc).set op.clientId (table client)
  cases r with
  | client c =>
    rw [isPresent_client_eq _ hd, lookup_set] at h
    by_cases hc : c = op.clientId
    · -- The client's own writer: it was there, or this writer recreates it.
      rcases hlk : (clientsOf doc).lookup c with _ | v
      · have hnil : entriesAt op.clientId (clientsOf doc) = [] := by
          unfold entriesAt field
          rw [← hc, hlk]
          rfl
        exact absurd (hc ▸ recreates_of_clientEdit hcl hnil) hnot
      · change ((clientsOf doc).lookup c).isSome = true
        rw [hlk]
        rfl
    · rwa [if_neg hc] at h
  | device c name =>
    rw [isPresent_device_eq _ hd] at h
    by_cases hc : c = op.clientId
    · have hdis : client.Distinct := clientEdit_distinct hcl entriesAt_distinct
      rw [hc, entriesAt_set hdis] at h
      rw [hc]
      exact clientEdit_devices hcl (hc ▸ hnot) h
    · rwa [entriesAt_set_ne hc] at h

theorem not_present_edit {edited : Entries String Toml × Option ClientSecretWrite}
    (habs : r.isPresent doc = false) (hnot : ¬op.Recreates r)
    (he : op.edit onCurve now doc = .ok edited) : r.isPresent edited.1 = false := by
  rw [Bool.eq_false_iff] at habs ⊢
  intro hp
  apply habs
  rcases edit_ok he with ⟨clientId, _, _, hdoc⟩ | ⟨client, hcl, hdoc⟩
  · rw [hdoc] at hp
    exact isPresent_of_remove hp
  · rw [hdoc] at hp
    exact isPresent_of_clientEdit hcl hnot hp

/-! ### Writers that put it back -/

theorem tableOrNew_of_table {t : Entries String Toml} {key : String}
    (h : parent.lookup key = some (table t)) (hd : t.Distinct) :
    tableOrNew refusal parent key = .ok t := by
  unfold tableOrNew
  simp only [h, asTable_table hd]

theorem tableOrNew_of_none {key : String} (h : parent.lookup key = none) :
    tableOrNew refusal parent key = .ok [] := by
  unfold tableOrNew
  rw [h]

theorem editClient_withClients {α : Type} (hd : clients.Distinct)
    (hcl : subTable clients clientId = .ok client)
    (edit : Entries String Toml → Except StoreError (Entries String Toml × α)) :
    editClient (withClients doc clients) clientId edit =
      (edit client).map fun r =>
        (withClients (withClients doc clients) (Entries.set clientId (table r.1) clients),
          r.2) := by
  have hauth : subTable (withClients doc clients) "auth" =
      .ok (set "clients" (table clients) (entriesAt "auth" doc)) :=
    tableOrNew_of_table (by rw [withClients, lookup_set, if_pos rfl])
      (entriesAt_distinct.set _ _)
  have hcli :
      subTable (set "clients" (table clients) (entriesAt "auth" doc)) "clients" =
        .ok clients :=
    tableOrNew_of_table (by rw [lookup_set, if_pos rfl]) hd
  simp only [editClient, bind, Except.bind, hauth, hcli, hcl]
  rcases edit client with why | r
  · rfl
  · rfl

theorem completeDevice_withClients {devices : Entries String Toml} {device : String}
    {credential : DeviceCredential} {entry : Toml} (hd : clients.Distinct)
    (hcl : subTable clients clientId = .ok client)
    (hdev : deviceTable client clientId = .ok devices)
    (hentry : deviceEntry onCurve now credential = .ok entry) :
    (StoreOp.completeDeviceEnrollment clientId device credential).edit onCurve now
        (withClients doc clients) =
      .ok (withClients (withClients doc clients) (Entries.set clientId (table
        (Entries.remove "pending_enrollment" (Entries.set "devices"
          (table (Entries.set device entry devices)) client))) clients), none) := by
  simp only [StoreOp.edit, completeDeviceEnrollment]
  rw [editClient_withClients hd hcl]
  simp only [bind, Except.bind, pure, Except.pure, hdev, hentry]
  rfl

theorem completeEnrollment_withClients {secret : String} (hd : clients.Distinct)
    (hcl : subTable clients clientId = .ok client) :
    (StoreOp.completeEnrollment clientId secret).edit onCurve now (withClients doc clients) =
      .ok (withClients (withClients doc clients) (Entries.set clientId (table
        (Entries.remove "pending_enrollment" (Entries.set "secret" (str secret) client)))
          clients), none) := by
  simp only [StoreOp.edit, completeEnrollment]
  rw [editClient_withClients hd hcl]
  rfl

end

section

variable {cr : Crypto} {now : UInt64} {doc : Entries String Toml}

theorem PendingWrite.op_cases (w : PendingWrite cr) (now : UInt64) :
    (∃ secret, w.op = .completeEnrollment w.req.clientId secret) ∨
      ∃ name credential entry, w.op = .completeDeviceEnrollment w.req.clientId name credential ∧
        deviceEntry cr.onCurve now credential = .ok entry := by
  unfold PendingWrite.op
  rcases credentialFor_cases w.issued with ⟨name, _, hc⟩ | ⟨name, key, _, hc⟩ | hc
  · rw [hc]
    exact .inr ⟨name, .secret w.secret, _, rfl, deviceEntry_secret w.secret_ne⟩
  · rw [hc]
    exact .inr ⟨name, .publicKey (publicKeyHex key), _, rfl, deviceEntry_publicKeyHex key⟩
  · rw [hc]
    exact .inl ⟨w.secret, rfl⟩

theorem PendingWrite.checkName_op (w : PendingWrite cr) : w.op.checkName = .ok () := by
  rcases w.op_cases 0 with ⟨secret, hop⟩ | ⟨name, credential, entry, hop, _⟩
  · rw [hop]
    rfl
  · rw [hop]
    rfl

variable {clientId : String} {edited : Entries String Toml × Option ClientSecretWrite}
  {r : Revocation} {onCurve : List UInt8 → Bool}

theorem client_present_of_recreates (w : PendingWrite cr)
    (hrec : w.op.Recreates (.client clientId)) (now : UInt64) :
    ∃ edited, w.op.edit cr.onCurve now
        (withClients doc (Entries.remove clientId (clientsOf doc))) = .ok edited ∧
      (Revocation.client clientId).isPresent edited.1 = true := by
  have hd : (remove clientId (clientsOf doc)).Distinct :=
    (clientsOf_distinct doc).remove _
  -- The writer finds no entries of the client and starts from none.
  have hno : subTable (remove clientId (clientsOf doc)) clientId = .ok [] :=
    tableOrNew_of_none (by rw [lookup_remove, if_pos rfl])
  rcases w.op_cases now with ⟨secret, hop⟩ | ⟨name, credential, entry, hop, hentry⟩
  · rw [hop] at hrec ⊢
    cases hrec
    refine ⟨_, completeEnrollment_withClients hd hno, ?_⟩
    rw [isPresent_client_eq _ (hd.set _ _), lookup_set, if_pos rfl]
    rfl
  · rw [hop] at hrec ⊢
    rcases hrec with hsame | hoth
    · cases hsame
      refine ⟨_, completeDevice_withClients hd hno (tableOrNew_of_none rfl) hentry, ?_⟩
      rw [isPresent_client_eq _ (hd.set _ _), lookup_set, if_pos rfl]
      rfl
    · cases hoth

theorem device_present_of_recreates {device : String} (w : PendingWrite cr)
    (hrec : w.op.Recreates (.device clientId device)) (now : UInt64) :
    ∃ edited, w.op.edit cr.onCurve now
        (withClients doc (Entries.set clientId (table (Entries.set "devices"
          (table (Entries.remove device (entriesAt "devices" (entriesAt clientId (clientsOf doc)))))
          (entriesAt clientId (clientsOf doc)))) (clientsOf doc))) = .ok edited ∧
      (Revocation.device clientId device).isPresent edited.1 = true := by
  rcases w.op_cases now with ⟨secret, hop⟩ | ⟨name, credential, entry, hop, hentry⟩
  · -- A secret of the client's own is under no device's name.
    rw [hop] at hrec
    cases hrec
  rw [hop] at hrec ⊢
  rcases hrec with hoth | hsame
  · cases hoth
  cases hsame
  -- The devices that are left, the client's entries with them, and the clients.
  have hle : (remove device
      (entriesAt "devices" (entriesAt w.req.clientId (clientsOf doc)))).Distinct :=
    entriesAt_distinct.remove _
  have hent : (set "devices" (table (remove device
      (entriesAt "devices" (entriesAt w.req.clientId (clientsOf doc)))))
      (entriesAt w.req.clientId (clientsOf doc))).Distinct :=
    entriesAt_distinct.set _ _
  have hd := (clientsOf_distinct doc).set w.req.clientId (table (set "devices"
    (table (remove device
      (entriesAt "devices" (entriesAt w.req.clientId (clientsOf doc)))))
    (entriesAt w.req.clientId (clientsOf doc))))
  refine ⟨_, completeDevice_withClients hd
    (tableOrNew_of_table (by rw [lookup_set, if_pos rfl]) hent)
    (tableOrNew_of_table (by rw [lookup_set, if_pos rfl]) hle) hentry, ?_⟩
  rw [isPresent_device_eq _ (hd.set _ _), entriesAt_set ((hent.set _ _).remove _),
    entriesAt_remove_ne (by decide), entriesAt_set (hle.set _ _), lookup_set,
    if_pos rfl]
  rfl

theorem present_of_recreates {removedAt : UInt64}
    (hrem : r.op.edit cr.onCurve removedAt doc = .ok edited) (w : PendingWrite cr)
    (hrec : w.op.Recreates r) (now : UInt64) :
    ∃ edited', w.op.edit cr.onCurve now edited.1 = .ok edited' ∧
      r.isPresent edited'.1 = true := by
  cases r with
  | client clientId =>
    rcases except_map_ok hrem with ⟨doc', hdoc', rfl⟩
    rcases removeClient_ok hdoc' with ⟨_, rfl⟩
    exact client_present_of_recreates w hrec now
  | device clientId device =>
    rcases except_map_ok hrem with ⟨doc', hdoc', rfl⟩
    rcases removeDevice_ok cr.onCurve now hdoc' with ⟨client, hcl, rfl⟩
    cases hcl with
    | deviceRemoved _ _ _ => exact device_present_of_recreates w hrec now

/-! ### When a removal sticks -/

def Revocation.Absent (r : Revocation) (file : Option (Entries String Toml)) : Prop :=
  ∀ doc ∈ file, r.isPresent doc = false

theorem absent_of_removed (h : r.op.edit onCurve now doc = .ok edited) :
    r.isPresent edited.1 = false := by
  cases r with
  | client clientId =>
    rcases except_map_ok h with ⟨doc', hdoc', rfl⟩
    rcases removeClient_ok hdoc' with ⟨_, rfl⟩
    rw [isPresent_client_eq _ ((clientsOf_distinct doc).remove _), lookup_remove,
      if_pos rfl]
    rfl
  | device clientId name =>
    rcases except_map_ok h with ⟨doc', hdoc', rfl⟩
    rcases removeDevice_ok onCurve now hdoc' with ⟨client, hcl, rfl⟩
    have hdis := clientEdit_distinct hcl entriesAt_distinct
    rw [isPresent_device_eq _ ((clientsOf_distinct doc).set _ _), entriesAt_set hdis]
    cases hcl with
    | deviceRemoved _ _ _ =>
      rw [entriesAt_set (entriesAt_distinct.remove _), lookup_remove, if_pos rfl]
      rfl

theorem absent_step {file file' : Option (Entries String Toml)} {step : StoreStep}
    (habs : r.Absent file) (hnot : ¬step.op.Recreates r) (hto : step.TornWithin onCurve r file)
    (hst : storeStep onCurve file step = some file') : r.Absent file' := by
  cases hst
  rcases perform_cases onCurve step.op step.io file with
    ⟨hfi, _⟩ | ⟨doc, edited, hdoc, _, hedi, hdo⟩
  · rw [hfi]
    exact habs
  · have hed : r.isPresent edited.1 = false :=
      not_present_edit (habs doc hdoc) hnot hedi
    have hwr : ∀ doc' ∈ (some edited.1 : Option (Entries String Toml)),
        r.isPresent doc' = false := by
      intro doc' hdoc'
      cases hdoc'
      exact hed
    rcases hdo with hok | ⟨_, _, haft | hcut⟩
    · rw [hok]
      exact hwr
    · rw [haft]
      exact hwr
    -- A write cut short names nothing the whole would not, and the whole is fine.
    · intro left hle
      rw [Bool.eq_false_iff]
      intro hpr
      rw [Option.mem_def.mp hle] at hcut
      rw [hto left doc edited hcut hdoc hedi hpr] at hed
      cases hed

/-- A removal that reported success sticks exactly when no write in flight is for
    what was removed. It sticks when, through every run of those writes and of any
    writers that are not meant to put it back, it stays out of the document. -/
theorem revocation_sticks_iff {doc' : Entries String Toml} {r : Revocation} {io : StoreIo}
    (hremoved : r.op.perform cr.onCurve io (some doc) = (some doc', .ok none))
    (inFlight : List (PendingWrite cr)) :
    (∀ steps file,
      (∀ step ∈ steps, (∃ w ∈ inFlight, step.op = w.op) ∨ ¬step.op.Recreates r) →
      Machine.Along (storeStep cr.onCurve) (fun file step => step.TornWithin cr.onCurve r file)
        (some doc') steps →
      Machine.run (storeStep cr.onCurve) (some doc') steps = some file →
      ∀ left ∈ file, r.isPresent left = false) ↔
    ∀ w ∈ inFlight, ¬w.op.Recreates r := by
  have hreport : (r.op.perform cr.onCurve io (some doc)).2 = .ok none := by rw [hremoved]
  rcases perform_ok hreport with ⟨doc₀, edited, hdoc₀, hedit, hfile⟩
  cases hdoc₀
  rw [hremoved] at hfile
  cases hfile
  constructor
  · intro hstic w hw hrec
    rcases present_of_recreates hedit w hrec 0 with ⟨edited', hedit', hpres⟩
    -- The write that goes wrong, run alone and without trouble, right after the removal.
    have hper := perform_replaced w.checkName_op hedit'
    have habs := hstic [⟨w.op, ⟨none, false, 0, .replaced⟩⟩] (some edited'.1)
      (by
        intro step hstep
        rw [List.mem_singleton.mp hstep]
        exact .inl ⟨w, hw, rfl⟩)
      ⟨nofun, fun _ _ => trivial⟩
      (by simp only [Machine.run, storeStep, hper, Option.bind_some])
      edited'.1 rfl
    rw [hpres] at habs
    cases habs
  · intro hnone steps file hsteps htorn hrun
    have hq : ∀ step ∈ steps, ¬step.op.Recreates r := by
      intro step hstep
      rcases hsteps step hstep with ⟨w, hw, hop⟩ | hnot
      · rw [hop]
        exact hnone w hw
      · exact hnot
    refine Machine.invariant_along r.Absent (fun _ _ _ habs hok hstep =>
      absent_step habs hok.1 hok.2 hstep) ?_ (htorn.and_forall hq) hrun
    intro left hleft
    cases hleft
    exact absent_of_removed hedit

end

/-! ### Two removals -/

def invitedDoc : Entries String Toml :=
  [("auth", table [("clients", table [("alice", table
    [("secret", str "JBSWY3DP"), ("pending_enrollment", str "token"),
      ("devices", table [("laptop", table [("secret", str "KRSXG5A")])])])])])]

def aliceEnrolls (device : Option String) : EnrollRequest :=
  { clientId := "alice", token := "token", device := device, publicKey := none }

def phoneWrite : PendingWrite Crypto.toy :=
  { req := aliceEnrolls (some "phone")
    secret := "MFRGGZDF"
    credential := .deviceSecret "phone" "MFRGGZDF"
    secret_ne := by decide
    issued := rfl }

theorem revocation_sticks_iff_laptop :
    ∃ doc', (Revocation.device "alice" "laptop").op.perform Crypto.toy.onCurve (.of .replaced)
        (some invitedDoc) = (some doc', .ok none) ∧
      ∃ file, Machine.run (storeStep Crypto.toy.onCurve) (some doc')
          [⟨phoneWrite.op, .of .replaced⟩] = some file ∧
        ∀ left ∈ file, (Revocation.device "alice" "laptop").isPresent left = false := by
  have hrem : ∃ doc', (Revocation.device "alice" "laptop").op.perform Crypto.toy.onCurve
      (.of .replaced) (some invitedDoc) = (some doc', .ok none) := ⟨_, rfl⟩
  rcases hrem with ⟨doc', hrem⟩
  refine ⟨doc', hrem, _, rfl, ?_⟩
  refine (revocation_sticks_iff hrem [phoneWrite]).mpr ?_
    [⟨phoneWrite.op, .of .replaced⟩] _ ?_ ⟨nofun, fun _ _ => trivial⟩ rfl
  · intro w hw
    rw [List.mem_singleton.mp hw]
    decide
  · intro step hst
    rw [List.mem_singleton.mp hst]
    exact .inl ⟨phoneWrite, List.mem_singleton_self _, rfl⟩

/-- A token is accepted, the client is removed with success while the write of the
    credential is still to run, and the write puts the client back. -/
theorem removed_client_returns :
    ∃ cfg doc' doc'',
      parseWithAuth LoadEnv.plain invitedDoc = .ok (some cfg) ∧
      enrollmentVerdict Crypto.toy cfg (.all 0) (aliceEnrolls none) = .accept ∧
      (Revocation.client "alice").op.perform Crypto.toy.onCurve (.of .replaced) (some invitedDoc) =
        (some doc', .ok none) ∧
      (Revocation.client "alice").isPresent doc' = false ∧
      ((IssuedCredential.sharedSecret "MFRGGZDF").storeOp "alice").perform Crypto.toy.onCurve
        (.of .replaced) (some doc') = (some doc'', .ok none) ∧
      (Revocation.client "alice").isPresent doc'' = true :=
  ⟨_, _, _, rfl, by decide, rfl, by decide, rfl, by decide⟩

end Nexapipe
