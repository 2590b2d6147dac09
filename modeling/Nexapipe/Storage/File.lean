import Nexapipe.Config.Load

/-!
# The file store's writers

Every writer of the configuration takes the file lock, parses the document, changes the one thing
it is about and writes the whole document back.

Two families of writers differ in one respect that matters. Those that add go down to the client's
table with `subTable`, which makes a table that is missing; those that revoke look for the tables
and never make one.

The write itself is a temporary file and a rename. Where the rename is refused, as for a file that
is a mount point, the file is written in place, and a write that fails from there on has changed it
already. Printing a document and parsing it again is taken to be the identity.
-/

namespace Nexapipe

open Toml

/-! ### Refusals -/

inductive FileStep where
  | opening
  | settingMode
  | locking
  | writing
  | flushing

inductive StoreError where
  | lockFile (step : FileStep)
  | cannotRead
  | notToml (what : String)
  | notATable (key : String)
  | devicesNotATable (clientId : String)
  | secretExists (clientId : String)
  | noSecret (clientId : String)
  | badDeviceName (device : String)
  | deviceExists (clientId device : String)
  | emptyDeviceSecret
  | badKey (why : KeyError)
  | noClientsTable
  | noClientSection (clientId : String)
  | noDevices (clientId : String)
  | noDevice (clientId device : String) (names : List String)
  | tempFile (step : FileStep)
  | notWrittenInPlace
  | modeNotSet

/-! ### The way down to a client -/

def tableOrNew (refusal : StoreError) (parent : Entries String Toml) (key : String) :
    Except StoreError (Entries String Toml) :=
  match parent.lookup key with
  | none => .ok []
  | some item =>
    match item.asTable with
    | some t => .ok t
    | none => .error refusal

def subTable (parent : Entries String Toml) (key : String) :
    Except StoreError (Entries String Toml) :=
  tableOrNew (.notATable key) parent key

def deviceTable (client : Entries String Toml) (clientId : String) :
    Except StoreError (Entries String Toml) :=
  tableOrNew (.devicesNotATable clientId) client "devices"

def editClient {α : Type} (doc : Entries String Toml) (clientId : String)
    (edit : Entries String Toml → Except StoreError (Entries String Toml × α)) :
    Except StoreError (Entries String Toml × α) := do
  -- The way down makes what is missing, so a writer that checks nothing can name a client anew.
  let auth ← subTable doc "auth"
  let clients ← subTable auth "clients"
  let client ← subTable clients clientId
  let r ← edit client
  return (withClients doc (Entries.set clientId (table r.1) clients), r.2)

def authClients (doc : Entries String Toml) : Option (Entries String Toml) :=
  (field asTable "auth" doc).bind (field asTable "clients")

/-! ### The writers -/

inductive ClientSecretWrite where
  | added
  | replaced

def ClientSecretWrite.of (replaced : Bool) : ClientSecretWrite :=
  if replaced then .replaced else .added

inductive DeviceCredential where
  | secret (secret : String)
  | publicKey (publicKey : String)

section

variable (onCurve : List UInt8 → Bool) (now : UInt64)

def deviceEntry (credential : DeviceCredential) : Except StoreError Toml :=
  match credential with
  | .secret secret =>
    if secret = "" then .error .emptyDeviceSecret
    else .ok (table [("secret", str secret), ("created_at", str (defaultCreatedAt now))])
  | .publicKey publicKey =>
    match parsePublicKey onCurve publicKey with
    | .error why => .error (.badKey why)
    | .ok key =>
      .ok (table [("public_key", str (publicKeyHex key)),
        ("created_at", str (defaultCreatedAt now))])

def writeClientSecret (doc : Entries String Toml) (clientId secret : String) (force : Bool) :
    Except StoreError (Entries String Toml × ClientSecretWrite) :=
  editClient doc clientId fun client =>
    let replaced := (client.lookup "secret").isSome
    if replaced && !force then .error (.secretExists clientId)
    else .ok (Entries.set "secret" (str secret) client, .of replaced)

def writePendingEnrollment (doc : Entries String Toml) (clientId token : String) :
    Except StoreError (Entries String Toml × Unit) :=
  editClient doc clientId fun client =>
    if !(client.lookup "secret").isSome then .error (.noSecret clientId)
    else .ok (Entries.set "pending_enrollment" (str token) client, ())

def completeEnrollment (doc : Entries String Toml) (clientId secret : String) :
    Except StoreError (Entries String Toml × Unit) :=
  editClient doc clientId fun client =>
    -- Nothing here asks whether the client was there.
    .ok (Entries.remove "pending_enrollment" (Entries.set "secret" (str secret) client), ())

def completeDeviceEnrollment (doc : Entries String Toml) (clientId device : String)
    (credential : DeviceCredential) : Except StoreError (Entries String Toml × Unit) :=
  editClient doc clientId fun client => do
    -- Nor here, nor whether the client has a secret or the device's name can be presented.
    let devices ← deviceTable client clientId
    let entry ← deviceEntry onCurve now credential
    return (Entries.remove "pending_enrollment"
      (Entries.set "devices" (table (Entries.set device entry devices)) client), ())

def writeDeviceCredential (doc : Entries String Toml) (clientId device : String)
    (credential : DeviceCredential) (force : Bool) :
    Except StoreError (Entries String Toml × ClientSecretWrite) :=
  editClient doc clientId fun client =>
    if !(client.lookup "secret").isSome then .error (.noSecret clientId)
    else do
      let devices ← deviceTable client clientId
      -- The order of the refusals: no secret, no table, taken, and only then a bad credential.
      let replaced := (devices.lookup device).isSome
      if replaced && !force then .error (.deviceExists clientId device)
      else
        let entry ← deviceEntry onCurve now credential
        return (Entries.set "devices" (table (Entries.set device entry devices)) client,
          .of replaced)

end

def removeDevice (doc : Entries String Toml) (clientId device : String) :
    Except StoreError (Entries String Toml) :=
  match authClients doc with
  | none => .error .noClientsTable
  | some clients =>
    match field asTable clientId clients with
    | none => .error (.noClientSection clientId)
    | some client =>
      match field asTable "devices" client with
      | none => .error (.noDevices clientId)
      | some devices =>
        if (devices.lookup device).isNone then
          .error (.noDevice clientId device (devices.map Prod.fst))
        else
          let devices := Entries.remove device devices
          let client := Entries.set "devices" (table devices) client
          .ok (withClients doc (Entries.set clientId (table client) clients))

def removeClient (doc : Entries String Toml) (clientId : String) :
    Except StoreError (Entries String Toml) :=
  match authClients doc with
  | none => .error .noClientsTable
  | some clients =>
    if (clients.lookup clientId).isNone then .error (.noClientSection clientId)
    else .ok (withClients doc (Entries.remove clientId clients))

/-! ### A writer at work -/

/-- How the replacement of the file's contents goes. The last three follow a
    rename that was refused; `left` is what a write that stopped half way leaves
    in the file, `none` when that is not a document. The state file is written by
    the same function, so the kind of contents is a parameter. -/
inductive WriteIo (α : Type) where
  | replaced
  | tempFailed (step : FileStep)
  | modeFailed
  | inPlace
  | torn (left : Option α)
  | modeFailedAfter

def WriteIo.writeFile {α : Type} (io : WriteIo α) (file : Option α) (doc : α) :
    Option α × Except StoreError Unit :=
  match io with
  | replaced => (some doc, .ok ())
  | tempFailed step => (file, .error (.tempFile step))
  | modeFailed => (file, .error .modeNotSet)
  | inPlace => (some doc, .ok ())
  -- The rename was refused and the file is being overwritten where it stands.
  | torn left => (left, .error .notWrittenInPlace)
  | modeFailedAfter => (some doc, .error .modeNotSet)

/-- What a run of a writer meets: a lock or a read that fails, the clock, and the
    way the write goes. -/
structure StoreIo where
  lockFails : Option FileStep
  readFails : Bool
  now : UInt64
  write : WriteIo (Entries String Toml)

inductive StoreOp where
  | writeClientSecret (clientId secret : String) (force : Bool)
  | writePendingEnrollment (clientId token : String)
  | completeEnrollment (clientId secret : String)
  | completeDeviceEnrollment (clientId device : String) (credential : DeviceCredential)
  | writeDeviceCredential (clientId device : String) (credential : DeviceCredential)
      (force : Bool)
  | removeDevice (clientId device : String)
  | removeClient (clientId : String)

namespace StoreOp

def what : StoreOp → String
  | writeClientSecret .. => "secret not written"
  | writePendingEnrollment .. => "token not written"
  | completeEnrollment .. => "enrollment not saved"
  | completeDeviceEnrollment .. => "enrollment not saved"
  | writeDeviceCredential .. => "secret not written"
  | removeDevice .. => "nothing revoked"
  | removeClient .. => "nothing revoked"

def checkName : StoreOp → Except StoreError Unit
  | writeDeviceCredential _ device _ _ =>
    if isPresentableDeviceId device then .ok () else .error (.badDeviceName device)
  | _ => .ok ()

def edit (onCurve : List UInt8 → Bool) (now : UInt64) (doc : Entries String Toml) :
    StoreOp → Except StoreError (Entries String Toml × Option ClientSecretWrite)
  | writeClientSecret clientId secret force =>
    (Nexapipe.writeClientSecret doc clientId secret force).map fun r => (r.1, some r.2)
  | writePendingEnrollment clientId token =>
    (Nexapipe.writePendingEnrollment doc clientId token).map fun r => (r.1, none)
  | completeEnrollment clientId secret =>
    (Nexapipe.completeEnrollment doc clientId secret).map fun r => (r.1, none)
  | completeDeviceEnrollment clientId device credential =>
    (Nexapipe.completeDeviceEnrollment onCurve now doc clientId device credential).map
      fun r => (r.1, none)
  | writeDeviceCredential clientId device credential force =>
    (Nexapipe.writeDeviceCredential onCurve now doc clientId device credential force).map
      fun r => (r.1, some r.2)
  | removeDevice clientId device =>
    (Nexapipe.removeDevice doc clientId device).map fun doc => (doc, none)
  | removeClient clientId => (Nexapipe.removeClient doc clientId).map fun doc => (doc, none)

def perform (onCurve : List UInt8 → Bool) (op : StoreOp) (io : StoreIo)
    (file : Option (Entries String Toml)) :
    Option (Entries String Toml) × Except StoreError (Option ClientSecretWrite) :=
  match op.checkName with
  | .error why => (file, .error why)
  | .ok () =>
    match io.lockFails with
    | some step => (file, .error (.lockFile step))
    | none =>
      if io.readFails then (file, .error .cannotRead)
      else
        match file with
        -- A file that is not a document is left as it is, whatever the writer.
        | none => (file, .error (.notToml op.what))
        | some doc =>
          match op.edit onCurve io.now doc with
          | .error why => (file, .error why)
          | .ok r =>
            let w := io.write.writeFile file r.1
            (w.1, w.2.map fun _ => r.2)

end StoreOp

/-! ### What the writers leave behind -/

section

variable {doc doc' : Entries String Toml} {clientId : String} {α : Type}

variable {t : Entries String Toml}

theorem except_map_ok {ε β : Type} {x : Except ε α} {f : α → β} {b : β}
    (h : x.map f = .ok b) : ∃ a, x = .ok a ∧ f a = b := by
  cases x with
  | error => cases h
  | ok a => exact ⟨a, rfl, Except.ok.inj h⟩

theorem except_bind_ok {ε β : Type} {x : Except ε α} {f : α → Except ε β} {b : β}
    (h : x >>= f = .ok b) : ∃ a, x = .ok a ∧ f a = .ok b := by
  cases x with
  | error => cases h
  | ok a => exact ⟨a, rfl, h⟩

theorem tableOrNew_ok {refusal : StoreError} {parent : Entries String Toml} {key : String}
    (h : tableOrNew refusal parent key = .ok t) : t = entriesAt key parent := by
  unfold entriesAt field
  revert h
  fun_cases tableOrNew refusal parent key with
  | case1 hkey =>
    rintro ⟨⟩
    rw [hkey]
    rfl
  | case2 item hkey t' htab =>
    rintro ⟨⟩
    rw [hkey, Option.bind_some, htab]
    rfl
  | _ => rintro ⟨⟩

theorem entriesAt_of_field {entries : Entries String Toml} {key : String}
    (h : field asTable key t = some entries) : entries = entriesAt key t := by
  unfold entriesAt
  rw [h]
  rfl

theorem editClient_ok {edit : Entries String Toml → Except StoreError (Entries String Toml × α)}
    {a : α} (h : editClient doc clientId edit = .ok (doc', a)) :
    ∃ client', edit (entriesAt clientId (clientsOf doc)) = .ok (client', a) ∧
      doc' = withClients doc (Entries.set clientId (table client') (clientsOf doc)) := by
  rcases except_bind_ok h with ⟨auth, hauth, h⟩
  rcases except_bind_ok h with ⟨clients, hc, h⟩
  rcases except_bind_ok h with ⟨client, hcl, h⟩
  rcases except_bind_ok h with ⟨r, hr, h⟩
  cases h
  -- The tables on the way down are the document's own, or empty where it has none.
  have hsame : clients = clientsOf doc := by
    unfold clientsOf
    rw [tableOrNew_ok hc, tableOrNew_ok hauth]
  rw [← hsame, ← tableOrNew_ok hcl]
  exact ⟨r.1, hr, rfl⟩

theorem authClients_eq {clients : Entries String Toml} (h : authClients doc = some clients) :
    clients = clientsOf doc := by
  rcases Option.bind_eq_some_iff.mp h with ⟨auth, hauth, hc⟩
  unfold clientsOf
  rw [← entriesAt_of_field hauth, entriesAt_of_field hc]

end

section

variable {onCurve : List UInt8 → Bool} {now : UInt64}

def StoreOp.clientId : StoreOp → String
  | writeClientSecret clientId .. => clientId
  | writePendingEnrollment clientId .. => clientId
  | completeEnrollment clientId .. => clientId
  | completeDeviceEnrollment clientId .. => clientId
  | writeDeviceCredential clientId .. => clientId
  | removeDevice clientId .. => clientId
  | removeClient clientId => clientId

inductive ClientEdit (onCurve : List UInt8 → Bool) (now : UInt64)
    (client : Entries String Toml) : StoreOp → Entries String Toml → Prop
  | secret (clientId secret : String) (force : Bool) :
      ClientEdit onCurve now client (.writeClientSecret clientId secret force)
        (Entries.set "secret" (str secret) client)
  | token (clientId token : String) (hsecret : (client.lookup "secret").isSome) :
      ClientEdit onCurve now client (.writePendingEnrollment clientId token)
        (Entries.set "pending_enrollment" (str token) client)
  | enrolled (clientId secret : String) :
      ClientEdit onCurve now client (.completeEnrollment clientId secret)
        (Entries.remove "pending_enrollment" (Entries.set "secret" (str secret) client))
  | deviceEnrolled (clientId device : String) (credential : DeviceCredential) (entry : Toml)
      (hentry : deviceEntry onCurve now credential = .ok entry) :
      ClientEdit onCurve now client (.completeDeviceEnrollment clientId device credential)
        (Entries.remove "pending_enrollment" (Entries.set "devices"
          (table (Entries.set device entry (entriesAt "devices" client))) client))
  | device (clientId device : String) (credential : DeviceCredential) (force : Bool)
      (entry : Toml) (hsecret : (client.lookup "secret").isSome)
      (hentry : deviceEntry onCurve now credential = .ok entry) :
      ClientEdit onCurve now client (.writeDeviceCredential clientId device credential force)
        (Entries.set "devices" (table (Entries.set device entry (entriesAt "devices" client)))
          client)
  | deviceRemoved (clientId device : String)
      (hdevice : ((entriesAt "devices" client).lookup device).isSome) :
      ClientEdit onCurve now client (.removeDevice clientId device)
        (Entries.set "devices" (table (Entries.remove device (entriesAt "devices" client)))
          client)

theorem deviceEntry_secret {secret : String} (h : secret ≠ "") :
    deviceEntry onCurve now (.secret secret) =
      .ok (table [("secret", str secret), ("created_at", str (defaultCreatedAt now))]) :=
  if_neg h

theorem deviceEntry_publicKeyHex (key : PublicKey onCurve) :
    deviceEntry onCurve now (.publicKey (publicKeyHex key)) =
      .ok (table [("public_key", str (publicKeyHex key)),
        ("created_at", str (defaultCreatedAt now))]) := by
  simp only [deviceEntry, parsePublicKey_publicKeyHex]

variable {op : StoreOp} {clientId device : String} {doc doc' : Entries String Toml}
  {credential : DeviceCredential} {r : Entries String Toml × Option ClientSecretWrite}
  {onCurve : List UInt8 → Bool}

theorem clientEdit_distinct {client client' : Entries String Toml}
    (h : ClientEdit onCurve now client op client') (hd : client.Distinct) : client'.Distinct := by
  cases h with
  | secret | token | device | deviceRemoved => exact hd.set _ _
  | enrolled | deviceEnrolled => exact (hd.set _ _).remove _

theorem removeClient_ok (h : removeClient doc clientId = .ok doc') :
    ((clientsOf doc).lookup clientId).isSome ∧
      doc' = withClients doc (Entries.remove clientId (clientsOf doc)) := by
  revert h
  fun_cases removeClient doc clientId with
  | case3 clients hc hp =>
    rintro ⟨⟩
    rw [← authClients_eq hc]
    exact ⟨Option.isSome_iff_ne_none.mpr fun hn => hp (by rw [hn]; rfl), rfl⟩
  | _ => rintro ⟨⟩

theorem removeDevice_ok (onCurve : List UInt8 → Bool) (now : UInt64)
    (h : removeDevice doc clientId device = .ok doc') :
    ∃ client, ClientEdit onCurve now (entriesAt clientId (clientsOf doc))
        (.removeDevice clientId device) client ∧
      doc' = withClients doc (Entries.set clientId (table client) (clientsOf doc)) := by
  revert h
  fun_cases removeDevice doc clientId device with
  | case5 clients hc client hcl devices hdev hp =>
    intro h
    rw [← Except.ok.inj h, ← authClients_eq hc, ← entriesAt_of_field hcl]
    have hd : (devices.lookup device).isSome = true := by simpa using hp
    rw [entriesAt_of_field hdev] at hd
    have he := @ClientEdit.deviceRemoved onCurve now _ clientId device hd
    rw [← entriesAt_of_field hdev] at he
    exact ⟨_, he, rfl⟩
  | _ => rintro ⟨⟩

theorem completeDeviceEnrollment_ok
    (h : completeDeviceEnrollment onCurve now doc clientId device credential = .ok (doc', ())) :
    ∃ client, ClientEdit onCurve now (entriesAt clientId (clientsOf doc))
        (.completeDeviceEnrollment clientId device credential) client ∧
      doc' = withClients doc (Entries.set clientId (table client) (clientsOf doc)) := by
  rcases editClient_ok h with ⟨client, he, hdoc⟩
  refine ⟨client, ?_, hdoc⟩
  rcases except_bind_ok he with ⟨devices, hdev, he⟩
  rcases except_bind_ok he with ⟨entry, hentry, he⟩
  cases he
  rw [tableOrNew_ok hdev]
  exact .deviceEnrolled clientId device credential entry hentry

theorem writeDeviceCredential_ok {force : Bool} {write : ClientSecretWrite}
    (h : writeDeviceCredential onCurve now doc clientId device credential force =
      .ok (doc', write)) :
    ∃ client, ClientEdit onCurve now (entriesAt clientId (clientsOf doc))
        (.writeDeviceCredential clientId device credential force) client ∧
      doc' = withClients doc (Entries.set clientId (table client) (clientsOf doc)) := by
  rcases editClient_ok h with ⟨client, hed, hdoc⟩
  refine ⟨client, ?_, hdoc⟩
  split at hed
  · cases hed
  next hsec =>
    have hso : ((entriesAt clientId (clientsOf doc)).lookup "secret").isSome = true := by
      simpa using hsec
    rcases except_bind_ok hed with ⟨devices, hdev, hed⟩
    dsimp only at hed
    split at hed
    · cases hed
    rcases except_bind_ok hed with ⟨entry, hentry, hed⟩
    rw [← (Prod.mk.inj (Except.ok.inj hed)).1, tableOrNew_ok hdev]
    exact .device clientId device credential force entry hso hentry

theorem edit_ok (h : op.edit onCurve now doc = .ok r) :
    (∃ clientId, op = .removeClient clientId ∧ ((clientsOf doc).lookup clientId).isSome ∧
        r.1 = withClients doc (Entries.remove clientId (clientsOf doc))) ∨
      ∃ client, ClientEdit onCurve now (entriesAt op.clientId (clientsOf doc)) op client ∧
        r.1 = withClients doc (Entries.set op.clientId (table client) (clientsOf doc)) := by
  cases op with
  | removeClient clientId =>
    rcases except_map_ok h with ⟨doc', hdoc, rfl⟩
    exact .inl ⟨clientId, rfl, removeClient_ok hdoc⟩
  | removeDevice clientId device =>
    rcases except_map_ok h with ⟨doc', hdoc, rfl⟩
    exact .inr (removeDevice_ok onCurve now hdoc)
  | writeClientSecret clientId secret force =>
    rcases except_map_ok h with ⟨r', hr', rfl⟩
    rcases editClient_ok hr' with ⟨client, hedit, hdoc⟩
    refine .inr ⟨client, ?_, hdoc⟩
    dsimp only at hedit
    split at hedit
    · cases hedit
    · rw [← (Prod.mk.inj (Except.ok.inj hedit)).1]
      exact .secret clientId secret force
  | writePendingEnrollment clientId token =>
    rcases except_map_ok h with ⟨r', hr', rfl⟩
    rcases editClient_ok hr' with ⟨client, hedit, hdoc⟩
    refine .inr ⟨client, ?_, hdoc⟩
    split at hedit
    · cases hedit
    next hsec =>
      cases hedit
      have hsome : ((entriesAt clientId (clientsOf doc)).lookup "secret").isSome = true := by
        simpa using hsec
      exact .token clientId token hsome
  | completeEnrollment clientId secret =>
    rcases except_map_ok h with ⟨r', hr', rfl⟩
    rcases editClient_ok hr' with ⟨client, hedit, hdoc⟩
    cases hedit
    exact .inr ⟨_, .enrolled clientId secret, hdoc⟩
  | completeDeviceEnrollment clientId device credential =>
    rcases except_map_ok h with ⟨r', hr', rfl⟩
    exact .inr (completeDeviceEnrollment_ok hr')
  | writeDeviceCredential clientId device credential force =>
    rcases except_map_ok h with ⟨r', hr', rfl⟩
    exact .inr (writeDeviceCredential_ok hr')

def WriteIo.FailsInPlace {α : Type} : WriteIo α → Prop
  | torn _ => True
  | modeFailedAfter => True
  | _ => False

instance {α : Type} (io : WriteIo α) : Decidable io.FailsInPlace :=
  match io with
  | .torn _ | .modeFailedAfter => isTrue trivial
  | .replaced | .tempFailed _ | .modeFailed | .inPlace => isFalse id

/-- A run of a writer reports an error and leaves the file alone, or reports
    success and leaves the edited document, or was a write in place that failed. -/
theorem perform_cases (onCurve : List UInt8 → Bool) (op : StoreOp) (io : StoreIo)
    (file : Option (Entries String Toml)) :
    ((op.perform onCurve io file).1 = file ∧ ∃ why, (op.perform onCurve io file).2 = .error why) ∨
      ∃ doc r, file = some doc ∧ op.checkName = .ok () ∧ op.edit onCurve io.now doc = .ok r ∧
        (op.perform onCurve io file = (some r.1, .ok r.2) ∨
          io.write.FailsInPlace ∧ (∃ why, (op.perform onCurve io file).2 = .error why) ∧
            ((op.perform onCurve io file).1 = some r.1 ∨
              io.write = .torn (op.perform onCurve io file).1)) := by
  fun_cases StoreOp.perform onCurve op io file with
  | case6 hna hlo hread doc r hed =>
    cases hwr : io.write with
    | tempFailed | modeFailed => exact .inl ⟨rfl, _, rfl⟩
    | replaced | inPlace => exact .inr ⟨doc, r, rfl, hna, hed, .inl rfl⟩
    | torn left =>
      exact .inr ⟨doc, r, rfl, hna, hed, .inr ⟨trivial, ⟨_, rfl⟩, .inr rfl⟩⟩
    | modeFailedAfter =>
      exact .inr ⟨doc, r, rfl, hna, hed, .inr ⟨trivial, ⟨_, rfl⟩, .inl rfl⟩⟩
  | _ => exact .inl ⟨rfl, _, rfl⟩

theorem perform_ok {io : StoreIo} {file : Option (Entries String Toml)}
    {report : Option ClientSecretWrite} (h : (op.perform onCurve io file).2 = .ok report) :
    ∃ doc r, file = some doc ∧ op.edit onCurve io.now doc = .ok r ∧
      (op.perform onCurve io file).1 = some r.1 := by
  rcases perform_cases onCurve op io file with
    ⟨_, why, hwhy⟩ | ⟨doc, r, hdoc, _, he, hok | ⟨_, ⟨why, hwhy⟩, _⟩⟩
  · simp [hwhy] at h
  · exact ⟨doc, r, hdoc, he, by rw [hok]⟩
  · simp [hwhy] at h

theorem perform_replaced {now : UInt64} (hc : op.checkName = .ok ())
    (he : op.edit onCurve now doc = .ok r) :
    op.perform onCurve ⟨none, false, now, .replaced⟩ (some doc) = (some r.1, .ok r.2) := by
  simp only [StoreOp.perform, hc, he]
  rfl

end

end Nexapipe
