import Nexapipe.Config.Accepted
import Nexapipe.Lib.Run
import Nexapipe.Storage.File

/-!
# A store that keeps loading

The writers against the loader: whichever of them run, in whichever order and
however each of them ends, the file should hold a document `parseWithAuth`
accepts, and a writer that reports an error should have left it alone.

Both hold of every run in which two things are avoided. A device enrollment is completed only for a
client the document has, under a name the loader will read back, because that writer makes the
client's table when it is missing and looks at neither the secret nor the name.

The proof is one entry at a time.
-/

namespace Nexapipe

open Toml Entries

def Loads (env : LoadEnv) (doc : Entries String Toml) : Prop :=
  ∃ cfg, parseWithAuth env doc = .ok cfg

/-! ### Conditions on a step -/

def DeviceCredential.NonEmpty : DeviceCredential → Prop
  | secret s => s ≠ ""
  | publicKey k => k ≠ ""

instance (credential : DeviceCredential) : Decidable credential.NonEmpty :=
  match credential with
  | .secret s => inferInstanceAs (Decidable (s ≠ ""))
  | .publicKey k => inferInstanceAs (Decidable (k ≠ ""))

namespace StoreOp

def ValuesNonEmpty : StoreOp → Prop
  | writeClientSecret _ secret _ => secret ≠ ""
  | writePendingEnrollment _ token => token ≠ ""
  | completeEnrollment _ secret => secret ≠ ""
  | completeDeviceEnrollment _ _ credential => credential.NonEmpty
  | writeDeviceCredential _ _ credential _ => credential.NonEmpty
  | removeDevice .. => True
  | removeClient _ => True

instance (op : StoreOp) : Decidable op.ValuesNonEmpty :=
  match op with
  | writePendingEnrollment _ token => inferInstanceAs (Decidable (token ≠ ""))
  | writeClientSecret _ secret _ | completeEnrollment _ secret =>
    inferInstanceAs (Decidable (secret ≠ ""))
  | completeDeviceEnrollment _ _ credential | writeDeviceCredential _ _ credential _ =>
    inferInstanceAs (Decidable credential.NonEmpty)
  | removeDevice .. | removeClient _ => isTrue trivial

def NamesKnown (doc : Entries String Toml) : StoreOp → Prop
  | completeDeviceEnrollment clientId device _ =>
    ((clientsOf doc).lookup clientId).isSome = true ∧ isPresentableDeviceId device = true
  | _ => True

instance (doc : Entries String Toml) (op : StoreOp) : Decidable (op.NamesKnown doc) :=
  match op with
  | completeDeviceEnrollment _ _ _ => inferInstanceAs (Decidable (_ ∧ _))
  | writeClientSecret .. | writePendingEnrollment .. | completeEnrollment ..
  | writeDeviceCredential .. | removeDevice .. | removeClient _ => isTrue trivial

end StoreOp

section

variable {env : LoadEnv} {doc : Entries String Toml} {now : UInt64}

/-! ### Entries the writers write -/

theorem clientField_secret (id secret : String) : ClientField env id "secret" (str secret) where
  admitted := ⟨holds asStr, rfl, rfl⟩
  token := nofun
  hosts := nofun
  ports := nofun
  devices := nofun

theorem clientField_token (id : String) {token : String} (h : token ≠ "") :
    ClientField env id "pending_enrollment" (str token) where
  admitted := ⟨holds asStr, rfl, rfl⟩
  token := fun _ hnil => h (Option.some.inj hnil)
  hosts := nofun
  ports := nofun
  devices := nofun

variable {id device createdAt : String} {client : Entries String Toml}

theorem clientField_devices {devices : Entries String Toml} (hd : devices.Distinct)
    (h : ∀ e ∈ devices, (readDevice env id e.1 e.2).isSome) :
    ClientField env id "devices" (table devices) where
  admitted := ⟨holds asTable, rfl, by unfold holds; rw [asTable_table hd]; rfl⟩
  token := nofun
  hosts := nofun
  ports := nofun
  devices := by
    intro _ entries hent
    rw [asTable_table hd] at hent
    cases hent
    exact h

theorem ne_empty_of_presentable (h : isPresentableDeviceId device = true) : device ≠ "" := by
  intro hnil
  rw [hnil] at h
  cases h

theorem readDevice_secret {secret : String} (hn : isPresentableDeviceId device = true)
    (hsec : secret ≠ "") :
    readDevice env id device (table [("secret", str secret), ("created_at", str createdAt)]) =
      some
        { secret := secret
          publicKey := none
          createdAt := createdAt
          lastUsed := none
          lastUsedStep := none } := by
  have hfil : (some secret).filter (fun s => decide (s ≠ "")) = some secret := by
    simp [hsec]
  refine readTwice_eq_some.mpr ⟨⟨some secret, none, some createdAt, none⟩, rfl, ?_⟩
  simp only [loadDevice, if_neg (ne_empty_of_presentable hn), hn, hfil]
  rfl

theorem readDevice_publicKey (key : PublicKey env.onCurve)
    (hn : isPresentableDeviceId device = true) :
    readDevice env id device
        (table [("public_key", str (publicKeyHex key)), ("created_at", str createdAt)]) =
      some
        { secret := ""
          publicKey := some (publicKeyHex key)
          createdAt := createdAt
          lastUsed := none
          lastUsedStep := none } := by
  refine readTwice_eq_some.mpr
    ⟨⟨none, some (publicKeyHex key), some createdAt, none⟩, rfl, ?_⟩
  simp only [loadDevice, if_neg (ne_empty_of_presentable hn), hn, Option.filter_none,
    parsePublicKey_publicKeyHex]
  rfl

theorem readDevice_deviceEntry (id : String) {credential : DeviceCredential} {entry : Toml}
    (hna : isPresentableDeviceId device = true)
    (h : deviceEntry env.onCurve now credential = .ok entry) :
    (readDevice env id device entry).isSome := by
  cases credential with
  | secret secret =>
    simp only [deviceEntry] at h
    by_cases hnil : secret = ""
    · simp [if_pos hnil] at h
    rw [if_neg hnil] at h
    cases h
    rw [readDevice_secret hna hnil]
    rfl
  | publicKey publicKey =>
    simp only [deviceEntry] at h
    split at h
    · cases h
    next key hkey =>
      cases h
      rw [readDevice_publicKey key hna]
      rfl

/-! ### Edits of an accepted document -/

theorem clientField_setDevice {entry : Toml} (h : Passes (ClientField env id) client)
    (hentry : (readDevice env id device entry).isSome) :
    ClientField env id "devices"
      (table (Entries.set device entry (entriesAt "devices" client))) := by
  refine clientField_devices (entriesAt_distinct.set _ _) ?_
  intro e he
  rcases mem_set he with hnew | hold
  · rw [hnew]
    exact hentry
  · exact readDevice_isSome_of_passes h e hold

theorem clientEdit_accepted {op : StoreOp} (h : DocAccepted env doc) (hval : op.ValuesNonEmpty)
    (hnam : op.NamesKnown doc) (hchec : op.checkName = .ok ())
    (hedit : ClientEdit env.onCurve now (entriesAt op.clientId (clientsOf doc)) op client) :
    ClientAccepted env op.clientId (table client) := by
  have hpas := h.clientEntries op.clientId
  suffices hnew : Passes (ClientField env op.clientId) client ∧ (client.lookup "secret").isSome by
    exact ⟨client, asTable_table hnew.1.distinct, hnew⟩
  cases hedit with
  | secret clientId secret force =>
    refine ⟨hpas.set (clientField_secret _ secret), ?_⟩
    rw [lookup_set, if_pos rfl]
    rfl
  | token clientId token hsec =>
    refine ⟨hpas.set (clientField_token _ hval), ?_⟩
    rw [lookup_set, if_neg (by decide)]
    exact hsec
  | enrolled clientId secret =>
    refine ⟨(hpas.set (clientField_secret _ secret)).remove _, ?_⟩
    rw [lookup_remove, if_neg (by decide), lookup_set, if_pos rfl]
    rfl
  | deviceEnrolled clientId device credential entry hentry =>
    -- This writer looks at neither the name nor the secret; both come from the condition.
    have hread := readDevice_deviceEntry clientId hnam.2 hentry
    refine ⟨(hpas.set (clientField_setDevice hpas hread)).remove _, ?_⟩
    rw [lookup_remove, if_neg (by decide), lookup_set, if_neg (by decide)]
    exact h.secret_isSome hnam.1
  | device clientId device credential force entry hsec hentry =>
    -- Its sibling looked at the name before it took the lock, and at the secret before the edit.
    have hname : isPresentableDeviceId device = true := by
      by_contra hbad
      simp only [StoreOp.checkName, if_neg hbad] at hchec
      cases hchec
    have hread := readDevice_deviceEntry clientId hname hentry
    refine ⟨hpas.set (clientField_setDevice hpas hread), ?_⟩
    rw [lookup_set, if_neg (by decide)]
    exact hsec
  | deviceRemoved clientId device hdev =>
    -- A client that has a device is in the document, and so has its secret there.
    have hcl := isSome_of_entriesAt (isSome_of_entriesAt hdev)
    refine ⟨hpas.set (clientField_devices (entriesAt_distinct.remove _) ?_), ?_⟩
    · intro e he
      exact readDevice_isSome_of_passes hpas e (mem_remove.mp he).1
    · rw [lookup_set, if_neg (by decide)]
      exact h.secret_isSome hcl

theorem docAccepted_edit {op : StoreOp} {r : Entries String Toml × Option ClientSecretWrite}
    (h : DocAccepted env doc) (hval : op.ValuesNonEmpty) (hnam : op.NamesKnown doc)
    (hch : op.checkName = .ok ()) (hed : op.edit env.onCurve now doc = .ok r) :
    DocAccepted env r.1 := by
  rcases edit_ok hed with ⟨clientId, _, _, hdoc⟩ | ⟨client, hcl, hdoc⟩
  · rw [hdoc]
    refine h.withClients (entriesAt_distinct.remove _) ?_
    intro e he
    exact h.authEntries.clients e (mem_remove.mp he).1
  · rw [hdoc]
    refine h.withClients (entriesAt_distinct.set _ _) ?_
    intro e he
    rcases mem_set he with hnew | hold
    · rw [hnew]
      exact clientEdit_accepted h hval hnam hch hcl
    -- Every other client is the one that was accepted before.
    · exact h.authEntries.clients e hold

end

/-! ### Runs -/

structure StoreStep where
  op : StoreOp
  io : StoreIo

def storeStep (onCurve : List UInt8 → Bool) (file : Option (Entries String Toml))
    (step : StoreStep) : Option (Option (Entries String Toml)) :=
  some (step.op.perform onCurve step.io file).1

/-- The values are not empty, a completed device enrollment is for known names,
    and no write in place fails after it has begun. -/
def StoreStep.Sound (file : Option (Entries String Toml)) (step : StoreStep) : Prop :=
  step.op.ValuesNonEmpty ∧ (∀ doc ∈ file, step.op.NamesKnown doc) ∧ ¬step.io.write.FailsInPlace

instance (file : Option (Entries String Toml)) (step : StoreStep) :
    Decidable (step.Sound file) :=
  inferInstanceAs (Decidable (_ ∧ _ ∧ _))

variable {file : Option (Entries String Toml)}

theorem perform_error {onCurve : List UInt8 → Bool} {op : StoreOp} {io : StoreIo} {why : StoreError}
    (hio : ¬io.write.FailsInPlace) (h : (op.perform onCurve io file).2 = .error why) :
    (op.perform onCurve io file).1 = file := by
  rcases perform_cases onCurve op io file with ⟨hf, _⟩ | ⟨doc, r, _, _, _, hd⟩
  · exact hf
  rcases hd with hok | hfa
  · simp [hok] at h
  · exact absurd hfa.1 hio

def Loadable (env : LoadEnv) (file : Option (Entries String Toml)) : Prop :=
  ∃ doc, file = some doc ∧ Loads env doc

theorem loadable_step {env : LoadEnv} {file' : Option (Entries String Toml)} {step : StoreStep}
    (h : Loadable env file) (hso : step.Sound file)
    (hst : storeStep env.onCurve file step = some file') : Loadable env file' := by
  cases hst
  rcases perform_cases env.onCurve step.op step.io file with
    ⟨hfi, _⟩ | ⟨doc, r, hdoc, hch, hed, hdo⟩
  · rw [hfi]
    exact h
  · rcases hdo with hok | hfa
    · rw [hok]
      rcases h with ⟨doc', hdoc', hload⟩
      rw [hdoc] at hdoc' hso
      cases hdoc'
      -- The write went through: what it left was made from a document that loads.
      refine ⟨r.1, rfl, parseWithAuth_isOk_iff.mpr ?_⟩
      exact docAccepted_edit (parseWithAuth_isOk_iff.mp hload) hso.1
        (hso.2.1 doc rfl) hch hed
    · exact absurd hfa.1 hso.2.2

/-- The store stays loadable. In every state a run from a document that loads can
    reach, the file holds a document that loads, and whichever writer runs next
    leaves it as it is when it reports an error. -/
theorem store_stays_loadable {env : LoadEnv} {doc : Entries String Toml}
    {steps : List StoreStep} {file : Option (Entries String Toml)} (hdoc : Loads env doc)
    (hsound : Machine.Along (storeStep env.onCurve) (fun file step => step.Sound file)
      (some doc) steps)
    (hrun : Machine.run (storeStep env.onCurve) (some doc) steps = some file) :
    (∃ doc', file = some doc' ∧ Loads env doc') ∧
      ∀ (op : StoreOp) (io : StoreIo) (why : StoreError), ¬io.write.FailsInPlace →
        (op.perform env.onCurve io file).2 = .error why →
          (op.perform env.onCurve io file).1 = file := by
  refine ⟨?_, fun op io why hio herr => perform_error hio herr⟩
  exact Machine.invariant_along (Loadable env) (fun _ _ _ hload hok hs =>
    loadable_step hload hok hs) ⟨doc, rfl, hdoc⟩ hsound hrun

/-! ### Two runs -/

def aliceDoc : Entries String Toml :=
  [("auth", table [("clients", table [("alice", table [("secret", str "JBSWY3DP")])])])]

def StoreIo.of (write : WriteIo (Entries String Toml)) : StoreIo :=
  { lockFails := none, readFails := false, now := 0, write := write }

/-- A token is written for a client and spent on a device, and the device is
    dropped again; the last write fails on its temporary file. -/
def aliceSteps : List StoreStep :=
  [⟨.writePendingEnrollment "alice" "token", .of .replaced⟩,
    ⟨.completeDeviceEnrollment "alice" "laptop" (.secret "KRSXG5A"), .of .inPlace⟩,
    ⟨.removeDevice "alice" "laptop", .of (.tempFailed .writing)⟩]

theorem store_stays_loadable_alice :
    ∃ file, Machine.run (storeStep LoadEnv.plain.onCurve) (some aliceDoc) aliceSteps = some file ∧
      ∃ doc, file = some doc ∧ Loads LoadEnv.plain doc := by
  have hs : Machine.Along (storeStep LoadEnv.plain.onCurve) (fun file step => step.Sound file)
      (some aliceDoc) aliceSteps := by
    decide
  exact ⟨_, rfl, (store_stays_loadable ⟨_, rfl⟩ hs rfl).1⟩

/-- A device enrollment completed for a client the document does not have
    reports success and leaves a document without that client's secret, which the
    loader refuses. -/
theorem unknown_client_unloadable :
    Loads LoadEnv.plain aliceDoc ∧
      ∃ doc', StoreOp.perform LoadEnv.plain.onCurve
          (.completeDeviceEnrollment "bob" "laptop" (.secret "KRSXG5A")) (.of .replaced)
          (some aliceDoc) = (some doc', .ok none) ∧
        ¬Loads LoadEnv.plain doc' := by
  refine ⟨⟨_, rfl⟩, _, rfl, ?_⟩
  intro hload
  rcases hload with ⟨cfg, hcfg⟩
  cases hcfg

end Nexapipe
