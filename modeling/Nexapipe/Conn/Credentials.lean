import Nexapipe.Auth.State
import Nexapipe.Config.Accepted
import Nexapipe.Conn.Enrollment
import Nexapipe.Watcher.Reload

/-!
# The credentials of a client, live and stored

The live table and the stored document both say how a client proves itself: its
own secret, the token it may still enroll with, and for each device a secret or
a key. This is the part of a client's entry on which the two must agree, and it
is read off each of them here in one shape, so that agreement is an equation.

Counters, stamps and creation dates are left out. The first two live in memory
and in the state file, and the last is set by the server and by the store each
from its own reading of the clock.
-/

namespace Nexapipe

open Toml Option Entries Table

structure ClientCredentials where
  secret : String
  pending : Option String
  devices : Table String (String × Option String)
deriving DecidableEq

/-! ### In the live table -/

def ClientAuth.credentials (c : ClientAuth) : ClientCredentials :=
  { secret := c.secret
    pending := c.pendingEnrollment
    devices := c.devices.mapVals fun _ d => (d.secret, d.publicKey) }

def AuthConfig.credentialsOf (cfg : AuthConfig) (id : String) : Option ClientCredentials :=
  (cfg.clients.lookup id).map ClientAuth.credentials

namespace ClientAuth

theorem credentials_configured (c : ClientAuth) : c.configured.credentials = c.credentials := by
  have hdev : mapVals (fun _ d => (d.secret, d.publicKey)) c.configured.devices =
      c.devices.mapVals fun _ d => (d.secret, d.publicKey) := by
    apply Finmap.ext_lookup
    intro name
    rw [lookup_mapVals, lookup_mapVals, configured_lookup, map_map]
    rfl
  unfold credentials
  rw [hdev]
  rfl

theorem credentials_eq_of_configured_eq {c c' : ClientAuth} (h : c.configured = c'.configured) :
    c.credentials = c'.credentials := by
  rw [← credentials_configured c, h, credentials_configured]

theorem configured_applyClient (cr : Crypto) (state : ClientState) (c : ClientAuth) :
    (applyClient cr state c).configured = c.configured := by
  have hdev : mapVals (fun _ d => d.configured) (applyClient cr state c).devices =
      c.devices.mapVals fun _ d => d.configured := by
    apply Finmap.ext_lookup
    intro name
    simp only [applyClient, lookup_mapVals, map_map]
    congr 1
    funext d
    cases state.devices.lookup name <;> rfl
  unfold configured
  rw [hdev]
  rfl

end ClientAuth

open AuthConfig ClientAuth

theorem credentialsOf_apply (cr : Crypto) (state : RuntimeState) (cfg : AuthConfig) (id : String) :
    (state.apply cr cfg).credentialsOf id = cfg.credentialsOf id := by
  unfold credentialsOf
  rw [apply_lookup, map_map]
  congr 1
  funext c
  rcases state.clients.lookup id with _ | saved
  · rfl
  · exact credentials_eq_of_configured_eq
      (configured_applyClient cr saved c)

theorem credentialsOf_reloadTable (plaintext : Option PlaintextListener) (live newAuth : AuthConfig)
    (id : String) : (reloadTable plaintext live newAuth).credentialsOf id =
      newAuth.credentialsOf id := by
  unfold credentialsOf
  rw [reloadTable_lookup, map_map]
  congr 1
  funext c
  rcases live.clients.lookup id with _ | existing
  · rfl
  · exact credentials_eq_of_configured_eq (configured_mergeClient existing c)

theorem credentialsOf_setClient_ne {cfg : AuthConfig} {id other : String} (c : ClientAuth)
    (hne : id ≠ other) : (cfg.setClient other c).credentialsOf id = cfg.credentialsOf id := by
  unfold credentialsOf
  rw [setClient_lookup, if_neg hne]

theorem credentialsOf_setClient_self (cfg : AuthConfig) (id : String) (c : ClientAuth) :
    (cfg.setClient id c).credentialsOf id = some c.credentials := by
  unfold credentialsOf
  rw [setClient_lookup, if_pos rfl]
  rfl

theorem credentialsOf_editClient {f : ClientAuth → ClientAuth}
    (hf : ∀ c, (f c).credentials = c.credentials) (cfg : AuthConfig) (client id : String) :
    (cfg.editClient client f).credentialsOf id = cfg.credentialsOf id := by
  unfold credentialsOf
  rw [editClient_lookup]
  by_cases hid : id = client
  · rw [if_pos hid, hid, map_map]
    congr 1
    funext c
    exact hf c
  · rw [if_neg hid]

/-! ### In the stored document -/

def deviceCredentials (v : Toml) : String × Option String :=
  let t := v.asTable.getD []
  (((field asStr "secret" t).filter (· ≠ "")).getD "", field asStr "public_key" t)

def entriesCredentials (t : Entries String Toml) : Option ClientCredentials :=
  (field asStr "secret" t).map fun secret =>
    { secret := secret
      pending := field asStr "pending_enrollment" t
      devices := Table.ofList ((entriesAt "devices" t).map fun e => (e.1, deviceCredentials e.2)) }

def docCredentials (doc : Entries String Toml) (id : String) : Option ClientCredentials :=
  ((clientsOf doc).lookup id).bind fun v => v.asTable.bind entriesCredentials

def fileCredentials (file : Option (Entries String Toml)) (id : String) :
    Option ClientCredentials :=
  file.bind fun doc => docCredentials doc id

section

variable {env : LoadEnv} {doc : Entries String Toml} {id : String}

theorem deviceCredentials_of_readDevice {name : String} {v : Toml} {d : DeviceAuth}
    (h : readDevice env id name v = some d) : deviceCredentials v = (d.secret, d.publicKey) := by
  rcases readTwice_eq_some.mp h with ⟨toml, hto, hload⟩
  rcases loadDevice_ok hload with ⟨hsec, hkey, _⟩
  -- The loader takes an empty secret for none, and so does the reading here.
  revert hto
  fun_cases DeviceAuthToml.ofToml v with
  | case3 t ht =>
    rintro ⟨⟩
    rw [hsec, hkey]
    simp only [deviceCredentials, ht, getD_some]
    rfl
  | _ => rintro ⟨⟩

theorem credentials_of_readClient {v : Toml} {c : ClientAuth} (h : readClient env id v = some c) :
    v.asTable.bind entriesCredentials = some c.credentials := by
  rcases readClient_ok h with ⟨t, ht, hsec, hpen, hdev, _⟩
  rcases readClient_isSome_iff.mp (isSome_iff_exists.mpr ⟨c, h⟩) with ⟨t', ht', hpas, _⟩
  rw [ht] at ht'
  cases ht'
  have hsame : ofList ((entriesAt "devices" t).map fun e => (e.1, deviceCredentials e.2)) =
      c.devices.mapVals fun _ d => (d.secret, d.publicKey) := by
    apply Finmap.ext_lookup
    intro name
    rw [lookup_ofList, lookup_map, lookup_mapVals, hdev name]
    rcases hna : (entriesAt "devices" t).lookup name with _ | w
    · rfl
    -- The loader reads every device of a client it accepts.
    have hread : (readDevice env id name w).isSome :=
      readDevice_isSome_of_passes hpas (name, w) (mem_of_lookup hna)
    rcases isSome_iff_exists.mp hread with ⟨d, hd⟩
    rw [bind_some, hd, map_some, map_some,
      deviceCredentials_of_readDevice hd]
  rw [ht, bind_some]
  unfold entriesCredentials credentials
  rw [hsec, map_some, hpen, hsame]

theorem credentialsOf_load {cr : Crypto} {state : Option RuntimeState} {cfg : AuthConfig}
    (h : loadConfigWithAuth cr env doc state = some (some cfg)) (id : String) :
    cfg.credentialsOf id = docCredentials doc id := by
  rcases loadConfigWithAuth_eq_some cr h with ⟨parsed, counters, hpar, _, rfl⟩
  have hacc : DocAccepted env doc := parseWithAuth_isOk_iff.mp ⟨_, hpar⟩
  rw [credentialsOf_apply]
  unfold credentialsOf docCredentials
  rw [parseWithAuth_lookup hpar]
  rcases hv : (clientsOf doc).lookup id with _ | v
  · rfl
  -- The document was accepted, so each of its clients can be read.
  rcases isSome_iff_exists.mp
    (readClient_isSome_iff.mpr (hacc.clientAccepted hv)) with ⟨c, hc⟩
  rw [bind_some, bind_some, hc, credentials_of_readClient hc, map_some]

end

/-! ### Enrolling -/

namespace ClientCredentials

def issue (k : ClientCredentials) : IssuedCredential → ClientCredentials
  | .deviceSecret name secret =>
    { k with pending := none, devices := k.devices.insert name (secret, none) }
  | .deviceKey name key =>
    { k with pending := none, devices := k.devices.insert name ("", some key) }
  | .sharedSecret secret => { k with secret := secret, pending := none }

def holds (k : ClientCredentials) : IssuedCredential → Bool
  | .deviceSecret name secret => k.devices.lookup name = some (secret, none)
  | .deviceKey name key => k.devices.lookup name = some ("", some key)
  | .sharedSecret secret => k.secret = secret

end ClientCredentials

theorem credentials_issue (c : ClientAuth) (issued : IssuedCredential) (now : UInt64) :
    (c.issue issued now).1.credentials = c.credentials.issue issued := by
  cases issued with
  | deviceSecret | deviceKey =>
    simp only [issue, issueDevice, credentials,
      mapVals_insert]
    rfl
  | sharedSecret secret => rfl

/-- The first half of an enrollment refuses and leaves every credential alone, or
    it was given the pending token. Then it puts a credential in place, unless it
    cannot record the one that was asked for. -/
theorem enrollDecide_cases (cr : Crypto) (cfg : AuthConfig) (clock : EnrollClock)
    (req : EnrollRequest) (secret : String) :
    (∃ cfg' counted, enrollDecide cr cfg clock req secret = .refused cfg' counted ∧
        ∀ id, cfg'.credentialsOf id = cfg.credentialsOf id) ∨
      ∃ c : ClientAuth, cfg.credentialsOf req.clientId = some c.credentials ∧
        c.pendingEnrollment = some req.token ∧
        ((∃ cfg' reason, enrollDecide cr cfg clock req secret = .unrecordable cfg' reason ∧
            ∀ id, cfg'.credentialsOf id = cfg.credentialsOf id) ∨
          ∃ credential, credentialFor cr req secret = .ok credential ∧
            enrollDecide cr cfg clock req secret =
              .issued (cfg.setClient req.clientId (c.issue credential clock.createdAt).1) credential
                (c.issue credential clock.createdAt).2) := by
  rcases hpr : cfg.clients.lookup req.clientId with _ | client
  · exact .inl ⟨cfg, false, enrollDecide_absent hpr, fun _ => rfl⟩
  have hse : cfg.credentialsOf req.clientId = some client.credentials := by
    unfold credentialsOf
    rw [hpr]
    rfl
  -- What only moves counters of the entry leaves the credentials of all clients.
  have hke : ∀ c : ClientAuth, c.configured = client.configured →
      ∀ id, (cfg.setClient req.clientId c).credentialsOf id = cfg.credentialsOf id := by
    intro c hc id
    by_cases hid : id = req.clientId
    · rw [hid, credentialsOf_setClient_self, hse,
        credentials_eq_of_configured_eq hc]
    · exact credentialsOf_setClient_ne c hid
  have href := client.configured_refreshBoth clock
  rw [enrollDecide_present hpr]
  -- A token that is not the pending one is counted or not, and changes nothing else.
  cases hv : clientVerdict cr clock req (client.refreshBoth clock) with
  | refuse counted =>
    rcases counted with _ | _
    · exact .inl ⟨_, false, rfl, hke _ href⟩
    · exact .inl ⟨_, true, rfl, hke _ href⟩
  | accept =>
    refine .inr ⟨client.refreshBoth clock, hse, (clientVerdict_accept hv).2.2, ?_⟩
    rcases credentialFor cr req secret with reason | credential
    · exact .inl ⟨_, reason, rfl, hke _ href⟩
    · exact .inr ⟨credential, rfl, rfl⟩

/-! ### The writer of an enrollment -/

section

variable {onCurve : List UInt8 → Bool} {now : UInt64} {doc t : Entries String Toml}
  {k : ClientCredentials}

theorem field_pending_remove (t : Entries String Toml) :
    field asStr "pending_enrollment" (Entries.remove "pending_enrollment" t) = none := by
  unfold field
  rw [lookup_remove, if_pos rfl]
  rfl

theorem entriesCredentials_setSecret (hk : entriesCredentials t = some k) (secret : String) :
    entriesCredentials (Entries.remove "pending_enrollment" (Entries.set "secret" (str secret) t)) =
      some (k.issue (.sharedSecret secret)) := by
  rcases map_eq_some_iff.mp hk with ⟨old, _, rfl⟩
  have hlk : (set "secret" (str secret) t).lookup "secret" = some (str secret) := by
    rw [lookup_set, if_pos rfl]
  have hsec : field asStr "secret" (remove "pending_enrollment"
      (set "secret" (str secret) t)) = some secret :=
    (field_remove_ne (by decide)).trans (field_of_lookup hlk)
  -- The writer touches two keys, and the devices are under a third.
  have hdev : entriesAt "devices" (remove "pending_enrollment"
      (set "secret" (str secret) t)) = entriesAt "devices" t :=
    (entriesAt_remove_ne (by decide)).trans (entriesAt_set_ne (by decide))
  unfold entriesCredentials
  rw [hsec, field_pending_remove, hdev]
  rfl

theorem ofList_set_device (device : String) (entry : Toml) (devices : Entries String Toml) :
    Table.ofList ((Entries.set device entry devices).map fun e => (e.1, deviceCredentials e.2)) =
      (Table.ofList (devices.map fun e => (e.1, deviceCredentials e.2))).insert device
        (deviceCredentials entry) := by
  apply Finmap.ext_lookup
  intro name
  rw [lookup_ofList, lookup_map, lookup_set, lookup_insert_eq,
    lookup_ofList, lookup_map]
  by_cases hn : name = device
  · rw [if_pos hn, if_pos hn]
    rfl
  · rw [if_neg hn, if_neg hn]

theorem entriesCredentials_setDevice (hk : entriesCredentials t = some k) (device : String)
    (entry : Toml) :
    entriesCredentials (Entries.remove "pending_enrollment" (Entries.set "devices"
        (table (Entries.set device entry (entriesAt "devices" t))) t)) =
      some { k with
        pending := none
        devices := k.devices.insert device (deviceCredentials entry) } := by
  rcases map_eq_some_iff.mp hk with ⟨secret, hsec, rfl⟩
  have hke : field asStr "secret" (remove "pending_enrollment" (set "devices"
      (table (set device entry (entriesAt "devices" t))) t)) = some secret :=
    (field_remove_ne (by decide)).trans ((field_set_ne (by decide)).trans hsec)
  have hdev : entriesAt "devices" (remove "pending_enrollment" (set "devices"
      (table (set device entry (entriesAt "devices" t))) t)) =
      set device entry (entriesAt "devices" t) :=
    (entriesAt_remove_ne (by decide)).trans (entriesAt_set (entriesAt_distinct.set _ _))
  unfold entriesCredentials
  rw [hke, field_pending_remove, hdev, ofList_set_device]
  rfl

variable {client : Entries String Toml} {cr : Crypto} {credential : IssuedCredential}
  {id secret : String} {req : EnrollRequest} {r : Entries String Toml × Option ClientSecretWrite}
  {file : Option (Entries String Toml)}

theorem entriesCredentials_edit (hask : credentialFor cr req secret = .ok credential)
    (hed : ClientEdit cr.onCurve now t (credential.storeOp id) client)
    (hk : entriesCredentials t = some k) :
    entriesCredentials client = some (k.issue credential) := by
  rcases credentialFor_cases hask with ⟨name, _, rfl⟩ | ⟨name, key, _, rfl⟩ | rfl
  · cases hed with
    | deviceEnrolled _ _ _ entry hentry =>
      -- The writer refuses an empty secret, which would read back as none at all.
      have hne : secret ≠ "" := by
        intro hnil
        rw [hnil] at hentry
        cases hentry
      rw [deviceEntry_secret hne] at hentry
      cases hentry
      rw [entriesCredentials_setDevice hk]
      have hread : deviceCredentials (table [("secret", str secret),
          ("created_at", str (defaultCreatedAt now))]) = (secret, none) := by
        simp only [deviceCredentials, asTable, field]
        simp [Entries.Distinct, lookup_cons_eq, asStr, filter_some, hne]
      rw [hread]
      rfl
  · cases hed with
    | deviceEnrolled _ _ _ entry hentry =>
      rw [deviceEntry_publicKeyHex] at hentry
      cases hentry
      rw [entriesCredentials_setDevice hk]
      have hread : deviceCredentials (table [("public_key", str (publicKeyHex key)),
          ("created_at", str (defaultCreatedAt now))]) = ("", some (publicKeyHex key)) := by
        simp only [deviceCredentials, asTable, field]
        simp [Entries.Distinct, lookup_cons_eq, asStr]
      rw [hread]
      rfl
  · cases hed with
    | enrolled => exact entriesCredentials_setSecret hk secret

theorem IssuedCredential.storeOp_clientId (credential : IssuedCredential) (id : String) :
    (credential.storeOp id).clientId = id := by
  cases credential <;> rfl

theorem storeOp_edit_ok (h : (credential.storeOp id).edit onCurve now doc = .ok r) :
    ∃ client, ClientEdit onCurve now (entriesAt id (clientsOf doc)) (credential.storeOp id) client ∧
      r.1 = withClients doc (Entries.set id (table client) (clientsOf doc)) := by
  rcases edit_ok h with ⟨other, hop, _⟩ | hcl
  · cases credential <;> cases hop
  · rwa [credential.storeOp_clientId id] at hcl

theorem docCredentials_withClients (hd : client.Distinct) (other : String) :
    docCredentials (withClients doc (Entries.set id (table client) (clientsOf doc))) other =
      if other = id then entriesCredentials client else docCredentials doc other := by
  unfold docCredentials
  rw [clientsOf_withClients ((clientsOf_distinct doc).set _ _), lookup_set]
  by_cases hoth : other = id
  · rw [if_pos hoth, if_pos hoth, bind_some, asTable_table hd, bind_some]
  · rw [if_neg hoth, if_neg hoth]

theorem docCredentials_eq_some (h : docCredentials doc id = some k) :
    entriesCredentials (entriesAt id (clientsOf doc)) = some k := by
  rcases bind_eq_some_iff.mp h with ⟨v, hv, hread⟩
  rcases bind_eq_some_iff.mp hread with ⟨entries, he, hk⟩
  have hent : entriesAt id (clientsOf doc) = entries := by
    unfold entriesAt
    rw [field_of_lookup hv, he]
    rfl
  rw [hent]
  exact hk

theorem docCredentials_edit (hask : credentialFor cr req secret = .ok credential)
    (he : (credential.storeOp id).edit cr.onCurve now doc = .ok r)
    (hk : docCredentials doc id = some k) : docCredentials r.1 id = some (k.issue credential) := by
  rcases storeOp_edit_ok he with ⟨client, hcl, hdoc⟩
  rw [hdoc, docCredentials_withClients (clientEdit_distinct hcl entriesAt_distinct),
    if_pos rfl]
  exact entriesCredentials_edit hask hcl (docCredentials_eq_some hk)

theorem docCredentials_edit_ne {other : String}
    (he : (credential.storeOp id).edit onCurve now doc = .ok r) (hne : other ≠ id) :
    docCredentials r.1 other = docCredentials doc other := by
  rcases storeOp_edit_ok he with ⟨client, hcl, hdoc⟩
  rw [hdoc, docCredentials_withClients (clientEdit_distinct hcl entriesAt_distinct),
    if_neg hne]

theorem fileCredentials_perform {io : StoreIo}
    (hask : credentialFor cr req secret = .ok credential) (hio : ¬io.write.FailsInPlace)
    (hk : fileCredentials file id = some k) :
    fileCredentials ((credential.storeOp id).perform cr.onCurve io file).1 id =
      some (if ((credential.storeOp id).perform cr.onCurve io file).2.isOk then k.issue credential
        else k) := by
  rcases perform_cases cr.onCurve (credential.storeOp id) io file with
    ⟨hf, why, hwhy⟩ | ⟨doc, r, rfl, _, he, hok | ⟨hfa, _⟩⟩
  -- Nothing was written.
  · rw [hf, hwhy]
    exact hk
  · rw [hok]
    exact docCredentials_edit hask he hk
  · exact absurd hfa hio

theorem fileCredentials_perform_ne {io : StoreIo} {other : String} (hio : ¬io.write.FailsInPlace)
    (hne : other ≠ id) :
    fileCredentials ((credential.storeOp id).perform onCurve io file).1 other =
      fileCredentials file other := by
  rcases perform_cases onCurve (credential.storeOp id) io file with
    ⟨hf, _⟩ | ⟨doc, r, rfl, _, he, hok | ⟨hfa, _⟩⟩
  · rw [hf]
  · rw [hok]
    exact docCredentials_edit_ne he hne
  · exact absurd hfa hio

end

end Nexapipe
