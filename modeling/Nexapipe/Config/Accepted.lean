import Nexapipe.Config.Load

/-!
# Which documents load

The loader's checks, turned around: a document is accepted when each entry of
each of its tables passes, on its own, and every client has a secret. In that
form acceptance survives an edit that writes one entry, because only the entry
written has to be looked at again, and this is how the writers of the store are
shown to leave a document that loads.

The same reading gives what a loaded table holds. A client is in it when the
document has a value for it, and its credential, its token and its devices are
the ones its entries spell.
-/

namespace Nexapipe

open Toml Option Entries

section

variable {env : LoadEnv} {id : String}

/-! ### One device -/

def readDevice (env : LoadEnv) (id name : String) (v : Toml) : Option DeviceAuth :=
  Entries.readTwice (fun _ v => DeviceAuthToml.ofToml v) (loadDevice env id) name v

theorem loadDevice_ok {name : String} {toml : DeviceAuthToml} {d : DeviceAuth}
    (h : loadDevice env id name toml = .ok d) :
    d.secret = (toml.secret.filter (· ≠ "")).getD "" ∧ d.publicKey = toml.publicKey ∧
      d.lastUsedStep = none := by
  revert h
  fun_cases loadDevice env id name toml with
  | case6 | case7 =>
    intro h
    rw [← Except.ok.inj h]
    exact ⟨rfl, rfl, rfl⟩
  | _ => rintro ⟨⟩

/-! ### One client -/

def readClient (env : LoadEnv) (id : String) (v : Toml) : Option ClientAuth :=
  Entries.readTwice (fun _ v => ClientAuthToml.ofToml v) (loadClient env) id v

variable {toml : ClientAuthToml} {v : Toml} {c : ClientAuth} {cfg : AuthConfig}
  {t clients : Entries String Toml}

open ClientAuthToml

theorem ClientAuthToml.ofToml_eq_ok :
    ClientAuthToml.ofToml v = .ok toml ↔
      ∃ t secret devices, v.asTable = some t ∧ checkFields ClientAuthToml.fields t = .ok () ∧
        field asStr "secret" t = some secret ∧
        tableField DeviceAuthToml.ofToml "devices" t = .ok devices ∧
        toml = ClientAuthToml.ofEntries t secret devices := by
  constructor
  · fun_cases ofToml v with
    | case5 t ht hf secret hsec devices hdev =>
      rintro ⟨⟩
      exact ⟨t, secret, devices, ht, hf, hsec, hdev, rfl⟩
    | _ => rintro ⟨⟩
  · intro h
    rcases h with ⟨t, secret, devices, ht, hf, hsec, hdev, rfl⟩
    simp only [ofToml, ht, hf, hsec, hdev]

theorem firstBadHost_eq_none {hosts : List String} :
    firstBadHost hosts = none ↔ ∀ host ∈ hosts, Host.patternError host = none := by
  unfold firstBadHost
  simp only [List.findSome?_eq_none_iff, map_eq_none_iff]

theorem loadClient_eq_ok :
    loadClient env id toml = .ok c ↔
      toml.pendingEnrollment ≠ some "" ∧
        (∀ host ∈ toml.allowHosts.getD [], Host.patternError host = none) ∧
        0 ∉ toml.allowPorts.getD [] ∧
        ∃ devices, Entries.readEach (loadDevice env id) (toml.devices.getD []) = .ok devices ∧
          c = toml.toClient env devices := by
  rw [← firstBadHost_eq_none]
  constructor
  · fun_cases loadClient env id toml with
    | case5 htoken hhosts hpor devices hdev =>
      rintro ⟨⟩
      exact ⟨htoken, hhosts, hpor, devices, hdev, rfl⟩
    | _ => rintro ⟨⟩
  · intro h
    rcases h with ⟨htoken, hhosts, hpor, devices, hdev, rfl⟩
    simp only [loadClient, if_neg htoken, hhosts, if_neg hpor, hdev]

theorem readClient_ok (h : readClient env id v = some c) :
    ∃ t, v.asTable = some t ∧ field asStr "secret" t = some c.secret ∧
      c.pendingEnrollment = field asStr "pending_enrollment" t ∧
      (∀ name, c.devices.lookup name =
        ((entriesAt "devices" t).lookup name).bind (readDevice env id name)) ∧
      c.HostsAccepted ∧ c.lastUsedStep = none ∧ c.enrollmentCounter = Counter.clear := by
  rcases readTwice_eq_some.mp h with ⟨toml, hto, hc⟩
  rcases ofToml_eq_ok.mp hto with
    ⟨t, secret, devices, ht, _, hsec, hdev, rfl⟩
  rcases loadClient_eq_ok.mp hc with ⟨_, hhosts, _, loaded, hload, rfl⟩
  refine ⟨t, ht, hsec, rfl, ?_, ?_, rfl, rfl⟩
  · intro name
    -- Parsing and checking run over the same keys in the same order, so each device is found under
    -- the name it was written under.
    have hread := readEach_of_tableField hdev
    exact (Table.lookup_ofList _ _).trans (lookup_readEach_twice hread hload name)
  · intro hosts hmem pattern hpat
    apply hhosts pattern
    rw [show (ofEntries t secret devices).allowHosts = some hosts from hmem]
    exact hpat

/-- An entry that may stand in a client's table: a key the record has, with a
    value of its type that its own check lets through. -/
structure ClientField (env : LoadEnv) (id key : String) (v : Toml) : Prop where
  admitted : ClientAuthToml.fields.Admits key v
  token : key = "pending_enrollment" → v.asStr ≠ some ""
  hosts : key = "allow_hosts" → ∀ hosts ∈ asList asStr v, ∀ host ∈ hosts,
    Host.patternError host = none
  ports : key = "allow_ports" → ∀ ports ∈ asList asUInt16 v, 0 ∉ ports
  devices : key = "devices" → ∀ devices ∈ v.asTable, ∀ e ∈ devices,
    (readDevice env id e.1 e.2).isSome

def ClientAccepted (env : LoadEnv) (id : String) (v : Toml) : Prop :=
  ∃ t, v.asTable = some t ∧ Passes (ClientField env id) t ∧ (t.lookup "secret").isSome

theorem readDevice_isSome_of_passes {client : Entries String Toml}
    (h : Passes (ClientField env id) client) :
    ∀ e ∈ entriesAt "devices" client, (readDevice env id e.1 e.2).isSome := by
  intro e he
  rcases mem_entriesAt.mp he with ⟨entries, hent, hmem⟩
  rcases bind_eq_some_iff.mp hent with ⟨v, hv, hread⟩
  exact (h.lookup hv).devices rfl entries hread e hmem

theorem clientAccepted_of_readClient (hc : readClient env id v = some c) :
    ClientAccepted env id v := by
  rcases readTwice_eq_some.mp hc with ⟨toml, hto, hload⟩
  rcases ofToml_eq_ok.mp hto with
    ⟨t, secret, devices, ht, hfi, hsec, hdev, rfl⟩
  rcases loadClient_eq_ok.mp hload with ⟨htoken, hhosts, hpor, loaded, hlo, _⟩
  have hdis : t.Distinct := (asTable_eq_some.mp ht).2
  -- Each device was parsed and then checked, which is what reading it means.
  have hea := readEach_twice_isOk_iff.mp
    ⟨_, _, readEach_of_tableField hdev, hlo⟩
  refine ⟨t, ht, Passes.of_lookup hdis ?_, ?_⟩
  · intro key value hkey
    refine ⟨checkFields_ok_iff.mp hfi _ (mem_of_lookup hkey), ?_, ?_, ?_, ?_⟩
    · rintro rfl hnil
      apply htoken
      simp only [ofEntries, field, hkey, bind_some, hnil]
    · rintro rfl hosts hmem host hho
      apply hhosts host
      simp only [ofEntries, field, hkey, bind_some,
        mem_def.mp hmem, getD_some, hho]
    · rintro rfl ports hmem hze
      apply hpor
      simp only [ofEntries, field, hkey, bind_some,
        mem_def.mp hmem, getD_some, hze]
    · rintro rfl entries hmem e he
      apply hea e
      refine mem_entriesAt.mpr ⟨entries, ?_, he⟩
      simp only [field, hkey, bind_some, hmem]
  · unfold field at hsec
    rcases bind_eq_some_iff.mp hsec with ⟨value, hval, _⟩
    rw [hval]
    rfl

theorem readClient_of_clientAccepted (h : ClientAccepted env id v) :
    ∃ c, readClient env id v = some c := by
  rcases h with ⟨t, ht, hpas, hsome⟩
  rcases isSome_iff_exists.mp hsome with ⟨value, hval⟩
  -- The type of the key is checked, so a secret that is there is a string.
  have hsec : ∃ secret, field asStr "secret" t = some secret := by
    rcases (hpas.lookup hval).admitted with ⟨admits, hadm, hhol⟩
    cases hadm
    unfold field
    rw [hval]
    exact isSome_iff_exists.mp hhol
  rcases hsec with ⟨secret, hsec⟩
  have hfields : checkFields fields t = .ok () :=
    checkFields_ok_iff.mpr fun e he => (hpas.each e he).admitted
  -- A field that is set is an entry, and the entry passed its check.
  have hfiel : ∀ {α : Type} {read : Toml → Option α} {key : String} {a : α},
      field read key t = some a → ∃ v, ClientField env id key v ∧ read v = some a := by
    intro α read key a hread
    rcases bind_eq_some_iff.mp hread with ⟨v, hv, ha⟩
    exact ⟨v, hpas.lookup hv, ha⟩
  rcases readEach_twice_isOk_iff.mpr (readDevice_isSome_of_passes hpas) with
    ⟨ws, loaded, hws, hload⟩
  rcases tableField_of_readEach hws with ⟨devices, htab, hsame⟩
  refine ⟨_, readTwice_eq_some.mpr
    ⟨_, ofToml_eq_ok.mpr ⟨t, secret, devices, ht, hfields, hsec, htab, rfl⟩,
      loadClient_eq_ok.mpr ⟨?_, ?_, ?_, loaded, ?_, rfl⟩⟩⟩
  · intro hnil
    rcases hfiel hnil with ⟨v, hv, hread⟩
    exact hv.token rfl hread
  · intro host hhost
    rcases hhosts : (ofEntries t secret devices).allowHosts with _ | hosts
    · simp [hhosts] at hhost
    rw [hhosts] at hhost
    rcases hfiel hhosts with ⟨v, hv, hread⟩
    exact hv.hosts rfl hosts hread host hhost
  · intro hzero
    rcases hpor : (ofEntries t secret devices).allowPorts with _ | ports
    · simp [hpor] at hzero
    rw [hpor] at hzero
    rcases hfiel hpor with ⟨v, hv, hread⟩
    exact hv.ports rfl ports hread hzero
  · exact hsame ▸ hload

theorem readClient_isSome_iff : (readClient env id v).isSome ↔ ClientAccepted env id v := by
  rw [isSome_iff_exists]
  exact ⟨fun ⟨_, hc⟩ => clientAccepted_of_readClient hc, readClient_of_clientAccepted⟩

/-! ### The section -/

def SettingsAccepted (t : Entries String Toml) : Prop :=
  (∃ algorithm, loadAlgorithm (field asStr "algorithm" t) = .ok algorithm) ∧
    validateTotpParameters ((field asUInt32 "time_step" t).getD 30)
      ((field asUInt32 "digits" t).getD 6) ((field asUInt32 "window" t).getD 1) = .ok ()

structure AuthEntries (env : LoadEnv) (t : Entries String Toml) : Prop where
  fields : Passes AuthTomlConfig.fields.Admits t
  settings : SettingsAccepted t
  clients : ∀ e ∈ entriesAt "clients" t, ClientAccepted env e.1 e.2

def AuthAccepted (env : LoadEnv) (v : Toml) : Prop :=
  ∃ t, v.asTable = some t ∧ AuthEntries env t

variable {toml : AuthTomlConfig}

theorem AuthTomlConfig.ofToml_eq_ok :
    AuthTomlConfig.ofToml v = .ok toml ↔
      ∃ t clients, v.asTable = some t ∧ checkFields AuthTomlConfig.fields t = .ok () ∧
        tableField ClientAuthToml.ofToml "clients" t = .ok clients ∧
        toml = AuthTomlConfig.ofEntries t clients := by
  constructor
  · fun_cases AuthTomlConfig.ofToml v with
    | case4 t ht hf clients hc =>
      rintro ⟨⟩
      exact ⟨t, clients, ht, hf, hc, rfl⟩
    | _ => rintro ⟨⟩
  · intro h
    rcases h with ⟨t, clients, ht, hf, hc, rfl⟩
    simp only [AuthTomlConfig.ofToml, ht, hf, hc]

theorem loadSettings_ok {clients : Option (Entries String ClientAuthToml)}
    {table : Table String ClientAuth}
    (h : loadSettings (AuthTomlConfig.ofEntries t clients) table = .ok cfg) :
    SettingsAccepted t ∧ cfg.clients = table := by
  revert h
  fun_cases loadSettings (AuthTomlConfig.ofEntries t clients) table with
  | case3 algorithm halg timeStep digits window hval =>
    rintro ⟨⟩
    exact ⟨⟨⟨algorithm, halg⟩, hval⟩, rfl⟩
  | _ => rintro ⟨⟩

theorem loadSettings_of_accepted (h : SettingsAccepted t)
    (clients : Option (Entries String ClientAuthToml)) (table : Table String ClientAuth) :
    ∃ cfg, loadSettings (AuthTomlConfig.ofEntries t clients) table = .ok cfg := by
  rcases h with ⟨⟨algorithm, halg⟩, hval⟩
  simp only [loadSettings, AuthTomlConfig.ofEntries, halg, hval]
  exact ⟨_, rfl⟩

theorem authAccepted_of_load (hto : AuthTomlConfig.ofToml v = .ok toml)
    (hload : loadAuth env toml = .ok cfg) :
    ∃ t, v.asTable = some t ∧ AuthEntries env t ∧
      ∀ id, cfg.clients.lookup id =
        ((entriesAt "clients" t).lookup id).bind (readClient env id) := by
  rcases AuthTomlConfig.ofToml_eq_ok.mp hto with ⟨t, clients, ht, hfi, hcl, rfl⟩
  have hread := readEach_of_tableField hcl
  unfold loadAuth at hload
  split at hload
  · cases hload
  next loaded hlo =>
    -- The settings are read last, after every client was.
    rcases loadSettings_ok hload with ⟨hset, htab⟩
    have hpas : Passes AuthTomlConfig.fields.Admits t :=
      ⟨(asTable_eq_some.mp ht).2, checkFields_ok_iff.mp hfi⟩
    refine ⟨t, ht, ⟨hpas, hset, ?_⟩, ?_⟩
    · intro e he
      rw [← readClient_isSome_iff]
      exact readEach_twice_isOk_iff.mp ⟨_, _, hread, hlo⟩ e he
    · intro id
      rw [htab, Table.lookup_ofList]
      exact lookup_readEach_twice hread hlo id

theorem load_of_authAccepted (h : AuthAccepted env v) :
    ∃ toml cfg, AuthTomlConfig.ofToml v = .ok toml ∧ loadAuth env toml = .ok cfg := by
  rcases h with ⟨t, ht, hpas, hset, hc⟩
  have hs : ∀ e ∈ entriesAt "clients" t, (readClient env e.1 e.2).isSome :=
    fun e he => readClient_isSome_iff.mpr (hc e he)
  rcases readEach_twice_isOk_iff.mpr hs with ⟨ws, loaded, hws, hload⟩
  rcases tableField_of_readEach hws with ⟨clients, htab, hsame⟩
  rcases loadSettings_of_accepted hset clients (Table.ofList loaded) with ⟨cfg, hcfg⟩
  refine ⟨_, cfg, AuthTomlConfig.ofToml_eq_ok.mpr
    ⟨t, clients, ht, checkFields_ok_iff.mpr hpas.each, htab, rfl⟩, ?_⟩
  unfold loadAuth
  rw [show (AuthTomlConfig.ofEntries t clients).clients.getD [] = ws from hsame, hload]
  exact hcfg

open AuthPortRules

theorem portRules_of_clientAccepted (h : ClientAccepted env id v) :
    AuthPortRules.checkClient v = .ok () := by
  rcases h with ⟨t, ht, hpas, _⟩
  -- Whatever the type of a key, a value that stands under it has that type.
  have hall : ∀ (key : String) (admits : Toml → Bool),
      fields.lookup key = some admits → (t.lookup key).all admits = true := by
    intro key admits hkey
    rcases hlk : t.lookup key with _ | value
    · rfl
    rcases (hpas.lookup hlk).admitted with ⟨admits', hadm', hval⟩
    rw [hkey] at hadm'
    cases hadm'
    exact hval
  unfold checkClient
  simp only [ht, hall "allow_ports" _ rfl, hall "allow_ports_strict" _ rfl]
  rfl

theorem portRules_of_authAccepted (h : AuthAccepted env v) : AuthPortRules.check v = .ok () := by
  rcases h with ⟨t, ht, hpas, _, hcl⟩
  unfold check
  rcases hlk : t.lookup "clients" with _ | value
  · simp only [ht, hlk]
  have htab : (value.asTable).isSome = true := by
    rcases hpas.lookup hlk with ⟨admits, hadm, hval⟩
    cases hadm
    exact hval
  rcases isSome_iff_exists.mp htab with ⟨clients, hval⟩
  have hea : ∀ e ∈ clients, ∃ u, checkClient e.2 = .ok u := by
    intro e he
    have hmem : e ∈ entriesAt "clients" t :=
      mem_entriesAt.mpr ⟨clients, (field_of_lookup hlk).trans hval, he⟩
    exact ⟨(), portRules_of_clientAccepted (hcl e hmem)⟩
  have hread : ∃ us, Entries.readEach (fun _ v => checkClient v) clients =
      .ok us :=
    readEach_isOk_iff.mpr hea
  rcases hread with ⟨us, hus⟩
  simp only [ht, hlk, hval, hus]

/-! ### The document -/

structure DocAccepted (env : LoadEnv) (doc : Entries String Toml) : Prop where
  otherSections : env.otherSections (Entries.remove "auth" doc) = .ok ()
  auth : ∀ v, doc.lookup "auth" = some v → AuthAccepted env v

variable {doc : Entries String Toml}

theorem parseWithAuth_isOk_iff :
    (∃ cfg, parseWithAuth env doc = .ok cfg) ↔ DocAccepted env doc := by
  constructor
  · rintro ⟨cfg, h⟩
    revert h
    fun_cases parseWithAuth env doc with
    | case2 hoth hauth => exact fun _ => ⟨hoth, by simp [hauth]⟩
    | case6 hoth v hauth hpor toml hto cfg' hcfg =>
      refine fun _ => ⟨hoth, ?_⟩
      rcases authAccepted_of_load hto hcfg with ⟨t, ht, hent, _⟩
      intro v' hv'
      cases hauth.symm.trans hv'
      exact ⟨t, ht, hent⟩
    | _ => rintro ⟨⟩
  · intro h
    unfold parseWithAuth
    rw [h.otherSections]
    rcases hauth : doc.lookup "auth" with _ | v
    · exact ⟨none, rfl⟩
    have hacc := h.auth v hauth
    rcases load_of_authAccepted hacc with ⟨toml, cfg, hto, hcfg⟩
    -- The port rules are read first and on their own; they ask nothing the section does not.
    simp only [portRules_of_authAccepted hacc, hto, hcfg]
    exact ⟨some cfg, rfl⟩

theorem parseWithAuth_lookup (h : parseWithAuth env doc = .ok (some cfg)) (id : String) :
    cfg.clients.lookup id = ((clientsOf doc).lookup id).bind (readClient env id) := by
  revert h
  fun_cases parseWithAuth env doc with
  | case6 hoth v hauth hpor toml hto cfg' hcfg =>
    rintro ⟨⟩
    rcases authAccepted_of_load hto hcfg with ⟨t, ht, _, hlk⟩
    have hent : entriesAt "auth" doc = t := by
      unfold entriesAt
      rw [field_of_lookup hauth, ht]
      rfl
    unfold clientsOf
    rw [hent]
    exact hlk id
  | _ => rintro ⟨⟩

def LoadedConfig.ofParse {cfg : AuthConfig} (h : parseWithAuth env doc = .ok (some cfg)) :
    LoadedConfig where
  cfg := cfg
  hostsAccepted := by
    intro id client hclient
    rw [parseWithAuth_lookup h] at hclient
    rcases bind_eq_some_iff.mp hclient with ⟨v, _, hv⟩
    rcases readClient_ok hv with ⟨_, _, _, _, _, hhosts, _⟩
    exact hhosts

/-! ### Documents with another clients' table -/

theorem authEntries_nil : AuthEntries env [] :=
  { fields := Passes.nil
    settings := ⟨⟨.sha1, rfl⟩, rfl⟩
    clients := fun _ he => absurd he List.not_mem_nil }

theorem DocAccepted.authEntries (h : DocAccepted env doc) :
    AuthEntries env (entriesAt "auth" doc) := by
  rcases hauth : doc.lookup "auth" with _ | v
  · unfold entriesAt field
    rw [hauth]
    exact authEntries_nil
  rcases h.auth v hauth with ⟨t, ht, hent⟩
  unfold entriesAt
  rw [field_of_lookup hauth, ht]
  exact hent

theorem clientsOf_withClients (hd : clients.Distinct) :
    clientsOf (withClients doc clients) = clients := by
  unfold clientsOf withClients
  rw [entriesAt_set (entriesAt_distinct.set _ _), entriesAt_set hd]

theorem DocAccepted.withClients (h : DocAccepted env doc) (hd : clients.Distinct)
    (hacc : ∀ e ∈ clients, ClientAccepted env e.1 e.2) :
    DocAccepted env (Nexapipe.withClients doc clients) := by
  have hent := h.authEntries
  refine ⟨?_, ?_⟩
  · unfold Nexapipe.withClients
    rw [remove_set]
    exact h.otherSections
  · intro v hv
    unfold Nexapipe.withClients at hv
    rw [lookup_set, if_pos rfl] at hv
    cases hv
    refine ⟨_, asTable_table (hent.fields.distinct.set _ _), ?_⟩
    refine
      { fields := hent.fields.set ⟨holds asTable, rfl, ?_⟩
        settings := ?_
        clients := ?_ }
    · unfold holds
      rw [asTable_table hd]
      rfl
    · -- The settings are other keys than the one written.
      unfold SettingsAccepted
      rw [field_set_ne (by decide), field_set_ne (by decide), field_set_ne (by decide),
        field_set_ne (by decide)]
      exact hent.settings
    · rw [entriesAt_set hd]
      exact hacc

theorem DocAccepted.clientAccepted (h : DocAccepted env doc)
    (hv : (clientsOf doc).lookup id = some v) : ClientAccepted env id v :=
  h.authEntries.clients (id, v) (mem_of_lookup hv)

theorem DocAccepted.clientEntries (h : DocAccepted env doc) (id : String) :
    Passes (ClientField env id) (entriesAt id (clientsOf doc)) := by
  rcases hlk : (clientsOf doc).lookup id with _ | v
  · unfold entriesAt field
    rw [hlk]
    exact Passes.nil
  rcases h.clientAccepted hlk with ⟨t, ht, hpas, _⟩
  unfold entriesAt
  rw [field_of_lookup hlk, ht]
  exact hpas

theorem DocAccepted.secret_isSome (h : DocAccepted env doc)
    (hp : ((clientsOf doc).lookup id).isSome) :
    ((entriesAt id (clientsOf doc)).lookup "secret").isSome := by
  rcases isSome_iff_exists.mp hp with ⟨v, hlk⟩
  rcases h.clientAccepted hlk with ⟨t, ht, _, hsec⟩
  unfold entriesAt
  rw [field_of_lookup hlk, ht]
  exact hsec

end

end Nexapipe
