import Nexapipe.Conn.StepMemory

/-!
# Counters across a reload and a restart

A reload puts the clients of the file in the place of the live ones and moves the live counters
onto them; a restart moves the counters of the state file onto the clients of the configuration
file.

A reload keeps everything but the time a device was last used, which it takes from
the file; the client's own it takes from memory (`reload_keeps_counters_iff`).

A restart leaves a client alone that the state file has no entry for, and a device likewise.
-/

namespace Nexapipe

open Option Table

def ForBoth {V W : Type} (p : V → W → Prop) (t : Table String V) (u : Table String W) : Prop :=
  ∀ k v w, t.lookup k = some v → u.lookup k = some w → p v w

/-! ### A reload -/

def Behind (live incoming : AuthConfig) : Prop :=
  ForBoth (fun existing client => StepLe client.lastUsedStep existing.lastUsedStep ∧
    ForBoth (fun d d' => StepLe d'.lastUsedStep d.lastUsedStep) existing.devices client.devices)
    live.clients incoming.clients

def SameStamps (existing client : ClientAuth) : Prop :=
  ForBoth (fun d d' => d'.lastUsed = d.lastUsed) existing.devices client.devices

structure ReloadKept (existing client merged : ClientAuth) : Prop where
  login : merged.loginCounter = existing.loginCounter
  stamp : merged.lastUsed = existing.lastUsed
  step : merged.lastUsedStep = existing.lastUsedStep
  enrollment : merged.enrollmentCounter =
    if client.pendingEnrollment = existing.pendingEnrollment then existing.enrollmentCounter
    else Counter.clear
  devices : ForBoth (fun d m => m.lastUsedStep = d.lastUsedStep ∧ m.lastUsed = d.lastUsed)
    existing.devices merged.devices
  /-- A device memory does not know is as in the file. -/
  added : ∀ name, existing.devices.lookup name = none →
    merged.devices.lookup name = client.devices.lookup name
  /-- Everything but counters, stamps and steps is as in the file. -/
  configured : merged.configured = client.configured

structure ReloadKeeps (live incoming merged : AuthConfig) : Prop where
  clients : ∀ id, (merged.clients.lookup id).isSome = (incoming.clients.lookup id).isSome
  added : ∀ id, live.clients.lookup id = none →
    merged.clients.lookup id = incoming.clients.lookup id
  both : ∀ id existing client merged', live.clients.lookup id = some existing →
    incoming.clients.lookup id = some client → merged.clients.lookup id = some merged' →
      ReloadKept existing client merged'

section

variable {existing client : ClientAuth} {name : String} {d : DeviceAuth}

theorem mergeClient_device (hd : existing.devices.lookup name = some d) :
    (mergeClient existing client).devices.lookup name =
      (client.devices.lookup name).map fun d' =>
        { d' with lastUsedStep := newestStep d.lastUsedStep d'.lastUsedStep } := by
  simp only [mergeClient, lookup_mapVals, hd]

theorem enrollmentCounter_mergeClient :
    (mergeClient existing client).enrollmentCounter =
      if client.pendingEnrollment = existing.pendingEnrollment then existing.enrollmentCounter
      else Counter.clear := by
  by_cases hsame : client.pendingEnrollment = existing.pendingEnrollment
  · simp [ClientAuth.enrollmentCounter, mergeClient, replacesToken, hsame]
  · simp [ClientAuth.enrollmentCounter, mergeClient, replacesToken, hsame, Counter.clear]

theorem reloadKept_mergeClient_iff (hst : StepLe client.lastUsedStep existing.lastUsedStep)
    (hdev : ForBoth (fun d d' => StepLe d'.lastUsedStep d.lastUsedStep) existing.devices
      client.devices) :
    ReloadKept existing client (mergeClient existing client) ↔ SameStamps existing client := by
  constructor
  · intro h name d d' hd hd'
    have hrow := @mergeClient_device existing client name d hd
    rw [hd'] at hrow
    exact (h.devices name d _ hd hrow).2
  · intro hsame
    refine ⟨rfl, rfl, newestStep_of_le hst, enrollmentCounter_mergeClient, ?_, ?_,
      configured_mergeClient existing client⟩
    · intro name d m hd hm
      rw [mergeClient_device hd] at hm
      rcases map_eq_some_iff.mp hm with ⟨d', hd', rfl⟩
      exact ⟨newestStep_of_le (hdev name d d' hd hd'), hsame name d d' hd hd'⟩
    · intro name hno
      simp [mergeClient, lookup_mapVals, hno]

end

/-- A reload from a snapshot that is no newer than memory sets nothing back exactly when
    every device on both sides has the live stamp in the file already. -/
theorem reload_keeps_counters_iff (live incoming : AuthConfig) (hbehind : Behind live incoming) :
    ReloadKeeps live incoming (mergeAuthClients live incoming).1 ↔
      ForBoth SameStamps live.clients incoming.clients := by
  have hmer : ∀ {id existing client}, live.clients.lookup id = some existing →
      incoming.clients.lookup id = some client →
        (mergeAuthClients live incoming).1.clients.lookup id =
          some (mergeClient existing client) := by
    intro id existing client hli hinc
    rw [mergeAuthClients_lookup, hli, hinc]
    rfl
  constructor
  · intro h id existing client hli hinc
    have hst := hbehind id existing client hli hinc
    exact (reloadKept_mergeClient_iff hst.1 hst.2).mp
      (h.both id existing client _ hli hinc (hmer hli hinc))
  · intro hsame
    refine ⟨?_, ?_, ?_⟩
    · intro id
      rw [mergeAuthClients_lookup, isSome_map]
    · intro id hno
      rw [mergeAuthClients_lookup, hno]
      exact map_id'
    · intro id existing client merged hli hinc hme
      cases (hmer hli hinc).symm.trans hme
      have hst := hbehind id existing client hli hinc
      exact (reloadKept_mergeClient_iff hst.1 hst.2).mpr
        (hsame id existing client hli hinc)

def usedPhone (lastUsed : Option UInt64) : AuthConfig :=
  .gated [("alice", { ClientAuth.ofSecret "MFRGGZDF" with
    devices := Table.ofList [("phone",
      { secret := "K", publicKey := none, createdAt := "", lastUsed, lastUsedStep := some 3 })] })]

theorem reload_keeps_counters_iff_unchanged :
    ReloadKeeps (usedPhone (some 9)) (usedPhone (some 9))
      (mergeAuthClients (usedPhone (some 9)) (usedPhone (some 9))).1 := by
  refine (reload_keeps_counters_iff _ _ ?_).mpr ?_
  · intro id existing client hl hinc
    cases hl.symm.trans hinc
    refine ⟨StepLe.refl _, ?_⟩
    intro name d d' hd hd'
    cases hd.symm.trans hd'
    exact StepLe.refl _
  · intro id existing client hl hinc name d d' hd hd'
    cases hl.symm.trans hinc
    cases hd.symm.trans hd'
    rfl

/-- The device logged in after the state file was written, and a reload forgets it. -/
theorem reload_forgets_device_stamp :
    let incoming := (snapshot Crypto.toy (usedPhone (some 5))).apply Crypto.toy (usedPhone none)
    let row (cfg : AuthConfig) := (cfg.clients.lookup "alice").bind (·.devices.lookup "phone")
    (row (usedPhone (some 9))).map (·.lastUsed) = some (some 9) ∧
      (row incoming).map (·.lastUsed) = some (some 5) ∧
      (row (mergeAuthClients (usedPhone (some 9)) incoming).1).map (·.lastUsed) =
        some (some 5) := by
  decide +kernel

/-! ### A restart -/

structure Restored (c parsed restored : ClientAuth) : Prop where
  login : restored.loginCounter = c.loginCounter
  stamp : restored.lastUsed = c.lastUsed
  step : restored.lastUsedStep = c.lastUsedStep
  devices : ForBoth (fun d m => m.lastUsed = d.lastUsed ∧ m.lastUsedStep = d.lastUsedStep)
    c.devices restored.devices
  /-- The enrollment counters stay with the token they were paid for. -/
  enrollment : restored.enrollmentCounter =
    if c.pendingEnrollment = parsed.pendingEnrollment then c.enrollmentCounter else Counter.clear

section

variable (cr : Crypto)

structure Carries (c parsed : ClientAuth) : Prop where
  /-- A client that is left out of it has nothing in the configuration file. -/
  counted : (clientState cr c).isEmpty = true →
    parsed.loginCounter = Counter.clear ∧ parsed.lastUsed = none
  /-- Nor has a device that is left out. -/
  devices : ForBoth (fun d d' => deviceState d = none → d'.lastUsed = none) c.devices parsed.devices
  /-- Enrollment counters that another token must not get were paid for a token, and the two
      have two fingerprints. -/
  token : c.enrollmentCounter ≠ Counter.clear → c.pendingEnrollment ≠ parsed.pendingEnrollment →
    ∃ t, c.pendingEnrollment = some t ∧
      ∀ t' ∈ parsed.pendingEnrollment, cr.tokenFingerprint t ≠ cr.tokenFingerprint t'

structure JustParsed (parsed : ClientAuth) : Prop where
  step : parsed.lastUsedStep = none
  enrollment : parsed.enrollmentCounter = Counter.clear
  devices : ∀ name d, parsed.devices.lookup name = some d → d.lastUsedStep = none

variable {cr} {c parsed : ClientAuth}

theorem deviceState_eq_none {d : DeviceAuth} :
    deviceState d = none ↔ d.lastUsed = none ∧ d.lastUsedStep = none := by
  simp [deviceState]

theorem enrollmentCounter_eq_clear :
    c.enrollmentCounter = Counter.clear ↔
      c.enrollmentFailedAttempts = 0 ∧ c.enrollmentLockedUntil = none := by
  simp [ClientAuth.enrollmentCounter, Counter.clear]

theorem devices_applied_iff (hpar : JustParsed parsed) :
    ForBoth (fun d m => m.lastUsed = d.lastUsed ∧ m.lastUsedStep = d.lastUsedStep) c.devices
        (applyClient cr (clientState cr c) parsed).devices ↔
      ForBoth (fun d d' => deviceState d = none → d'.lastUsed = none) c.devices parsed.devices := by
  have hrow : ∀ {name d}, c.devices.lookup name = some d →
      (applyClient cr (clientState cr c) parsed).devices.lookup name =
        (parsed.devices.lookup name).map (applyDevice (deviceState d)) := by
    intro name d hd
    simp only [applyClient, clientState, lookup_mapVals, lookup_filterMapVals, hd,
      bind_some]
  constructor
  · intro h name d d' hd hd' hno
    have hm := hrow hd
    rw [hd', hno] at hm
    exact (h name d d' hd hm).1.trans (deviceState_eq_none.mp hno).1
  · intro h name d m hd hm
    rw [hrow hd] at hm
    rcases map_eq_some_iff.mp hm with ⟨d', hd', rfl⟩
    rcases hst : deviceState d with _ | stamps
    · -- Neither has a step, and the stamp is the condition.
      have hbl := deviceState_eq_none.mp hst
      rw [hbl.1, hbl.2]
      exact ⟨h name d d' hd hd' hst, hpar.devices name d' hd'⟩
    · unfold deviceState at hst
      split at hst
      · cases hst
      · cases hst
        exact ⟨rfl, rfl⟩

theorem enrollment_applied_iff (hpar : JustParsed parsed) :
    (applyClient cr (clientState cr c) parsed).enrollmentCounter =
        (if c.pendingEnrollment = parsed.pendingEnrollment then c.enrollmentCounter
          else Counter.clear) ↔
      (c.enrollmentCounter ≠ Counter.clear → c.pendingEnrollment ≠ parsed.pendingEnrollment →
        ∃ t, c.pendingEnrollment = some t ∧
          ∀ t' ∈ parsed.pendingEnrollment, cr.tokenFingerprint t ≠ cr.tokenFingerprint t') := by
  have happ : (applyClient cr (clientState cr c) parsed).enrollmentCounter =
      if enrollmentCountersBelongToThisToken cr (clientState cr c) parsed then c.enrollmentCounter
      else Counter.clear := by
    rw [← hpar.enrollment]
    unfold applyClient ClientAuth.enrollmentCounter
    cases enrollmentCountersBelongToThisToken cr (clientState cr c) parsed <;> rfl
  rw [happ]
  by_cases hcl : c.enrollmentCounter = Counter.clear
  · simp [hcl]
  have hco : ¬(c.enrollmentFailedAttempts = 0 ∧ c.enrollmentLockedUntil = none) :=
    fun h => hcl (enrollmentCounter_eq_clear.mpr h)
  -- The counters say something, so the state names the token if there is one.
  have hpr : (clientState cr c).enrollmentTokenFingerprint =
      c.pendingEnrollment.map cr.tokenFingerprint := by
    simp [clientState, enrollmentFingerprint, hco]
  unfold enrollmentCountersBelongToThisToken
  rw [hpr]
  rcases hc : c.pendingEnrollment with _ | t
  · rcases hp : parsed.pendingEnrollment with _ | t'
    · simp
    · simp [hcl]
  rcases hp : parsed.pendingEnrollment with _ | t'
  · simp [hcl]
  by_cases htoken : t = t'
  · simp [htoken]
  by_cases hsame : cr.tokenFingerprint t = cr.tokenFingerprint t'
  · simp [htoken, hsame, hcl]
  · simp [htoken, hsame]

theorem ClientState.isEmpty_clientState (h : (clientState cr c).isEmpty = true) :
    c.loginCounter = Counter.clear ∧ c.enrollmentCounter = Counter.clear ∧ c.lastUsed = none ∧
      c.lastUsedStep = none ∧ ∀ name d, c.devices.lookup name = some d → deviceState d = none := by
  simp only [isEmpty, Bool.and_eq_true, decide_eq_true_eq, isNone_iff_eq_none] at h
  rcases h with ⟨⟨⟨⟨⟨⟨hf, hloc⟩, he⟩, henr⟩, hu⟩, hs⟩, hdev⟩
  refine ⟨?_, enrollmentCounter_eq_clear.mpr ⟨he, henr⟩, hu, hs, ?_⟩
  · exact Counter.mk.injEq .. ▸ ⟨hf, hloc⟩
  · intro name d hd
    have hlk := congrArg (fun t => Finmap.lookup name t) hdev
    simpa [clientState, lookup_filterMapVals, hd] using hlk

theorem restored_iff (hpar : JustParsed parsed) :
    Restored c parsed (if (clientState cr c).isEmpty then parsed
        else applyClient cr (clientState cr c) parsed) ↔ Carries cr c parsed := by
  by_cases hnil : (clientState cr c).isEmpty = true
  · rcases ClientState.isEmpty_clientState hnil with ⟨hlog, henr, hus, hst, hro⟩
    rw [if_pos hnil]
    constructor
    · intro h
      refine ⟨fun _ => ⟨h.login.trans hlog, h.stamp.trans hus⟩, ?_,
        fun hne => absurd henr hne⟩
      intro name d d' hd hd' hno
      exact (h.devices name d d' hd hd').1.trans (deviceState_eq_none.mp hno).1
    · intro h
      refine ⟨(h.counted hnil).1.trans hlog.symm, (h.counted hnil).2.trans hus.symm,
        hpar.step.trans hst.symm, ?_, ?_⟩
      · intro name d m hd hm
        have hbl := deviceState_eq_none.mp (hro name d hd)
        rw [hbl.1, hbl.2]
        exact ⟨h.devices name d m hd hm (hro name d hd), hpar.devices name m hm⟩
      · rw [hpar.enrollment, henr, ite_self]
  · rw [if_neg hnil]
    constructor
    · intro h
      exact ⟨fun h => absurd h hnil, (devices_applied_iff hpar).mp h.devices,
        (enrollment_applied_iff hpar).mp h.enrollment⟩
    · intro h
      exact ⟨rfl, rfl, rfl, (devices_applied_iff hpar).mpr h.devices,
        (enrollment_applied_iff hpar).mpr h.token⟩

theorem justParsed_of_parse {env : LoadEnv} {doc : Entries String Toml} {cfg : AuthConfig}
    {id : String} (h : parseWithAuth env doc = .ok (some cfg))
    (hid : cfg.clients.lookup id = some parsed) : JustParsed parsed := by
  have hs := noSteps_of_parse h
  have hread := hid
  rw [parseWithAuth_lookup h] at hread
  rcases bind_eq_some_iff.mp hread with ⟨v, -, hv⟩
  rcases readClient_ok hv with ⟨-, -, -, -, -, -, hst, henr⟩
  refine ⟨hst, henr, ?_⟩
  intro name d hd
  have hn := hs ⟨id, some name⟩
  rw [AuthConfig.stepOf_of_lookup hid] at hn
  simpa [ClientAuth.stepFor, hd] using hn

end

/-- A restart gives every client that is in both its counters back, and no token
    another's, exactly when the state file says enough about each of them. -/
theorem restart_restores_iff (cr : Crypto) (env : LoadEnv) (doc : Entries String Toml)
    (cfg parsed : AuthConfig) (hparse : parseWithAuth env doc = .ok (some parsed)) :
    (∀ id c p restored, cfg.clients.lookup id = some c → parsed.clients.lookup id = some p →
        ((snapshot cr cfg).apply cr parsed).clients.lookup id = some restored →
          Restored c p restored) ↔
      ForBoth (Carries cr) cfg.clients parsed.clients := by
  have happ : ∀ {id c p}, cfg.clients.lookup id = some c → parsed.clients.lookup id = some p →
      ((snapshot cr cfg).apply cr parsed).clients.lookup id =
        some (if (clientState cr c).isEmpty then p else applyClient cr (clientState cr c) p) := by
    intro id c p hc hp
    rw [apply_lookup, snapshot_lookup, hc, hp]
    cases hnil : (clientState cr c).isEmpty <;> simp [hnil]
  constructor
  · intro h id c p hc hp
    exact (restored_iff (justParsed_of_parse hparse hp)).mp
      (h id c p _ hc hp (happ hc hp))
  · intro h id c p restored hc hp hres
    cases (happ hc hp).symm.trans hres
    exact (restored_iff (justParsed_of_parse hparse hp)).mpr (h id c p hc hp)

def waitingDoc : Entries String Toml :=
  [("auth", .table [("clients", .table [("alice", .table [("secret", .str "K"),
    ("pending_enrollment", .str "next")])])])]

def guessedAt (token : Option String) : ClientAuth :=
  { ClientAuth.ofSecret "K" with pendingEnrollment := token, enrollmentFailedAttempts := 4 }

theorem restart_restores_iff_waiting :
    ∃ parsed, parseWithAuth LoadEnv.plain waitingDoc = .ok (some parsed) ∧
      ∀ restored, ((snapshot Crypto.toy (.gated [("alice", guessedAt (some "next"))])).apply
          Crypto.toy parsed).clients.lookup "alice" = some restored →
        restored.enrollmentFailedAttempts = 4 := by
  refine ⟨_, rfl, ?_⟩
  intro restored hres
  have hall := (restart_restores_iff Crypto.toy LoadEnv.plain waitingDoc
    (.gated [("alice", guessedAt (some "next"))]) _ rfl).mpr ?_
  · have hke := hall "alice" _ _ restored rfl rfl hres
    exact congrArg Counter.failed hke.enrollment
  · intro id c p hc hp
    by_cases hid : id = "alice"
    · subst hid
      cases hc.symm.trans (rfl : _ = some (guessedAt (some "next")))
      cases hp
      refine ⟨by decide, ?_, by decide⟩
      intro name d d' hd
      cases (Finmap.lookup_empty name).symm.trans hd
    · have hne : (id == "alice") = false := beq_eq_false_iff_ne.mpr hid
      rw [AuthConfig.gated, lookup_ofList, List.lookup_cons, hne] at hc
      cases hc

/-- A handshake that is dropped during its storage write leaves the guesses behind with no
    token to belong to. After a restart they count against the next invite. -/
theorem restart_hands_guesses_to_next_token :
    let lost := (enrollClient Crypto.toy (.gated [("alice", guessedAt (some "token"))]) (.all 0)
      ⟨"alice", "token", none, none⟩ "S" .dropped).1
    ((lost.clients.lookup "alice").map fun c => (c.pendingEnrollment, c.enrollmentFailedAttempts)) =
        some (none, 4) ∧
      ∃ parsed, parseWithAuth LoadEnv.plain waitingDoc = .ok (some parsed) ∧
        ((((snapshot Crypto.toy lost).apply Crypto.toy parsed).clients.lookup "alice").map fun c =>
          (c.pendingEnrollment, c.enrollmentFailedAttempts)) = some (some "next", 4) :=
  ⟨by decide +kernel, _, rfl, by decide +kernel⟩

end Nexapipe
