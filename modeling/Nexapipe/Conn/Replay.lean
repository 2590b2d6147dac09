import Nexapipe.Conn.StepMemory
import Nexapipe.Lib.Run

/-!
# The replay memory over a server's life

Logins, enrollments, reload passes, writes of the state file and restarts, in any
order, and what they do to the step a TOTP credential was last accepted on.

A login is answered after its write of the state file, but a server can stop
before that write, and a write can fail. A restart then reads an older memory.
The list `unsaved` names the credentials this can happen to: those accepted since
the snapshot that is in the file was taken.
-/

namespace Nexapipe

open List Option

/-! ### A server's life -/

structure ReplayState where
  live : AuthConfig
  /-- What a load of the state file reads, `none` when it cannot be read. -/
  file : Option RuntimeState
  /-- The snapshot of a write that is in the gate. -/
  taken : Option RuntimeState
  /-- What the reload passes under way have read. -/
  loaded : List AuthConfig
  /-- The codes that were accepted, newest first. -/
  logins : List (Credential × UInt64)
  /-- The credentials accepted since the snapshot in the file was taken. -/
  unsaved : List Credential
  /-- The credentials accepted since the snapshot in the gate was taken. -/
  untaken : List Credential

inductive ReplayEvent where
  | authenticate (clock : AuthClock) (req : AuthRequest)
  | enroll (clock : EnrollClock) (req : EnrollRequest) (secret : String) (outcome : WriteOutcome)
  | read (env : LoadEnv) (doc : Entries String Toml)
  | merge (plaintext : Option PlaintextListener) (pass : Nat)
  | takeSnapshot
  | write (io : StateIo)
  | restart (env : LoadEnv) (doc : Entries String Toml)

def loadWithState (cr : Crypto) (env : LoadEnv) (doc : Entries String Toml)
    (file : Option RuntimeState) : Option AuthConfig :=
  (loadConfigWithAuth cr env doc file).join

namespace ReplayState

def start (live : AuthConfig) (file : Option RuntimeState) : ReplayState :=
  { live := live
    file := file
    taken := none
    loaded := []
    logins := []
    unsaved := []
    untaken := [] }

def step (cr : Crypto) (s : ReplayState) : ReplayEvent → Option ReplayState
  | .authenticate clock req =>
    if s.live.enabled then
      let live := (authenticateLocked cr s.live clock req).cfg
      let key : Credential := ⟨req.clientId, req.deviceId⟩
      match acceptedStep cr s.live clock req with
      | none => some { s with live := live }
      | some step =>
        some { s with
          live := live
          logins := (key, step) :: s.logins
          unsaved := key :: s.unsaved
          untaken := key :: s.untaken }
    else none
  | .enroll clock req secret outcome =>
    some { s with live := (enrollClient cr s.live clock req secret outcome).1 }
  | .read env doc =>
    (loadWithState cr env doc s.file).map fun cfg => { s with loaded := cfg :: s.loaded }
  | .merge plaintext pass =>
    s.loaded[pass]?.map fun cfg => { s with live := reloadTable plaintext s.live cfg }
  | .takeSnapshot =>
    if s.taken.isNone then
      some { s with taken := some (snapshot cr s.live.counterSnapshot), untaken := [] }
    else none
  | .write io =>
    s.taken.map fun state =>
      { s with
        file := (putState io s.file state).1
        taken := none
        unsaved := if io.reaches then s.untaken else s.unsaved }
  | .restart env doc =>
    (loadWithState cr env doc s.file).map fun live =>
      { s with live := live, taken := none, loaded := [], unsaved := [], untaken := [] }

/-- What holds of a credential that has been there all along: nothing that was
    written or read is newer than the live memory, the live memory is in the file
    unless a code was accepted since, and the codes it was accepted for came in
    order. -/
structure Remembers (key : Credential) (s : ReplayState) : Prop where
  present : s.live.hasTotp key = true
  file_le : ∀ state ∈ s.file, StepLe (state.stepOf key) (s.live.stepOf key)
  taken_le : ∀ state ∈ s.taken, StepLe (state.stepOf key) (s.live.stepOf key)
  loaded_le : ∀ cfg ∈ s.loaded, StepLe (cfg.stepOf key) (s.live.stepOf key)
  saved : key ∉ s.unsaved → ∀ state ∈ s.file, StepLe (s.live.stepOf key) (state.stepOf key)
  took : key ∉ s.untaken → ∀ state ∈ s.taken, StepLe (s.live.stepOf key) (state.stepOf key)
  logins_le : ∀ login ∈ s.logins, login.1 = key → StepLe (some login.2) (s.live.stepOf key)
  ordered : s.logins.Pairwise fun newer older =>
    newer.1 = key → older.1 = key → older.2 ≤ newer.2

/-- An event keeps the credential, a write of the state file is not cut short,
    and a restart comes only when every code accepted for the credential is in the
    file. -/
def Keeps (cr : Crypto) (key : Credential) (s : ReplayState) (e : ReplayEvent) : Prop :=
  (∀ s' ∈ step cr s e, s'.live.hasTotp key = true) ∧
    match e with
    | .write io => io.tears = false
    | .restart _ _ => key ∉ s.unsaved
    | _ => True

variable {key : Credential} {live : AuthConfig} {s : ReplayState} {cr : Crypto}
  {doc : Entries String Toml} {env : LoadEnv}

theorem Remembers.setLive (h : Remembers key s) (hpr : live.hasTotp key = true)
    (hsame : live.stepOf key = s.live.stepOf key) : Remembers key { s with live := live } where
  present := hpr
  file_le := by
    rw [hsame]
    exact h.file_le
  taken_le := by
    rw [hsame]
    exact h.taken_le
  loaded_le := by
    rw [hsame]
    exact h.loaded_le
  saved := by
    rw [hsame]
    exact h.saved
  took := by
    rw [hsame]
    exact h.took
  logins_le := by
    rw [hsame]
    exact h.logins_le
  ordered := h.ordered

open StepLe

theorem Remembers.accept {key : Credential} {s : ReplayState} {live : AuthConfig} {step : UInt64}
    (h : Remembers key s) (hpr : live.hasTotp key = true)
    (hste : live.stepOf key = some step) (hle : StepLe (s.live.stepOf key) (some step)) :
    Remembers key { s with
      live := live
      logins := (key, step) :: s.logins
      unsaved := key :: s.unsaved
      untaken := key :: s.untaken } where
  present := hpr
  file_le := by
    rw [hste]
    exact fun state hst => (h.file_le state hst).trans hle
  taken_le := by
    rw [hste]
    exact fun state hst => (h.taken_le state hst).trans hle
  loaded_le := by
    rw [hste]
    exact fun cfg hcfg => (h.loaded_le cfg hcfg).trans hle
  saved := fun hnot => absurd mem_cons_self hnot
  took := fun hnot => absurd mem_cons_self hnot
  logins_le := by
    intro login hlog hkey
    rw [hste]
    rcases mem_cons.mp hlog with rfl | hold
    · exact refl _
    · exact (h.logins_le login hold hkey).trans hle
  ordered := by
    rw [pairwise_cons]
    refine ⟨?_, h.ordered⟩
    intro older holder _ hkey
    -- Every earlier code is behind the memory, and the memory is behind the new step.
    rcases ((h.logins_le older holder hkey).trans hle) older.2 rfl with ⟨y, hy, hley⟩
    cases hy
    exact hley

theorem Remembers.acceptOther {other : Credential} {step : UInt64} (h : Remembers key s)
    (hpr : live.hasTotp key = true) (hsame : live.stepOf key = s.live.stepOf key)
    (hoth : other ≠ key) :
    Remembers key { s with
      live := live
      logins := (other, step) :: s.logins
      unsaved := other :: s.unsaved
      untaken := other :: s.untaken } :=
  { h.setLive hpr hsame with
    saved := fun hnot =>
      (h.setLive hpr hsame).saved fun hmem => hnot (mem_cons_of_mem other hmem)
    took := fun hnot =>
      (h.setLive hpr hsame).took fun hmem => hnot (mem_cons_of_mem other hmem)
    logins_le := by
      intro login hlog hkey
      rcases mem_cons.mp hlog with rfl | hold
      · exact absurd hkey hoth
      · exact (h.setLive hpr hsame).logins_le login hold hkey
    ordered := by
      rw [pairwise_cons]
      exact ⟨fun _ _ hkey => absurd hkey hoth, h.ordered⟩ }

theorem remembers_start {file : Option RuntimeState}
    (hload : loadWithState cr env doc file = some live) (hpr : live.hasTotp key = true) :
    Remembers key (start live file) := by
  rcases loadConfigWithAuth_eq_some cr (join_eq_some_iff.mp hload) with
    ⟨cfg, state, hpar, rfl, rfl⟩
  -- The document has no memory of its own, so the table has the file's.
  have hsame : (state.apply cr cfg).stepOf key = state.stepOf key :=
    stepOf_apply cr state (noSteps_of_parse hpar) (by rw [← hasTotp_apply state]; exact hpr)
  refine ⟨hpr, ?_, ?_, ?_, ?_, ?_, ?_, List.Pairwise.nil⟩
  · intro state' hst
    cases hst
    change StepLe _ ((state.apply cr cfg).stepOf key)
    rw [hsame]
    exact refl _
  · exact fun state' hst => absurd hst (not_mem_none state')
  · exact fun cfg' hcfg => absurd hcfg not_mem_nil
  · intro _ state' hst
    cases hst
    change StepLe ((state.apply cr cfg).stepOf key) _
    rw [hsame]
    exact refl _
  · exact fun _ state' hst => absurd hst (not_mem_none state')
  · exact fun login hlog => absurd hlog not_mem_nil

theorem Remembers.authenticate {s' : ReplayState} {clock : AuthClock} {req : AuthRequest}
    (h : Remembers key s) (hpr : s'.live.hasTotp key = true)
    (hst : step cr s (.authenticate clock req) = some s') :
    Remembers key s' ∧ StepLe (s.live.stepOf key) (s'.live.stepOf key) := by
  simp only [step] at hst
  split at hst
  next hen =>
    have hmov := @stepOf_authenticate cr s.live key clock req hen
    split at hst
    next hno =>
      cases hst
      -- The login was refused, or was one without a code: no memory moves.
      simp only [hno, none_or, ite_self] at hmov
      exact ⟨h.setLive hpr hmov, by rw [hmov]; exact refl _⟩
    next step hacc =>
      cases hst
      by_cases hkey : key = ⟨req.clientId, req.deviceId⟩
      · have hle := stepLe_acceptedStep hen hacc
        rw [if_pos hkey, hacc] at hmov
        rw [← hkey] at hle hpr ⊢
        exact ⟨h.accept hpr hmov hle, by rw [hmov]; exact hle⟩
      · rw [if_neg hkey] at hmov
        exact ⟨h.acceptOther hpr hmov (Ne.symm hkey), by
          rw [hmov]
          exact refl _⟩
  · cases hst

theorem Remembers.read {loaded : AuthConfig} (h : Remembers key s)
    (hload : loadWithState cr env doc s.file = some loaded) :
    Remembers key { s with loaded := loaded :: s.loaded } := by
  rcases loadConfigWithAuth_eq_some cr (join_eq_some_iff.mp hload) with
    ⟨cfg, state, hpar, hf, rfl⟩
  refine { h with loaded_le := ?_ }
  intro cfg' hcfg
  rcases mem_cons.mp hcfg with rfl | hold
  · exact (stepLe_apply state (noSteps_of_parse hpar)).trans (h.file_le state hf)
  · exact h.loaded_le cfg' hold

theorem Remembers.takeSnapshot (cr : Crypto) (h : Remembers key s) :
    Remembers key { s with taken := some (snapshot cr s.live.counterSnapshot), untaken := [] } := by
  have hsame : (snapshot cr s.live.counterSnapshot).stepOf key = s.live.stepOf key := by
    rw [snapshot_counterSnapshot, stepOf_snapshot]
  refine { h with taken_le := ?_, took := ?_ }
  · intro state hst
    cases hst
    rw [hsame]
    exact refl _
  · intro _ state hst
    cases hst
    rw [hsame]
    exact refl _

theorem Remembers.write {io : StateIo} {state : RuntimeState} (h : Remembers key s)
    (hst : s.taken = some state) (hwh : io.tears = false) :
    Remembers key { s with
      file := (putState io s.file state).1
      taken := none
      unsaved := if io.reaches then s.untaken else s.unsaved } := by
  rcases hre : io.reaches with _ | _
  · rw [(putState_of_not_reaches s.file state hre).1, if_neg Bool.false_ne_true]
    exact { h with
      taken_le := fun state' h' => absurd h' (not_mem_none state')
      took := fun _ state' h' => absurd h' (not_mem_none state') }
  · rw [putState_of_reaches s.file state hre hwh, if_pos rfl]
    refine { h with
      file_le := ?_
      taken_le := fun state' h' => absurd h' (not_mem_none state')
      saved := ?_
      took := fun _ state' h' => absurd h' (not_mem_none state') }
    · intro state' h'
      cases h'
      exact h.taken_le state hst
    · intro hnot state' h'
      cases h'
      exact h.took hnot state hst

theorem Remembers.restart (h : Remembers key s)
    (hload : loadWithState cr env doc s.file = some live) (hp : live.hasTotp key = true)
    (hsav : key ∉ s.unsaved) :
    Remembers key
        { s with live := live, taken := none, loaded := [], unsaved := [], untaken := [] } ∧
      StepLe (s.live.stepOf key) (live.stepOf key) := by
  have hst := remembers_start hload hp
  rcases loadConfigWithAuth_eq_some cr (join_eq_some_iff.mp hload) with
    ⟨cfg, state, hpar, hf, hl⟩
  have hle : StepLe (s.live.stepOf key) (live.stepOf key) :=
    (h.saved hsav state hf).trans (hst.file_le state hf)
  refine ⟨{ hst with logins_le := ?_, ordered := h.ordered }, hle⟩
  intro login hlog hkey
  exact (h.logins_le login hlog hkey).trans hle

theorem remembers_step {s' : ReplayState} (e : ReplayEvent) (h : Remembers key s)
    (hke : Keeps cr key s e) (hste : step cr s e = some s') :
    Remembers key s' ∧ StepLe (s.live.stepOf key) (s'.live.stepOf key) := by
  have hpr : s'.live.hasTotp key = true := hke.1 s' hste
  cases e with
  | authenticate clock req => exact h.authenticate hpr hste
  | enroll clock req secret outcome =>
    cases hste
    have hsame := @stepOf_enrollClient cr s.live key clock req secret outcome h.present
    exact ⟨h.setLive hpr hsame, by rw [hsame]; exact refl _⟩
  | read env doc =>
    rcases map_eq_some_iff.mp hste with ⟨loaded, hload, rfl⟩
    exact ⟨h.read hload, refl _⟩
  | merge plaintext pass =>
    rcases map_eq_some_iff.mp hste with ⟨cfg, hcfg, rfl⟩
    have hsame := stepOf_reloadTable h.present hpr
    -- However late the pass merges, what it read is behind the live memory, which stays.
    rw [newestStep_of_le (h.loaded_le cfg (mem_of_getElem? hcfg))] at hsame
    exact ⟨h.setLive hpr hsame, by rw [hsame]; exact refl _⟩
  | takeSnapshot =>
    simp only [step] at hste
    split at hste
    · cases hste
      exact ⟨h.takeSnapshot cr, refl _⟩
    · cases hste
  | write io =>
    rcases map_eq_some_iff.mp hste with ⟨state, hst, rfl⟩
    exact ⟨h.write hst hke.2, refl _⟩
  | restart env doc =>
    rcases map_eq_some_iff.mp hste with ⟨live, hload, rfl⟩
    exact h.restart hload hpr hke.2

/-- The replay memory never goes backwards. For a TOTP credential that is there
    from the start on, through logins, enrollments, reloads, writes of the state
    file and restarts that find every accepted code saved, the recorded step only
    moves forward, and no code is accepted for a step earlier than that of a code
    accepted before it. -/
theorem replay_memory_monotone {cr : Crypto} {env : LoadEnv} {doc : Entries String Toml}
    {file : Option RuntimeState} {live : AuthConfig} {key : Credential}
    {es es' : List ReplayEvent} {s s' : ReplayState}
    (hload : loadWithState cr env doc file = some live) (hpresent : live.hasTotp key = true)
    (hkeeps : Machine.Along (step cr) (Keeps cr key) (start live file) es)
    (hrun : Machine.run (step cr) (start live file) es = some s)
    (hkeeps' : Machine.Along (step cr) (Keeps cr key) s es')
    (hrun' : Machine.run (step cr) s es' = some s') :
    StepLe (s.live.stepOf key) (s'.live.stepOf key) ∧
      s'.logins.Pairwise fun newer older =>
        newer.1 = key → older.1 = key → older.2 ≤ newer.2 := by
  have hs : Remembers key s :=
    Machine.invariant_along (Remembers key)
      (fun _ e _ h hok hst => (remembers_step e h hok hst).1)
      (remembers_start hload hpresent) hkeeps hrun
  have hs' : Remembers key s' ∧ StepLe (s.live.stepOf key) (s'.live.stepOf key) := by
    refine Machine.invariant_along
      (fun m => Remembers key m ∧ StepLe (s.live.stepOf key) (m.live.stepOf key))
      ?_ ⟨hs, refl _⟩ hkeeps' hrun'
    intro m e m' h hok hst
    rcases remembers_step e h.1 hok hst with ⟨hne, hle⟩
    exact ⟨hne, h.2.trans hle⟩
  exact ⟨hs'.2, hs'.1.ordered⟩

instance (cr : Crypto) (key : Credential) (s : ReplayState) (e : ReplayEvent) :
    Decidable (Keeps cr key s e) := by
  unfold Keeps
  cases e <;> infer_instance

end ReplayState

/-! ### Two lives -/

def gatedDoc : Entries String Toml :=
  [("auth", .table [("enabled", .bool true),
    ("clients", .table [("alice", .table [("secret", .str "JBSWY3DP")])])])]

def aliceKey : Credential :=
  { clientId := "alice", device := none }

def aliceLogin (now : UInt64) (code : String) : ReplayEvent :=
  .authenticate (.all now)
    { clientId := "alice"
      deviceId := none
      nonce := [1]
      timestamp := now.toInt64
      signature := [1]
      code := code }

def aliceTable : AuthConfig :=
  AuthConfig.gated [("alice", { ClientAuth.ofSecret "JBSWY3DP" with createdAt := "0" })]

namespace ReplayState

def savedLogin : List ReplayEvent :=
  [aliceLogin 3000 "000000", .read LoadEnv.plain gatedDoc, .takeSnapshot,
    .write ⟨none, true, .replaced⟩]

def laterLogins : List ReplayEvent :=
  [.merge none 0, .restart LoadEnv.plain gatedDoc, aliceLogin 3010 "999999",
    aliceLogin 3030 "000000"]

open RuntimeState Crypto

theorem replay_memory_monotone_restart :
    ∃ s s', Machine.run (step Crypto.toy) (start aliceTable (some RuntimeState.empty))
        savedLogin = some s ∧
      Machine.run (step Crypto.toy) s laterLogins = some s' ∧
      StepLe (s.live.stepOf aliceKey) (s'.live.stepOf aliceKey) ∧
      s'.logins = [(aliceKey, 101), (aliceKey, 100)] := by
  have hload : loadWithState toy LoadEnv.plain gatedDoc (some empty) =
      some aliceTable := by decide
  have hkee : Machine.Along (step toy) (Keeps toy aliceKey)
      (start aliceTable (some empty)) (savedLogin ++ laterLogins) := by decide
  have hvi : (Machine.run (step toy) (start aliceTable (some empty))
      (savedLogin ++ laterLogins)).map (fun s => s.logins) =
      some [(aliceKey, 101), (aliceKey, 100)] := by decide
  rcases map_eq_some_iff.mp hvi with ⟨s', hrun, hlog⟩
  rw [Machine.run_append] at hrun
  rcases bind_eq_some_iff.mp hrun with ⟨s, hsav, hlat⟩
  rcases hkee.split hsav with ⟨hkeep, hke⟩
  exact ⟨s, s', hsav, hlat, (replay_memory_monotone hload (by decide) hkeep hsav
    hke hlat).1, hlog⟩

def unsavedLogin : List ReplayEvent :=
  [aliceLogin 3000 "000000", .takeSnapshot, .write ⟨none, true, .tempFailed .writing⟩]

def earlierLogin : List ReplayEvent :=
  [.restart LoadEnv.plain gatedDoc, aliceLogin 3010 "999999"]

/-- A server that could not save an accepted code forgets the step when it is
    restarted: the recorded step goes back, and a code for an earlier step is
    accepted. -/
theorem restart_forgets_unsaved_step :
    loadWithState Crypto.toy LoadEnv.plain gatedDoc (some RuntimeState.empty) =
        some aliceTable ∧
      ∃ s s', Machine.run (step Crypto.toy) (start aliceTable (some RuntimeState.empty))
          unsavedLogin = some s ∧
        Machine.run (step Crypto.toy) s earlierLogin = some s' ∧
        Machine.Along (step Crypto.toy)
          (fun s e => ∀ s' ∈ step Crypto.toy s e, s'.live.hasTotp aliceKey = true)
          (start aliceTable (some RuntimeState.empty)) (unsavedLogin ++ earlierLogin) ∧
        ¬StepLe (s.live.stepOf aliceKey) (s'.live.stepOf aliceKey) ∧
        s'.logins = [(aliceKey, 99), (aliceKey, 100)] := by
  have hvi : (Machine.run (step toy) (start aliceTable (some empty))
      unsavedLogin).bind (fun s =>
        (Machine.run (step toy) s earlierLogin).map fun s' =>
            (s.live.stepOf aliceKey, s'.live.stepOf aliceKey, s'.logins)) =
      some (some 100, some 99, [(aliceKey, 99), (aliceKey, 100)]) := by decide
  rcases bind_eq_some_iff.mp hvi with ⟨s, hs, hvi'⟩
  rcases map_eq_some_iff.mp hvi' with ⟨s', hs', hval⟩
  simp only [Prod.mk.injEq] at hval
  rcases hval with ⟨hbef, haft, hlog⟩
  refine ⟨by decide, s, s', hs, hs', by decide, ?_, hlog⟩
  rw [hbef, haft]
  intro hle
  rcases hle 100 rfl with ⟨y, hy, hy'⟩
  cases hy
  exact absurd hy' (by decide)

end ReplayState

end Nexapipe
