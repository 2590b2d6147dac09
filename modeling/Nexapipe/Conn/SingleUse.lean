import Nexapipe.Conn.Authenticator
import Nexapipe.Conn.Credentials
import Nexapipe.Storage.Revoked

/-!
# A token is spent once

Any number of handshakes and reload passes over one live table and one stored document. An
enrollment holds the auth lock from its verdict to the end of its storage write, so what others can
see of it is where it stands at a wait: it has put its credential into the live table and its write
has not run, or the write has run and the handshake has not been resumed. The write is a task of
its own.

A reload pass samples the epoch, reads the document without the lock, and merges what it read under
the lock when the epoch has not moved. The epoch is moved by an enrollment that resumes after its
write was saved, and by nothing else, so a pass that read the document before such a write is kept
out by the lock until the epoch tells.
-/

namespace Nexapipe

open Toml Option AuthConfig

/-! ### The system -/

structure Issuing where
  clock : EnrollClock
  req : EnrollRequest
  credential : IssuedCredential
  slot : EnrollmentSlot
  /-- Whether the write was saved, once it has run. -/
  report : Option Bool

/-- The waits at which a handshake holds the auth lock: for its peer to take the
    reply to a request that cannot be recorded, and for its storage write. -/
inductive LockHolder where
  | replying
  | awaiting (handshake : Nat) (issuing : Issuing)

namespace LockHolder

def isAwaiting : LockHolder → Bool
  | replying => false
  | awaiting _ _ => true

def reported (handshake : Nat) (saved : Bool) : LockHolder → LockHolder
  | replying => replying
  | awaiting h issuing =>
    if h = handshake then awaiting h { issuing with report := some saved }
    else awaiting h issuing

end LockHolder

structure StartedWrite where
  clientId : String
  token : String
  credential : IssuedCredential
deriving DecidableEq

inductive ReloadPass where
  | sampled (retried : Bool) (epoch : Nat)
  | loaded (retried : Bool) (epoch : Nat) (snapshot : Option AuthConfig)
  | overtaken

structure EnrollState where
  live : AuthConfig
  /-- It does not reach `2 ^ 64`. -/
  epoch : Nat
  /-- The stored document, `none` when it is not one. -/
  file : Option (Entries String Toml)
  lock : Option LockHolder
  writes : Table Nat StartedWrite
  passes : Table Nat ReloadPass
  /-- The enrollments whose credential has been written to the document. -/
  spent : List StartedWrite

inductive EnrollEvent where
  | enroll (handshake : Nat) (clock : EnrollClock) (req : EnrollRequest) (secret : String)
  | runWrite (handshake : Nat) (io : StoreIo)
  | resume
  | drop
  | authenticate (clock : AuthClock) (req : AuthRequest)
  | sampleEpoch (pass : Nat)
  | readFile (pass : Nat) (env : LoadEnv) (state : Option RuntimeState)
  | merge (pass : Nat) (plaintext : Option PlaintextListener)
  | edit (doc : Entries String Toml)

def StartedWrite.isIn (w : StartedWrite) (file : Option (Entries String Toml)) : Bool :=
  (fileCredentials file w.clientId).any fun k => k.pending.isNone && k.holds w.credential

theorem StartedWrite.isIn_iff {w : StartedWrite} {file : Option (Entries String Toml)} :
    w.isIn file = true ↔ ∃ k, fileCredentials file w.clientId = some k ∧ k.pending = none ∧
      k.holds w.credential = true := by
  unfold StartedWrite.isIn
  rw [any_eq_true]
  simp only [Bool.and_eq_true, isNone_iff_eq_none]

namespace EnrollState

def start (live : AuthConfig) (doc : Entries String Toml) : EnrollState :=
  { live := live
    epoch := 0
    file := some doc
    lock := none
    writes := ∅
    passes := ∅
    spent := [] }

section

variable (cr : Crypto) (s : EnrollState)

def enroll (handshake : Nat) (clock : EnrollClock) (req : EnrollRequest) (secret : String) :
    EnrollState :=
  match enrollDecide cr s.live clock req secret with
  | .refused cfg _ => { s with live := cfg }
  | .unrecordable cfg _ => { s with live := cfg, lock := some .replying }
  | .issued cfg credential slot =>
    { s with
      live := cfg
      lock := some (.awaiting handshake ⟨clock, req, credential, slot, none⟩)
      writes := s.writes.insert handshake ⟨req.clientId, req.token, credential⟩ }

def runWrite (handshake : Nat) (io : StoreIo) (w : StartedWrite) : EnrollState :=
  let r := (w.credential.storeOp w.clientId).perform cr.onCurve io s.file
  { s with
    file := r.1
    lock := s.lock.map (·.reported handshake r.2.isOk)
    writes := s.writes.erase handshake
    spent := if w.isIn r.1 then w :: s.spent else s.spent }

/-- The handshake that holds the lock goes on after its wait. Only a write that was
    saved moves the epoch. -/
def resume : LockHolder → Option EnrollState
  | .replying => some { s with lock := none }
  | .awaiting _ issuing =>
    issuing.report.map fun saved =>
      { s with
        live := enrollFinish s.live issuing.clock issuing.req issuing.slot saved
        epoch := if saved then s.epoch + 1 else s.epoch
        lock := none }

/-- The critical section of a reload. A snapshot an enrollment overtook is read
    once more, and given up the second time. -/
def merge (pass : Nat) (plaintext : Option PlaintextListener) (retried : Bool) (epoch : Nat)
    (snapshot : Option AuthConfig) : EnrollState :=
  if s.epoch ≠ epoch then
    { s with
      passes := if retried then s.passes.erase pass else s.passes.insert pass .overtaken }
  else
    match snapshot with
    | none => { s with passes := s.passes.erase pass }
    | some newAuth =>
      { s with live := reloadTable plaintext s.live newAuth, passes := s.passes.erase pass }

def step : EnrollEvent → Option EnrollState
  | .enroll handshake clock req secret =>
    if s.lock.isNone && (s.writes.lookup handshake).isNone then
      some (s.enroll cr handshake clock req secret)
    else none
  | .runWrite handshake io => (s.writes.lookup handshake).map (s.runWrite cr handshake io)
  | .resume => s.lock.bind s.resume
  -- Neither undone nor announced: the guard's destructor only releases the lock.
  | .drop => s.lock.map fun _ => { s with lock := none }
  | .authenticate clock req =>
    if s.lock.isNone && s.live.enabled then
      some { s with live := (authenticateLocked cr s.live clock req).cfg }
    else none
  | .sampleEpoch pass =>
    match s.passes.lookup pass with
    | none => some { s with passes := s.passes.insert pass (.sampled false s.epoch) }
    | some .overtaken => some { s with passes := s.passes.insert pass (.sampled true s.epoch) }
    | some _ => none
  | .readFile pass env state =>
    match s.passes.lookup pass with
    | some (.sampled retried epoch) =>
      match s.file.bind fun doc => loadConfigWithAuth cr env doc state with
      | none => some { s with passes := s.passes.erase pass }
      | some snapshot =>
        some { s with passes := s.passes.insert pass (.loaded retried epoch snapshot) }
    | _ => none
  | .merge pass plaintext =>
    match s.lock, s.passes.lookup pass with
    | none, some (.loaded retried epoch snapshot) =>
      some (s.merge pass plaintext retried epoch snapshot)
    | _, _ => none
  | .edit doc => some { s with file := some doc }

end

def EditsOthers (id : String) (s : EnrollState) : EnrollEvent → Prop
  | .edit doc => docCredentials doc id = fileCredentials s.file id
  | _ => True

/-- Nothing comes between an enrollment and the outcome of its storage write: the
    handshake is not dropped before it has heard of it, and the write does not fail
    after it has begun to overwrite the document. -/
def Undisturbed (s : EnrollState) : EnrollEvent → Prop
  | .drop => s.lock.any LockHolder.isAwaiting = false
  | .runWrite _ io => ¬io.write.FailsInPlace
  | _ => True

instance (id : String) (s : EnrollState) (e : EnrollEvent) : Decidable (s.EditsOthers id e) := by
  unfold EditsOthers
  cases e <;> infer_instance

instance (s : EnrollState) (e : EnrollEvent) : Decidable (s.Undisturbed e) := by
  unfold Undisturbed
  cases e <;> infer_instance

end EnrollState

/-! ### What every state keeps -/

def issuingFor (lock : Option LockHolder) (id : String) : Option Issuing :=
  match lock with
  | some (.awaiting _ i) => if i.req.clientId = id then some i else none
  | _ => none

def SavedFor (lock : Option LockHolder) (id : String) : Prop :=
  ∃ i, issuingFor lock id = some i ∧ i.report = some true

/-- The client's entry was `c` when the token was accepted. The live table has the
    credential; the document has it once the write was saved. -/
structure MidIssue (cr : Crypto) (id : String) (live : AuthConfig)
    (file : Option (Entries String Toml)) (i : Issuing) (c : ClientAuth) : Prop where
  token : c.pendingEnrollment = some i.req.token
  asked : ∃ secret, credentialFor cr i.req secret = .ok i.credential
  live : live.clients.lookup id = some (c.issue i.credential i.clock.createdAt).1
  slot : i.slot = (c.issue i.credential i.clock.createdAt).2
  file : fileCredentials file id =
    some (if i.report = some true then c.credentials.issue i.credential else c.credentials)

def Agrees (cr : Crypto) (id : String) (live : AuthConfig) (file : Option (Entries String Toml))
    (lock : Option LockHolder) : Prop :=
  match issuingFor lock id with
  | none => live.credentialsOf id = fileCredentials file id
  | some i => ∃ c, MidIssue cr id live file i c

def ReloadPass.SampledBy (epoch : Nat) : ReloadPass → Prop
  | sampled _ e => e ≤ epoch
  | loaded _ e _ => e ≤ epoch
  | overtaken => True

theorem ReloadPass.SampledBy.mono {p : ReloadPass} {epoch epoch' : Nat} (h : p.SampledBy epoch)
    (hle : epoch ≤ epoch') : p.SampledBy epoch' := by
  cases p with
  | sampled | loaded => exact Nat.le_trans h hle
  | overtaken => trivial

namespace EnrollState

structure Synced (cr : Crypto) (id : String) (s : EnrollState) : Prop where
  agrees : Agrees cr id s.live s.file s.lock
  /-- A write under way is the one the holder of the lock waits for. -/
  awaited : ∀ handshake w, s.writes.lookup handshake = some w →
    ∃ i, s.lock = some (.awaiting handshake i) ∧ i.report = none ∧
      w = ⟨i.req.clientId, i.req.token, i.credential⟩
  epochs : ∀ pass p, s.passes.lookup pass = some p → p.SampledBy s.epoch
  /-- A snapshot the epoch does not give away is what the document says, unless the
      enrollment that overtook it is still to move the epoch. -/
  current : ∀ pass retried cfg, s.passes.lookup pass = some (.loaded retried s.epoch (some cfg)) →
    cfg.credentialsOf id = fileCredentials s.file id ∨ SavedFor s.lock id
  spent : ∀ w ∈ s.spent, w.clientId = id → ∃ k, fileCredentials s.file id = some k ∧
    k.pending = none ∧ k.holds w.credential = true

section

variable {cr : Crypto} {id : String} {s : EnrollState}

variable {lock : Option LockHolder} {handshake pass : Nat} {i : Issuing}
  {file : Option (Entries String Toml)} {live : AuthConfig} {retried : Bool}
  {snapshot : Option AuthConfig} {state : Option RuntimeState} {io : StoreIo} {w : StartedWrite}
  {req : EnrollRequest} {doc : Entries String Toml}

theorem issuingFor_of_not_awaiting (h : lock.any LockHolder.isAwaiting = false) :
    issuingFor lock id = none := by
  rcases lock with _ | holder
  · rfl
  cases holder with
  | replying => rfl
  | awaiting handshake i => cases h

theorem issuingFor_awaiting (hid : i.req.clientId = id) :
    issuingFor (some (.awaiting handshake i)) id = some i :=
  if_pos hid

theorem issuingFor_awaiting_ne (hid : i.req.clientId ≠ id) :
    issuingFor (some (.awaiting handshake i)) id = none :=
  if_neg hid

theorem report_of_savedFor (h : SavedFor (some (.awaiting handshake i)) id) :
    i.report = some true := by
  rcases h with ⟨i', hi', hreport⟩
  unfold issuingFor at hi'
  dsimp only at hi'
  split at hi'
  · cases hi'
    exact hreport
  · cases hi'

theorem agrees_iff_of_free (hf : issuingFor lock id = none) :
    Agrees cr id live file lock ↔ live.credentialsOf id = fileCredentials file id := by
  unfold Agrees
  rw [hf]

theorem agrees_iff_of_issuing (hi : issuingFor lock id = some i) :
    Agrees cr id live file lock ↔ ∃ c, MidIssue cr id live file i c := by
  unfold Agrees
  rw [hi]

theorem Synced.no_writes (h : Synced cr id s) (hf : s.lock.any LockHolder.isAwaiting = false)
    (handshake : Nat) : s.writes.lookup handshake = none := by
  rcases hw : s.writes.lookup handshake with _ | w
  · rfl
  rcases h.awaited handshake w hw with ⟨i, hl, _⟩
  rw [hl] at hf
  cases hf

theorem Synced.snapshot_eq (h : Synced cr id s) (hf : issuingFor s.lock id = none)
    {cfg : AuthConfig} (hp : s.passes.lookup pass = some (.loaded retried s.epoch (some cfg))) :
    cfg.credentialsOf id = fileCredentials s.file id := by
  rcases h.current pass retried cfg hp with heq | ⟨i, hi, _⟩
  · exact heq
  · simp [hf] at hi

/-! ### The steps of a reload -/

theorem Synced.unlocked (h : Synced cr id s) (hf : s.lock.any LockHolder.isAwaiting = false)
    (hl : live.credentialsOf id = fileCredentials s.file id)
    (hlo : lock.any LockHolder.isAwaiting = false) :
    Synced cr id { s with live := live, lock := lock } where
  agrees := (agrees_iff_of_free (issuingFor_of_not_awaiting hlo)).mpr hl
  awaited := by
    intro handshake w hw
    have hn := h.no_writes hf handshake
    rw [show s.writes.lookup handshake = some w from hw] at hn
    cases hn
  epochs := h.epochs
  current := fun _ _ _ hp =>
    .inl (h.snapshot_eq (issuingFor_of_not_awaiting hf) hp)
  spent := h.spent

theorem Synced.erasePass (h : Synced cr id s) (pass : Nat) :
    Synced cr id { s with passes := s.passes.erase pass } := by
  have hold : ∀ {other p}, (s.passes.erase pass).lookup other = some p →
      s.passes.lookup other = some p := by
    intro other p hp
    rw [Table.lookup_erase_eq] at hp
    split at hp
    · cases hp
    · exact hp
  exact
    { agrees := h.agrees
      awaited := h.awaited
      epochs := fun other p hp => h.epochs other p (hold hp)
      current := fun other retried cfg hp => h.current other retried cfg (hold hp)
      spent := h.spent }

theorem Synced.insertPass (h : Synced cr id s) (pass : Nat) {p : ReloadPass}
    (hepoch : p.SampledBy s.epoch)
    (hcur : ∀ retried cfg, p = .loaded retried s.epoch (some cfg) →
      cfg.credentialsOf id = fileCredentials s.file id) :
    Synced cr id { s with passes := s.passes.insert pass p } := by
  have hcas : ∀ {other q}, (s.passes.insert pass p).lookup other = some q →
      q = p ∨ s.passes.lookup other = some q := by
    intro other q hq
    rw [Table.lookup_insert_eq] at hq
    split at hq
    · exact .inl (some.inj hq).symm
    · exact .inr hq
  refine ⟨h.agrees, h.awaited, ?_, ?_, h.spent⟩
  · intro other q hq
    rcases hcas hq with rfl | hold
    · exact hepoch
    · exact h.epochs other q hold
  · intro other retried cfg hq
    rcases hcas hq with hnew | hold
    · exact .inl (hcur retried cfg hnew.symm)
    · exact h.current other retried cfg hold

theorem Synced.readFile (h : Synced cr id s) {env : LoadEnv} {epoch : Nat}
    (hp : s.passes.lookup pass = some (.sampled retried epoch))
    (hload : (s.file.bind fun doc => loadConfigWithAuth cr env doc state) = some snapshot) :
    Synced cr id { s with passes := s.passes.insert pass (.loaded retried epoch snapshot) } := by
  have hepoch : epoch ≤ s.epoch := h.epochs pass _ hp
  refine h.insertPass pass hepoch ?_
  intro retried' cfg heq
  cases heq
  rcases bind_eq_some_iff.mp hload with ⟨doc, hdoc, hcfg⟩
  -- The snapshot is of the document as it is now.
  rw [credentialsOf_load hcfg, hdoc]
  rfl

open LockHolder

theorem Synced.merge (h : Synced cr id s) (plaintext : Option PlaintextListener) {epoch : Nat}
    (hlo : s.lock = none) (hpa : s.passes.lookup pass = some (.loaded retried epoch snapshot)) :
    Synced cr id (s.merge pass plaintext retried epoch snapshot) := by
  have hfr : s.lock.any isAwaiting = false := by
    rw [hlo]
    rfl
  unfold EnrollState.merge
  by_cases hepoch : s.epoch = epoch
  · rw [if_neg (not_not.mpr hepoch)]
    subst hepoch
    rcases snapshot with _ | newAuth
    · exact h.erasePass pass
    -- The lock is free and the epoch has not moved, so no saved enrollment came between the
    -- read and the merge.
    have hli : (reloadTable plaintext s.live newAuth).credentialsOf id =
        fileCredentials s.file id :=
      (credentialsOf_reloadTable plaintext s.live newAuth id).trans
        (h.snapshot_eq (issuingFor_of_not_awaiting hfr) hpa)
    exact (h.unlocked hfr hli hfr).erasePass pass
  · rw [if_pos hepoch]
    rcases retried with _ | _
    · exact h.insertPass pass trivial nofun
    · exact h.erasePass pass

/-! ### The steps of an enrollment -/

theorem Synced.enroll (h : Synced cr id s) (handshake : Nat) (clock : EnrollClock)
    (req : EnrollRequest) (secret : String) (hlo : s.lock = none) :
    Synced cr id (s.enroll cr handshake clock req secret) := by
  have hfr : s.lock.any isAwaiting = false := by
    rw [hlo]
    rfl
  have hagr := (agrees_iff_of_free (issuingFor_of_not_awaiting hfr)).mp h.agrees
  unfold EnrollState.enroll
  rcases enrollDecide_cases cr s.live clock req secret with
    ⟨cfg, counted, heq, hcfg⟩ |
    ⟨c, hc, htoken, ⟨cfg, reason, heq, hcfg⟩ | ⟨credential, hask, heq⟩⟩
  · rw [heq]
    exact h.unlocked hfr ((hcfg id).trans hagr) hfr
  · rw [heq]
    exact h.unlocked hfr ((hcfg id).trans hagr) rfl
  · rw [heq]
    refine ⟨?_, ?_, h.epochs, ?_, h.spent⟩
    · by_cases hid : req.clientId = id
      · refine (agrees_iff_of_issuing (issuingFor_awaiting hid)).mpr
          ⟨c, htoken, ⟨secret, hask⟩, ?_, rfl, ?_⟩
        · rw [setClient_lookup, if_pos hid.symm]
        · rw [← hagr, ← hid]
          exact hc
      · refine (agrees_iff_of_free (issuingFor_awaiting_ne hid)).mpr ?_
        rw [credentialsOf_setClient_ne _ (Ne.symm hid)]
        exact hagr
    · intro other w hw
      -- Nothing else was under way, so the write is the one started here.
      rw [Table.lookup_insert_eq, h.no_writes hfr] at hw
      split at hw
      next hoth =>
        cases hw
        exact ⟨_, by rw [hoth], rfl, rfl⟩
      · cases hw
    · exact fun pass retried cfg hpa =>
        .inl (h.snapshot_eq (issuingFor_of_not_awaiting hfr) hpa)

theorem mem_runWrite_spent {w' : StartedWrite} (h : w' ∈ (s.runWrite cr handshake io w).spent) :
    (w' = w ∧ w.isIn (s.runWrite cr handshake io w).file = true) ∨ w' ∈ s.spent := by
  unfold EnrollState.runWrite at h ⊢
  dsimp only at h ⊢
  split at h
  next hin =>
    rcases List.mem_cons.mp h with rfl | hold
    · exact .inl ⟨rfl, hin⟩
    · exact .inr hold
  · exact .inr h

theorem Synced.not_spent (h : Synced cr id s) {c : ClientAuth} {token : String}
    (hf : fileCredentials s.file id = some c.credentials)
    (htoken : c.pendingEnrollment = some token) :
    ∀ w ∈ s.spent, w.clientId ≠ id := by
  intro w hw hid
  rcases h.spent w hw hid with ⟨k, hk, hpen, _⟩
  rw [hf] at hk
  cases hk
  have hs : c.pendingEnrollment = none := hpen
  rw [htoken] at hs
  cases hs

theorem Synced.erase_writes (h : Synced cr id s) (hl : s.lock = some (.awaiting handshake i))
    (other : Nat) : (s.writes.erase handshake).lookup other = none := by
  rw [Table.lookup_erase_eq]
  split
  · rfl
  next hoth =>
    rcases hw : s.writes.lookup other with _ | w
    · rfl
    rcases h.awaited other w hw with ⟨i', hl', _⟩
    rw [hl] at hl'
    cases hl'
    exact absurd rfl hoth

theorem runWrite_lock (hl : s.lock = some (.awaiting handshake i)) :
    (s.runWrite cr handshake io w).lock = some (.awaiting handshake { i with
      report :=
        some ((w.credential.storeOp w.clientId).perform cr.onCurve io s.file).2.isOk }) := by
  unfold EnrollState.runWrite
  rw [hl]
  exact congrArg some (if_pos rfl)

theorem Synced.runWrite_awaited (h : Synced cr id s) (hl : s.lock = some (.awaiting handshake i))
    (other : Nat) (w' : StartedWrite)
    (hw' : (s.runWrite cr handshake io w).writes.lookup other = some w') :
    ∃ i', (s.runWrite cr handshake io w).lock = some (.awaiting other i') ∧ i'.report = none ∧
      w' = ⟨i'.req.clientId, i'.req.token, i'.credential⟩ := by
  have hn : (s.runWrite cr handshake io w).writes.lookup other = none :=
    h.erase_writes hl other
  rw [hn] at hw'
  cases hw'

theorem Synced.file_before_write (h : Synced cr i.req.clientId s)
    (hl : s.lock = some (.awaiting handshake i)) (hreport : i.report = none) :
    ∃ c, MidIssue cr i.req.clientId s.live s.file i c ∧
      fileCredentials s.file i.req.clientId = some c.credentials := by
  have hiss : issuingFor s.lock i.req.clientId = some i := by
    rw [hl]
    exact issuingFor_awaiting rfl
  rcases (agrees_iff_of_issuing hiss).mp h.agrees with ⟨c, hc⟩
  refine ⟨c, hc, ?_⟩
  rw [hc.file, hreport]
  rfl

theorem Synced.runWrite_own (h : Synced cr i.req.clientId s)
    (hlo : s.lock = some (.awaiting handshake i)) (hreport : i.report = none)
    (hio : ¬io.write.FailsInPlace) :
    Synced cr i.req.clientId
      (s.runWrite cr handshake io ⟨i.req.clientId, i.req.token, i.credential⟩) := by
  rcases h.file_before_write hlo hreport with ⟨c, hc, hbef⟩
  rcases hc.asked with ⟨secret, hask⟩
  have haft := fileCredentials_perform hask hio hbef
  have hiss' : issuingFor (s.runWrite cr handshake io
        ⟨i.req.clientId, i.req.token, i.credential⟩).lock i.req.clientId =
      some { i with report := some ((i.credential.storeOp i.req.clientId).perform cr.onCurve io
        s.file).2.isOk } := by
    rw [runWrite_lock hlo]
    exact issuingFor_awaiting rfl
  refine ⟨(agrees_iff_of_issuing hiss').mpr ⟨c, hc.token, hc.asked, hc.live, hc.slot, ?_⟩,
    h.runWrite_awaited hlo, h.epochs, ?_, ?_⟩
  · refine haft.trans ?_
    simp only [some.injEq]
  · intro pass retried cfg hpa
    rcases hok : ((i.credential.storeOp i.req.clientId).perform cr.onCurve io s.file).2.isOk
      with _ | _
    · rw [hok] at haft
      -- The write failed before the document, which is as the snapshots found it.
      refine .inl (Eq.trans ?_ haft.symm)
      rcases h.current pass retried cfg hpa with heq | hsav
      · exact heq.trans hbef
      rw [hlo] at hsav
      rw [report_of_savedFor hsav] at hreport
      cases hreport
    · -- The document has just changed under every snapshot; the holder still has to move the epoch,
      -- and nothing can be merged before it does.
      exact .inr ⟨_, hiss', congrArg some hok⟩
  · intro w hw hid
    rcases mem_runWrite_spent hw with ⟨rfl, hin⟩ | hold
    · exact StartedWrite.isIn_iff.mp hin
    -- The token was still pending, so no earlier enrollment of the client was written.
    · exact absurd hid (h.not_spent hbef hc.token w hold)

theorem Synced.runWrite_other (h : Synced cr id s) (hlo : s.lock = some (.awaiting handshake i))
    (hid : i.req.clientId ≠ id) (hio : ¬io.write.FailsInPlace) :
    Synced cr id (s.runWrite cr handshake io ⟨i.req.clientId, i.req.token, i.credential⟩) := by
  have hfr : issuingFor s.lock id = none := by
    rw [hlo]
    exact issuingFor_awaiting_ne hid
  have hfr' : issuingFor (s.runWrite cr handshake io
      ⟨i.req.clientId, i.req.token, i.credential⟩).lock id = none := by
    rw [runWrite_lock hlo]
    exact issuingFor_awaiting_ne hid
  have hsame : fileCredentials (s.runWrite cr handshake io
      ⟨i.req.clientId, i.req.token, i.credential⟩).file id = fileCredentials s.file id :=
    fileCredentials_perform_ne hio (Ne.symm hid)
  refine ⟨(agrees_iff_of_free hfr').mpr ?_, h.runWrite_awaited hlo, h.epochs, ?_, ?_⟩
  · rw [hsame]
    exact (agrees_iff_of_free hfr).mp h.agrees
  · intro pass retried cfg hpa
    rw [hsame]
    exact .inl (h.snapshot_eq hfr hpa)
  · intro w hw hid'
    rw [hsame]
    rcases mem_runWrite_spent hw with ⟨rfl, _⟩ | hold
    · exact absurd hid' hid
    · exact h.spent w hold hid'

theorem Synced.runWrite (h : Synced cr id s) (hw : s.writes.lookup handshake = some w)
    (hio : ¬io.write.FailsInPlace) : Synced cr id (s.runWrite cr handshake io w) := by
  rcases h.awaited handshake w hw with ⟨i, hl, hreport, rfl⟩
  by_cases hid : i.req.clientId = id
  · subst hid
    exact h.runWrite_own hl hreport hio
  · exact h.runWrite_other hl hid hio

theorem credentialsOf_enrollFinish {c : ClientAuth} {saved : Bool}
    (h : MidIssue cr i.req.clientId live file i c) (hreport : i.report = some saved) :
    (enrollFinish live i.clock i.req i.slot saved).credentialsOf i.req.clientId =
      fileCredentials file i.req.clientId := by
  rw [h.file, hreport]
  unfold enrollFinish
  rcases saved with _ | _
  · -- Not saved: the credential is taken out again, and the token put back.
    rw [if_neg (by decide), if_neg (by decide), undoEnrolledSecret,
      editClient_present _ h.live, h.slot,
      undo_issue i.credential i.clock.createdAt h.token, credentialsOf_setClient_self]
  · -- Saved: the counters are cleared, and the credential stays.
    rw [if_pos rfl, if_pos rfl, editClient_present _ h.live,
      credentialsOf_setClient_self, ClientAuth.credentials_eq_of_configured_eq
        (ClientAuth.configured_enrolled _ _), credentials_issue]

theorem credentialsOf_enrollFinish_ne {clock : EnrollClock} {slot : EnrollmentSlot} {saved : Bool}
    (hid : id ≠ req.clientId) :
    (enrollFinish live clock req slot saved).credentialsOf id = live.credentialsOf id := by
  unfold enrollFinish undoEnrolledSecret credentialsOf
  rcases saved with _ | _
  · rw [if_neg (by decide), editClient_lookup, if_neg hid]
  · rw [if_pos rfl, editClient_lookup, if_neg hid]

theorem Synced.resume (h : Synced cr id s) {holder : LockHolder} {s' : EnrollState}
    (hlock : s.lock = some holder) (hres : s.resume holder = some s') : Synced cr id s' := by
  cases holder with
  | replying =>
    cases hres
    have hfree : s.lock.any isAwaiting = false := by
      rw [hlock]
      rfl
    exact h.unlocked hfree
      ((agrees_iff_of_free (issuingFor_of_not_awaiting hfree)).mp h.agrees) rfl
  | awaiting handshake i =>
    rcases map_eq_some_iff.mp hres with ⟨saved, hreport, rfl⟩
    refine ⟨(agrees_iff_of_free rfl).mpr ?_, ?_, ?_, ?_, h.spent⟩
    · by_cases hid : i.req.clientId = id
      · subst hid
        rcases (agrees_iff_of_issuing (hlock ▸ issuingFor_awaiting rfl)).mp h.agrees with ⟨c, hc⟩
        exact credentialsOf_enrollFinish hc hreport
      · refine (credentialsOf_enrollFinish_ne (Ne.symm hid)).trans ?_
        exact (agrees_iff_of_free (hlock ▸ issuingFor_awaiting_ne hid)).mp h.agrees
    · intro other w hw
      -- A handshake goes on only once its write has run.
      rcases h.awaited other w hw with ⟨i', hlock', hnone, _⟩
      rw [hlock] at hlock'
      cases hlock'
      rw [hreport] at hnone
      cases hnone
    · intro pass p hp
      refine (h.epochs pass p hp).mono ?_
      dsimp only
      split <;> omega
    · intro pass retried cfg hpass
      rcases saved with _ | _
      · refine .inl ?_
        rcases h.current pass retried cfg hpass with heq | hsav
        · exact heq
        rw [hlock] at hsav
        rw [report_of_savedFor hsav] at hreport
        cases hreport
      · -- The epoch has just moved past every sample.
        have hle : s.epoch + 1 ≤ s.epoch := h.epochs pass _ hpass
        omega

/-! ### Runs -/

theorem Synced.edit (h : Synced cr id s)
    (hdoc : docCredentials doc id = fileCredentials s.file id) :
    Synced cr id { s with file := some doc } := by
  have hsame : fileCredentials (some doc) id = fileCredentials s.file id := hdoc
  refine ⟨?_, h.awaited, h.epochs, ?_, ?_⟩
  · rcases hi : issuingFor s.lock id with _ | i
    · refine (agrees_iff_of_free hi).mpr ?_
      rw [hsame]
      exact (agrees_iff_of_free hi).mp h.agrees
    refine (agrees_iff_of_issuing hi).mpr ?_
    rcases (agrees_iff_of_issuing hi).mp h.agrees with ⟨c, hc⟩
    exact ⟨c, hc.token, hc.asked, hc.live, hc.slot, hsame.trans hc.file⟩
  · intro pass retried cfg hpa
    rw [hsame]
    exact h.current pass retried cfg hpa
  · intro w hw hid
    rw [hsame]
    exact h.spent w hw hid

theorem Synced.authenticate (h : Synced cr id s) (clock : AuthClock) (req : AuthRequest)
    (hl : s.lock = none) (he : s.live.enabled = true) :
    Synced cr id { s with live := (authenticateLocked cr s.live clock req).cfg } := by
  have hf : s.lock.any isAwaiting = false := by
    rw [hl]
    rfl
  have hli : (authenticateLocked cr s.live clock req).cfg.credentialsOf id =
      s.live.credentialsOf id := by
    rw [authenticateLocked_cfg he]
    refine credentialsOf_editClient ?_ s.live req.clientId id
    exact fun c => ClientAuth.credentials_eq_of_configured_eq
      (configured_login cr s.live clock req c)
  exact h.unlocked hf
    (hli.trans ((agrees_iff_of_free (issuingFor_of_not_awaiting hf)).mp h.agrees)) hf

theorem synced_step {s' : EnrollState} (e : EnrollEvent) (h : Synced cr id s)
    (hoth : s.EditsOthers id e) (hund : s.Undisturbed e)
    (hstep : s.step cr e = some s') : Synced cr id s' := by
  revert hstep
  fun_cases EnrollState.step cr s e with
  | case1 handshake clock req secret hfree =>
    rintro ⟨⟩
    rcases Bool.and_eq_true_iff.mp hfree with ⟨hlock, -⟩
    exact h.enroll handshake clock req secret (isNone_iff_eq_none.mp hlock)
  | case3 =>
    intro hstep
    rcases map_eq_some_iff.mp hstep with ⟨w, hw, rfl⟩
    exact h.runWrite hw hund
  | case4 =>
    intro hstep
    rcases bind_eq_some_iff.mp hstep with ⟨holder, hlock, hres⟩
    exact h.resume hlock hres
  | case5 =>
    intro hstep
    rcases map_eq_some_iff.mp hstep with ⟨holder, hlock, rfl⟩
    have hfree : s.lock.any isAwaiting = false := hund
    exact h.unlocked hfree
      ((agrees_iff_of_free (issuingFor_of_not_awaiting hfree)).mp h.agrees) rfl
  | case6 clock req hfree =>
    rintro ⟨⟩
    rcases Bool.and_eq_true_iff.mp hfree with ⟨hlock, henab⟩
    exact h.authenticate clock req (isNone_iff_eq_none.mp hlock) henab
  | case8 pass | case9 pass =>
    rintro ⟨⟩
    exact h.insertPass pass (Nat.le_refl s.epoch) nofun
  | case11 pass =>
    rintro ⟨⟩
    exact h.erasePass pass
  | case12 _ _ _ _ _ hpass _ hload =>
    rintro ⟨⟩
    exact h.readFile hpass hload
  | case14 _ plaintext _ _ _ hpass hlock =>
    rintro ⟨⟩
    exact h.merge plaintext hlock hpass
  | case16 =>
    rintro ⟨⟩
    exact h.edit hoth
  | _ => rintro ⟨⟩

theorem synced_start {env : LoadEnv}
    (hload : loadConfigWithAuth cr env doc state = some (some live)) :
    Synced cr id (start live doc) where
  agrees := (agrees_iff_of_free rfl).mpr (credentialsOf_load hload id)
  awaited := by
    intro handshake w hw
    cases hw
  epochs := by
    intro pass p hp
    cases hp
  current := by
    intro pass retried cfg hp
    cases hp
  spent := fun w hw => absurd hw List.not_mem_nil

theorem Synced.live_of_spent (h : Synced cr id s) (hw : w ∈ s.spent) (hid : w.clientId = id) :
    ∃ k, s.live.credentialsOf id = some k ∧ fileCredentials s.file id = some k ∧
      k.pending = none ∧ k.holds w.credential = true := by
  rcases h.spent w hw hid with ⟨k, hk, hpen, hhol⟩
  refine ⟨k, ?_, hk, hpen, hhol⟩
  rcases hi : issuingFor s.lock id with _ | i
  · exact ((agrees_iff_of_free hi).mp h.agrees).trans hk
  rcases (agrees_iff_of_issuing hi).mp h.agrees with ⟨c, hc⟩
  have hf := hc.file
  split at hf
  · unfold credentialsOf
    rw [hc.live, map_some, credentials_issue, ← hf, hk]
  · -- The document still has the token, so nothing was spent.
    exact absurd hid (h.not_spent hf hc.token w hw)

theorem enrollDecide_of_no_token {cfg : AuthConfig} {k : ClientCredentials}
    (hk : cfg.credentialsOf id = some k) (hpen : k.pending = none) (clock : EnrollClock)
    (secret : String) (hid : req.clientId = id) :
    ∃ cfg' counted, enrollDecide cr cfg clock req secret = .refused cfg' counted := by
  rcases enrollDecide_cases cr cfg clock req secret with
    ⟨cfg', counted, heq, _⟩ | ⟨c, hc, htoken, _⟩
  · exact ⟨cfg', counted, heq⟩
  · rw [hid, hk] at hc
    cases hc
    have hn : c.pendingEnrollment = none := hpen
    rw [htoken] at hn
    cases hn

/-- A token is spent once. In every state of a run in which no handshake is dropped
    during its storage write and no such write fails half way, the live table and
    the document agree on the client whenever the lock is free; and once an
    enrollment is in the document, both have its credential and no token, and no
    further enrollment of the client is accepted. -/
theorem token_single_use {env : LoadEnv} {doc : Entries String Toml}
    {state : Option RuntimeState} {live : AuthConfig} {events : List EnrollEvent}
    (hload : loadConfigWithAuth cr env doc state = some (some live))
    (hothers : Machine.Along (step cr) (EditsOthers id) (start live doc) events)
    (hundisturbed : Machine.Along (step cr) Undisturbed (start live doc) events)
    (hrun : Machine.run (step cr) (start live doc) events = some s) :
    (s.lock = none → s.live.credentialsOf id = fileCredentials s.file id) ∧
      ∀ w ∈ s.spent, w.clientId = id →
        (∃ k, s.live.credentialsOf id = some k ∧ fileCredentials s.file id = some k ∧
          k.pending = none ∧ k.holds w.credential = true) ∧
        ∀ clock req secret, req.clientId = id →
          ∃ cfg counted, enrollDecide cr s.live clock req secret = .refused cfg counted := by
  have hsyn : Synced cr id s :=
    Machine.invariant_along (Synced cr id)
      (fun s e s' h hok hst => synced_step e h hok.1 hok.2 hst)
      (synced_start hload) (hothers.and hundisturbed) hrun
  refine ⟨?_, ?_⟩
  · intro hlo
    have hfr : issuingFor s.lock id = none := by
      rw [hlo]
      rfl
    exact (agrees_iff_of_free hfr).mp hsyn.agrees
  · intro w hw hid
    have hli := hsyn.live_of_spent hw hid
    refine ⟨hli, ?_⟩
    intro clock req secret hreq
    rcases hli with ⟨k, hk, _, hpen, _⟩
    exact enrollDecide_of_no_token hk hpen clock secret hreq

end

end EnrollState

def invitedTable : AuthConfig :=
  { AuthConfig.default with
    clients := Table.ofList [("alice",
      { ClientAuth.ofSecret "JBSWY3DP" with
        createdAt := "0"
        pendingEnrollment := some "token"
        devices := Table.ofList [("laptop",
          { secret := "KRSXG5A"
            publicKey := none
            createdAt := "0"
            lastUsed := none
            lastUsedStep := none })] })] }

namespace EnrollState

def overtakenReload : List EnrollEvent :=
  [.sampleEpoch 0, .readFile 0 LoadEnv.plain (some RuntimeState.empty),
    .enroll 1 (.all 0) (aliceEnrolls none) "MFRGGZDF", .runWrite 1 (.of .replaced), .resume,
    .merge 0 none, .sampleEpoch 0, .readFile 0 LoadEnv.plain (some RuntimeState.empty),
    .merge 0 none]

open Crypto

theorem token_single_use_overtaken :
    ∃ s, Machine.run (step Crypto.toy) (start invitedTable invitedDoc) overtakenReload = some s ∧
      s.spent = [⟨"alice", "token", .sharedSecret "MFRGGZDF"⟩] ∧
      ∃ k, s.live.credentialsOf "alice" = some k ∧
        fileCredentials s.file "alice" = some k ∧ k.pending = none ∧
        k.holds (.sharedSecret "MFRGGZDF") = true := by
  have hload : loadConfigWithAuth toy LoadEnv.plain invitedDoc
      (some RuntimeState.empty) = some (some invitedTable) := by decide
  have hv : (Machine.run (step toy) (start invitedTable invitedDoc)
      overtakenReload).map (fun s => s.spent) =
      some [⟨"alice", "token", .sharedSecret "MFRGGZDF"⟩] := by decide
  rcases map_eq_some_iff.mp hv with ⟨s, hrun, hs⟩
  have hthm := (@token_single_use toy "alice" s LoadEnv.plain invitedDoc _ _ _ hload
    (by decide) (by decide) hrun).2 _ (by rw [hs]; exact List.mem_singleton.mpr rfl) rfl
  exact ⟨s, hrun, hs, hthm.1⟩

/-- A handshake that is dropped while its storage write runs does not move the
    epoch. A reload pass that had read the document before puts the token and the
    old secret back, and the token is accepted a second time. -/
theorem dropped_enrollment_spent_twice :
    loadConfigWithAuth Crypto.toy LoadEnv.plain invitedDoc (some RuntimeState.empty) =
        some (some invitedTable) ∧
      ∃ s m s', Machine.run (step Crypto.toy) (start invitedTable invitedDoc)
          [.sampleEpoch 0, .readFile 0 LoadEnv.plain (some RuntimeState.empty),
            .enroll 1 (.all 0) (aliceEnrolls none) "MFRGGZDF", .drop,
            .runWrite 1 (.of .replaced)] = some s ∧
        s.spent = [⟨"alice", "token", .sharedSecret "MFRGGZDF"⟩] ∧
        s.live.credentialsOf "alice" = fileCredentials s.file "alice" ∧
        step Crypto.toy s (.merge 0 none) = some m ∧
        m.live.credentialsOf "alice" = docCredentials invitedDoc "alice" ∧
        step Crypto.toy m (.enroll 2 (.all 0) (aliceEnrolls none) "NB2HI4DT") = some s' ∧
        s'.writes.lookup 2 = some ⟨"alice", "token", .sharedSecret "NB2HI4DT"⟩ := by
  have hvi : (Machine.run (step toy) (start invitedTable invitedDoc)
      [.sampleEpoch 0, .readFile 0 LoadEnv.plain (some RuntimeState.empty),
        .enroll 1 (.all 0) (aliceEnrolls none) "MFRGGZDF", .drop,
        .runWrite 1 (.of .replaced)]).bind (fun s =>
          (step toy s (.merge 0 none)).bind fun m =>
            (step toy m (.enroll 2 (.all 0) (aliceEnrolls none) "NB2HI4DT")).map fun s' =>
              (s.spent, decide (s.live.credentialsOf "alice" = fileCredentials s.file "alice"),
                m.live.credentialsOf "alice", s'.writes.lookup 2)) =
      some ([⟨"alice", "token", .sharedSecret "MFRGGZDF"⟩], true, docCredentials invitedDoc "alice",
        some ⟨"alice", "token", .sharedSecret "NB2HI4DT"⟩) := by decide
  rcases bind_eq_some_iff.mp hvi with ⟨s, hs, hvi⟩
  rcases bind_eq_some_iff.mp hvi with ⟨m, hm, hvi⟩
  rcases map_eq_some_iff.mp hvi with ⟨s', hs', hval⟩
  simp only [Prod.mk.injEq, decide_eq_true_eq] at hval
  rcases hval with ⟨hsp, hagr, hba, hag⟩
  exact ⟨by decide, s, m, s', hs, hsp, hagr, hm, hba, hs', hag⟩

end EnrollState

end Nexapipe
