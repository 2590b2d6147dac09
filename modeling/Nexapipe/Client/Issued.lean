import Nexapipe.Client.Enrollment
import Nexapipe.Conn.SingleUse

/-!
# What becomes of an issued credential

A client's pool and the server it enrolls with, run against each other. A dial sends its token,
the server spends it and answers with a credential, and the dial reads the answer. What follows
is the client's alone: the handshake on the same stream, the write of the credential, and last
the copy that `take_issued_credential` hands to whoever stores it. The server has spent the token
before it answers, so from the answer on that copy is the only thing the token will ever buy.

The dial has the credential to itself until it has left the copy in the pool.
-/

namespace Nexapipe

open List Option

namespace ConnectionPool

/-! ### One dial -/

def Phase.holding : Phase → Option TwoFactorAuth
  | .presented _ enrollment (some issued) =>
    if issued.clientId = enrollment.clientId then some issued else none
  | .storing _ issued | .sweeping (.enrolled _ issued _) | .bumping (.enrolled _ issued _)
  | .spending _ issued _ | .keeping _ issued _ => some issued
  | _ => none

def Phase.keeps : Phase → Option TwoFactorAuth
  | .keeping _ issued _ => some issued
  | _ => none

section Holding

variable {p q : Pool} {t t' : Task} {input : Input} {auth : TwoFactorAuth}

theorem Phase.owned_of_holding {phase : Phase} (h : phase.holding = some auth) :
    phase.owned ≠ none ∧ phase.filed = none := by
  cases phase with
  | sweeping after | bumping after =>
    cases after <;> first | exact ⟨some_ne_none _, rfl⟩ | cases h
  | _ => first | exact ⟨some_ne_none _, rfl⟩ | cases h

theorem Move.holding (h : Move p t input q t') (hauth : t.phase.holding = some auth)
    (hfail : ∀ error, input ≠ .fail error) (hcan : input ≠ .cancel) (hexp : input ≠ .expire) :
    t'.phase.holding = some auth ∨ q.issued = some auth := by
  have hown := Phase.owned_of_holding hauth
  have hat : ∀ {phase : Phase}, t.phase = phase → phase.holding = some auth := by
    rintro _ rfl
    exact hauth
  cases h with
  | idle _ _ hgive =>
    rcases hgive with hnone | hinp | hinp | hfiled
    · exact absurd hnone hown.1
    · exact absurd hinp hcan
    · exact absurd hinp hexp
    · simp [hown.2] at hfiled
  | drop hph _ =>
    rcases hph with ⟨enrollment, issued, hph, hwhy⟩ | ⟨proof, generation, hph⟩ |
      ⟨generation, hph⟩
    · rcases hwhy with ⟨error, hinp⟩ | ⟨other, rfl, hcl⟩
      · exact absurd hinp (hfail error)
      -- An answer for another client was never accepted.
      rw [hph, Phase.holding, if_neg hcl] at hauth
      cases hauth
    · cases hat hph
    · cases hat hph
  | @accept conn enrollment issued hph =>
    rw [hph, Phase.holding] at hauth
    by_cases hcl : issued.clientId = enrollment.clientId
    · rw [if_pos hcl] at hauth
      exact .inl hauth
    · simp [if_neg hcl] at hauth
  | storeNew hph | storeSame hph | spend hph =>
    have hheld := hat hph
    exact .inl hheld
  | @sweep after hph =>
    have hheld := hat hph
    cases after <;> exact .inl hheld
  | @bump after hph =>
    have hheld := hat hph
    cases after <;> first | exact .inl hheld | cases hheld
  | keep hph => exact .inr (hat hph)
  | carry hph _ => simp [hown.2] at hph
  | _ =>
    -- The other moves are of tasks that hold nothing.
    have hnone := hat ‹t.phase = _›
    cases hnone

/-! ### The copy in the pool -/

theorem Pool.issued_write (p : Pool) (auth : Option TwoFactorAuth) :
    (p.write auth).issued = p.issued := by
  unfold Pool.write
  cases identityChanged p.twoFactor auth <;> rfl

theorem Pool.issued_clearDialSlot (p : Pool) (protocol : Protocol) (channel : Nat) :
    (p.clearDialSlot protocol channel).issued = p.issued := by
  fun_cases p.clearDialSlot protocol channel with
  | case1 | case2 => rfl

theorem Pool.issued_afterDrop (p : Pool) (t : Task) (after : After) :
    (p.afterDrop t after).1.issued = p.issued := by
  cases after with
  | closed =>
    unfold Pool.afterDrop
    cases p.ownsEndpoint <;> rfl
  | _ => rfl

theorem Pool.issued_poolConnection (p : Pool) (t : Task) (conn : ConnId) (generation : Nat) :
    (p.poolConnection t conn generation).1.issued = p.issued := by
  unfold Pool.poolConnection
  by_cases hgen : p.credentialGeneration ≠ generation
  · rw [if_pos hgen]
    rfl
  · rw [if_neg hgen]
    cases p.mayPool t.call.protocol <;> rfl

theorem Pool.issued_takeSlot (p : Pool) (t : Task) : (p.takeSlot t).1.issued = p.issued := by
  unfold Pool.takeSlot
  cases p.dialing.lookup t.call.protocol <;> rfl

theorem Pool.issued_lose (p : Pool) (t : Task) : (p.lose t).issued = p.issued := by
  unfold Pool.lose
  cases t.channel <;> rfl

theorem Pool.issued_borrowPooled (p : Pool) (t : Task) (idle pathless : List ConnId)
    (seat : Bool) : (p.borrowPooled t idle pathless seat).1.issued = p.issued := by
  unfold Pool.borrowPooled
  rcases hpick : (p.dropStale idle pathless).pick t.call.protocol with _ | conn
  · simp only [hpick]
    rfl
  · simp only [hpick]
    cases seat <;> rfl

theorem Pool.issued_lookWarm (p : Pool) (t : Task) (pathless : List ConnId) :
    (p.lookWarm t pathless).1.issued = p.issued := by
  unfold Pool.lookWarm
  cases p.connections.getLast?.any (p.isLive pathless) <;> rfl

theorem Pool.issued_of_some {r : Pool × Task} (hiss : r.1.issued = p.issued)
    (h : some r = some (q, t')) : q.issued = p.issued := by
  cases h
  exact hiss

open Pool

theorem Pool.issued_of_go (h : p.go t = some (q, t')) :
    q.issued = p.issued ∨ ∃ auth, t.phase.keeps = some auth ∧ q.issued = some auth := by
  revert h
  fun_cases go p t with
  | case4 => exact fun h => .inl (issued_of_some (p.issued_takeSlot t) h)
  | case17 _ issued | case18 _ issued =>
    exact fun h => .inl (issued_of_some (p.issued_write (some issued)) h)
  | case19 auth | case20 auth =>
    exact fun h => .inl (issued_of_some (p.issued_write auth) h)
  | case22 after =>
    exact fun h => .inl (issued_of_some
      (issued_afterDrop { p with epoch := p.epoch + 1 } t after) h)
  | case24 _ issued _ hph =>
    rintro ⟨⟩
    exact .inr ⟨issued, by rw [hph]; rfl, rfl⟩
  | case33 conn generation =>
    exact fun h => .inl (issued_of_some (p.issued_poolConnection t conn generation) h)
  | case36 channel | case37 channel | case38 channel =>
    exact fun h =>
      .inl (issued_of_some (p.issued_clearDialSlot t.call.protocol channel) h)
  | _ =>
    -- What is left does not move, or writes something else.
    rintro ⟨⟩
    all_goals exact .inl rfl

theorem Pool.issued_of_advance (h : p.advance t input = some (q, t')) :
    q.issued = p.issued ∨
      input = .go ∧ ∃ auth, t.phase.keeps = some auth ∧ q.issued = some auth := by
  revert h
  fun_cases advance p t input with
  | case1 =>
    intro h
    rcases issued_of_go h with hsame | hk
    · exact .inl hsame
    · exact .inr ⟨rfl, hk⟩
  | case2 idle pathless seat =>
    exact fun h => .inl (issued_of_some (p.issued_borrowPooled t idle pathless seat) h)
  | case3 idle pathless =>
    exact fun h => .inl (issued_of_some (p.issued_lookWarm t pathless) h)
  | case15 => exact fun h => .inl (issued_of_some (p.issued_lose t) h)
  | _ => first | exact fun h => .inl (issued_of_some rfl h) | rintro ⟨⟩

end Holding

def Enrollment.request (enrollment : Enrollment) (publicKey : Option String) : EnrollRequest :=
  { clientId := enrollment.clientId
    token := enrollment.token
    device := enrollment.deviceId
    publicKey := publicKey }

/-- The credential an answer of the server makes. A device that was issued a key has no secret. -/
def TwoFactorAuth.ofIssued (clientId : String) : IssuedCredential → TwoFactorAuth
  | .deviceSecret name secret => ⟨clientId, some name, secret⟩
  | .deviceKey name _ => ⟨clientId, some name, ""⟩
  | .sharedSecret secret => ⟨clientId, none, secret⟩

end ConnectionPool

/-! ### The client and the server -/

open ConnectionPool (Enrollment TwoFactorAuth)

/-- A pool, and the server its tokens are for. The credentials that were read and accepted, with
    the tokens they were bought with, and those that were handed out are not in the code. -/
structure Exchange where
  client : ConnectionPool.World
  server : EnrollState
  /-- The tokens that dials have sent. -/
  asked : Entries Nat Enrollment
  /-- The credentials that the server has answered dials with. -/
  answers : Entries Nat TwoFactorAuth
  accepted : List (Enrollment × TwoFactorAuth)
  handed : List TwoFactorAuth

namespace Exchange

inductive Event where
  | client (e : ConnectionPool.Event)
  | server (e : EnrollEvent)

def start (client : ConnectionPool.World) (server : EnrollState) : Exchange :=
  { client, server, asked := [], answers := [], accepted := [], handed := [] }

section

variable (cr : Crypto) (s : Exchange)

def phase (id : Nat) : Option ConnectionPool.Phase :=
  (s.client.tasks[id]?).map ConnectionPool.Task.phase

def delivered : ConnectionPool.Event → Bool
  | .advance id (.issue issued) => s.answers.lookup id = some issued
  | _ => true

def sent : EnrollEvent → Bool
  | .enroll handshake _ req _ =>
    (s.asked.lookup handshake).all fun enrollment => req = enrollment.request req.publicKey
  | _ => true

def asking : ConnectionPool.Event → Entries Nat Enrollment
  | .advance id .go =>
    match s.phase id with
    | some (.presenting _ enrollment) => s.asked.set id enrollment
    | _ => s.asked
  | _ => s.asked

def reading : ConnectionPool.Event → List (Enrollment × TwoFactorAuth)
  | .advance id (.issue issued) =>
    match s.phase id with
    | some (.presented _ enrollment none) =>
      if issued.clientId = enrollment.clientId then [(enrollment, issued)] else []
    | _ => []
  | _ => []

def handing : ConnectionPool.Event → List TwoFactorAuth
  | .ambient .takeIssued => s.client.shared.issued.toList
  | _ => []

/-- The answers once the server has moved. It answers with a credential when it hears that its
    write was saved, and not before. -/
def answering : EnrollEvent → Entries Nat TwoFactorAuth
  | .resume =>
    match s.server.lock with
    | some (.awaiting handshake issuing) =>
      if issuing.report = some true then
        s.answers.set handshake (.ofIssued issuing.req.clientId issuing.credential)
      else s.answers
    | _ => s.answers
  | _ => s.answers

def step : Event → Option Exchange
  | .client e =>
    if s.delivered e then
      (ConnectionPool.step s.client e).map fun client =>
        { s with
          client
          asked := s.asking e
          accepted := s.reading e ++ s.accepted
          handed := s.handing e ++ s.handed }
    else none
  | .server e =>
    if s.sent e then
      (s.server.step cr e).map fun server => { s with server, answers := s.answering e }
    else none

def StillAccepts (enrollment : Enrollment) : Prop :=
  ∃ clock publicKey secret cfg credential slot,
    enrollDecide cr s.server.live clock (enrollment.request publicKey) secret =
      .issued cfg credential slot

def OnItsWay (auth : TwoFactorAuth) : Prop :=
  ∃ id phase, s.phase id = some phase ∧ phase.holding = some auth

/-- A credential that was read is in the pool for whoever takes it, or has been taken, once the
    dial that has read it is done with it. -/
def Held (auth : TwoFactorAuth) : Prop :=
  s.OnItsWay auth ∨ s.client.shared.issued = some auth ∨ auth ∈ s.handed

def Kept : Prop :=
  ∀ a ∈ s.accepted, s.Held a.2 ∨ s.StillAccepts cr a.1

/-- A dial is not given up while it holds a credential that only it has, and no credential is left
    in the pool while another one waits there to be taken. -/
def lossless : Event → Bool
  | .client (.advance id input) =>
    (s.phase id).all fun phase =>
      match input with
      | .fail _ | .cancel | .expire => phase.holding.isNone
      | .go => phase.keeps.all fun auth => s.client.shared.issued.all (· = auth)
      | _ => true
  | _ => true

end

/-! ### What every lossless step keeps -/

section

variable {cr : Crypto} {s s' : Exchange} {e : Event} {auth : TwoFactorAuth}

theorem step_cases (h : s.step cr e = some s') :
    (∃ ce client, e = .client ce ∧ ConnectionPool.step s.client ce = some client ∧
      s' = { s with
        client := client
        asked := s.asking ce
        accepted := s.reading ce ++ s.accepted
        handed := s.handing ce ++ s.handed }) ∨
      ∃ se server, e = .server se ∧ s.server.step cr se = some server ∧
        s' = { s with server := server, answers := s.answering se } := by
  revert h
  fun_cases step cr s e with
  | case1 ce =>
    intro h
    rcases map_eq_some_iff.mp h with ⟨client, hcl, rfl⟩
    exact .inl ⟨ce, client, rfl, hcl, rfl⟩
  | case3 se =>
    intro h
    rcases map_eq_some_iff.mp h with ⟨server, hser, rfl⟩
    exact .inr ⟨se, server, rfl, hser, rfl⟩
  | _ => rintro ⟨⟩

theorem lossless_advance {id : Nat} {input : ConnectionPool.Input} {t : ConnectionPool.Task}
    (h : s.lossless (.client (.advance id input)) = true) (ht : s.client.tasks[id]? = some t) :
    (∀ error, input = .fail error → t.phase.holding = none) ∧
      (input = .cancel → t.phase.holding = none) ∧ (input = .expire → t.phase.holding = none) ∧
      (input = .go → ∀ auth, t.phase.keeps = some auth →
        s.client.shared.issued = none ∨ s.client.shared.issued = some auth) := by
  have hph : s.phase id = some t.phase := by
    unfold phase
    rw [ht]
    rfl
  rw [lossless, hph, all_some] at h
  refine ⟨?_, ?_, ?_, ?_⟩
  · rintro error rfl
    exact isNone_iff_eq_none.mp h
  · rintro rfl
    exact isNone_iff_eq_none.mp h
  · rintro rfl
    exact isNone_iff_eq_none.mp h
  · rintro rfl auth hke
    simp only [hke, all_some] at h
    rcases hiss : s.client.shared.issued with _ | other
    · exact .inl rfl
    · rw [hiss, all_some] at h
      exact .inr (congrArg some (of_decide_eq_true h))

open ConnectionPool.Pool

theorem Held.step (h : s.Held auth) (hok : s.lossless e = true) (hstep : s.step cr e = some s') :
    s'.Held auth := by
  rcases step_cases hstep with ⟨ce, client, rfl, hcl, rfl⟩ | ⟨se, server, rfl, -, rfl⟩
  · rcases Interleave.step_cases hcl with ⟨call, rfl, rfl⟩ |
      ⟨id, input, t, q, t', rfl, ht, hadv, rfl⟩ | ⟨change, q, rfl, hq, rfl⟩
    · rcases h with ⟨id, phase, hph, hhol⟩ | hiss | hhan
      · refine .inl ⟨id, phase, ?_, hhol⟩
        rcases map_eq_some_iff.mp hph with ⟨t, ht, rfl⟩
        have hlt : id < s.client.tasks.length := (List.getElem?_eq_some_iff.mp ht).1
        have hold : (s.client.tasks ++ [ConnectionPool.behaviour.start call])[id]? = some t := by
          rw [getElem?_append_left hlt, ht]
        exact map_eq_some_iff.mpr ⟨t, hold, rfl⟩
      · exact .inr (.inl hiss)
      · exact .inr (.inr hhan)
    · have hlos := lossless_advance hok ht
      have hlt : id < s.client.tasks.length := (List.getElem?_eq_some_iff.mp ht).1
      rcases h with ⟨j, phase, hph, hhol⟩ | hiss | hhan
      · rcases map_eq_some_iff.mp hph with ⟨u, hu, rfl⟩
        by_cases hj : id = j
        · subst hj
          rw [ht] at hu
          cases hu
          -- The dial has moved, and it was not given up while it held something.
          have hne : t.phase.holding ≠ none := by
            rw [hhol]
            exact some_ne_none _
          rcases (move_of_advance hadv).holding hhol
            (fun error hinp => hne (hlos.1 error hinp))
            (fun hinp => hne (hlos.2.1 hinp))
            (fun hinp => hne (hlos.2.2.1 hinp)) with hstil | hkept
          · refine .inl ⟨id, t'.phase, ?_, hstil⟩
            exact map_eq_some_iff.mpr ⟨t', getElem?_set_self hlt, rfl⟩
          · exact .inr (.inl hkept)
        · refine .inl ⟨j, u.phase, ?_, hhol⟩
          have hoth : (s.client.tasks.set id t')[j]? = some u := by
            rw [getElem?_set_ne hj, hu]
          exact map_eq_some_iff.mpr ⟨u, hoth, rfl⟩
      · refine .inr (.inl ?_)
        rcases issued_of_advance hadv with hsame | ⟨hgo, other, hkeep, hq⟩
        · exact hsame.trans hiss
        -- Another credential is kept only where none is waiting.
        rcases hlos.2.2.2 hgo other hkeep with hnone | hsame
        · simp [hiss] at hnone
        · exact hq.trans (hsame.symm.trans hiss)
      · exact .inr (.inr (mem_append_right _ hhan))
    · cases hq
      rcases h with hway | hiss | hhan
      · exact .inl hway
      · cases change with
        | takeIssued =>
          refine .inr (.inr (mem_append_left _ ?_))
          rw [handing, hiss]
          exact mem_singleton_self auth
        | _ => exact .inr (.inl hiss)
      · exact .inr (.inr (mem_append_right _ hhan))
  · exact h

theorem onItsWay_of_reading {ce : ConnectionPool.Event} {client : ConnectionPool.World}
    {enrollment : Enrollment} (hcl : ConnectionPool.step s.client ce = some client)
    (hread : (enrollment, auth) ∈ s.reading ce) :
    ∃ (id : Nat) (phase : ConnectionPool.Phase),
      (client.tasks[id]?).map ConnectionPool.Task.phase = some phase ∧
        phase.holding = some auth := by
  revert hread
  fun_cases reading s ce with
  | case1 id issued conn enrollment' hph heq =>
    intro hread
    cases mem_singleton.mp hread
    rcases map_eq_some_iff.mp hph with ⟨t, ht, htph⟩
    have hadv : s.client.shared.advance t (.issue auth) =
        some (s.client.shared, t.to (.presented conn enrollment (some auth))) := by
      simp only [advance, htph]
    have hmov := (Interleave.step_advance ht hadv).symm.trans hcl
    cases hmov
    have hlt : id < s.client.tasks.length := (List.getElem?_eq_some_iff.mp ht).1
    refine ⟨id, _, map_eq_some_iff.mpr ⟨_, List.getElem?_set_self hlt, rfl⟩, ?_⟩
    exact if_pos heq
  | _ => rintro ⟨⟩

/-- Nothing that was read is lost: in every run in which no dial is given up while it holds a
    credential that only it has, and none is left in the pool while another one waits there, every
    credential that a dial has read and accepted is on its way, waits to be taken or has been
    taken. -/
theorem issued_credential_kept {client : ConnectionPool.World} {server : EnrollState}
    {events : List Event}
    (hlossless : Machine.Along (step cr) (fun s e => s.lossless e = true) (start client server)
      events)
    (hrun : Machine.run (step cr) (start client server) events = some s) : s.Kept cr := by
  have hhe : ∀ a ∈ s.accepted, s.Held a.2 := by
    refine Machine.invariant_along (fun s => ∀ a ∈ s.accepted, s.Held a.2) ?_ ?_ hlossless hrun
    · intro s e s' hinv hok hst a ha
      rcases step_cases hst with ⟨ce, client, rfl, hcl, hs'⟩ | ⟨se, server, rfl, -, hs'⟩
      · rw [hs'] at ha
        rcases mem_append.mp ha with hread | hold
        · have hway := onItsWay_of_reading hcl hread
          rw [hs']
          exact .inl hway
        · exact (hinv a hold).step hok hst
      · rw [hs'] at ha
        exact (hinv a ha).step hok hst
    · intro a ha
      cases ha
  intro a ha
  exact .inl (hhe a ha)

end

def readsAnswer : List Event :=
  [.client (.ambient (.setEnrollment (some ⟨"alice", "token", none⟩))),
    .client (.start (.getConnection .http)), .client (.advance 0 (.look [] [] true)),
    .client (.advance 0 .go), .client (.advance 0 .go), .client (.advance 0 .go),
    .client (.advance 0 .go), .client (.advance 0 .go),
    .server (.enroll 0 (.all 0) (aliceEnrolls none) "NB2HI4DT"),
    .server (.runWrite 0 (.of .replaced)), .server .resume,
    .client (.advance 0 (.issue ⟨"alice", none, "NB2HI4DT"⟩))]

/-- The handshake goes through, and the dial writes the credential, drops the connections that
    were there, clears the token and leaves the copy. -/
def keepsAnswer : List Event :=
  readsAnswer ++ List.replicate 6 (.client (.advance 0 .go))

def invited : Exchange :=
  start ⟨.new true, []⟩ (.start invitedTable invitedDoc)

theorem issued_credential_kept_alice :
    ∃ s, Machine.run (step Crypto.toy) invited keepsAnswer = some s ∧
      s.client.shared.issued = some ⟨"alice", none, "NB2HI4DT"⟩ ∧ s.Kept Crypto.toy := by
  have hlos : Machine.Along (step Crypto.toy) (fun s e => s.lossless e = true) invited
      keepsAnswer := by decide +kernel
  have hv : (Machine.run (step Crypto.toy) invited keepsAnswer).map
      (fun s => s.client.shared.issued) = some (some ⟨"alice", none, "NB2HI4DT"⟩) := by
    decide +kernel
  rcases map_eq_some_iff.mp hv with ⟨s, hrun, hiss⟩
  exact ⟨s, hrun, hiss, issued_credential_kept hlos hrun⟩

def answerThenSilence : List Event :=
  readsAnswer ++ [.client (.advance 0 (.fail (.connectionFailed
    "the server did not finish the 2FA handshake within 10s")))]

/-- The dial lets go of the credential it has read, nobody else has it, and the server takes the
    token no more. -/
theorem failed_handshake_loses_credential :
    ∃ s, Machine.run (step Crypto.toy) invited answerThenSilence = some s ∧
      s.accepted = [(⟨"alice", "token", none⟩, ⟨"alice", none, "NB2HI4DT"⟩)] ∧
      s.client.shared.issued = none ∧ s.client.shared.twoFactor = none ∧ ¬s.Kept Crypto.toy := by
  have hvi : (Machine.run (step Crypto.toy) invited answerThenSilence).map (fun s =>
      (s.accepted, s.client.shared.issued, s.client.shared.twoFactor, s.handed)) =
      some ([(⟨"alice", "token", none⟩, ⟨"alice", none, "NB2HI4DT"⟩)], none, none, []) := by
    decide +kernel
  have hre : ∀ s ∈ Machine.run (step Crypto.toy) invited answerThenSilence,
      (s.client.tasks.map fun t => t.phase.holding) = [none] ∧
        (s.server.live.credentialsOf "alice").map (fun k => k.pending) = some none := by
    decide +kernel
  rcases map_eq_some_iff.mp hvi with ⟨s, hrun, hs⟩
  simp only [Prod.mk.injEq] at hs
  obtain ⟨hacc, hiss, htwo, hhan⟩ := hs
  obtain ⟨hhol, hser⟩ := hre s hrun
  refine ⟨s, hrun, hacc, hiss, htwo, ?_⟩
  intro hke
  rw [Kept, hacc] at hke
  rcases hke _ (mem_singleton_self _) with hhe | hac
  · rcases hhe with ⟨id, phase, hph, hhe⟩ | hin | hout
    · rcases map_eq_some_iff.mp hph with ⟨t, ht, rfl⟩
      have hno : t.phase.holding ∈ [none] := by
        rw [← hhol]
        exact mem_map_of_mem (mem_of_getElem? ht)
      rw [mem_singleton.mp hno] at hhe
      cases hhe
    · simp [hiss] at hin
    · simp [hhan] at hout
  · rcases hac with ⟨clock, publicKey, secret, cfg, credential, slot, hdec⟩
    rcases map_eq_some_iff.mp hser with ⟨k, hk, hpen⟩
    have hcl : (Enrollment.request ⟨"alice", "token", none⟩ publicKey).clientId = "alice" := rfl
    rcases EnrollState.enrollDecide_of_no_token hk hpen clock secret hcl with
      ⟨cfg', counted, href⟩
    rw [href] at hdec
    cases hdec

end Exchange

end Nexapipe
