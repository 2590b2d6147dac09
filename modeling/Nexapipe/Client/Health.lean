import Nexapipe.Client.NetworkChange

/-!
# On whose evidence a backend is called down

The table of the backends' health says which of them may be handed out, so it should be written on
evidence about the backend alone. A request that its pool refuses for a reason of this client's own
is left out of it: the endpoint is closed, the protocol has as many connections as it may, the
credential was replaced under the dial. But the probe does not tell these apart. It hears from its
pool only whether there is a connection, and takes every other end for silence. And a request whose
connection this client has closed meanwhile counts as one that the backend did not serve.

So a backend that answers everything is called down all the same. It is not where nothing comes
between its answers and a connection, and nothing is closed that a request is using.
-/

namespace Nexapipe.LiveGroup

open List Bool

open Client ConnectionPool

/-! ### The pools of the backend -/

def blames : Phase → Bool
  | .announcing (.error error) | .leaving _ (some (.error error)) | .done (.refused error) =>
    !isOwn error
  | .done (.warm available) => !available
  | _ => false

def blamesIn : Channel → Bool
  | .sent (.error error) => !isOwn error
  | _ => false

def isRefusal : ClientError → Bool
  | .authenticationFailed _ => true
  | _ => false

/-- What a backend that answers every handshake and every authentication in time lets happen to a
    dial: connecting fails on a closed endpoint or by a refusal, the exchange on a closed
    connection or by a refusal, and the time does not run out. -/
def answers (p : Pool) (t : Task) : ConnectionPool.Input → Bool
  | .connectFailed failure => !p.ep || isRefusal failure.error
  | .fail error => isRefusal error || t.phase.owned.all fun conn => !p.isOpen conn
  | .expire => false
  | _ => true

/-- Nothing comes between the backend's answers and a connection. The client has not closed its
    endpoint nor the connection it is dialling, a probe is not refused by its own pool, and the
    server refuses nothing and demands nothing. -/
def unhindered (p : Pool) (t : Task) (input : ConnectionPool.Input) : Bool :=
  match t.phase, input with
  -- A request is told that the endpoint is closed; a probe only that there is no connection.
  | .dialing, .go => t.call ≠ .preconnect || p.ep
  | .connecting, .connectFailed failure => p.ep && !isRefusal failure.error
  | .presented _ enrollment (some issued), .go => issued.clientId = enrollment.clientId
  | .observing _ _, .demand _ => false
  | .authenticated conn _, .go => p.isOpen conn
  -- What the pool refuses is told apart for a request, and not for a probe.
  | .pooling _ generation, .go =>
    t.call ≠ .preconnect || (p.credentialGeneration = generation && p.mayPool .http)
  | phase, .fail error => !isRefusal error && phase.owned.all p.isOpen
  | _, _ => true

def Quiet (p : Pool) : Prop :=
  ∀ (channel : Nat) c, p.channels[channel]? = some c → blamesIn c = false

section Pools

variable {p q : Pool} {t t' : Task}

theorem Quiet.of_eq (h : Quiet p) (heq : q.channels = p.channels) : Quiet q := by
  intro channel c hc
  rw [heq] at hc
  exact h channel c hc

theorem Quiet.sent (h : Quiet p) {channel : Nat} {outcome : Except ClientError ConnId}
    (hout : blamesIn (.sent outcome) = false) :
    Quiet { p with channels := p.channels.set channel (.sent outcome) } := by
  intro k c hc
  rcases Interleave.getElem?_set_eq_some hc with ⟨-, hold⟩ | ⟨-, rfl⟩
  · exact h k c hold
  · exact hout

theorem Quiet.takeSlot (h : Quiet p) (t : Task) : Quiet (p.takeSlot t).1 := by
  unfold Pool.takeSlot
  rcases p.dialing.lookup t.call.protocol with _ | channel
  · intro k c hc
    rcases Best.getElem?_append_singleton.mp hc with hold | ⟨-, rfl⟩
    · exact h k c hold
    · rfl
  · exact h

theorem Quiet.clearDialSlot (h : Quiet p) (protocol : Protocol) (channel : Nat) :
    Quiet (p.clearDialSlot protocol channel) := by
  fun_cases p.clearDialSlot protocol channel with
  | case1 | case2 => exact h

open Option

theorem Quiet.lose (h : Quiet p) (t : Task) : Quiet (p.lose t) := by
  unfold Pool.lose
  rcases t.channel with _ | channel
  · exact h
  intro k c hc
  rw [getElem?_modify] at hc
  rcases map_eq_some_iff.mp hc with ⟨before, hbef, rfl⟩
  have hq := h k before hbef
  by_cases hk : channel = k
  · by_cases hpen : before = .pending
    · simp only [hk, hpen, if_true]
      rfl
    · simp only [hk, hpen, if_true, if_false]
      exact hq
  · simp only [hk, if_false]
    exact hq

theorem Quiet.write (h : Quiet p) (auth : Option TwoFactorAuth) : Quiet (p.write auth) := by
  fun_cases p.write auth with
  | case1 | case2 => exact h

theorem Quiet.afterDrop (h : Quiet p) (t : Task) (after : After) :
    Quiet (p.afterDrop t after).1 ∧ blames (p.afterDrop t after).2.phase = false := by
  cases after with
  | closed =>
    unfold Pool.afterDrop
    rcases p.ownsEndpoint with _ | _
    · exact ⟨h, rfl⟩
    · exact ⟨h, rfl⟩
  | _ => exact ⟨h, rfl⟩

theorem blames_fail (t : Task) (error : ClientError) :
    blames (t.fail error).phase = (decide (t.call = .preconnect) || !isOwn error) := by
  unfold Task.fail
  cases t.call <;> rfl

theorem blames_authenticated (t : Task) (conn : ConnId) (generation : Nat) :
    blames (t.authenticated conn generation).phase = false := by
  unfold Task.authenticated
  cases t.call <;> rfl

theorem blames_pooled (t : Task) (conn : ConnId) : blames (t.pooled conn).phase = false := by
  unfold Task.pooled
  cases t.call <;> rfl

theorem blames_poolConnection {conn : ConnId} {generation : Nat}
    (h : t.call = .preconnect → p.credentialGeneration = generation ∧ p.mayPool .http = true) :
    blames (p.poolConnection t conn generation).2.phase = false := by
  fun_cases p.poolConnection t conn generation with
  | case1 hgen =>
    have hcall : t.call ≠ .preconnect := fun hcall => hgen (h hcall).1
    rw [blames_fail, decide_eq_false hcall]
    rfl
  | case2 => exact blames_pooled t conn
  | case3 _ hroom =>
    have hcall : t.call ≠ .preconnect := by
      intro hcall
      rw [hcall] at hroom
      exact hroom (h hcall).2
    rw [blames_fail, decide_eq_false hcall]
    rfl

theorem quiet_poolConnection (h : Quiet p) (t : Task) (conn : ConnId) (generation : Nat) :
    Quiet (p.poolConnection t conn generation).1 := by
  fun_cases p.poolConnection t conn generation with
  | case1 | case2 | case3 => exact h

theorem blames_of_go (h : p.go t = some (q, t')) (hunh : unhindered p t .go = true)
    (ht : blames t.phase = false) (hp : Quiet p) : blames t'.phase = false ∧ Quiet q := by
  revert h
  fun_cases Pool.go p t with
  | case4 =>
    intro h
    have hslot := hp.takeSlot t
    have hself : blames (p.takeSlot t).2.phase = false := by
      unfold Pool.takeSlot
      cases p.dialing.lookup t.call.protocol <;> rfl
    rw [some.inj h] at hslot hself
    exact ⟨hself, hslot⟩
  | case5 channel _ outcome hc =>
    rintro ⟨⟩
    have hq := hp channel _ hc
    rcases outcome with error | conn
    · exact ⟨hq, hp⟩
    · exact ⟨rfl, hp⟩
  | case9 hph hcl =>
    -- Who finds the endpoint closed is not a probe, and is told so.
    rintro ⟨⟩
    simp only [unhindered, hph, hcl, Bool.or_false, decide_eq_true_eq] at hunh
    refine ⟨?_, hp⟩
    rw [blames_fail, decide_eq_false hunh]
    rfl
  | case16 _ _ _ hph hoth =>
    simp only [unhindered, hph] at hunh
    exact absurd (of_decide_eq_true hunh) hoth
  | case17 | case18 | case19 | case20 =>
    intro h
    rcases Prod.mk.inj (some.inj h) with ⟨rfl, rfl⟩
    exact ⟨rfl, hp.write _⟩
  | case22 after =>
    intro h
    have hq : Quiet { p with epoch := p.epoch + 1 } := hp
    have haft := hq.afterDrop t after
    rw [some.inj h] at haft
    exact haft.symm
  | case24 conn | case26 conn | case27 conn =>
    rintro ⟨⟩
    exact ⟨blames_authenticated t conn _, hp⟩
  | case32 _ _ hph hcl =>
    simp only [unhindered, hph] at hunh
    exact absurd hunh hcl
  | case33 conn generation hph =>
    intro h
    simp only [unhindered, hph, ne_eq, decide_not, or_eq_true, not_eq_true',
      decide_eq_false_iff_not, and_eq_true, decide_eq_true_eq] at hunh
    have hself : blames (p.poolConnection t conn generation).2.phase = false :=
      blames_poolConnection fun hcall => hunh.resolve_left fun hnot => hnot hcall
    have hq := quiet_poolConnection hp t conn generation
    rw [some.inj h] at hself hq
    exact ⟨hself, hq⟩
  | case34 outcome hph =>
    -- What the waiters are told is what the dial carries.
    rintro ⟨⟩
    rw [hph] at ht
    rcases outcome with error | conn
    · exact ⟨ht, hp.sent ht⟩
    · exact ⟨rfl, hp.sent rfl⟩
  | case36 channel | case38 channel =>
    intro h
    rcases Prod.mk.inj (some.inj h) with ⟨rfl, rfl⟩
    exact ⟨rfl, hp.clearDialSlot t.call.protocol channel⟩
  | case37 channel _ error hph =>
    intro h
    rcases Prod.mk.inj (some.inj h) with ⟨rfl, rfl⟩
    rw [hph] at ht
    exact ⟨ht, hp.clearDialSlot t.call.protocol channel⟩
  | _ =>
    rintro ⟨⟩
    all_goals exact ⟨rfl, hp⟩

theorem not_both {error : ClientError} {conn : ConnId}
    (hans : (isRefusal error || (some conn).all fun conn => !p.isOpen conn) = true)
    (hunh : (!isRefusal error && (some conn).all p.isOpen) = true) : False := by
  rw [all_some] at hans hunh
  rcases Bool.and_eq_true_iff.mp hunh with ⟨href, ho⟩
  rw [ho, Bool.not_true, Bool.or_false] at hans
  rw [hans] at href
  cases href

theorem blames_of_advance {input : ConnectionPool.Input} (h : p.advance t input = some (q, t'))
    (hans : answers p t input = true) (hunh : unhindered p t input = true)
    (ht : blames t.phase = false) (hp : Quiet p) : blames t'.phase = false ∧ Quiet q := by
  revert h
  fun_cases Pool.advance p t input with
  | case1 => exact fun h => blames_of_go h hunh ht hp
  | case2 idle pathless seat =>
    fun_cases Pool.borrowPooled p t idle pathless seat <;>
    · intro h
      rcases Prod.mk.inj (some.inj h) with ⟨rfl, rfl⟩
      exact ⟨rfl, hp⟩
  | case3 _ pathless =>
    fun_cases Pool.lookWarm p t pathless <;>
    · rintro ⟨⟩
      exact ⟨rfl, hp⟩
  | case5 failure hph =>
    -- On an open endpoint it fails by a refusal only.
    simp only [answers, unhindered, hph, or_eq_true, not_eq_true',
      and_eq_true] at hans hunh
    rcases hans with hcl | href
    · simp [hunh.1] at hcl
    · simp [hunh.2] at href
  | case7 _ _ _ _ hph | case8 _ _ _ _ hph =>
    rw [answers, hph] at hans
    simp only [unhindered, hph] at hunh
    exact (not_both hans hunh).elim
  | case10 =>
    rintro ⟨⟩
    exact ⟨rfl, hp⟩
  | case12 _ _ _ hph => simp [unhindered, hph] at hunh
  | case15 =>
    rintro ⟨⟩
    exact ⟨rfl, hp.lose t⟩
  | case16 => cases hans
  | _ => rintro ⟨⟩

end Pools

def moves (cond : Pool → Task → ConnectionPool.Input → Bool) (v : ConnectionPool.World) :
    ConnectionPool.Event → Bool
  | .advance id input => (v.tasks[id]?).all fun t => cond v.shared t input
  | _ => true

def Blameless (v : ConnectionPool.World) : Prop :=
  Interleave.Holds Quiet (fun _ t => blames t.phase = false) v

theorem blameless_rules : Interleave.Rules ConnectionPool.behaviour
    (fun v e => moves answers v e = true ∧ moves unhindered v e = true) Quiet
    (fun _ t => blames t.phase = false) where
  start _ call _ _ := by cases call <;> rfl
  advance v id input t q t' hv hc ht hadv := by
    rw [moves, moves, ht, Option.all_some, Option.all_some] at hc
    have hmove := blames_of_advance hadv hc.1 hc.2 (hv.2 id t ht) hv.1
    exact ⟨hmove.2, hmove.1, fun _ _ _ _ h => h⟩
  ambient v change q hv _ hq := by
    cases hq
    refine ⟨?_, fun _ _ _ h => h⟩
    cases change <;> exact hv.1.of_eq rfl

theorem blameless_new (ownsEndpoint : Bool) : Blameless ⟨.new ownsEndpoint, []⟩ := by
  refine ⟨?_, ?_⟩
  · intro channel c hc
    cases hc
  · intro id t ht
    cases ht

theorem Blameless.step {v v' : ConnectionPool.World} {e : ConnectionPool.Event} (h : Blameless v)
    (hans : moves answers v e = true) (hunh : moves unhindered v e = true)
    (hs : ConnectionPool.step v e = some v') : Blameless v' :=
  blameless_rules.step h ⟨hans, hunh⟩ hs

/-! ### The jobs of the group -/

def Group.isOpen (s : Group) (pool : PoolId) (conn : ConnId) : Bool :=
  (s.pools.lookup pool).any fun v => v.shared.isOpen conn

def movesOf (cond : Pool → Task → ConnectionPool.Input → Bool) (g : EndpointGroup)
    (b : BackendId) (s : Group) (pool : PoolId) (e : ConnectionPool.Event) : Bool :=
  g.backends.lookup pool ≠ some b || (s.pools.lookup pool).all fun v => moves cond v e

/-- What a backend that answers every handshake, every authentication and every preface in time
    lets happen: what it lets happen to a dial, a tunnel is left without an answer only when its
    connection is closed, and the check at startup has heard from the backend when its time is
    up. -/
def answersTo (g : EndpointGroup) (b : BackendId) (w : World) : Event → Bool
  | .start _ => true
  | .ambient (pool, e) => movesOf answers g b w.shared pool e
  | .advance id input =>
    match w.tasks[id]?, input with
    | some (.checking _ running _), .late => running.all fun m => m.backend ≠ b
    | some (.accepting backend pool conn), .failed =>
      backend ≠ b || !w.shared.isOpen pool conn
    | _, _ => true

/-- Nothing comes between the answers of the backend and what is asked of it. No stream that is
    opened to it fails, and the connection of a tunnel is not closed before the answer. -/
def unhinderedTo (g : EndpointGroup) (b : BackendId) (w : World) : Event → Bool
  | .start _ => true
  | .ambient (pool, e) => movesOf unhindered g b w.shared pool e
  | .advance id input =>
    match w.tasks[id]?, input with
    | some (.opening _ backend _ _), .failed | some (.writing _ backend _ _), .failed =>
      backend ≠ b
    | some (.accepting backend pool conn), .failed => backend ≠ b || w.shared.isOpen pool conn
    | _, _ => true

def Fair (g : EndpointGroup) (b : BackendId) : Job → Prop
  | .probing todo running => (∀ entry ∈ todo, g.backends.lookup entry.2 = some entry.1) ∧
      ∀ m ∈ running, g.backends.lookup m.pool = some m.backend
  | .checking todo running report => (∀ entry ∈ todo, g.backends.lookup entry.2 = some entry.1) ∧
      (∀ m ∈ running, g.backends.lookup m.pool = some m.backend) ∧ b ∉ report.unreachable ∧
      ∀ pool, (b, pool) ∈ g.uniquePools →
        (b, pool) ∈ todo ∨ (∃ m ∈ running, m.backend = b) ∨ b ∈ report.reachable
  | .reading _ report => b ∉ report.unreachable
  | .recording todo => (b, false) ∉ todo
  | .trying r | .opening r _ _ _ | .writing r _ _ _ => b ∉ r.tried
  | .asking r backend pool _ => g.backends.lookup pool = some backend ∧ b ∉ r.tried
  | _ => True

structure Clear (g : EndpointGroup) (b : BackendId) (s : Group) : Prop where
  pools : ∀ pool v, s.pools.lookup pool = some v → g.backends.lookup pool = some b → Blameless v
  health : marksDown s.health b = false

section Jobs

variable {g : EndpointGroup} {b : BackendId} {s s' : Group}

open LiveGroup.Group

theorem Group.health_of_inPool {pool : PoolId} {e : ConnectionPool.Event}
    (h : s.inPool pool e = some s') : s'.health = s.health := by
  rcases inPool_eq_some.mp h with ⟨v, v', -, -, rfl⟩
  rfl

theorem Group.health_of_call {pool : PoolId} {call : ConnectionPool.Call} {id : Nat}
    (h : s.call pool call = some (s', id)) : s'.health = s.health := by
  rcases call_eq_some.mp h with ⟨v, -, hin, -⟩
  exact health_of_inPool hin

theorem marksDown_recordOutcome (health : Entries BackendId NodeHealth) (backend : BackendId)
    (answered : Bool) : marksDown (recordOutcome health backend answered) b =
      if b = backend then !answered else marksDown health b := by
  unfold marksDown recordOutcome
  by_cases hb : b = backend
  · rw [if_pos hb]
    cases answered <;> simp [Entries.lookup_set, hb]
  · rw [if_neg hb]
    cases answered <;> simp [Entries.lookup_set, hb]

theorem Clear.record (h : Clear g b s) {backend : BackendId} {answered : Bool}
    (hans : backend = b → answered = true) : Clear g b (s.record backend answered) := by
  refine ⟨h.pools, ?_⟩
  show marksDown (recordOutcome s.health backend answered) b = false
  rw [marksDown_recordOutcome]
  by_cases hb : b = backend
  · rw [if_pos hb, hans hb.symm]
    rfl
  · rw [if_neg hb]
    exact h.health

theorem Clear.answered (h : Clear g b s) {m : Member} {answered : Bool}
    (hm : g.backends.lookup m.pool = some m.backend) (hans : s.answered m = some answered)
    (hb : m.backend = b) : answered = true := by
  unfold Group.answered at hans
  rcases hph : s.phase m.pool m.id with _ | phase
  · simp [hph] at hans
  rcases Group.phase_eq_some.mp hph with ⟨v, t, hv, ht, rfl⟩
  have hbl := (h.pools m.pool v hv (hb ▸ hm)).2 m.id t ht
  rw [hph] at hans
  cases hdo : t.phase with
  | done result =>
    rw [hdo] at hans hbl
    cases result with
    | warm available =>
      cases hans
      exact not_inj hbl
    | _ => cases hans
  | _ => simp [hdo] at hans

theorem Clear.own (h : Clear g b s) {pool : PoolId} {id : Nat} {error : ClientError}
    (hp : g.backends.lookup pool = some b)
    (hph : s.phase pool id = some (.done (.refused error))) : isOwn error = true := by
  rcases phase_eq_some.mp hph with ⟨v, t, hv, ht, hd⟩
  have hb := (h.pools pool v hv hp).2 id t ht
  simp only [hd] at hb
  exact not_inj hb

theorem fair_recordRequestFailures {tried : List BackendId} (h : b ∉ tried) :
    Fair g b (recordRequestFailures tried) := by
  intro hmem
  rcases mem_map.mp hmem with ⟨backend, hbac, heq⟩
  cases heq
  exact h (mem_eraseDups.mp hbac)

theorem fair_spawn {backend : BackendId} {pool : PoolId} {todo : List (BackendId × PoolId)}
    {running : List Member} (id : Nat)
    (ht : ∀ entry ∈ (backend, pool) :: todo, g.backends.lookup entry.2 = some entry.1)
    (hrun : ∀ m ∈ running, g.backends.lookup m.pool = some m.backend) :
    (∀ entry ∈ todo, g.backends.lookup entry.2 = some entry.1) ∧
      ∀ m ∈ running ++ [⟨backend, pool, id⟩], g.backends.lookup m.pool = some m.backend := by
  refine ⟨fun entry hentry => ht entry (mem_cons_of_mem _ hentry), ?_⟩
  intro m hm
  rcases mem_append.mp hm with hold | hnew
  · exact hrun m hold
  · rw [mem_singleton.mp hnew]
    exact ht _ mem_cons_self

variable {report : Report}

theorem not_mem_unreachable_add {backend : BackendId} {answered : Bool} (h : b ∉ report.unreachable)
    (hans : backend = b → answered = true) :
    b ∉ (report.add backend answered).unreachable := by
  rcases answered with _ | _
  · intro hmem
    rcases mem_append.mp hmem with hold | hnew
    · exact h hold
    · cases hans (mem_singleton.mp hnew).symm
  · exact h

theorem mem_reachable_add (h : b ∈ report.reachable) (backend : BackendId) (answered : Bool) :
    b ∈ (report.add backend answered).reachable := by
  rcases answered with _ | _
  · exact h
  · exact mem_append_left _ h

theorem fair_outcomes (h : b ∉ report.unreachable) : Fair g b (.recording report.outcomes) := by
  intro hmem
  rcases mem_append.mp hmem with hmem | hmem
  · rcases mem_map.mp hmem with ⟨backend, -, heq⟩
    cases heq
  rcases mem_map.mp hmem with ⟨backend, hbac, heq⟩
  cases heq
  exact h (mem_filter.mp hbac).1

theorem Clear.move {job job' : Job} {input : Input} (h : Clear g b s) (hfa : Fair g b job)
    (hmove : JobMove g s job input s' job') : Clear g b s' := by
  have hpo : ∀ pool v, s'.pools.lookup pool = some v → g.backends.lookup pool = some b →
      Blameless v := by
    refine hmove.poolStep.keeps ?_ h.pools
    intro pool e v v' hmak _ hbl hst hpoo
    -- A job starts calls and closes connections, and moves no task of a pool.
    have hfr : ∀ cond, moves cond v e = true := by
      intro cond
      cases e with
      | advance id input => exact (Job.not_makes_advance hmak).elim
      | _ => rfl
    exact (hbl hpoo).step (hfr answers) (hfr unhindered) hst
  cases hmove with
  | next hcall | spawnProbe hcall | spawnCheck hcall | ask _ hcall =>
    exact ⟨hpo, health_of_call hcall ▸ h.health⟩
  | read hin | retry _ hin | saturate hin | unanswered hin =>
    exact ⟨hpo, health_of_inPool hin ▸ h.health⟩
  | probed hm hans =>
    exact h.record (h.answered (hfa.2 _ (mem_of_getElem? hm)) hans)
  | @record backend answered todo =>
    refine h.record ?_
    rintro rfl
    rcases answered with _ | _
    · exact absurd mem_cons_self hfa
    · rfl
  | @refused r backend pool id error hph =>
    -- What is written is not this client's own, so the pool is of another backend.
    by_cases hown : isOwn error = true
    · rw [if_pos hown]
      exact h
    rw [if_neg hown]
    refine h.record ?_
    rintro rfl
    exact absurd (h.own hfa.1 hph) hown
  | _ => exact ⟨hpo, h.health⟩

theorem Fair.move {job job' : Job} {input : Input} {w : World} {id : Nat} (hfair : Fair g b job)
    (hclea : Clear g b w.shared) (hjob : w.tasks[id]? = some job)
    (hans : answersTo g b w (.advance id input) = true)
    (hunh : unhinderedTo g b w (.advance id input) = true)
    (hmove : JobMove g w.shared job input s' job') : Fair g b job' := by
  cases hmove with
  | cancel | next | back | stop | quit | accept | saturate => trivial
  | probe => exact ⟨fun entry hentry => g.lookup_of_mem_uniquePools hentry, nofun⟩
  | spawnProbe _ => exact fair_spawn _ hfair.1 hfair.2
  | probed hm _ =>
    exact ⟨nofun, fun m hmem => hfair.2 m (mem_of_mem_eraseIdx hmem)⟩
  | @spawnCheck backend pool todo running _ _ k _ =>
    have hspaw := fair_spawn k hfair.1 hfair.2.1
    refine ⟨hspaw.1, hspaw.2, hfair.2.2.1, ?_⟩
    intro other hoth
    rcases hfair.2.2.2 other hoth with htodo | ⟨m, hm, hb⟩ | hreac
    · rcases mem_cons.mp htodo with hfst | hlat
      · -- The backend is asked just now.
        cases hfst
        exact .inr (.inl ⟨_, mem_append_right _ mem_cons_self, rfl⟩)
      · exact .inl hlat
    · exact .inr (.inl ⟨m, mem_append_left _ hm, hb⟩)
    · exact .inr (.inr hreac)
  | @checked running report index m answered hm hansw =>
    have hmem : m ∈ running := mem_of_getElem? hm
    have hyes : m.backend = b → answered = true :=
      hclea.answered (hfair.2.1 m hmem) hansw
    refine ⟨nofun, fun k hk => hfair.2.1 k (mem_of_mem_eraseIdx hk), ?_, ?_⟩
    · exact not_mem_unreachable_add hfair.2.2.1 hyes
    · intro pool hpool
      rcases hfair.2.2.2 pool hpool with htodo | ⟨k, hk, hb⟩ | hreac
      · cases htodo
      · by_cases hm' : m.backend = b
        · refine .inr (.inr ?_)
          rw [hyes hm', ← hm']
          exact mem_append_right _ mem_cons_self
        -- Another member is asking the backend.
        refine .inr (.inl ⟨k, ?_, hb⟩)
        rcases getElem?_of_mem hk with ⟨i, hi⟩
        refine mem_eraseIdx_iff_getElem?.mpr ⟨i, ?_, hi⟩
        rintro rfl
        rw [hm] at hi
        cases hi
        exact hm' hb
      · exact .inr (.inr (mem_reachable_add hreac m.backend answered))
  | allChecked => exact hfair.2.2.1
  | @checkLate running report =>
    simp only [answersTo, hjob, all_eq_true, decide_eq_true_eq] at hans
    intro hmem
    rcases mem_append.mp hmem with hold | hmis
    · exact hfair.2.2.1 hold
    -- The backend is one of those that were asked, and it has been heard of.
    rcases mem_filter.mp hmis with ⟨hseen, hnew⟩
    rcases mem_map.mp hseen with ⟨entry, hentry, rfl⟩
    rcases hfair.2.2.2 entry.2 hentry with htodo | ⟨m, hm, hb⟩ | hreac
    · cases htodo
    · exact hans m hm hb
    · rw [contains_iff_mem.mpr (mem_append_left _ hreac)] at hnew
      cases hnew
  | read _ hreport =>
    rw [Fair, hreport.2]
    exact hfair
  | allRead => exact fair_outcomes hfair
  | record => exact fun hmem => hfair (mem_cons_of_mem _ hmem)
  | giveUp => exact fair_recordRequestFailures hfair
  | ask hbac _ => exact ⟨hbac, hfair⟩
  | handed _ => exact hfair.2
  | refused _ => exact fair_recordRequestFailures hfair.2
  | write => exact hfair
  | @retry r backend pool conn _ _ hcase _ =>
    have hoth : b ∉ r.tried ∧ backend ≠ b := by
      rcases hcase with rfl | rfl
      · simp only [unhinderedTo, hjob, decide_eq_true_eq] at hunh
        exact ⟨hfair, hunh⟩
      · simp only [unhinderedTo, hjob, decide_eq_true_eq] at hunh
        exact ⟨hfair, hunh⟩
    intro hmem
    rcases mem_append.mp hmem with hold | hlast
    · exact hoth.1 hold
    · exact hoth.2 (mem_singleton.mp hlast).symm
  | @unanswered backend pool conn _ _ =>
    simp only [answersTo, unhinderedTo, hjob] at hans hunh
    refine fair_recordRequestFailures ?_
    intro hmem
    -- The connection would have to be closed and open.
    have hb : backend = b := (mem_singleton.mp hmem).symm
    rw [decide_eq_false (not_not_intro hb), Bool.false_or] at hans hunh
    rw [hunh] at hans
    cases hans

theorem fair_start (call : Call) : Fair g b (call.start g) := by
  cases call with
  | preconnectReport =>
    exact ⟨fun entry hentry => g.lookup_of_mem_uniquePools hentry, nofun, not_mem_nil,
      fun _ hp => .inl hp⟩
  | openStream host protocol initial => exact not_mem_nil
  | _ => trivial

theorem Clear.inPool (h : Clear g b s) {pool : PoolId} {e : ConnectionPool.Event}
    (hans : movesOf answers g b s pool e = true)
    (hunh : movesOf unhindered g b s pool e = true) (hin : s.inPool pool e = some s') :
    Clear g b s' := by
  refine ⟨?_, health_of_inPool hin ▸ h.health⟩
  have hpo : PoolStep (fun k event => k = pool ∧ event = e) s s' := .of_inPool hin ⟨rfl, rfl⟩
  refine hpo.keeps ?_ h.pools
  rintro k event v v' ⟨rfl, rfl⟩ hv hb hs hp
  rw [movesOf, hv, decide_eq_false (not_not_intro hp), Bool.false_or, Option.all_some]
    at hans hunh
  exact (hb hp).step hans hunh hs

theorem clear_rules (g : EndpointGroup) (b : BackendId) : Interleave.Rules (behaviour g)
    (fun w e => answersTo g b w e = true ∧ unhinderedTo g b w e = true) (Clear g b)
    (fun _ job => Fair g b job) where
  start _ call _ _ := fair_start call
  advance w id input job s' job' hw hc hjob hadv := by
    have hmove := jobMove_of_advance hadv
    have hf := hw.2 id job hjob
    exact ⟨hw.1.move hf hmove, hf.move hw.1 hjob hc.1 hc.2 hmove,
      fun _ _ _ _ h => h⟩
  ambient w change s' hw hc hin :=
    ⟨hw.1.inPool hc.1 hc.2 hin, fun _ _ _ h => h⟩

/-- Where nothing comes between the answers of a backend and what is asked of it, whatever else
    happens in the group: the table of a group never calls a backend down that answers every
    handshake, every authentication and every preface in time. -/
theorem backend_not_called_down {ownsEndpoint : Bool} {es : List Event} {w : World}
    (hrun : Machine.run (step g) ⟨.new g ownsEndpoint, []⟩ es = some w)
    (hanswers : Machine.Along (step g) (fun w e => answersTo g b w e = true)
      ⟨.new g ownsEndpoint, []⟩ es)
    (hunhindered : Machine.Along (step g) (fun w e => unhinderedTo g b w e = true)
      ⟨.new g ownsEndpoint, []⟩ es) : marksDown w.shared.health b = false := by
  have hst : Interleave.Holds (Clear g b) (fun _ job => Fair g b job)
      (⟨.new g ownsEndpoint, []⟩ : World) := by
    refine ⟨⟨?_, rfl⟩, fun _ _ hjob => absurd hjob (Option.some_ne_none _).symm⟩
    intro pool v hv _
    rcases lookup_new hv with ⟨rfl, -⟩
    exact blameless_new ownsEndpoint
  have hhol := Machine.invariant_along
    (Interleave.Holds (Clear g b) (fun _ job => Fair g b job))
    (fun _ _ _ h hco hste => (clear_rules g b).step h hco hste) hst
    (hanswers.and hunhindered) hrun
  exact hhol.1.health

end Jobs

/-! ### Runs -/

def probes (pool : PoolId) : List Event :=
  .start .probeRound :: .advance 0 .go :: .advance 0 .go ::
    movesIn pool 0 (.look [] [] true :: List.replicate 7 .go)

def tunnels (pool : PoolId) (job id : Nat) : List Event :=
  .start (.openStream "a".toList .l4 true) :: .advance job (.pick 0) ::
    movesIn pool id (.look [] [] true :: List.replicate 10 .go) ++
    [.advance job .go, .advance job .go, .advance job .go]

/-- A backend that is probed and then asked for a tunnel. In between the client drops its
    connections, and afterwards it changes its credential and closes everything. -/
theorem backend_not_called_down_single :
    let pool := PoolId.keyed "node_id:n"
    let auth : TwoFactorAuth := ⟨"c", none, "s"⟩
    let es := probes pool ++ movesIn pool 0 [.go] ++ [.advance 0 (.ended 0)] ++
      [.start .dropConnections, .advance 1 .go] ++ movesIn pool 1 [.go, .go] ++
      tunnels pool 2 2 ++ [.advance 2 (.answer .ok)] ++
      [.start (.setTwoFactor none (some auth)), .advance 3 .go] ++
      movesIn pool 3 [.go, .go, .go] ++ [.start .closeAll, .advance 4 .go, .advance 4 .go] ++
      movesIn pool 4 [.go, .go, .go]
    let w := reachedIn single es
    Machine.run (step single) ⟨.new single true, []⟩ es = some w ∧
      w.tasks = [.probing [] [], .each .dropConnections [] (some (pool, 1)), .finished,
        .each (.setCredential (some auth)) [] (some (pool, 3)),
        .each .closeAll [] (some (pool, 4))] ∧
      w.shared.health = [(1, ⟨true, 0⟩)] ∧ marksDown w.shared.health 1 = false := by
  intro pool auth es w
  have hrun : Machine.run (step single) ⟨.new single true, []⟩ es = some w := by decide +kernel
  have hans : Machine.Along (step single) (fun w e => answersTo single 1 w e = true)
      ⟨.new single true, []⟩ es := by decide +kernel
  have hunh : Machine.Along (step single) (fun w e => unhinderedTo single 1 w e = true)
      ⟨.new single true, []⟩ es := by decide +kernel
  exact ⟨hrun, by decide +kernel, by decide +kernel,
    backend_not_called_down hrun hans hunh⟩

/-- A probe whose credential is replaced while it dials has its connection refused by the
    pool, and the backend called down, which has answered everything. -/
theorem probe_blames_backend :
    let pool := PoolId.keyed "node_id:n"
    let auth : TwoFactorAuth := ⟨"c", none, "s"⟩
    let es := probes pool ++ [.start (.setTwoFactor none (some auth)), .advance 1 .go] ++
      movesIn pool 1 [.go] ++ movesIn pool 0 [.go] ++ [.advance 0 (.ended 0)]
    let w := reachedIn single es
    Machine.run (step single) ⟨.new single true, []⟩ es = some w ∧
      Machine.Along (step single) (fun w e => answersTo single 1 w e = true)
        ⟨.new single true, []⟩ es ∧
      marksDown w.shared.health 1 = true := by
  intro pool auth es w
  exact ⟨by decide +kernel, by decide +kernel, by decide +kernel⟩

theorem tunnel_blames_backend :
    let pool := PoolId.keyed "node_id:n"
    let es := tunnels pool 0 0 ++ [.start .dropConnections, .advance 1 .go] ++
      movesIn pool 1 [.go, .go] ++ [.advance 1 .go, .advance 0 .failed, .advance 0 .go]
    let w := reachedIn single es
    Machine.run (step single) ⟨.new single true, []⟩ es = some w ∧
      Machine.Along (step single) (fun w e => answersTo single 1 w e = true)
        ⟨.new single true, []⟩ es ∧
      marksDown w.shared.health 1 = true := by
  intro pool es w
  exact ⟨by decide +kernel, by decide +kernel, by decide +kernel⟩

end Nexapipe.LiveGroup
