import Nexapipe.Client.GroupMoves
import Nexapipe.Client.Identity

/-!
# What a network change lets go of

When the device has changed networks the connections of the old one are dead while they look open,
so the group closes and clears every pool. It walks the list that has one pool for each backend,
and it clears what is in a pool when it comes to it.

Two things escape it. A backend that two pools reach has its second pool left out. And a dial
whose handshake is over while its connection is not yet in the pool puts it there afterwards: what
is compared then is the generation of the credential, and the network has none that is compared.

Where neither is the case everything that is left is younger than the call.
-/

namespace Nexapipe.LiveGroup

open List Entries Nat

open Client

/-! ### One pool -/

structure Since (made : Nat) (v : ConnectionPool.World) : Prop where
  length : made ≤ v.shared.conns.length
  pooled : ∀ e ∈ v.shared.connections, made ≤ e.conn
  dialled : ∀ (id : Nat) t conn, v.tasks[id]? = some t → t.phase.owned = some conn → made ≤ conn

variable {e : ConnectionPool.Event} {v v' : ConnectionPool.World} {t' t : ConnectionPool.Task}
  {input : ConnectionPool.Input} {p q : ConnectionPool.Pool}

open ConnectionPool.Pool

open Interleave

theorem made_le_step (h : ConnectionPool.step v e = some v') :
    v.shared.conns.length ≤ v'.shared.conns.length := by
  rcases step_cases h with ⟨call, -, rfl⟩ |
    ⟨id, input, t, q, t', -, -, hadv, rfl⟩ | ⟨change, q, -, hq, rfl⟩
  · exact le_refl _
  · exact (move_of_advance hadv).moved.grows
  · cases hq
    exact le_of_eq (v.shared.ambient_frame change).1.symm

theorem Since.step {made : Nat} (h : Since made v) (hst : ConnectionPool.step v e = some v') :
    Since made v' := by
  have hma := le_trans h.length (made_le_step hst)
  rcases step_cases hst with ⟨call, -, rfl⟩ |
    ⟨id, input, t, q, t', -, ht, hadv, rfl⟩ | ⟨change, q, -, hq, rfl⟩
  · refine ⟨hma, h.pooled, ?_⟩
    intro i u conn hu hown
    rcases Best.getElem?_append_singleton.mp hu with hold | ⟨-, rfl⟩
    · exact h.dialled i u conn hold hown
    have hno : (ConnectionPool.behaviour.start call).phase.owned = none :=
      ConnectionPool.Call.owned_start call
    rw [hno] at hown
    cases hown
  · have hmov := (move_of_advance hadv).moved
    refine ⟨hma, ?_, ?_⟩
    · intro e he
      rcases hmov.pooled e he with hold | ⟨hown, -⟩
      · exact h.pooled e hold
      · exact h.dialled id t e.conn ht hown
    · intro i u conn hu hown
      rcases getElem?_set_eq_some hu with ⟨-, hold⟩ | ⟨-, rfl⟩
      · exact h.dialled i u conn hold hown
      -- The dial has the connection it had, or one that was made just now.
      rcases hmov.owned with hno | hsame | ⟨hfr, -⟩
      · simp [hno] at hown
      · exact h.dialled id t conn ht (hsame ▸ hown)
      · rw [hfr] at hown
        cases hown
        exact h.length
  · cases hq
    have hfra := v.shared.ambient_frame change
    exact ⟨hma, fun e he => h.pooled e (hfra.2 e he), h.dialled⟩

theorem Since.of_sweep {made id : Nat} (hm : made ≤ v.shared.conns.length)
    (hown : t'.phase.owned = none)
    (hd : ∀ t ∈ v.tasks, ∀ conn, t.phase.owned = some conn → made ≤ conn) :
    Since made ⟨v.shared.sweep, v.tasks.set id t'⟩ := by
  refine ⟨?_, fun e he => absurd he not_mem_nil, ?_⟩
  · show made ≤ (v.shared.close _).conns.length
    rw [close, length_edit]
    exact hm
  · intro i u conn hu hc
    rcases getElem?_set_eq_some hu with ⟨-, hold⟩ | ⟨-, rfl⟩
    · exact hd u (mem_of_getElem? hold) conn hc
    · simp [hown] at hc

/-! ### A call that drops the connections of one pool -/

def isLost : ConnectionPool.Phase → Bool
  | .done .returned => false
  | .done _ => true
  | _ => false

def isCleared : ConnectionPool.Phase → Bool
  | .bumping .dropped | .done .returned => true
  | _ => false

theorem advance_done {result : ConnectionPool.Result} (hph : t.phase = .done result)
    (h : p.advance t input = some (q, t')) : False := by
  have hd : t.isDone = true := by
    unfold ConnectionPool.Task.isDone
    rw [hph]
  cases input with
  | go => simp [ConnectionPool.Pool.advance, ConnectionPool.Pool.go, hph] at h
  | cancel => simp [ConnectionPool.Pool.advance, hd] at h
  | expire =>
    rw [ConnectionPool.Pool.advance, hd,
      if_neg (fun hand => Bool.false_ne_true hand.2.symm)] at h
    cases h
  | _ => simp [ConnectionPool.Pool.advance, hph] at h

theorem advance_dropping (h : p.advance t input = some (q, t'))
    (hph : t.phase = .sweeping .dropped ∨ t.phase = .bumping .dropped) :
    isLost t'.phase = true ∨
      (t.phase = .sweeping .dropped ∧ input = .go ∧ q = p.sweep ∧ t'.phase = .bumping .dropped) ∨
      (t.phase = .bumping .dropped ∧ t'.phase = .done .returned) := by
  revert h
  fun_cases ConnectionPool.Pool.advance p t input with
  | case1 =>
    rw [ConnectionPool.Pool.go]
    rcases hph with hph | hph
    · rw [hph]
      rintro ⟨⟩
      exact .inr (.inl ⟨rfl, rfl, rfl, rfl⟩)
    · rw [hph]
      rintro ⟨⟩
      exact .inr (.inr ⟨rfl, rfl⟩)
  | case15 | case16 =>
    rintro ⟨⟩
    exact .inl rfl
  -- The rest is about other phases.
  | case2 _ _ _ h | case3 _ _ _ h | case5 _ h | case7 _ _ _ _ h | case8 _ _ _ _ h | case10 _ _ _ h
  | case12 _ _ _ h => simp [h] at hph
  | _ => rintro ⟨⟩

/-! ### A call that drops the connections of the group -/

def madeIn (s : Group) (pool : PoolId) : Nat :=
  (s.pools.lookup pool).elim 0 fun v => v.shared.conns.length

/-- When the call clears a pool, none of the dials of that pool has a connection from before the
    call, which began in `w` as its next job. -/
def noOlderDial (w v : World) : Event → Bool
  | .ambient (pool, .advance id .go) =>
    match v.tasks[w.tasks.length]? with
    | some (.each _ _ (some current)) =>
      current ≠ (pool, id) || v.shared.phase pool id ≠ some (.sweeping .dropped) ||
        (v.shared.pools.lookup pool).all fun u => u.tasks.all fun t =>
          t.phase.owned.all fun conn => madeIn w.shared pool ≤ conn
    | _ => true
  | _ => true

section Group

variable {g : EndpointGroup} {made : PoolId → Nat} {id : Nat}

def SinceIn (made : PoolId → Nat) (s : Group) (pool : PoolId) : Prop :=
  ∀ v, s.pools.lookup pool = some v → Since (made pool) v

def Awaited (made : PoolId → Nat) (s : Group) (pool : PoolId) (k : Nat) : Prop :=
  ∃ phase, s.phase pool k = some phase ∧
    (phase = .sweeping .dropped ∨ isLost phase = true ∨
      isCleared phase = true ∧ SinceIn made s pool)

/-- What holds of the job that drops the connections: each pool of its list is still to be called,
    is being waited for, or holds nothing from before. -/
def Progress (g : EndpointGroup) (made : PoolId → Nat) (s : Group) : Job → Prop
  | .finished => True
  | .each call todo current => call = .dropConnections ∧
      (∀ entry ∈ g.uniquePools, entry.2 ∈ todo ∨ (∃ k, current = some (entry.2, k)) ∨
        SinceIn made s entry.2) ∧
      ∀ pool k, current = some (pool, k) → Awaited made s pool k
  | _ => False

structure Dropping (g : EndpointGroup) (made : PoolId → Nat) (id : Nat) (v : World) : Prop where
  length : ∀ pool u, v.shared.pools.lookup pool = some u → made pool ≤ u.shared.conns.length
  job : ∃ job, v.tasks[id]? = some job ∧ Progress g made v.shared job

variable {allowed : PoolId → ConnectionPool.Event → Prop} {pool : PoolId} {s s' : Group} {k : Nat}
  {phase : ConnectionPool.Phase} {job : Job} {call : ConnectionPool.Call}

theorem SinceIn.keeps (h : SinceIn made s pool) (hp : PoolStep allowed s s') :
    SinceIn made s' pool := by
  have hke : ∀ k v, s'.pools.lookup k = some v → k = pool → Since (made pool) v :=
    hp.keeps (fun _ _ _ _ _ _ hinv hs hk => (hinv hk).step hs)
      (fun _ v hv hk => h v (hk ▸ hv))
  exact fun v hv => hke pool v hv rfl

theorem Group.phase_eq_some : s.phase pool k = some phase ↔
      ∃ v t, s.pools.lookup pool = some v ∧ v.tasks[k]? = some t ∧ t.phase = phase := by
  unfold Group.phase
  rw [Option.map_eq_some_iff]
  constructor
  · rintro ⟨t, ht, hph⟩
    rcases Option.bind_eq_some_iff.mp ht with ⟨v, hv, hta⟩
    exact ⟨v, t, hv, hta, hph⟩
  · rintro ⟨v, t, hv, hta, hph⟩
    exact ⟨t, Option.bind_eq_some_iff.mpr ⟨v, hv, hta⟩, hph⟩

theorem task_of_step {v v' : ConnectionPool.World} {e : ConnectionPool.Event}
    {t : ConnectionPool.Task} (h : ConnectionPool.step v e = some v') (ht : v.tasks[k]? = some t) :
    v'.tasks[k]? = some t ∨ ∃ input q t', e = .advance k input ∧
      v.shared.advance t input = some (q, t') ∧ v' = ⟨q, v.tasks.set k t'⟩ := by
  rcases step_cases h with ⟨call, -, rfl⟩ |
    ⟨i, input, u, q, u', rfl, hu, hadv, rfl⟩ | ⟨change, q, -, hq, rfl⟩
  · exact .inl (Best.getElem?_append_singleton.mpr (.inl ht))
  · by_cases hi : i = k
    · subst hi
      rw [hu] at ht
      cases ht
      exact .inr ⟨input, q, u', rfl, hadv, rfl⟩
    · refine .inl ?_
      rw [List.getElem?_set_ne hi]
      exact ht
  · exact .inl ht

theorem result_of_isLost (h : isLost phase = true) : ∃ result, phase = .done result := by
  cases phase with
  | done result => exact ⟨result, rfl⟩
  | _ => cases h

theorem phase_of_isCleared (h : isCleared phase = true) :
    phase = .bumping .dropped ∨ phase = .done .returned := by
  cases phase with
  | bumping after =>
    cases after with
    | dropped => exact .inl rfl
    | _ => cases h
  | done result =>
    cases result with
    | returned => exact .inr rfl
    | _ => cases h
  | _ => cases h

theorem Awaited.keeps (h : Awaited made s pool k) (hpools : PoolStep allowed s s')
    (hlen : ∀ u, s.pools.lookup pool = some u → made pool ≤ u.shared.conns.length)
    (hclear : allowed pool (.advance k .go) → s.phase pool k = some (.sweeping .dropped) →
      ∀ u, s.pools.lookup pool = some u → ∀ t ∈ u.tasks, ∀ conn, t.phase.owned = some conn →
        made pool ≤ conn) : Awaited made s' pool k := by
  rcases h with ⟨phase, hph, hcase⟩
  have hsin : isCleared phase = true ∧ SinceIn made s pool →
      isCleared phase = true ∧ SinceIn made s' pool :=
    fun hclea => ⟨hclea.1, hclea.2.keeps hpools⟩
  rcases Group.phase_eq_some.mp hph with ⟨v, t, hv, ht, rfl⟩
  have hstay : ∀ v', s'.pools.lookup pool = some v' → v'.tasks[k]? = some t →
      Awaited made s' pool k := fun v' hv' ht' =>
    ⟨t.phase, Group.phase_eq_some.mpr ⟨v', t, hv', ht', rfl⟩,
      hcase.imp_right fun hrest => hrest.imp_right hsin⟩
  rcases hpools with hsame | ⟨moved, e, u, u', hall, hu, hstep, hset⟩
  · exact hstay v (hsame ▸ hv) ht
  by_cases hpool : pool = moved
  case neg =>
    refine hstay v ?_ ht
    rw [hset, lookup_set, if_neg hpool]
    exact hv
  subst hpool
  rw [hv] at hu
  cases hu
  have hu' : s'.pools.lookup pool = some u' := by
    rw [hset, lookup_set, if_pos rfl]
  rcases task_of_step hstep ht with hstil | ⟨input, q, t', rfl, hadv, rfl⟩
  · exact hstay u' hu' hstil
  -- The call itself has moved.
  have hlt : k < v.tasks.length := (List.getElem?_eq_some_iff.mp ht).1
  have hph' : s'.phase pool k = some t'.phase :=
    Group.phase_eq_some.mpr ⟨_, t', hu', List.getElem?_set_self hlt, rfl⟩
  refine ⟨t'.phase, hph', ?_⟩
  rcases hcase with hswee | hlost | ⟨hclea, hheld⟩
  · rcases advance_dropping hadv (.inl hswee) with hlost |
      ⟨-, rfl, rfl, hbum⟩ | ⟨hbum, -⟩
    · exact .inr (.inl hlost)
    · refine .inr (.inr ⟨by rw [hbum]; rfl, ?_⟩)
      intro w hw
      rw [hu'] at hw
      cases hw
      refine Since.of_sweep (hlen v hv) (by rw [hbum]; rfl) ?_
      exact hclear hall (by rw [hph, hswee]) v hv
    · simp [hswee] at hbum
  · rcases result_of_isLost hlost with ⟨result, hdone⟩
    exact (advance_done hdone hadv).elim
  · rcases phase_of_isCleared hclea with hbum | hdone
    · rcases advance_dropping hadv (.inr hbum) with hlost | ⟨hswee, -⟩ |
        ⟨-, hret⟩
      · exact .inr (.inl hlost)
      · simp [hbum] at hswee
      · refine .inr (.inr ⟨by rw [hret]; rfl, ?_⟩)
        exact SinceIn.keeps hheld (.inr ⟨pool, _, v, _, hall, hv, hstep, hset⟩)
    · exact (advance_done hdone hadv).elim

theorem Progress.keeps (h : Progress g made s job) (hpo : PoolStep allowed s s')
    (hlen : ∀ pool u, s.pools.lookup pool = some u → made pool ≤ u.shared.conns.length)
    (hcl : ∀ call todo pool k, job = .each call todo (some (pool, k)) →
      allowed pool (.advance k .go) → s.phase pool k = some (.sweeping .dropped) →
      ∀ u, s.pools.lookup pool = some u → ∀ t ∈ u.tasks, ∀ conn, t.phase.owned = some conn →
        made pool ≤ conn) : Progress g made s' job := by
  cases job with
  | each call todo current =>
    refine ⟨h.1, ?_, ?_⟩
    · intro entry hentry
      exact (h.2.1 entry hentry).imp_right fun hre => hre.imp_right fun hsin =>
        hsin.keeps hpo
    · intro pool k hcur
      subst hcur
      exact (h.2.2 pool k rfl).keeps hpo (hlen pool) (hcl call todo pool k rfl)
  | finished => trivial
  | _ => exact h.elim

theorem Group.phase_of_call (h : s.call pool call = some (s', k)) :
    s'.phase pool k = some call.start := by
  rcases Group.call_eq_some.mp h with ⟨v, hv, hin, rfl⟩
  rcases Group.inPool_eq_some.mp hin with ⟨u, u', hu, hs, rfl⟩
  rw [hv] at hu
  cases hu
  cases hs
  refine Group.phase_eq_some.mpr ⟨⟨v.shared, v.tasks ++ [.start call]⟩, .start call, ?_,
    List.getElem?_concat_length, rfl⟩
  rw [lookup_set, if_pos rfl]
  rfl

theorem Progress.move {job' : Job} {input : Input} (h : Progress g made s job)
    (hmove : JobMove g s job input s' job') : Progress g made s' job' := by
  have hpool := hmove.poolStep
  cases job with
  | each call todo current =>
    cases hmove with
    | cancel | quit => trivial
    | @next _ pool todo _ k hcall =>
      refine ⟨h.1, ?_, ?_⟩
      · intro entry hentry
        rcases h.2.1 entry hentry with htodo | ⟨k, hnone⟩ | hsin
        · rcases mem_cons.mp htodo with hfst | hlat
          · exact .inr (.inl ⟨k, by rw [hfst]⟩)
          · exact .inl hlat
        · cases hnone
        · exact .inr (.inr (hsin.keeps hpool))
      · intro pool' k' hcur
        cases hcur
        refine ⟨call.start, Group.phase_of_call hcall, .inl ?_⟩
        rw [h.1]
        rfl
    | @back _ _ pool k hph =>
      refine ⟨h.1, ?_, nofun⟩
      intro entry hentry
      rcases h.2.1 entry hentry with htodo | ⟨k', hcur⟩ | hsin
      · exact .inl htodo
      · -- The call on this pool has returned, so it has cleared it.
        cases hcur
        rcases h.2.2 _ _ rfl with ⟨phase, hther, hcase⟩
        rw [hph] at hther
        cases hther
        rcases hcase with hswee | hlost | ⟨-, hsin⟩
        · cases hswee
        · cases hlost
        · exact .inr (.inr hsin)
      · exact .inr (.inr hsin)
    | accept hjob | retry hjob => rcases hjob with hjob | hjob <;> cases hjob
  | finished =>
    cases hmove with
    | cancel | quit => trivial
    | accept hjob | retry hjob => rcases hjob with hjob | hjob <;> cases hjob
  | _ => exact h.elim

theorem Job.not_makes_advance {input : ConnectionPool.Input} (h : job.makes (.advance k input)) :
    False := by
  cases job with
  | each call todo current => cases h
  | _ =>
    rcases h with h | ⟨_, h⟩ | h | ⟨_, h⟩ | ⟨_, h⟩ <;> cases h

theorem Dropping.step {v v' : World} {e : Event} (h : Dropping g made id v)
    (hcl : ∀ call todo pool k, v.tasks[id]? = some (.each call todo (some (pool, k))) →
      e = .ambient (pool, .advance k .go) → v.shared.phase pool k = some (.sweeping .dropped) →
      ∀ u, v.shared.pools.lookup pool = some u → ∀ t ∈ u.tasks, ∀ conn,
        t.phase.owned = some conn → made pool ≤ conn)
    (hste : LiveGroup.step g v e = some v') : Dropping g made id v' := by
  have hpo := poolStep_of_step hste
  refine ⟨hpo.keeps
    (fun _ _ _ _ _ _ hlen hmove => le_trans hlen (made_le_step hmove)) h.length, ?_⟩
  rcases h.job with ⟨job, hjob, hpr⟩
  -- The job itself moves, or it stays and something happens to the pools.
  have hst : v'.tasks[id]? = some job → ∃ job, v'.tasks[id]? = some job ∧
      Progress g made v'.shared job := by
    intro hsame
    refine ⟨job, hsame, hpr.keeps hpo h.length ?_⟩
    intro call todo pool k heq hall
    rcases hall with hev | ⟨other, input, mover, -, -, hmak⟩
    · exact hcl call todo pool k (heq ▸ hjob) hev
    · exact (Job.not_makes_advance hmak).elim
  rcases step_cases hste with ⟨call, -, rfl⟩ |
    ⟨other, input, mover, s, mover', rfl, hmov, hadv, rfl⟩ | ⟨change, s, rfl, hs, rfl⟩
  · exact hst (Best.getElem?_append_singleton.mpr (.inl hjob))
  · by_cases hoth : other = id
    · subst hoth
      rw [hjob] at hmov
      cases hmov
      have hlt : other < v.tasks.length := (List.getElem?_eq_some_iff.mp hjob).1
      exact ⟨mover', List.getElem?_set_self hlt, hpr.move (jobMove_of_advance hadv)⟩
    · refine hst ?_
      rw [List.getElem?_set_ne hoth]
      exact hjob
  · exact hst hjob

open Machine

theorem pools_of_run {ownsEndpoint : Bool} {es : List Event} {w : World}
    (hrun : Machine.run (LiveGroup.step g) ⟨.new g ownsEndpoint, []⟩ es = some w) :
    ∀ pool v, w.shared.pools.lookup pool = some v →
      ConnectionPool.Safe v ∧ (g.backends.lookup pool).isSome = true := by
  refine invariant (fun w : World => ∀ pool v, w.shared.pools.lookup pool = some v →
    ConnectionPool.Safe v ∧ (g.backends.lookup pool).isSome = true) ?_ ?_ hrun
  · intro w e w' hinv hs
    exact (poolStep_of_step hs).keeps
      (fun _ _ _ _ _ _ h hmove => ⟨h.1.step hmove, h.2⟩) hinv
  · intro pool v hv
    rcases Group.lookup_new hv with ⟨rfl, hk⟩
    exact ⟨.start ownsEndpoint, hk⟩

theorem noOlderDial_spec {w v : World} {e : Event} (h : noOlderDial w v e = true)
    {todo : List PoolId} (hjob : v.tasks[w.tasks.length]? = some (.each call todo (some (pool, k))))
    (he : e = .ambient (pool, .advance k .go))
    (hph : v.shared.phase pool k = some (.sweeping .dropped)) :
    ∀ u, v.shared.pools.lookup pool = some u → ∀ t ∈ u.tasks, ∀ conn,
      t.phase.owned = some conn → madeIn w.shared pool ≤ conn := by
  intro u hu t ht conn hown
  subst he
  simp only [noOlderDial, hjob, hph, hu, ne_eq, not_true_eq_false, decide_false, Bool.false_or,
    Option.all_some, all_eq_true] at h
  have hta := h t ht
  rw [hown, Option.all_some] at hta
  exact of_decide_eq_true hta

def HasReturned (w v : World) : Prop :=
  v.tasks[w.tasks.length]? = some (.each .dropConnections [] none)

instance (w v : World) : Decidable (HasReturned w v) :=
  inferInstanceAs (Decidable (_ = _))

/-- Where no two pools reach one backend, and no pool that is cleared has a dial with a connection
    from before the call: once a call of `drop_connections` that began in `w` has returned, no
    pool of the group holds a connection whose handshake was over before the call, and none is
    handed out open. -/
theorem network_change_lets_go {ε : Type} {toEndpointAddr : DomainMapping → Except ε BackendId}
    {mappings : List DomainMapping} {byDefault : Option BackendId} {ownsEndpoint : Bool}
    {es fs later : List Event} {w w' v u : World}
    (hbuilt : build toEndpointAddr mappings byDefault = .ok g) (hone : g.OnePoolEach)
    (hrun : Machine.run (LiveGroup.step g) ⟨.new g ownsEndpoint, []⟩ es = some w)
    (hcall : LiveGroup.step g w (.start .dropConnections) = some w')
    (hmeanwhile : Machine.run (LiveGroup.step g) w' fs = some v)
    (hclear : Machine.Along (LiveGroup.step g) (fun v e => noOlderDial w v e = true) w' fs)
    (hreturned : HasReturned w v) (hlater : Machine.run (LiveGroup.step g) v later = some u) :
    ∀ pool before p, w.shared.pools.lookup pool = some before →
      u.shared.pools.lookup pool = some p →
        (∀ e ∈ p.shared.connections, before.shared.conns.length ≤ e.conn) ∧
          ∀ event p' conn, ConnectionPool.step p event = some p' →
            ConnectionPool.Hands p event conn → before.shared.conns.length ≤ conn := by
  cases hcall
  -- While the call is under way.
  have hst : Dropping g (madeIn w.shared) w.tasks.length
      ⟨w.shared, w.tasks ++ [Call.start g .dropConnections]⟩ := by
    refine ⟨?_, Call.start g .dropConnections, List.getElem?_concat_length, rfl, ?_, nofun⟩
    · intro pool v hv
      rw [madeIn, hv]
      exact le_refl _
    · intro entry hentry
      exact .inl (mem_map_of_mem hentry)
  have hdrop : Dropping g (madeIn w.shared) w.tasks.length v :=
    invariant_along (Dropping g (madeIn w.shared) w.tasks.length)
      (fun _ _ _ h hok => h.step fun _ _ _ _ => noOlderDial_spec hok) hst hclear hmeanwhile
  have hwh : run (LiveGroup.step g) ⟨.new g ownsEndpoint, []⟩
      (es ++ .start .dropConnections :: fs) = some v := by
    rw [run_append, hrun]
    exact hmeanwhile
  -- Once it has returned, every pool holds nothing from before, and so it stays.
  have hsin : ∀ pool v', v.shared.pools.lookup pool = some v' →
      Since (madeIn w.shared pool) v' ∧ ConnectionPool.Safe v' := by
    intro pool v' hv'
    rcases hdrop.job with ⟨job, hjob, hprog⟩
    rw [hreturned] at hjob
    cases hjob
    rcases pools_of_run hwh pool v' hv' with ⟨hsafe, hknow⟩
    rcases Option.isSome_iff_exists.mp hknow with ⟨backend, hbac⟩
    have hlist := EndpointGroup.mem_uniquePools hone (mem_allPools_of_build hbuilt hbac)
      hbac
    rcases hprog.2.1 _ hlist with hnil | ⟨k, hnone⟩ | hsin
    · cases hnil
    · cases hnone
    · exact ⟨hsin v' hv', hsafe⟩
  have hstil : ∀ pool v', u.shared.pools.lookup pool = some v' →
      Since (madeIn w.shared pool) v' ∧ ConnectionPool.Safe v' := by
    refine invariant (fun u : World => ∀ pool v', u.shared.pools.lookup pool = some v' →
      Since (madeIn w.shared pool) v' ∧ ConnectionPool.Safe v') ?_ hsin hlater
    intro x e x' hinv hstep
    exact (poolStep_of_step hstep).keeps
      (fun _ _ _ _ _ _ h hmove => ⟨h.1.step hmove, h.2.step hmove⟩) hinv
  intro pool before p hbef hp
  have hmade : madeIn w.shared pool = before.shared.conns.length := by
    rw [madeIn, hbef]
    rfl
  have hpool := hstil pool p hp
  rw [hmade] at hpool
  refine ⟨hpool.1.pooled, ?_⟩
  intro event p' conn hstep hhan
  rcases hhan.pooled hpool.2 hstep with ⟨e, he, rfl⟩
  exact (hpool.1.step hstep).pooled e he

end Group

/-! ### Runs -/

def single : EndpointGroup :=
  ⟨[("a".toList, [.keyed "node_id:n"])], [], none, [(.keyed "node_id:n", 1)]⟩

theorem build_single :
    build (ε := Empty) (fun _ => .ok 1) [⟨"a", some "n", none⟩] none = .ok single := rfl

theorem onePoolEach_single : single.OnePoolEach := by
  intro pool other backend hp hoth
  have hmem := mem_of_lookup hp
  have hmem' := mem_of_lookup hoth
  rw [single, mem_singleton] at hmem hmem'
  rw [(Prod.mk.inj hmem).1, (Prod.mk.inj hmem').1]

def reachedIn (g : EndpointGroup) (es : List Event) : World :=
  (Machine.run (step g) ⟨.new g true, []⟩ es).getD ⟨.new g true, []⟩

def movesIn (pool : PoolId) (id : Nat) (inputs : List ConnectionPool.Input) : List Event :=
  inputs.map fun input => .ambient (pool, .advance id input)

def dialsIn (pool : PoolId) (id : Nat) : List Event :=
  .ambient (pool, .start (.getConnection .http)) ::
    movesIn pool id (.look [] [] true :: List.replicate 6 .go)

def dropsIn (pool : PoolId) (id : Nat) : List Event :=
  .advance 0 .go :: movesIn pool id [.go, .go] ++ [.advance 0 .go]

theorem network_change_lets_go_single :
    let pool := PoolId.keyed "node_id:n"
    let es := dialsIn pool 0 ++ movesIn pool 0 (List.replicate 4 .go)
    let fs := dropsIn pool 1
    let later := dialsIn pool 2 ++ movesIn pool 2 (List.replicate 3 .go)
    let w := reachedIn single es
    let u := reachedIn single (es ++ .start .dropConnections :: fs ++ later)
    ∃ before p, w.shared.pools.lookup pool = some before ∧ u.shared.pools.lookup pool = some p ∧
      before.shared.conns.length = 1 ∧ p.shared.connections = [⟨1, .http, 0⟩] ∧
      ∀ e ∈ p.shared.connections, before.shared.conns.length ≤ e.conn := by
  intro pool es fs later w u
  let w' := reachedIn single (es ++ [.start .dropConnections])
  let v := reachedIn single (es ++ .start .dropConnections :: fs)
  have hrun : Machine.run (step single) ⟨.new single true, []⟩ es = some w := by decide +kernel
  have hcall : step single w (.start .dropConnections) = some w' := by decide +kernel
  have hme : Machine.run (step single) w' fs = some v := by decide +kernel
  have hcl : Machine.Along (step single) (fun v e => noOlderDial w v e = true) w' fs := by
    decide +kernel
  have hlat : Machine.run (step single) v later = some u := by decide +kernel
  have hlen : (w.shared.pools.lookup pool).map (fun v => v.shared.conns.length) = some 1 := by
    decide +kernel
  have hpo : (u.shared.pools.lookup pool).map (fun v => v.shared.connections) =
      some [⟨1, .http, 0⟩] := by decide +kernel
  rcases Option.map_eq_some_iff.mp hlen with ⟨before, hbef, hone⟩
  rcases Option.map_eq_some_iff.mp hpo with ⟨p, hp, hhe⟩
  have hgo := network_change_lets_go build_single onePoolEach_single hrun hcall hme
    hcl (by decide +kernel) hlat
  exact ⟨before, p, hbef, hp, hone, hhe, (hgo pool before p hbef hp).1⟩

/-- A dial whose handshake is over when the call begins pools its connection when the call has
    returned, and hands it out, still open. -/
theorem dial_survives_network_change :
    let pool := PoolId.keyed "node_id:n"
    let w := reachedIn single (dialsIn pool 0)
    let w' := reachedIn single (dialsIn pool 0 ++ [.start .dropConnections])
    let v := reachedIn single (dialsIn pool 0 ++ .start .dropConnections :: dropsIn pool 1)
    let u := reachedIn single (dialsIn pool 0 ++ .start .dropConnections :: dropsIn pool 1 ++
      movesIn pool 0 (List.replicate 3 .go))
    Machine.run (step single) ⟨.new single true, []⟩ (dialsIn pool 0) = some w ∧
      step single w (.start .dropConnections) = some w' ∧
      Machine.run (step single) w' (dropsIn pool 1) = some v ∧ HasReturned w v ∧
      Machine.run (step single) v (movesIn pool 0 (List.replicate 3 .go)) = some u ∧
      ∃ before p, w.shared.pools.lookup pool = some before ∧
        u.shared.pools.lookup pool = some p ∧ before.shared.conns.length = 1 ∧
        p.shared.connections = [⟨0, .http, 0⟩] ∧ ConnectionPool.Hands p (.advance 0 .go) 0 := by
  intro pool w w' v u
  have hlen : (w.shared.pools.lookup pool).map (fun v => v.shared.conns.length) = some 1 := by
    decide +kernel
  rcases Option.map_eq_some_iff.mp hlen with ⟨before, hbef, hone⟩
  have hwor : (u.shared.pools.lookup pool).map (fun p => (p.shared.connections, p.tasks[0]?,
      p.shared.conns)) = some ([⟨0, .http, 0⟩],
        some ⟨.getConnection .http, .settling 0, some 0⟩, [⟨false, 0, false, some none⟩]) := by
    decide +kernel
  rcases Option.map_eq_some_iff.mp hwor with ⟨p, hp, heq⟩
  rw [Prod.mk.injEq, Prod.mk.injEq] at heq
  refine ⟨by decide +kernel, by decide +kernel, by decide +kernel, by decide +kernel,
    by decide +kernel, before, p, hbef, hp, hone, heq.1, ?_⟩
  refine ⟨0, .go, _, p.shared.borrow 0, ⟨.getConnection .http, .done (.handed 0), some 0⟩, rfl,
    heq.2.1, ?_, rfl, ?_⟩
  · simp only [ConnectionPool.Pool.advance, ConnectionPool.Pool.go,
      ConnectionPool.Pool.hasRoom, heq.2.2]
    rfl
  · simp only [ConnectionPool.Pool.isOpen, ConnectionPool.Pool.borrow, ConnectionPool.Pool.edit,
      heq.2.2]
    rfl

end Nexapipe.LiveGroup
