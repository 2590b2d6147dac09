import Nexapipe.Client.Enrollment
import Nexapipe.Client.NetworkChange

/-!
# Whether a token is presented once

A token is configured for a backend, and every pool that reaches the backend is given it. In one
pool a dial that finds it there presents it, whether or not another dial is at it already, and a
dial that is dropped after the server has accepted leaves it there. So it may be presented again.
-/

namespace Nexapipe.LiveGroup

open Option

open Client ConnectionPool

def setEnrollmentFor (g : EndpointGroup) (node : BackendId) (enrollment : Option Enrollment) :
    List Event :=
  (poolsOf g (some node)).map fun pool => .ambient (pool, .ambient (.setEnrollment enrollment))

def configure (g : EndpointGroup) (tokens : List (BackendId × Enrollment)) : List Event :=
  tokens.flatMap fun entry => setEnrollmentFor g entry.1 (some entry.2)

def carefully (w : World) : Event → Bool
  | .start (.setTwoFactor _ _) => false
  | .ambient (pool, event) => (w.shared.pools.lookup pool).all fun v => careful v event
  | _ => true

section Group

variable {g : EndpointGroup} {tokens : List (BackendId × Enrollment)} {ownsEndpoint : Bool}

def Configured (g : EndpointGroup) (tokens : List (BackendId × Enrollment)) (w : World) : Prop :=
  w.tasks = [] ∧ ∀ pool v, w.shared.pools.lookup pool = some v → v.tasks = [] ∧
    ∀ enrollment, v.shared.enrollment = some enrollment →
      ∃ node, (node, enrollment) ∈ tokens ∧ g.backends.lookup pool = some node

variable {e : Event} {w : World} {v : ConnectionPool.World}
  {configured : PoolId → Option Enrollment}

theorem mem_configure (h : e ∈ configure g tokens) :
    ∃ node enrollment pool, (node, enrollment) ∈ tokens ∧ g.backends.lookup pool = some node ∧
      e = .ambient (pool, .ambient (.setEnrollment (some enrollment))) := by
  rcases List.mem_flatMap.mp h with ⟨⟨node, enrollment⟩, hentry, he⟩
  rcases List.mem_map.mp he with ⟨pool, hp, rfl⟩
  have hn := (List.mem_filter.mp hp).2
  exact ⟨node, enrollment, pool, hentry, of_decide_eq_true hn, rfl⟩

theorem configured_of_run
    (hrun : Machine.run (step g) ⟨.new g ownsEndpoint, []⟩ (configure g tokens) = some w) :
    Configured g tokens w := by
  have hal : Machine.Along (step g) (fun _ e => e ∈ configure g tokens ∧ True)
      ⟨.new g ownsEndpoint, []⟩ (configure g tokens) :=
    Machine.Along.and_forall (fun _ he => he) (Machine.along_true _ _)
  refine Machine.invariant_along (Configured g tokens) ?_ ?_ hal hrun
  · intro w e w' hinv hev hst
    rcases mem_configure hev.1 with ⟨node, enrollment, pool, hentry, hno, rfl⟩
    rcases map_eq_some_iff.mp hst with ⟨s, hin, rfl⟩
    rcases Group.inPool_eq_some.mp hin with ⟨v, v', hv, hmove, rfl⟩
    cases hmove
    refine ⟨hinv.1, ?_⟩
    intro other u hu
    rcases Entries.of_lookup_set hu with ⟨rfl, rfl⟩ | hu
    · refine ⟨(hinv.2 other v hv).1, ?_⟩
      intro held hhe
      cases hhe
      exact ⟨node, hentry, hno⟩
    · exact hinv.2 other u hu
  · refine ⟨rfl, ?_⟩
    intro pool v hv
    rcases Group.lookup_new hv with ⟨rfl, -⟩
    exact ⟨rfl, nofun⟩

def Job.quiet : Job → Bool
  | .each (.setCredential _) _ _ => false
  | _ => true

theorem JobMove.quiet {s s' : Group} {job job' : Job} {input : Input}
    (h : JobMove g s job input s' job') (hq : job.quiet = true) : job'.quiet = true := by
  cases h with
  | @next call _ _ _ _ _ | @back call _ _ _ _ => cases call <;> first | rfl | cases hq
  | _ => rfl

theorem careful_of_makes {job : Job} {e : ConnectionPool.Event} (hq : job.quiet = true)
    (h : job.makes e) : careful v e = true := by
  cases job with
  | each call todo current =>
    cases h
    cases call <;> first | rfl | cases hq
  | _ =>
    rcases h with rfl | ⟨protocol, rfl⟩ | rfl | ⟨conn, rfl⟩ | ⟨conn, rfl⟩ <;> rfl

def tokenOf (w : World) (pool : PoolId) : Option Enrollment :=
  (w.shared.pools.lookup pool).bind fun v => v.shared.enrollment

def Guarded (configured : PoolId → Option Enrollment) (w : World) : Prop :=
  (∀ pool v, w.shared.pools.lookup pool = some v → Tokens (configured pool) v) ∧
    ∀ (id : Nat) job, w.tasks[id]? = some job → job.quiet = true

theorem careful_of_allowed (h : Guarded configured w) (hcar : carefully w e = true)
    {pool : PoolId} {event : ConnectionPool.Event} (hv : w.shared.pools.lookup pool = some v)
    (hall : e = .ambient (pool, event) ∨ ∃ id input job, e = .advance id input ∧
      w.tasks[id]? = some job ∧ job.makes event) : careful v event = true := by
  rcases hall with rfl | ⟨id, input, job, rfl, hjob, hmak⟩
  · simp only [carefully, hv, all_some] at hcar
    exact hcar
  · exact careful_of_makes (h.2 id job hjob) hmak

theorem Guarded.step {w' : World} (h : Guarded configured w) (hcar : carefully w e = true)
    (hst : LiveGroup.step g w e = some w') : Guarded configured w' := by
  refine ⟨?_, ?_⟩
  · refine (poolStep_of_step hst).keeps ?_ h.1
    intro pool event v v' hall hv htok hmove
    exact htok.step (careful_of_allowed h hcar hv hall) hmove
  · intro id job hjob
    rcases Interleave.step_cases hst with ⟨call, rfl, rfl⟩ |
      ⟨k, input, mover, s, mover', rfl, hmov, hadv, rfl⟩ | ⟨change, s, rfl, hs, rfl⟩
    · rcases Best.getElem?_append_singleton.mp hjob with hold | ⟨-, rfl⟩
      · exact h.2 id job hold
      · cases call <;> first | rfl | cases hcar
    · rcases Interleave.getElem?_set_eq_some hjob with ⟨-, hold⟩ | ⟨-, rfl⟩
      · exact h.2 id job hold
      · exact (jobMove_of_advance hadv).quiet (h.2 k mover hmov)
    · exact h.2 id job hjob

theorem Configured.guarded (h : Configured g tokens w) : Guarded (tokenOf w) w := by
  refine ⟨?_, ?_⟩
  · intro pool v hv
    have hnil : ∀ (id : Nat) t, v.tasks[id]? = some t → False := by
      intro id t ht
      rw [(h.2 pool v hv).1] at ht
      cases ht
    refine ⟨?_, fun id t _ ht => (hnil id t ht).elim, fun i j t _ ht => (hnil i t ht).elim,
      fun id t ht => (hnil id t ht).elim, fun id t ht => (hnil id t ht).elim,
      fun id t ht => (hnil id t ht).elim⟩
    intro enrollment henr
    rw [tokenOf, hv]
    exact henr
  · intro id job hjob
    rw [h.1] at hjob
    cases hjob

def SpentIn (issued : TwoFactorAuth) (pool : PoolId) (w : World) : Prop :=
  ∀ v, w.shared.pools.lookup pool = some v → Spent issued v

theorem SpentIn.step {issued : TwoFactorAuth} {pool : PoolId} {w' : World}
    (hs : SpentIn issued pool w) (h : Guarded configured w) (hcar : carefully w e = true)
    (hst : LiveGroup.step g w e = some w') : SpentIn issued pool w' := by
  have hk : ∀ other v, w'.shared.pools.lookup other = some v → other = pool →
      Spent issued v := by
    refine (poolStep_of_step hst).keeps ?_ (fun other v hv hoth => hs v (hoth ▸ hv))
    intro other event v v' hall hv hinv hmove hoth
    exact (hinv hoth).step (h.1 other v hv) (careful_of_allowed h hcar hv hall) hmove
  exact fun v hv => hk pool v hv rfl

/-- Where no two pools reach one backend, no two backends are given one token, and every step is
    careful: once the server has accepted a token, no dial of the group is about to present it,
    and every dial to that backend that is about to read the credential authenticates with the
    issued one. -/
theorem spent_token_not_presented {es fs : List Event} {w₀ w w' v : World} {pool : PoolId}
    {id : Nat} {conn : ConnId} {enrollment : Enrollment} {issued : TwoFactorAuth}
    (hone : g.OnePoolEach)
    (hdistinct : ∀ one ∈ tokens, ∀ two ∈ tokens, one.2.token = two.2.token → one.1 = two.1)
    (hconfigured : Machine.run (step g) ⟨.new g ownsEndpoint, []⟩ (configure g tokens) = some w₀)
    (hrun : Machine.run (step g) w₀ es = some w)
    (hcareful : Machine.Along (step g) (fun w e => carefully w e = true) w₀ es)
    (hphase : w.shared.phase pool id = some (.presented conn enrollment none))
    (hanswer : issued.clientId = enrollment.clientId)
    (haccepted : step g w (.ambient (pool, .advance id (.issue issued))) = some w')
    (hlater : Machine.run (step g) w' fs = some v)
    (hcareful' : Machine.Along (step g) (fun w e => carefully w e = true) w' fs) :
    (∀ other k conn' enrollment', v.shared.phase other k = some (.presenting conn' enrollment') →
      enrollment'.token ≠ enrollment.token) ∧
    ∀ other p (k : Nat) t conn', g.backends.lookup other = g.backends.lookup pool →
      v.shared.pools.lookup other = some p → p.tasks[k]? = some t → t.phase = .reading conn' →
        ∃ t', p.shared.go t = some (p.shared, t') ∧
          t'.phase = .authenticating conn' issued p.shared.credentialGeneration := by
  have hconf := configured_of_run hconfigured
  have hguar : Guarded (tokenOf w₀) w :=
    Machine.invariant_along (Guarded (tokenOf w₀)) (fun _ _ _ h hok => h.step hok) hconf.guarded
      hcareful hrun
  rcases Group.phase_eq_some.mp hphase with ⟨u, t, hu, ht, htph⟩
  -- The server accepts: the pool has the exchange, and so it stays.
  have hiss : carefully w (.ambient (pool, .advance id (.issue issued))) = true := by
    simp only [carefully, hu, all_some, careful, ht, map_some, htph]
    exact decide_eq_true hanswer
  have hspen : SpentIn issued pool w' := by
    rcases map_eq_some_iff.mp haccepted with ⟨s, hin, rfl⟩
    rcases Group.inPool_eq_some.mp hin with ⟨x, x', hx, hmove, rfl⟩
    rw [hu] at hx
    cases hx
    intro y hy
    rw [Entries.lookup_set, if_pos rfl] at hy
    cases hy
    exact (hguar.1 pool u hu).spent_of_issue ht htph hmove
  have hlast : Guarded (tokenOf w₀) v ∧ SpentIn issued pool v :=
    Machine.invariant_along (fun v => Guarded (tokenOf w₀) v ∧ SpentIn issued pool v)
      (fun _ _ _ h hok hstep => ⟨h.1.step hok hstep, h.2.step h.1 hok hstep⟩)
      ⟨hguar.step hiss haccepted, hspen⟩ hcareful' hlater
  -- Whose token a pool has.
  have hmine : ∀ other held, tokenOf w₀ other = some held →
      ∃ node, (node, held) ∈ tokens ∧ g.backends.lookup other = some node := by
    intro other held hheld
    rcases bind_eq_some_iff.mp hheld with ⟨x, hx, henr⟩
    exact (hconf.2 other x hx).2 held henr
  have hgiv : tokenOf w₀ pool = some enrollment :=
    (hguar.1 pool u hu).carried id t enrollment ht (by rw [htph]; rfl)
  rcases hmine pool enrollment hgiv with ⟨node, hnode, hbac⟩
  refine ⟨?_, ?_⟩
  · intro other k conn' enrollment' hpres hsame
    rcases Group.phase_eq_some.mp hpres with ⟨x, t', hx, ht', htph'⟩
    have hcar : tokenOf w₀ other = some enrollment' :=
      (hlast.1.1 other x hx).carried k t' enrollment' ht' (by rw [htph']; rfl)
    rcases hmine other enrollment' hcar with ⟨node', hnode', hbac'⟩
    have hnod : node' = node := hdistinct _ hnode' _ hnode hsame
    subst hnod
    have hoth := hone other pool node' hbac' hbac
    subst hoth
    exact ((hlast.2 x hx).quiet (hlast.1.1 other x hx) ht').1 conn' enrollment' htph'
  · intro other p k t' conn' hsame hp ht' hread
    have hoth := hone other pool node (hsame.trans hbac) hbac
    subst hoth
    have htwo := ((hlast.2 p hp).quiet (hlast.1.1 other p hp) ht').2 conn' hread
    refine ⟨t'.to (.authenticating conn' issued p.shared.credentialGeneration), ?_, rfl⟩
    unfold Pool.go
    simp only [hread, htwo]

end Group

/-! ### Runs -/

def invite : Enrollment :=
  ⟨"laptop", "one-time", none⟩

def bought : TwoFactorAuth :=
  ⟨"laptop", none, "s"⟩

def enrolledIn (es : List Event) : World :=
  reachedIn single (configure single [(1, invite)] ++ es)

def presentsIn (id : Nat) (call : ConnectionPool.Call) : List Event :=
  .ambient (.keyed "node_id:n", .start call) :: movesIn (.keyed "node_id:n") id
    ((if call = .preconnect then [.look [] [] true] else [.look [] [] true, .go]) ++
      [.go, .go, .go])

def issuesIn (id : Nat) : Event :=
  .ambient (.keyed "node_id:n", .advance id (.issue bought))

theorem spent_token_not_presented_single :
    let pool := PoolId.keyed "node_id:n"
    let es := presentsIn 0 (.getConnection .http) ++ movesIn pool 0 [.go]
    let fs := movesIn pool 0 (List.replicate 6 .go) ++ presentsIn 1 (.getConnection .l4)
    let v := enrolledIn (es ++ issuesIn 0 :: fs)
    (v.shared.phase pool 1 = some (.reading 1)) ∧
      (∀ other k conn enrollment, v.shared.phase other k = some (.presenting conn enrollment) →
        enrollment.token ≠ invite.token) ∧
      ∃ p t t', v.shared.pools.lookup pool = some p ∧ p.tasks[1]? = some t ∧
        p.shared.go t = some (p.shared, t') ∧
        t'.phase = .authenticating 1 bought p.shared.credentialGeneration := by
  intro pool es fs v
  let w := enrolledIn es
  let w' := enrolledIn (es ++ [issuesIn 0])
  have hcon : Machine.run (step single) ⟨.new single true, []⟩
      (configure single [(1, invite)]) = some (enrolledIn []) := by decide +kernel
  have hrun : Machine.run (step single) (enrolledIn []) es = some w := by decide +kernel
  have hcar : Machine.Along (step single) (fun w e => carefully w e = true) (enrolledIn [])
      es := by decide +kernel
  have hph : w.shared.phase pool 0 = some (.presented 0 invite none) := by decide +kernel
  have hacc : step single w (issuesIn 0) = some w' := by decide +kernel
  have hlat : Machine.run (step single) w' fs = some v := by decide +kernel
  have hcar' : Machine.Along (step single) (fun w e => carefully w e = true) w' fs := by
    decide +kernel
  have hread : v.shared.phase pool 1 = some (.reading 1) := by decide +kernel
  have hsp := spent_token_not_presented onePoolEach_single
    (fun one hone two htwo _ => by
      rw [List.mem_singleton.mp hone, List.mem_singleton.mp htwo])
    hcon hrun hcar hph rfl hacc hlat hcar'
  rcases Group.phase_eq_some.mp hread with ⟨p, t, hp, ht, htph⟩
  rcases hsp.2 pool p 1 t 1 rfl hp ht htph with ⟨t', hgo, hph'⟩
  exact ⟨hread, hsp.1, p, t, t', hp, ht, hgo, hph'⟩

/-- A connection is warmed up and a flow dials another: the server has accepted the token of the
    one when the other presents it. -/
theorem token_presented_twice :
    let pool := PoolId.keyed "node_id:n"
    let es := presentsIn 0 .preconnect ++ presentsIn 1 (.getConnection .l4) ++ movesIn pool 0 [.go]
    let w := enrolledIn es
    let w' := enrolledIn (es ++ [issuesIn 0])
    Machine.run (step single) ⟨.new single true, []⟩ (configure single [(1, invite)] ++ es) =
        some w ∧
      w.shared.phase pool 0 = some (.presented 0 invite none) ∧
      step single w (issuesIn 0) = some w' ∧
      w'.shared.phase pool 0 = some (.presented 0 invite (some bought)) ∧
      w'.shared.phase pool 1 = some (.presenting 1 invite) ∧
      (step single w' (.ambient (pool, .advance 1 .go))).map (fun v => v.shared.phase pool 1) =
        some (some (.presented 1 invite none)) := by
  intro pool es w w'
  exact ⟨by decide +kernel, by decide +kernel, by decide +kernel, by decide +kernel,
    by decide +kernel, by decide +kernel⟩

end Nexapipe.LiveGroup
