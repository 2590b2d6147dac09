import Nexapipe.Client.LiveGroup

/-!
# What the jobs of a group do

`JobMove` says once what a move of a job can be. Whatever it is, it makes at most one call into one
pool, and the other pools are left alone. So a property of single pools that every event of a pool
keeps is kept by the group, however its jobs and its pools interleave.
-/

namespace Nexapipe.LiveGroup

open Option

open Client

variable {g : EndpointGroup} {s s' : Group}

variable {e : ConnectionPool.Event} {pool : PoolId} {call : ConnectionPool.Call}
  {allowed : PoolId → ConnectionPool.Event → Prop} {backend : BackendId}
  {conn : ConnectionPool.ConnId} {job job' : Job} {r : Request}

theorem Group.inPool_eq_some :
    s.inPool pool e = some s' ↔ ∃ w w', s.pools.lookup pool = some w ∧
      ConnectionPool.step w e = some w' ∧ s' = { s with pools := s.pools.set pool w' } := by
  unfold Group.inPool
  rcases hw : s.pools.lookup pool with _ | w
  · constructor
    · nofun
    · rintro ⟨w, w', h, -⟩
      cases h
  · rw [map_eq_some_iff]
    constructor
    · rintro ⟨w', hs, rfl⟩
      exact ⟨w, w', rfl, hs, rfl⟩
    · rintro ⟨v, w', h, hs, rfl⟩
      cases h
      exact ⟨w', hs, rfl⟩

theorem Group.call_eq_some {id : Nat} :
    s.call pool call = some (s', id) ↔ ∃ w, s.pools.lookup pool = some w ∧
      s.inPool pool (.start call) = some s' ∧ id = w.tasks.length := by
  unfold Group.call
  rcases hw : s.pools.lookup pool with _ | w
  · constructor
    · nofun
    · rintro ⟨w, h, -⟩
      cases h
  · rw [map_eq_some_iff]
    constructor
    · rintro ⟨s'', hin, heq⟩
      cases heq
      exact ⟨w, rfl, hin, rfl⟩
    · rintro ⟨v, h, hin, rfl⟩
      cases h
      exact ⟨s', hin, rfl⟩

def PoolStep (allowed : PoolId → ConnectionPool.Event → Prop) (s s' : Group) : Prop :=
  s'.pools = s.pools ∨ ∃ pool e w w', allowed pool e ∧ s.pools.lookup pool = some w ∧
    ConnectionPool.step w e = some w' ∧ s'.pools = s.pools.set pool w'

theorem PoolStep.of_inPool (h : s.inPool pool e = some s') (he : allowed pool e) :
    PoolStep allowed s s' := by
  rcases Group.inPool_eq_some.mp h with ⟨w, w', hw, hs, rfl⟩
  exact .inr ⟨pool, e, w, w', he, hw, hs, rfl⟩

theorem PoolStep.of_call {r : Group × Nat} (h : s.call pool call = some r)
    (he : allowed pool (.start call)) : PoolStep allowed s r.1 := by
  rcases Group.call_eq_some.mp (show s.call pool call = some (r.1, r.2) from h) with
    ⟨w, -, hin, -⟩
  exact .of_inPool hin he

inductive JobMove (g : EndpointGroup) (s : Group) : Job → Input → Group → Job → Prop where
  | cancel {job : Job} : JobMove g s job .cancel s .finished
  | next {call : ConnectionPool.Call} {pool : PoolId} {todo : List PoolId} {s' : Group} {id : Nat}
      (hcall : s.call pool call = some (s', id)) :
      JobMove g s (.each call (pool :: todo) none) .go s' (.each call todo (some (pool, id)))
  | back {call : ConnectionPool.Call} {todo : List PoolId} {pool : PoolId} {id : Nat}
      (hphase : s.phase pool id = some (.done .returned)) :
      JobMove g s (.each call todo (some (pool, id))) .go s (.each call todo none)
  | stop : JobMove g s .stopping .go { s with probeStopped := true }
      (.each .closeAll g.allPools none)
  | probe : JobMove g s .probe .go s (.probing g.uniquePools [])
  /-- The probe has been stopped, or has nothing left to write. -/
  | quit {job : Job} {input : Input} : JobMove g s job input s .finished
  | spawnProbe {backend : BackendId} {pool : PoolId} {todo : List (BackendId × PoolId)}
      {running : List Member} {s' : Group} {id : Nat}
      (hcall : s.call pool .preconnect = some (s', id)) :
      JobMove g s (.probing ((backend, pool) :: todo) running) .go s'
        (.probing todo (running ++ [⟨backend, pool, id⟩]))
  | probed {running : List Member} {index : Nat} {m : Member} {answered : Bool}
      (hm : running[index]? = some m) (hanswered : s.answered m = some answered) :
      JobMove g s (.probing [] running) (.ended index) (s.record m.backend answered)
        (.probing [] (running.eraseIdx index))
  | spawnCheck {backend : BackendId} {pool : PoolId} {todo : List (BackendId × PoolId)}
      {running : List Member} {report : Report} {s' : Group} {id : Nat}
      (hcall : s.call pool .preconnect = some (s', id)) :
      JobMove g s (.checking ((backend, pool) :: todo) running report) .go s'
        (.checking todo (running ++ [⟨backend, pool, id⟩]) report)
  | checked {running : List Member} {report : Report} {index : Nat} {m : Member} {answered : Bool}
      (hm : running[index]? = some m) (hanswered : s.answered m = some answered) :
      JobMove g s (.checking [] running report) (.ended index) s
        (.checking [] (running.eraseIdx index) (report.add m.backend answered))
  | allChecked {report : Report} :
      JobMove g s (.checking [] [] report) .go s (.reading g.uniquePools report)
  | checkLate {running : List Member} {report : Report} :
      JobMove g s (.checking [] running report) .late s
        (.reading g.uniquePools (report.complete (g.uniquePools.map Prod.fst)))
  | read {backend : BackendId} {pool : PoolId} {todo : List (BackendId × PoolId)}
      {report report' : Report} {s' : Group}
      (hin : s.inPool pool (.ambient .takeAuthRequired) = some s')
      (hreport : report'.reachable = report.reachable ∧
        report'.unreachable = report.unreachable) :
      JobMove g s (.reading ((backend, pool) :: todo) report) .go s' (.reading todo report')
  | allRead {report : Report} :
      JobMove g s (.reading [] report) .go s (.recording report.outcomes)
  | record {backend : BackendId} {answered : Bool} {todo : List (BackendId × Bool)} :
      JobMove g s (.recording ((backend, answered) :: todo)) .go (s.record backend answered)
        (.recording todo)
  | giveUp {r : Request} {input : Input} :
      JobMove g s (.trying r) input s (recordRequestFailures r.tried)
  | ask {r : Request} {index : Nat} {backend : BackendId} {pool : PoolId} {s' : Group} {id : Nat}
      (hbackend : g.backends.lookup pool = some backend)
      (hcall : s.call pool (.getConnection r.protocol) = some (s', id)) :
      JobMove g s (.trying r) (.pick index) s' (.asking r backend pool id)
  | handed {r : Request} {backend : BackendId} {pool : PoolId} {id : Nat}
      {conn : ConnectionPool.ConnId} (hphase : s.phase pool id = some (.done (.handed conn))) :
      JobMove g s (.asking r backend pool id) .go s (.opening r backend pool conn)
  | refused {r : Request} {backend : BackendId} {pool : PoolId} {id : Nat}
      {error : ConnectionPool.ClientError}
      (hphase : s.phase pool id = some (.done (.refused error))) :
      JobMove g s (.asking r backend pool id) .go
        (if isOwn error then s else s.record backend false) (recordRequestFailures r.tried)
  | write {r : Request} {backend : BackendId} {pool : PoolId} {conn : ConnectionPool.ConnId} :
      JobMove g s (.opening r backend pool conn) .go s (.writing r backend pool conn)
  | accept {r : Request} {backend : BackendId} {pool : PoolId} {conn : ConnectionPool.ConnId}
      {job : Job} (hjob : job = .opening r backend pool conn ∨ job = .writing r backend pool conn) :
      JobMove g s job .go s (.accepting backend pool conn)
  | retry {r : Request} {backend : BackendId} {pool : PoolId} {conn : ConnectionPool.ConnId}
      {job : Job} {s' : Group}
      (hjob : job = .opening r backend pool conn ∨ job = .writing r backend pool conn)
      (hin : s.inPool pool (.ambient (.close conn)) = some s') :
      JobMove g s job .failed s'
        (.trying { r with attempts := r.attempts + 1, tried := r.tried ++ [backend] })
  | saturate {backend : BackendId} {pool : PoolId} {conn : ConnectionPool.ConnId} {s' : Group}
      (hin : s.inPool pool (.ambient (.saturate conn)) = some s') :
      JobMove g s (.accepting backend pool conn) (.answer .tooManyFlows) s' .finished
  | unanswered {backend : BackendId} {pool : PoolId} {conn : ConnectionPool.ConnId} {s' : Group}
      (hin : s.inPool pool (.ambient (.close conn)) = some s') :
      JobMove g s (.accepting backend pool conn) .failed s' (recordRequestFailures [backend])

theorem jobMove_of_opened
    (hjob : job = .opening r backend pool conn ∨ job = .writing r backend pool conn) :
    JobMove g s job .go s (opened r backend pool conn) := by
  fun_cases opened r backend pool conn with
  | case1 => exact .accept hjob
  | case2 => exact .quit

theorem jobMove_of_retry
    (hjob : job = .opening r backend pool conn ∨ job = .writing r backend pool conn)
    (h : retry s r backend pool conn = some (s', job')) : JobMove g s job .failed s' job' := by
  rcases map_eq_some_iff.mp h with ⟨t, hin, heq⟩
  cases heq
  exact .retry hjob hin

theorem jobMove_of_attempt {index : Nat} (h : attempt g s r index = some (s', job')) :
    JobMove g s (.trying r) (.pick index) s' job' := by
  revert h
  fun_cases attempt g s r index with
  | case1 | case2 =>
    rintro ⟨⟩
    exact .giveUp
  | case4 _ _ _ _ _ _ _ hcall hbac =>
    rintro ⟨⟩
    exact .ask hbac hcall
  | _ => rintro ⟨⟩

theorem jobMove_of_advance {input : Input} (h : advance g s job input = some (s', job')) :
    JobMove g s job input s' job' := by
  revert h
  fun_cases advance g s job input with
  | case2 =>
    rintro ⟨⟩
    exact .cancel
  | case3 =>
    intro h
    rcases map_eq_some_iff.mp h with ⟨r, hcall, heq⟩
    cases heq
    exact .next hcall
  | case4 _ _ _ _ hph =>
    rintro ⟨⟩
    exact .back hph
  | case6 =>
    rintro ⟨⟩
    exact .stop
  | case8 =>
    rintro ⟨⟩
    exact .probe
  | case9 =>
    intro h
    rcases map_eq_some_iff.mp h with ⟨r, hcall, heq⟩
    cases heq
    exact .spawnProbe hcall
  | case10 =>
    intro h
    rcases bind_eq_some_iff.mp h with ⟨m, hm, hmap⟩
    rcases map_eq_some_iff.mp hmap with ⟨answered, hans, heq⟩
    -- A round that was stopped meanwhile writes nothing more.
    rcases hstop : s.probeStopped with _ | _
    · simp only [hstop, Bool.false_eq_true, if_false] at heq
      cases heq
      exact .probed hm hans
    · simp only [hstop, if_true] at heq
      cases heq
      exact .quit
  | case11 =>
    intro h
    rcases map_eq_some_iff.mp h with ⟨r, hcall, heq⟩
    cases heq
    exact .spawnCheck hcall
  | case12 =>
    intro h
    rcases bind_eq_some_iff.mp h with ⟨m, hm, hmap⟩
    rcases map_eq_some_iff.mp hmap with ⟨answered, hans, heq⟩
    cases heq
    exact .checked hm hans
  | case13 =>
    rintro ⟨⟩
    exact .allChecked
  | case14 =>
    rintro ⟨⟩
    exact .checkLate
  | case15 =>
    intro h
    rcases bind_eq_some_iff.mp h with ⟨w, -, hmap⟩
    rcases map_eq_some_iff.mp hmap with ⟨t, hin, heq⟩
    cases heq
    refine .read hin ?_
    cases w.shared.authRequired <;> exact ⟨rfl, rfl⟩
  | case16 =>
    rintro ⟨⟩
    exact .allRead
  | case17 =>
    rintro ⟨⟩
    exact .record
  | case7 | case18 =>
    rintro ⟨⟩
    exact .quit
  | case19 | case20 =>
    rintro ⟨⟩
    exact .giveUp
  | case23 => exact jobMove_of_attempt
  | case24 _ _ _ _ _ hph =>
    rintro ⟨⟩
    exact .handed hph
  | case25 _ _ _ _ _ hph =>
    rintro ⟨⟩
    exact .refused hph
  | case27 r =>
    rcases hinit : r.initial with _ | _
    · rintro ⟨⟩
      exact jobMove_of_opened (.inl rfl)
    · rintro ⟨⟩
      exact .write
  | case28 => exact jobMove_of_retry (.inl rfl)
  | case29 =>
    rintro ⟨⟩
    exact jobMove_of_opened (.inr rfl)
  | case30 => exact jobMove_of_retry (.inr rfl)
  | case31 =>
    intro h
    rcases map_eq_some_iff.mp h with ⟨t, hin, heq⟩
    cases heq
    exact .saturate hin
  | case32 =>
    rintro ⟨⟩
    exact .quit
  | case33 =>
    intro h
    rcases map_eq_some_iff.mp h with ⟨t, hin, heq⟩
    cases heq
    exact .unanswered hin
  | _ => rintro ⟨⟩

def Job.makes : Job → ConnectionPool.Event → Prop
  | .each call _ _, e => e = .start call
  | _, e => e = .start .preconnect ∨ (∃ protocol, e = .start (.getConnection protocol)) ∨
      e = .ambient .takeAuthRequired ∨ (∃ conn, e = .ambient (.close conn)) ∨
      ∃ conn, e = .ambient (.saturate conn)

theorem JobMove.poolStep {input : Input} (h : JobMove g s job input s' job') :
    PoolStep (fun _ e => job.makes e) s s' := by
  cases h with
  | next hcall => exact .of_call hcall rfl
  | spawnProbe hcall | spawnCheck hcall => exact .of_call hcall (.inl rfl)
  | read hin _ => exact .of_inPool hin (.inr (.inr (.inl rfl)))
  | ask _ hcall => exact .of_call hcall (.inr (.inl ⟨_, rfl⟩))
  | @retry _ _ _ conn _ _ hjob hin =>
    refine .of_inPool hin ?_
    rcases hjob with rfl | rfl
    · exact .inr (.inr (.inr (.inl ⟨conn, rfl⟩)))
    · exact .inr (.inr (.inr (.inl ⟨conn, rfl⟩)))
  | @saturate _ _ conn _ hin =>
    exact .of_inPool hin (.inr (.inr (.inr (.inr ⟨conn, rfl⟩))))
  | @unanswered _ _ conn _ hin =>
    exact .of_inPool hin (.inr (.inr (.inr (.inl ⟨conn, rfl⟩))))
  | @refused _ _ _ _ error _ =>
    cases isOwn error <;> exact .inl rfl
  | _ => exact .inl rfl

theorem poolStep_of_step {w w' : World} {e : Event} (h : step g w e = some w') :
    PoolStep (fun pool event => e = .ambient (pool, event) ∨ ∃ id input job,
      e = .advance id input ∧ w.tasks[id]? = some job ∧ job.makes event) w.shared w'.shared := by
  rcases Interleave.step_cases h with ⟨call, -, rfl⟩ |
    ⟨id, input, job, s, job', rfl, hjob, hadv, rfl⟩ | ⟨⟨pool, event⟩, s, rfl, hs, rfl⟩
  · exact .inl rfl
  · rcases (jobMove_of_advance hadv).poolStep with hsame |
      ⟨pool, event, v, v', hmak, hv, hst, hp⟩
    · exact .inl hsame
    · exact .inr ⟨pool, event, v, v', .inr ⟨id, input, job, rfl, hjob, hmak⟩, hv, hst,
        hp⟩
  · exact .of_inPool hs (.inl rfl)

theorem PoolStep.keeps {inv : PoolId → ConnectionPool.World → Prop} (h : PoolStep allowed s s')
    (hs : ∀ pool e v v', allowed pool e → s.pools.lookup pool = some v → inv pool v →
      ConnectionPool.step v e = some v' → inv pool v')
    (hinv : ∀ pool v, s.pools.lookup pool = some v → inv pool v) :
    ∀ pool v, s'.pools.lookup pool = some v → inv pool v := by
  intro pool v hv
  rcases h with hsame | ⟨moved, e, u, u', he, hu, hmove, hp⟩
  · exact hinv pool v (hsame ▸ hv)
  rw [hp] at hv
  rcases Entries.of_lookup_set hv with ⟨rfl, rfl⟩ | hv
  · exact hs pool e u v he hu (hinv pool u hu) hmove
  · exact hinv pool v hv

theorem Group.lookup_new {ownsEndpoint : Bool} {v : ConnectionPool.World}
    (h : (Group.new g ownsEndpoint).pools.lookup pool = some v) :
    v = ⟨.new ownsEndpoint, []⟩ ∧ (g.backends.lookup pool).isSome = true := by
  have hmap := Entries.lookup_map (fun _ => (⟨.new ownsEndpoint, []⟩ : ConnectionPool.World))
    g.backends pool
  rcases map_eq_some_iff.mp (hmap.symm.trans h) with ⟨backend, hbac, rfl⟩
  rw [hbac]
  exact ⟨rfl, rfl⟩

end Nexapipe.LiveGroup
