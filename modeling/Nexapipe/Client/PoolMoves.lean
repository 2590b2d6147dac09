import Nexapipe.Client.ConnectionPool

/-!
# What the tasks of a pool do to each other

`Move` says once what a move of a task can be. Most moves change nothing the others depend on and
leave the task with nothing to lose, and these are one case of it.

A connection is made by one task, and until it is in the pool that task is the only one that has
it. So nobody else authenticates it, and it enters the pool at most once.
-/

namespace Nexapipe.ConnectionPool

open List Nat

/-! ### Moves -/

def Phase.owned : Phase → Option ConnId
  | .connected conn | .presenting conn _ | .presented conn _ _ | .storing conn _
  | .spending conn _ _ | .keeping conn _ _ | .reading conn | .authenticating conn _ _
  | .warmed conn _ | .observing conn _ | .authenticated conn _ | .pooling conn _
  | .sweeping (.enrolled conn _ _) | .bumping (.enrolled conn _ _) => some conn
  | _ => none

def Phase.filed : Phase → Option (ConnId × Nat)
  | .warmed conn generation | .observing conn generation | .authenticated conn generation
  | .pooling conn generation => some (conn, generation)
  | _ => none

def Phase.idle : Phase → Bool
  | .asking | .choosing | .waiting _ | .dialing | .connecting | .announcing (.error _)
  | .leaving _ (some (.error _)) | .leaving _ none | .closing => true
  | .done (.handed _) => false
  | .done _ => true
  | _ => false

structure Pool.Alike (p q : Pool) : Prop where
  connections : q.connections = p.connections
  conns : q.conns = p.conns
  twoFactor : q.twoFactor = p.twoFactor
  enrollment : q.enrollment = p.enrollment
  credentialGeneration : q.credentialGeneration = p.credentialGeneration
  identities : q.identities = p.identities
  settled : q.settled = p.settled
  channels : ∀ channel conn : Nat, q.channels[channel]? = some (.sent (.ok conn)) →
    p.channels[channel]? = some (.sent (.ok conn))

theorem Pool.Alike.refl (p : Pool) : p.Alike p :=
  ⟨rfl, rfl, rfl, rfl, rfl, rfl, rfl, fun _ _ h => h⟩

inductive Move (p : Pool) (t : Task) : Input → Pool → Task → Prop where
  /-- Nothing of concern to the others. -/
  | idle {input : Input} {q : Pool} {t' : Task} (halike : p.Alike q)
      (hidle : t'.phase.idle = true) (hgive : t.phase.owned = none ∨ input = .cancel ∨
        input = .expire ∨ t.phase.filed.isSome = true) : Move p t input q t'
  /-- The task closes its own connection. -/
  | drop {input : Input} {conn : ConnId} {t' : Task}
      (hphase : (∃ enrollment issued, t.phase = .presented conn enrollment issued ∧
          ((∃ error, input = .fail error) ∨
            ∃ auth, issued = some auth ∧ auth.clientId ≠ enrollment.clientId)) ∨
        (∃ auth generation, t.phase = .authenticating conn auth generation) ∨
        ∃ generation, t.phase = .pooling conn generation)
      (hidle : t'.phase.idle = true) : Move p t input (p.close (· == conn)) t'
  | miss {idle pathless : List ConnId} {seat : Bool} (hphase : t.phase = .asking) :
      Move p t (.look idle pathless seat) (p.dropStale idle pathless) (t.to .choosing)
  | borrow {idle pathless : List ConnId} {seat : Bool} {conn : ConnId}
      (hphase : t.phase = .asking)
      (hpick : (p.dropStale idle pathless).pick t.call.protocol = some conn) :
      Move p t (.look idle pathless seat) ((p.dropStale idle pathless).borrow conn)
        (t.to (.done (.handed conn)))
  | hand {conn : ConnId} (hphase : t.phase = .settling conn) :
      Move p t .go (p.borrow conn) (t.to (.done (.handed conn)))
  | told {channel : Nat} {conn : ConnId} (hphase : t.phase = .waiting channel)
      (hsent : p.channels[channel]? = some (.sent (.ok conn))) :
      Move p t .go p (t.to (.leaving channel (some (.ok conn))))
  | announce {channel : Nat} {conn : ConnId} (hphase : t.phase = .announcing (.ok conn)) :
      Move p t .go { p with channels := p.channels.set channel (.sent (.ok conn)) }
        (t.to (.leaving channel (some (.ok conn))))
  | leave {channel : Nat} {conn : ConnId} (hphase : t.phase = .leaving channel (some (.ok conn))) :
      Move p t .go (p.clearDialSlot t.call.protocol channel) (t.to (.settling conn))
  | connect (hphase : t.phase = .connecting) :
      Move p t .go { p with conns := p.conns ++ [⟨false, 0, false, none⟩] }
        (t.to (.connected p.conns.length))
  | take {conn : ConnId} {enrollment : Enrollment} (hphase : t.phase = .connected conn)
      (htoken : p.enrollment = some enrollment) :
      Move p t .go p (t.to (.presenting conn enrollment))
  | skip {conn : ConnId} (hphase : t.phase = .connected conn) (htoken : p.enrollment = none) :
      Move p t .go p (t.to (.reading conn))
  | present {conn : ConnId} {enrollment : Enrollment}
      (hphase : t.phase = .presenting conn enrollment) :
      Move p t .go p (t.to (.presented conn enrollment none))
  | issue {conn : ConnId} {enrollment : Enrollment} {issued : TwoFactorAuth}
      (hphase : t.phase = .presented conn enrollment none) :
      Move p t (.issue issued) p (t.to (.presented conn enrollment (some issued)))
  | accept {conn : ConnId} {enrollment : Enrollment} {issued : TwoFactorAuth}
      (hphase : t.phase = .presented conn enrollment (some issued)) :
      Move p t .go (p.authenticate conn (some issued.identity)) (t.to (.storing conn issued))
  | storeNew {conn : ConnId} {issued : TwoFactorAuth} (hphase : t.phase = .storing conn issued)
      (hchanged : identityChanged p.twoFactor (some issued) = true) :
      Move p t .go (p.write (some issued)) (t.to (.sweeping
        (.enrolled conn issued (p.write (some issued)).credentialGeneration)))
  | storeSame {conn : ConnId} {issued : TwoFactorAuth} (hphase : t.phase = .storing conn issued)
      (hchanged : identityChanged p.twoFactor (some issued) = false) :
      Move p t .go (p.write (some issued)) (t.to (.spending conn issued
        (p.write (some issued)).credentialGeneration))
  | setNew {auth : Option TwoFactorAuth} (hphase : t.phase = .setting auth)
      (hchanged : identityChanged p.twoFactor auth = true) :
      Move p t .go (p.write auth)
        (t.to (.sweeping (.written (p.write auth).credentialGeneration)))
  | setSame {auth : Option TwoFactorAuth} (hphase : t.phase = .setting auth)
      (hchanged : identityChanged p.twoFactor auth = false) :
      Move p t .go (p.write auth) (t.to (.done .returned))
  | sweep {after : After} (hphase : t.phase = .sweeping after) :
      Move p t .go p.sweep (t.to (.bumping after))
  | bump {after : After} (hphase : t.phase = .bumping after) :
      Move p t .go ({ p with epoch := p.epoch + 1 }.afterDrop t after).1
        ({ p with epoch := p.epoch + 1 }.afterDrop t after).2
  | spend {conn : ConnId} {issued : TwoFactorAuth} {generation : Nat}
      (hphase : t.phase = .spending conn issued generation) :
      Move p t .go { p with enrollment := none } (t.to (.keeping conn issued generation))
  | keep {conn : ConnId} {issued : TwoFactorAuth} {generation : Nat}
      (hphase : t.phase = .keeping conn issued generation) :
      Move p t .go { p with issued := some issued } (t.authenticated conn generation)
  | read {conn : ConnId} {auth : TwoFactorAuth} (hphase : t.phase = .reading conn)
      (hauth : p.twoFactor = some auth) :
      Move p t .go p (t.to (.authenticating conn auth p.credentialGeneration))
  | readNone {conn : ConnId} (hphase : t.phase = .reading conn) (hauth : p.twoFactor = none) :
      Move p t .go (p.authenticate conn none) (t.authenticated conn p.credentialGeneration)
  | prove {conn : ConnId} {auth : TwoFactorAuth} {generation : Nat}
      (hphase : t.phase = .authenticating conn auth generation) :
      Move p t .go (p.authenticate conn (some auth.identity))
        (t.authenticated conn generation)
  /-- The task goes on with the connection it has authenticated. -/
  | carry {conn : ConnId} {generation : Nat} {phase : Phase}
      (hphase : t.phase.filed = some (conn, generation))
      (hfiled : phase.filed = some (conn, generation)) : Move p t .go p (t.to phase)
  | push {conn : ConnId} {generation : Nat} (hphase : t.phase = .pooling conn generation)
      (hgeneration : p.credentialGeneration = generation)
      (hroom : p.mayPool t.call.protocol = true) :
      Move p t .go
        { p with connections := p.connections ++ [⟨conn, t.call.protocol, generation⟩] }
        (t.pooled conn)
  | close (hphase : t.phase = .closing) :
      Move p t .go ({ p with ep := false }.close fun _ => true) (t.to (.done .returned))

theorem Task.idle_fail (t : Task) (error : ClientError) : (t.fail error).phase.idle = true := by
  unfold Task.fail
  cases t.call <;> rfl

theorem Task.filed_authenticated (t : Task) (conn : ConnId) (generation : Nat) :
    (t.authenticated conn generation).phase.filed = some (conn, generation) := by
  unfold Task.authenticated
  cases t.call <;> rfl

section Moves

variable {p q : Pool} {t t' : Task} {input : Input}

theorem Move.of_some {r : Pool × Task} (hmove : Move p t input r.1 r.2)
    (h : some r = some (q, t')) : Move p t input q t' := by
  rw [Option.some.inj h] at hmove
  exact hmove

theorem Move.rest {phase : Phase} (hph : t.phase = phase) (hown : phase.owned = none)
    (hidle : t'.phase.idle = true) : Move p t input p t' :=
  .idle (.refl p) hidle (.inl (hph ▸ hown))

theorem Pool.alike_clearDialSlot (p : Pool) (protocol : Protocol) (channel : Nat) :
    p.Alike (p.clearDialSlot protocol channel) := by
  fun_cases p.clearDialSlot protocol channel with
  | case1 h => exact ⟨rfl, rfl, rfl, rfl, rfl, rfl, rfl, fun _ _ h => h⟩
  | case2 => exact .refl p

theorem Pool.alike_sent_error (p : Pool) (channel : Nat) (error : ClientError) :
    p.Alike { p with channels := p.channels.set channel (.sent (.error error)) } := by
  refine ⟨rfl, rfl, rfl, rfl, rfl, rfl, rfl, ?_⟩
  intro k conn hk
  rcases Interleave.getElem?_set_eq_some hk with ⟨-, hold⟩ | ⟨-, heq⟩
  · exact hold
  · cases heq

open Pool

theorem Pool.alike_lose (p : Pool) (t : Task) : p.Alike (p.lose t) := by
  unfold lose
  rcases t.channel with _ | channel
  · exact .refl p
  refine ⟨rfl, rfl, rfl, rfl, rfl, rfl, rfl, ?_⟩
  intro k conn hk
  rw [getElem?_modify] at hk
  rcases Option.map_eq_some_iff.mp hk with ⟨c, hc, heq⟩
  by_cases hch : channel = k
  · simp only [hch, if_true] at heq
    by_cases hpen : c = .pending
    · simp [if_pos hpen] at heq
    · rw [if_neg hpen] at heq
      rw [hc, heq]
  · simp only [hch, if_false] at heq
    rw [hc, heq]

theorem Pool.move_of_poolConnection {conn : ConnId} {generation : Nat}
    (hph : t.phase = .pooling conn generation) :
    Move p t .go (p.poolConnection t conn generation).1
      (p.poolConnection t conn generation).2 := by
  fun_cases p.poolConnection t conn generation with
  | case1 | case3 => exact .drop (.inr (.inr ⟨generation, hph⟩)) (t.idle_fail _)
  | case2 hgen hroom => exact .push hph (of_not_not hgen) hroom

theorem Pool.move_of_takeSlot (hph : t.phase = .choosing) :
    Move p t .go (p.takeSlot t).1 (p.takeSlot t).2 := by
  have hown : t.phase.owned = none := by rw [hph]; rfl
  unfold takeSlot
  rcases p.dialing.lookup t.call.protocol with _ | channel
  · refine .idle ⟨rfl, rfl, rfl, rfl, rfl, rfl, rfl, ?_⟩ rfl (.inl hown)
    intro k conn hk
    rcases Best.getElem?_append_singleton.mp hk with hold | ⟨-, heq⟩
    · exact hold
    · cases heq
  · exact .idle (.refl p) rfl (.inl hown)

variable {idle pathless : List ConnId}

theorem Pool.move_of_borrowPooled {seat : Bool} (hph : t.phase = .asking) :
    Move p t (.look idle pathless seat) (p.borrowPooled t idle pathless seat).1
      (p.borrowPooled t idle pathless seat).2 := by
  unfold borrowPooled
  rcases hpick : (p.dropStale idle pathless).pick t.call.protocol with _ | conn
  · simp only [hpick]
    exact .miss hph
  simp only [hpick]
  rcases seat with _ | _
  · exact .miss hph
  · exact .borrow hph hpick

theorem Pool.move_of_lookWarm {seat : Bool} (hph : t.phase = .warming) :
    Move p t (.look idle pathless seat) (p.lookWarm t pathless).1
      (p.lookWarm t pathless).2 := by
  have hown : t.phase.owned = none := by rw [hph]; rfl
  unfold lookWarm
  rcases p.connections.getLast?.any (p.isLive pathless) with _ | _
  · exact .idle (.refl p) rfl (.inl hown)
  · exact .idle (.refl p) rfl (.inl hown)

theorem Pool.move_of_go (h : p.go t = some (q, t')) : Move p t .go q t' := by
  revert h
  fun_cases go p t with
  | case4 hph => exact (move_of_takeSlot hph).of_some
  | case5 channel hph outcome hc =>
    rcases outcome with e | conn <;> rintro ⟨⟩
    · exact .rest hph rfl rfl
    · exact .told hph hc
  | case6 _ hph | case8 hph | case40 _ hph | case42 hph =>
    rintro ⟨⟩
    exact .rest hph rfl rfl
  | case9 hph =>
    rintro ⟨⟩
    exact .rest hph rfl (t.idle_fail _)
  | case10 hph =>
    rintro ⟨⟩
    exact .connect hph
  | case11 _ hph _ htoken =>
    rintro ⟨⟩
    exact .take hph htoken
  | case12 _ hph htoken =>
    rintro ⟨⟩
    exact .skip hph htoken
  | case13 _ _ hph =>
    rintro ⟨⟩
    exact .present hph
  | case15 _ _ _ hph =>
    rintro ⟨⟩
    exact .accept hph
  | case16 _ _ issued hph hcl =>
    rintro ⟨⟩
    exact .drop (.inl ⟨_, _, hph, .inr ⟨issued, rfl, hcl⟩⟩) (t.idle_fail _)
  | case17 _ _ hph _ hchanged => exact (Move.storeNew hph hchanged).of_some
  | case18 _ _ hph _ hchanged =>
    exact (Move.storeSame hph (Bool.eq_false_iff.mpr hchanged)).of_some
  | case19 _ hph _ hchanged => exact (Move.setNew hph hchanged).of_some
  | case20 _ hph _ hchanged =>
    exact (Move.setSame hph (Bool.eq_false_iff.mpr hchanged)).of_some
  | case21 _ hph =>
    rintro ⟨⟩
    exact .sweep hph
  | case22 _ hph => exact (Move.bump hph).of_some
  | case23 _ _ _ hph =>
    rintro ⟨⟩
    exact .spend hph
  | case24 _ _ _ hph =>
    rintro ⟨⟩
    exact .keep hph
  | case25 _ hph _ hauth =>
    rintro ⟨⟩
    exact .read hph hauth
  | case26 _ hph hauth =>
    rintro ⟨⟩
    exact .readNone hph hauth
  | case27 _ _ _ hph =>
    rintro ⟨⟩
    exact .prove hph
  | case28 _ _ hph | case29 _ _ hph | case30 _ _ hph | case31 _ _ hph =>
    rintro ⟨⟩
    exact .carry (by rw [hph]; rfl) rfl
  | case32 _ _ hph =>
    rintro ⟨⟩
    exact .idle (.refl p) (t.idle_fail _) (.inr (.inr (.inr (by rw [hph]; rfl))))
  | case33 _ _ hph => exact (move_of_poolConnection hph).of_some
  | case34 outcome hph channel =>
    rcases outcome with e | conn <;> rintro ⟨⟩
    · exact .idle (p.alike_sent_error channel e) rfl (.inl (by rw [hph]; rfl))
    · exact .announce hph
  | case36 _ _ _ hph => exact (Move.leave hph).of_some
  | case37 _ _ _ hph | case38 _ _ hph =>
    exact (Move.idle (p.alike_clearDialSlot _ _) rfl (.inl (by rw [hph]; rfl))).of_some
  | case39 _ hph =>
    rintro ⟨⟩
    exact .hand hph
  | case41 hph =>
    rintro ⟨⟩
    exact .close hph
  | _ => rintro ⟨⟩

theorem Pool.move_of_advance (h : p.advance t input = some (q, t')) : Move p t input q t' := by
  revert h
  fun_cases advance p t input with
  | case1 => exact move_of_go
  | case2 _ _ _ hph => exact (move_of_borrowPooled hph).of_some
  | case3 _ _ _ hph => exact (move_of_lookWarm hph).of_some
  | case5 _ hph =>
    rintro ⟨⟩
    exact .rest hph rfl (t.idle_fail _)
  | case7 error _ _ _ hph =>
    rintro ⟨⟩
    exact .drop (.inl ⟨_, _, hph, .inl ⟨error, rfl⟩⟩) (t.idle_fail _)
  | case8 _ _ _ _ hph =>
    rintro ⟨⟩
    exact .drop (.inr (.inl ⟨_, _, hph⟩)) (t.idle_fail _)
  | case10 _ _ _ hph =>
    rintro ⟨⟩
    exact .issue hph
  | case12 _ _ _ hph =>
    rintro ⟨⟩
    exact .idle ⟨rfl, rfl, rfl, rfl, rfl, rfl, rfl, fun _ _ h => h⟩ rfl
      (.inr (.inr (.inr (by rw [hph]; rfl))))
  | case15 =>
    rintro ⟨⟩
    exact .idle (p.alike_lose t) rfl (.inr (.inl rfl))
  | case16 =>
    rintro ⟨⟩
    exact .idle (.refl p) rfl (.inr (.inr (.inl rfl)))
  | _ => rintro ⟨⟩

end Moves

/-! ### Connections are apart -/

section Apart

variable {p q : Pool} {t t' : Task} {input : Input}

structure Moved (p q : Pool) (t t' : Task) : Prop where
  grows : p.conns.length ≤ q.conns.length
  owned : t'.phase.owned = none ∨ t'.phase.owned = t.phase.owned ∨
    t'.phase.owned = some p.conns.length ∧ p.conns.length < q.conns.length
  pooled : ∀ e ∈ q.connections, e ∈ p.connections ∨
    t.phase.owned = some e.conn ∧ t'.phase.owned = none

theorem Phase.owned_of_idle {phase : Phase} (h : phase.idle = true) : phase.owned = none := by
  cases phase with
  | sweeping | bumping => cases h
  | _ => first | rfl | cases h

theorem Phase.owned_of_filed {phase : Phase} {conn : ConnId} {generation : Nat}
    (h : phase.filed = some (conn, generation)) : phase.owned = some conn := by
  cases phase <;> cases h <;> rfl

theorem Task.owned_pooled (t : Task) (conn : ConnId) : (t.pooled conn).phase.owned = none := by
  unfold Task.pooled
  cases t.call <;> rfl

theorem Task.owned_authenticated (t : Task) (conn : ConnId) (generation : Nat) :
    (t.authenticated conn generation).phase.owned = some conn :=
  Phase.owned_of_filed (t.filed_authenticated conn generation)

theorem Moved.keep (hlen : q.conns.length = p.conns.length)
    (hc : ∀ e ∈ q.connections, e ∈ p.connections)
    (hown : t'.phase.owned = none ∨ t'.phase.owned = t.phase.owned) : Moved p q t t' :=
  ⟨le_of_eq hlen.symm, hown.imp_right .inl, fun e he => .inl (hc e he)⟩

theorem Pool.write_frame (p : Pool) (auth : Option TwoFactorAuth) :
    (p.write auth).connections = p.connections ∧ (p.write auth).conns = p.conns ∧
      (p.write auth).channels = p.channels ∧ (p.write auth).settled = p.settled ∧
      (p.write auth).enrollment = p.enrollment := by
  unfold write
  cases identityChanged p.twoFactor auth <;> exact ⟨rfl, rfl, rfl, rfl, rfl⟩

theorem Pool.afterDrop_frame (p : Pool) (t : Task) (after : After) :
    (p.afterDrop t after).1.connections = p.connections ∧
      (p.afterDrop t after).1.conns = p.conns ∧ (p.afterDrop t after).1.channels = p.channels ∧
      (p.afterDrop t after).1.enrollment = p.enrollment ∧
      (p.afterDrop t after).1.twoFactor = p.twoFactor ∧
      (p.afterDrop t after).1.credentialGeneration = p.credentialGeneration ∧
      (p.afterDrop t after).1.identities = p.identities := by
  cases after with
  | closed =>
    unfold afterDrop
    cases p.ownsEndpoint <;> exact ⟨rfl, rfl, rfl, rfl, rfl, rfl, rfl⟩
  | _ => exact ⟨rfl, rfl, rfl, rfl, rfl, rfl, rfl⟩

theorem Pool.owned_afterDrop (p : Pool) (t : Task) (after : After) :
    (p.afterDrop t after).2.phase.owned = (Phase.bumping after).owned := by
  cases after with
  | closed =>
    unfold afterDrop
    cases p.ownsEndpoint <;> rfl
  | _ => rfl

open Pool

theorem Move.moved (h : Move p t input q t') : Moved p q t t' := by
  cases h with
  | idle halike hidle _ =>
    exact .keep (by rw [halike.conns]) (halike.connections ▸ fun _ he => he)
      (.inl (Phase.owned_of_idle hidle))
  | drop _ hidle =>
    exact .keep (p.length_edit _) (fun _ he => he) (.inl (Phase.owned_of_idle hidle))
  | miss _ =>
    exact .keep (length_edit _ _) (fun _ he => (mem_dropStale.mp he).1) (.inl rfl)
  | borrow _ _ =>
    refine .keep ?_ (fun _ he => (mem_dropStale.mp he).1) (.inl rfl)
    rw [Pool.borrow, length_edit, Pool.dropStale, Pool.close, length_edit]
  | hand _ => exact .keep (p.length_edit _) (fun _ he => he) (.inl rfl)
  | told | announce => exact .keep rfl (fun _ he => he) (.inl rfl)
  | @leave channel conn _ =>
    have halike := p.alike_clearDialSlot t.call.protocol channel
    exact .keep (by rw [halike.conns]) (halike.connections ▸ fun _ he => he) (.inl rfl)
  | connect _ =>
    have hlen : (p.conns ++ [(⟨false, 0, false, none⟩ : Conn)]).length =
        p.conns.length + 1 := length_append
    exact ⟨hlen ▸ le_succ _, .inr (.inr ⟨rfl, hlen ▸ lt_succ_self _⟩),
      fun _ he => .inl he⟩
  | take hph | skip hph | present hph | issue hph | spend hph | read hph =>
    exact .keep rfl (fun _ he => he) (.inr (by rw [hph]; rfl))
  | accept hph =>
    exact .keep (p.length_edit _) (fun _ he => he) (.inr (by rw [hph]; rfl))
  | storeNew hph | storeSame hph =>
    exact .keep (by rw [(p.write_frame _).2.1]) ((p.write_frame _).1 ▸ fun _ he => he)
      (.inr (by rw [hph]; rfl))
  | setNew | setSame =>
    exact .keep (by rw [(p.write_frame _).2.1]) ((p.write_frame _).1 ▸ fun _ he => he) (.inl rfl)
  | @sweep after hph =>
    refine .keep (p.length_edit _) (fun _ he => absurd he not_mem_nil) (.inr ?_)
    rw [hph]
    cases after <;> rfl
  | @bump after hph =>
    have hfram := { p with epoch := p.epoch + 1 }.afterDrop_frame t after
    refine .keep (by rw [hfram.2.1]) (fun _ he => hfram.1 ▸ he) (.inr ?_)
    rw [owned_afterDrop, hph]
  | keep hph =>
    exact .keep rfl (fun _ he => he) (.inr (by rw [Task.owned_authenticated, hph]; rfl))
  | readNone hph | prove hph =>
    refine .keep (p.length_edit _) (fun _ he => he) (.inr ?_)
    rw [Task.owned_authenticated, hph]
    rfl
  | carry hph hfiled =>
    refine .keep rfl (fun _ he => he) (.inr ?_)
    exact (Phase.owned_of_filed hfiled).trans (Phase.owned_of_filed hph).symm
  | push hph _ _ =>
    refine ⟨le_refl _, .inl (t.owned_pooled _), ?_⟩
    intro e he
    rcases mem_append.mp he with hold | hnew
    · exact .inl hold
    · rw [mem_singleton.mp hnew, hph]
      exact .inr ⟨rfl, t.owned_pooled _⟩
  | close _ => exact .keep (length_edit _ _) (fun _ he => he) (.inl rfl)

structure Owned (w : World) : Prop where
  made : ∀ (i : Nat) t conn, w.tasks[i]? = some t → t.phase.owned = some conn →
    conn < w.shared.conns.length
  apart : ∀ (i j : Nat) t u conn, w.tasks[i]? = some t → w.tasks[j]? = some u →
    t.phase.owned = some conn → u.phase.owned = some conn → i = j
  unpooled : ∀ (i : Nat) t e, w.tasks[i]? = some t → e ∈ w.shared.connections →
    t.phase.owned ≠ some e.conn
  pooled : ∀ e ∈ w.shared.connections, e.conn < w.shared.conns.length

theorem Pool.ambient_frame (p : Pool) (change : Ambient) :
    (p.ambient change).conns.length = p.conns.length ∧
      ∀ e ∈ (p.ambient change).connections, e ∈ p.connections := by
  cases change with
  | cleanup => exact ⟨length_edit _ _, fun _ he => (mem_dropStale.mp he).1⟩
  | close | release | saturate => exact ⟨p.length_edit _, fun _ he => he⟩
  | setEnrollment | takeIssued | takeAuthRequired => exact ⟨rfl, fun _ he => he⟩

theorem Call.owned_start (call : Call) : call.start.owned = none := by
  cases call <;> rfl

theorem Owned.start (ownsEndpoint : Bool) : Owned ⟨.new ownsEndpoint, []⟩ :=
  ⟨by rintro _ _ _ ⟨⟩, by rintro _ _ _ _ _ ⟨⟩, by rintro _ _ _ ⟨⟩, by rintro _ ⟨⟩⟩

theorem Owned.step {w w' : World} {e : Event} (h : Owned w) (hstep : step w e = some w') :
    Owned w' := by
  rcases Interleave.step_cases hstep with ⟨call, -, rfl⟩ |
    ⟨id, input, t, q, t', -, ht, hadv, rfl⟩ | ⟨change, q, -, hq, rfl⟩
  · -- A task that starts has nothing.
    have hnew : ∀ (i : Nat) u conn, (w.tasks ++ [behaviour.start call])[i]? = some u →
        u.phase.owned = some conn → w.tasks[i]? = some u := by
      intro i u conn hu hown
      rcases Best.getElem?_append_singleton.mp hu with hold | ⟨-, rfl⟩
      · exact hold
      have hnone : (behaviour.start call).phase.owned = none := Call.owned_start call
      rw [hnone] at hown
      cases hown
    refine ⟨?_, ?_, ?_, h.pooled⟩
    · intro i u conn hu hown
      exact h.made i u conn (hnew i u conn hu hown) hown
    · intro i j u v conn hu hv hown hown'
      exact h.apart i j u v conn (hnew i u conn hu hown) (hnew j v conn hv hown') hown
        hown'
    · intro i u e hu he hown
      exact h.unpooled i u e (hnew i u e.conn hu hown) he hown
  · have hmov := (move_of_advance hadv).moved
    -- What a task has after the move it had before, or it is the one that moved and has just
    -- made it.
    have hbef : ∀ (i : Nat) u conn, (w.tasks.set id t')[i]? = some u →
        u.phase.owned = some conn →
        (∃ v, w.tasks[i]? = some v ∧ v.phase.owned = some conn) ∨
          i = id ∧ conn = w.shared.conns.length ∧ w.shared.conns.length < q.conns.length := by
      intro i u conn hu hown
      rcases Interleave.getElem?_set_eq_some hu with ⟨-, hold⟩ | ⟨rfl, rfl⟩
      · exact .inl ⟨u, hold, hown⟩
      rcases hmov.owned with hnone | hsame | ⟨hfr, hlt⟩
      · simp [hnone] at hown
      · exact .inl ⟨t, ht, hsame ▸ hown⟩
      · rw [hfr] at hown
        exact .inr ⟨rfl, (Option.some.inj hown).symm, hlt⟩
    refine ⟨?_, ?_, ?_, ?_⟩
    · intro i u conn hu hown
      rcases hbef i u conn hu hown with ⟨v, hv, hvow⟩ | ⟨-, rfl, hlt⟩
      · exact lt_of_lt_of_le (h.made i v conn hv hvow) hmov.grows
      · exact hlt
    · intro i j u v conn hu hv hown hown'
      rcases hbef i u conn hu hown with ⟨x, hx, hxow⟩ | ⟨hi, hfr, -⟩
      · rcases hbef j v conn hv hown' with ⟨y, hy, hyow⟩ | ⟨-, hfr, -⟩
        · exact h.apart i j x y conn hx hy hxow hyow
        · exact absurd (hfr ▸ h.made i x conn hx hxow) (lt_irrefl _)
      rcases hbef j v conn hv hown' with ⟨y, hy, hyow⟩ | ⟨hj, -⟩
      · exact absurd (hfr ▸ h.made j y conn hy hyow) (lt_irrefl _)
      · rw [hi, hj]
    · intro i u e hu he hown
      rcases hmov.pooled e he with hold | ⟨hmine, hnone⟩
      · rcases hbef i u e.conn hu hown with ⟨v, hv, hvow⟩ | ⟨-, hfr, -⟩
        · exact h.unpooled i v e hv hold hvow
        · exact absurd (hfr ▸ h.pooled e hold) (lt_irrefl _)
      -- The connection was that of the task that moved, which has let go of it.
      rcases hbef i u e.conn hu hown with ⟨v, hv, hvow⟩ | ⟨-, hfr, -⟩
      · have hi := h.apart i id v t e.conn hv ht hvow hmine
        rcases Interleave.getElem?_set_eq_some hu with ⟨hne, -⟩ | ⟨-, rfl⟩
        · exact hne hi
        · simp [hnone] at hown
      · exact absurd (hfr ▸ h.made id t e.conn ht hmine) (lt_irrefl _)
    · intro e he
      rcases hmov.pooled e he with hold | ⟨hmine, -⟩
      · exact lt_of_lt_of_le (h.pooled e hold) hmov.grows
      · exact lt_of_lt_of_le (h.made id t e.conn ht hmine) hmov.grows
  · cases hq
    have hfram := w.shared.ambient_frame change
    refine ⟨?_, h.apart, ?_, ?_⟩
    · intro i u conn hu hown
      rw [hfram.1]
      exact h.made i u conn hu hown
    · intro i u e hu he
      exact h.unpooled i u e hu (hfram.2 e he)
    · intro e he
      rw [hfram.1]
      exact h.pooled e (hfram.2 e he)

end Apart

/-! ### What a move does to the others -/

/-- What a move does to what the others have, apart from the one connection that is the task's
    own: the record of identities grows, connections keep their identity, what leaves the pool is
    closed, and what enters it is of the current generation. -/
structure Guarantee (own : Option ConnId) (p q : Pool) : Prop where
  identities : p.identities <+: q.identities
  generation : p.credentialGeneration ≤ q.credentialGeneration
  identity : ∀ conn identity, own ≠ some conn → p.identityOf conn = some identity →
    q.identityOf conn = some identity
  closed : ∀ conn, p.isClosed conn = true → q.isClosed conn = true
  left : ∀ e ∈ p.connections, e ∈ q.connections ∨ q.isClosed e.conn = true
  entered : ∀ e ∈ q.connections, e ∈ p.connections ∨ e.generation = q.credentialGeneration

section Guarantees

variable {p q r : Pool} {t t' : Task} {input : Input} {own : Option ConnId}

theorem Guarantee.trans (h : Guarantee own p q) (h' : Guarantee own q r)
    (hgen : r.credentialGeneration = q.credentialGeneration) : Guarantee own p r := by
  refine ⟨h.identities.trans h'.identities, le_trans h.generation h'.generation,
    fun conn i hown hi => h'.identity conn i hown (h.identity conn i hown hi),
    fun conn hc => h'.closed conn (h.closed conn hc), ?_, ?_⟩
  · intro e he
    rcases h.left e he with hk | hcl
    · exact h'.left e hk
    · exact .inr (h'.closed e.conn hcl)
  · intro e he
    rcases h'.entered e he with hk | hnew
    · rcases h.entered e hk with hold | hnew
      · exact .inl hold
      · exact .inr (hnew.trans hgen.symm)
    · exact .inr hnew

theorem Guarantee.of_eq (hid : q.identities = p.identities)
    (hgen : q.credentialGeneration = p.credentialGeneration) (hco : q.conns = p.conns)
    (hcon : q.connections = p.connections) : Guarantee own p q := by
  refine ⟨hid ▸ prefix_rfl, le_of_eq hgen.symm, ?_, ?_, ?_, ?_⟩
  · intro conn i _ hi
    rw [Pool.identityOf, hco]
    exact hi
  · intro conn hc
    rw [Pool.isClosed, hco]
    exact hc
  · intro e he
    rw [hcon]
    exact .inl he
  · intro e he
    rw [hcon] at he
    exact .inl he

theorem Guarantee.refl (p : Pool) : Guarantee own p p :=
  .of_eq rfl rfl rfl rfl

theorem Pool.Alike.guarantee (h : p.Alike q) : Guarantee own p q :=
  .of_eq h.identities h.credentialGeneration h.conns h.connections

theorem Guarantee.edit (p : Pool) {f : ConnId → Conn → Conn}
    (hcl : ∀ conn c, (f conn c).closed = c.closed)
    (hid : ∀ conn c, (f conn c).identity = c.identity) : Guarantee own p (p.edit f) := by
  refine ⟨prefix_rfl, le_refl _, ?_, ?_, fun _ he => .inl he, fun _ he => .inl he⟩
  · intro conn i _ hi
    rw [p.identityOf_edit f conn (hid conn)]
    exact hi
  · intro conn hc
    rw [p.isClosed_edit f conn (hcl conn)]
    exact hc

theorem Guarantee.borrow (p : Pool) (conn : ConnId) : Guarantee own p (p.borrow conn) := by
  refine .edit p ?_ ?_ <;> intro k c <;> split <;> rfl

theorem Guarantee.close (p : Pool) (named : ConnId → Bool) : Guarantee own p (p.close named) := by
  refine ⟨prefix_rfl, le_refl _, ?_, ?_, fun _ he => .inl he, fun _ he => .inl he⟩
  · intro conn i _ hi
    rw [Pool.identityOf_close]
    exact hi
  · intro conn hc
    rw [Pool.isClosed_close, hc]
    rfl

theorem Guarantee.authenticate (p : Pool) (conn : ConnId) (identity : Option Identity) :
    Guarantee (some conn) p (p.authenticate conn identity) := by
  refine ⟨prefix_rfl, le_refl _, ?_, ?_, fun _ he => .inl he, fun _ he => .inl he⟩
  · intro k i hown hi
    rw [Pool.identityOf_authenticate, if_neg (fun heq => hown (congrArg some heq.symm))]
    exact hi
  · intro k hc
    rw [Pool.isClosed_authenticate]
    exact hc

theorem Guarantee.connect (p : Pool) (c : Conn) :
    Guarantee own p { p with conns := p.conns ++ [c] } := by
  have hold : ∀ (conn : Nat) c', p.conns[conn]? = some c' → (p.conns ++ [c])[conn]? = some c' :=
    fun conn c' h => Best.getElem?_append_singleton.mpr (.inl h)
  refine ⟨prefix_rfl, le_refl _, ?_, ?_, fun _ he => .inl he, fun _ he => .inl he⟩
  · intro conn i _ hi
    rcases Option.bind_eq_some_iff.mp hi with ⟨c', hc', hi'⟩
    exact Option.bind_eq_some_iff.mpr ⟨c', hold conn c' hc', hi'⟩
  · intro conn hc
    unfold Pool.isClosed at hc ⊢
    cases hc' : p.conns[conn]? with
    | none => simp [hc'] at hc
    | some c' =>
      rw [hc'] at hc
      simp only [hold conn c' hc']
      exact hc

theorem Guarantee.dropStale (hma : ∀ e ∈ p.connections, e.conn < p.conns.length)
    (idle pathless : List ConnId) : Guarantee own p (p.dropStale idle pathless) := by
  have hfil : Guarantee own
      { p with connections := p.connections.filter fun e => !p.stale idle pathless e }
      (p.dropStale idle pathless) := .close _ _
  refine ⟨prefix_rfl, le_refl _, hfil.identity, hfil.closed, ?_,
    fun e he => .inl (Pool.mem_dropStale.mp he).1⟩
  intro e he
  rcases hst : p.stale idle pathless e with _ | _
  · exact .inl (Pool.mem_dropStale.mpr ⟨he, hst⟩)
  refine .inr ?_
  have hnam : (p.connections.any fun k => k.conn == e.conn &&
      p.stale idle pathless k) = true :=
    any_eq_true.mpr ⟨e, he, by rw [hst, beq_self_eq_true]; rfl⟩
  rw [Pool.dropStale, Pool.isClosed_close, hnam, Bool.true_and,
    List.getElem?_eq_getElem (hma e he)]
  exact Bool.or_true _

theorem Guarantee.sweep (hm : ∀ e ∈ p.connections, e.conn < p.conns.length) :
    Guarantee own p p.sweep := by
  have hc : Guarantee own p (p.close fun conn => p.connections.any fun e => e.conn == conn) :=
    .close _ _
  refine ⟨prefix_rfl, le_refl _, hc.identity, hc.closed, ?_,
    fun e he => absurd he not_mem_nil⟩
  intro e he
  refine .inr ?_
  have hnam : (p.connections.any fun k => k.conn == e.conn) = true :=
    any_eq_true.mpr ⟨e, he, beq_self_eq_true _⟩
  have hcl := p.isClosed_close e.conn fun conn => p.connections.any fun e => e.conn == conn
  rw [hnam, Bool.true_and, getElem?_eq_getElem (hm e he)] at hcl
  exact hcl.trans (Bool.or_true _)

theorem Guarantee.write (p : Pool) (auth : Option TwoFactorAuth) :
    Guarantee own p (p.write auth) := by
  unfold Pool.write
  rcases identityChanged p.twoFactor auth with _ | _
  · exact .of_eq rfl rfl rfl rfl
  · exact ⟨prefix_append _ _, le_succ _, fun _ _ _ h => h, fun _ h => h,
      fun _ h => .inl h, fun _ h => .inl h⟩

theorem Move.guarantee (hma : ∀ e ∈ p.connections, e.conn < p.conns.length)
    (h : Move p t input q t') : Guarantee t.phase.owned p q := by
  cases h with
  | idle halike _ _ => exact halike.guarantee
  | drop => exact .close p _
  | miss => exact .dropStale hma _ _
  | borrow => exact (Guarantee.dropStale hma _ _).trans (.borrow _ _) rfl
  | hand => exact .borrow p _
  | told | take | skip | present | issue | read | carry => exact .refl p
  | announce | spend | keep => exact .of_eq rfl rfl rfl rfl
  | @leave channel conn _ => exact (p.alike_clearDialSlot t.call.protocol channel).guarantee
  | connect => exact .connect p _
  | accept hph | readNone hph | prove hph =>
    rw [hph]
    exact .authenticate p _ _
  | storeNew | storeSame | setNew | setSame => exact .write p _
  | sweep => exact .sweep hma
  | @bump after _ =>
    have hfr := { p with epoch := p.epoch + 1 }.afterDrop_frame t after
    exact .of_eq hfr.2.2.2.2.2.2 hfr.2.2.2.2.2.1 hfr.2.1 hfr.1
  | push _ hgen _ =>
    refine ⟨prefix_rfl, le_refl _, fun _ _ _ h => h, fun _ h => h,
      fun _ he => .inl (mem_append_left _ he), ?_⟩
    intro e he
    rcases mem_append.mp he with hold | hnew
    · exact .inl hold
    · rw [mem_singleton.mp hnew]
      exact .inr hgen.symm
  | close =>
    have hep : Guarantee t.phase.owned p { p with ep := false } := .of_eq rfl rfl rfl rfl
    exact hep.trans (.close _ _) rfl

theorem Pool.ambient_guarantee (hm : ∀ e ∈ p.connections, e.conn < p.conns.length)
    (change : Ambient) : Guarantee own p (p.ambient change) := by
  cases change with
  | cleanup idle pathless => exact .dropStale hm _ _
  | close conn => exact .close p _
  | release conn | saturate conn =>
    refine .edit p ?_ ?_ <;> intro k c <;> split <;> rfl
  | setEnrollment | takeIssued | takeAuthRequired => exact .of_eq rfl rfl rfl rfl

end Guarantees

end Nexapipe.ConnectionPool
