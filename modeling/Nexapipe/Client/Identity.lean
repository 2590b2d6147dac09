import Nexapipe.Client.PoolMoves

/-!
# Whose connections a pool hands out

A connection is authenticated as one identity for as long as it lives. When the credential of the
pool is replaced by that of another identity, the connections of the old one must not carry
traffic any more. The generation of the credential is what keeps them apart: it moves with the
identity under the lock of the credential, a dial takes it with the credential, and a connection
enters the pool only under the lock of the pool and only if the generation is still its own. The
call that moved it then takes the lock of the pool, closes what is there and clears it.

So whatever is in the pool once that call has returned has entered after the generation moved.
-/

namespace Nexapipe.ConnectionPool

open List Nat

def Pool.Filed (p : Pool) (conn : ConnId) (generation : Nat) : Prop :=
  generation ≤ p.credentialGeneration ∧
    ∃ identity, p.identityOf conn = some identity ∧ p.identities[generation]? = some identity

def Pool.Kept (p : Pool) (conn : ConnId) : Prop :=
  (∃ e ∈ p.connections, e.conn = conn) ∨ p.isClosed conn = true

/-- What holds of the pool: the record of identities is that of the generations, what is pooled is
    not from before the last change that has returned, and a connection that a dial has announced
    was pooled. -/
structure Pool.Sound (p : Pool) : Prop where
  log : p.identities.length = p.credentialGeneration + 1
  current : p.identities[p.credentialGeneration]? = some (p.twoFactor.map TwoFactorAuth.identity)
  settled : p.settled ≤ p.credentialGeneration
  pooled : ∀ e ∈ p.connections, p.settled ≤ e.generation ∧ p.Filed e.conn e.generation
  channels : ∀ (channel : Nat) conn, p.channels[channel]? = some (.sent (.ok conn)) → p.Kept conn

def After.Ok (p : Pool) : After → Prop
  | .enrolled conn _ generation => p.Filed conn generation
  | .written generation => generation ≤ p.credentialGeneration
  | .dropped | .closed => True

def After.generation : After → Nat
  | .enrolled _ _ generation | .written generation => generation
  | .dropped | .closed => 0

def After.Swept (p : Pool) (after : After) : Prop :=
  ∀ e ∈ p.connections, after.generation ≤ e.generation

def Phase.Ok (p : Pool) : Phase → Prop
  | .storing conn issued => p.identityOf conn = some (some issued.identity)
  | .sweeping after => after.Ok p
  | .bumping after => after.Ok p ∧ after.Swept p
  | .spending conn _ generation | .keeping conn _ generation => p.Filed conn generation
  | .authenticating _ auth generation => generation ≤ p.credentialGeneration ∧
      p.identities[generation]? = some (some auth.identity)
  | .warmed conn generation | .observing conn generation | .authenticated conn generation
  | .pooling conn generation => p.Filed conn generation
  | .announcing (.ok conn) | .leaving _ (some (.ok conn)) | .settling conn => p.Kept conn
  | _ => True

section Stable

variable {p q : Pool} {own : Option ConnId} {conn : ConnId} {generation : Nat}

theorem Guarantee.getElem?_identities (h : Guarantee own p q) {identity : Option Identity}
    (hi : p.identities[generation]? = some identity) :
    q.identities[generation]? = some identity := by
  rcases h.identities with ⟨more, hm⟩
  have hlt : generation < p.identities.length := (List.getElem?_eq_some_iff.mp hi).1
  rw [← hm, List.getElem?_append_left hlt]
  exact hi

theorem Pool.Filed.stable (hfiled : p.Filed conn generation) (h : Guarantee own p q)
    (hown : own ≠ some conn) : q.Filed conn generation := by
  rcases hfiled with ⟨hle, identity, hc, hlog⟩
  exact ⟨le_trans hle h.generation, identity, h.identity conn identity hown hc,
    h.getElem?_identities hlog⟩

theorem Pool.Kept.stable (hk : p.Kept conn) (h : Guarantee own p q) : q.Kept conn := by
  rcases hk with ⟨e, he, rfl⟩ | hcl
  · rcases h.left e he with hs | hcl
    · exact .inl ⟨e, hs, rfl⟩
    · exact .inr hcl
  · exact .inr (h.closed conn hcl)

variable {after : After}

theorem After.Ok.stable (hok : after.Ok p) (h : Guarantee own p q)
    (hown : ∀ conn, (Phase.sweeping after).owned = some conn → own ≠ some conn) : after.Ok q := by
  cases after with
  | enrolled conn issued generation => exact Pool.Filed.stable hok h (hown conn rfl)
  | written generation => exact le_trans hok h.generation
  | dropped | closed => trivial

theorem After.Ok.generation_le (hok : after.Ok p) : after.generation ≤ p.credentialGeneration := by
  cases after with
  | enrolled conn issued generation => exact hok.1
  | written generation => exact hok
  | dropped | closed => exact zero_le _

theorem After.Swept.stable (hs : after.Swept p) (hok : after.Ok p) (h : Guarantee own p q) :
    after.Swept q := by
  intro e he
  rcases h.entered e he with hold | hnew
  · exact hs e hold
  · rw [hnew]
    exact le_trans hok.generation_le h.generation

theorem Phase.Ok.stable {phase : Phase} (hok : phase.Ok p) (h : Guarantee own p q)
    (hown : ∀ conn, phase.owned = some conn → own ≠ some conn) : phase.Ok q := by
  cases phase with
  | storing conn issued => exact h.identity conn _ (hown conn rfl) hok
  | sweeping after => exact After.Ok.stable hok h hown
  | bumping after =>
    refine ⟨After.Ok.stable hok.1 h ?_, After.Swept.stable hok.2 hok.1 h⟩
    intro conn hco
    refine hown conn ?_
    cases after <;> exact hco
  | authenticating conn auth generation =>
    exact ⟨le_trans hok.1 h.generation, h.getElem?_identities hok.2⟩
  | spending conn issued generation | keeping conn issued generation | warmed conn generation
  | observing conn generation | authenticated conn generation | pooling conn generation =>
    exact Pool.Filed.stable hok h (hown conn rfl)
  | announcing outcome =>
    rcases outcome with e | conn
    · trivial
    · exact Pool.Kept.stable hok h
  | leaving channel outcome =>
    rcases outcome with _ | outcome
    · trivial
    rcases outcome with e | conn
    · trivial
    · exact Pool.Kept.stable hok h
  | settling conn => exact Pool.Kept.stable hok h
  | _ => trivial

theorem Pool.Sound.of_guarantee (hs : p.Sound) (h : Guarantee own p q)
    (hown : ∀ e ∈ p.connections, own ≠ some e.conn) (hid : q.identities = p.identities)
    (hgen : q.credentialGeneration = p.credentialGeneration)
    (htwo : q.twoFactor = p.twoFactor) (hset : q.settled = p.settled)
    (hent : ∀ e ∈ q.connections, e ∈ p.connections ∨ q.Filed e.conn e.generation)
    (hch : ∀ (channel : Nat) conn, q.channels[channel]? = some (.sent (.ok conn)) →
      p.channels[channel]? = some (.sent (.ok conn)) ∨ q.Kept conn) : q.Sound := by
  refine ⟨?_, ?_, ?_, ?_, ?_⟩
  · rw [hid, hgen]
    exact hs.log
  · rw [hid, hgen, htwo]
    exact hs.current
  · rw [hset, hgen]
    exact hs.settled
  · intro e he
    rw [hset]
    refine ⟨?_, ?_⟩
    · rcases h.entered e he with hold | hnew
      · exact (hs.pooled e hold).1
      · rw [hnew, hgen]
        exact hs.settled
    · rcases hent e he with hold | hfiled
      · exact (hs.pooled e hold).2.stable h (hown e hold)
      · exact hfiled
  · intro channel conn hsent
    rcases hch channel conn hsent with hold | hke
    · exact (hs.channels channel conn hold).stable h
    · exact hke

theorem Pool.Sound.of_quiet (hs : p.Sound) (h : Guarantee own p q)
    (hown : ∀ e ∈ p.connections, own ≠ some e.conn) (hi : q.identities = p.identities)
    (hgen : q.credentialGeneration = p.credentialGeneration)
    (htwo : q.twoFactor = p.twoFactor) (hset : q.settled = p.settled)
    (hent : ∀ e ∈ q.connections, e ∈ p.connections)
    (hc : q.channels = p.channels) : q.Sound :=
  hs.of_guarantee h hown hi hgen htwo hset
    (fun e he => .inl (hent e he)) fun _ _ hsent => .inl (hc ▸ hsent)

theorem Pool.Sound.write (hs : p.Sound) (auth : Option TwoFactorAuth) : (p.write auth).Sound := by
  have hgu : Guarantee none p (p.write auth) := .write p auth
  have hfr := p.write_frame auth
  have hpo : ∀ e ∈ (p.write auth).connections, (p.write auth).settled ≤ e.generation ∧
      (p.write auth).Filed e.conn e.generation := by
    intro e he
    rw [hfr.1] at he
    rw [hfr.2.2.2.1]
    exact ⟨(hs.pooled e he).1, (hs.pooled e he).2.stable hgu nofun⟩
  have hch : ∀ (channel : Nat) conn,
      (p.write auth).channels[channel]? = some (.sent (.ok conn)) → (p.write auth).Kept conn := by
    intro channel conn hsent
    rw [hfr.2.2.1] at hsent
    exact (hs.channels channel conn hsent).stable hgu
  have hset : (p.write auth).settled ≤ (p.write auth).credentialGeneration := by
    rw [hfr.2.2.2.1]
    exact le_trans hs.settled hgu.generation
  refine ⟨?_, ?_, hset, hpo, hch⟩
  · unfold Pool.write
    rcases identityChanged p.twoFactor auth with _ | _
    · exact hs.log
    show (p.identities ++ [_]).length = p.credentialGeneration + 1 + 1
    rw [length_append, hs.log]
    rfl
  · unfold Pool.write
    rcases hchanged : identityChanged p.twoFactor auth with _ | _
    · -- The identity is the one it was.
      unfold identityChanged at hchanged
      rw [decide_eq_false_iff_not, not_not] at hchanged
      show p.identities[p.credentialGeneration]? = some (auth.map TwoFactorAuth.identity)
      rw [hs.current, hchanged]
    · show (p.identities ++ [_])[p.credentialGeneration + 1]? = _
      rw [← hs.log]
      exact getElem?_concat_length

theorem Pool.Sound.of_alike (hs : p.Sound) (halike : p.Alike q) : q.Sound := by
  have hg : Guarantee none p q := halike.guarantee
  refine hs.of_guarantee hg nofun halike.identities halike.credentialGeneration halike.twoFactor
    halike.settled ?_ ?_
  · intro e he
    rw [halike.connections] at he
    exact .inl he
  · intro channel conn hsent
    exact .inl (halike.channels channel conn hsent)

theorem Pool.settled_afterDrop (p : Pool) (t : Task) (after : After) :
    (p.afterDrop t after).1.settled = max p.settled after.generation := by
  cases after with
  | enrolled | written => rfl
  | dropped => exact (Nat.max_zero _).symm
  | closed =>
    have hmax : p.settled = max p.settled 0 := (Nat.max_zero _).symm
    unfold Pool.afterDrop
    cases p.ownsEndpoint <;> exact hmax

theorem Pool.Sound.bump (hs : p.Sound) {t : Task} {after : After} (hok : after.Ok p)
    (hsw : after.Swept p) : ({ p with epoch := p.epoch + 1 }.afterDrop t after).1.Sound := by
  have hfr := { p with epoch := p.epoch + 1 }.afterDrop_frame t after
  have hset := { p with epoch := p.epoch + 1 }.settled_afterDrop t after
  generalize ({ p with epoch := p.epoch + 1 }.afterDrop t after).1 = q at *
  rcases hfr with ⟨hcon, hco, hch, -, htwo, hgen, hid⟩
  have hg : Guarantee none p q := .of_eq hid hgen hco hcon
  refine ⟨?_, ?_, ?_, ?_, ?_⟩
  · rw [hid, hgen]
    exact hs.log
  · rw [hid, hgen, htwo]
    exact hs.current
  · rw [hset, hgen]
    exact max_le hs.settled hok.generation_le
  · intro e he
    rw [hcon] at he
    rw [hset]
    exact ⟨max_le (hs.pooled e he).1 (hsw e he), (hs.pooled e he).2.stable hg nofun⟩
  · intro channel conn hsent
    rw [hch] at hsent
    exact (hs.channels channel conn hsent).stable hg

end Stable

/-! ### Moves -/

section Moves

variable {p q : Pool} {t t' : Task} {input : Input}

theorem Phase.ok_of_idle {phase : Phase} (h : phase.idle = true) : phase.Ok p := by
  cases phase with
  | announcing outcome =>
    rcases outcome with e | conn
    · trivial
    · cases h
  | leaving channel outcome =>
    rcases outcome with _ | outcome
    · trivial
    rcases outcome with e | conn
    · trivial
    · cases h
  | _ => trivial

variable {conn : ConnId} {generation : Nat}

theorem Phase.ok_iff_filed {phase : Phase} (h : phase.filed = some (conn, generation)) :
    phase.Ok p ↔ p.Filed conn generation := by
  cases phase <;> cases h <;> exact Iff.rfl

theorem Task.ok_authenticated (h : p.Filed conn generation) :
    (t.authenticated conn generation).phase.Ok p :=
  (Phase.ok_iff_filed (t.filed_authenticated conn generation)).mpr h

theorem Pool.filed_authenticate {identity : Option Identity} (hm : conn < p.conns.length)
    (hle : generation ≤ p.credentialGeneration) (hlog : p.identities[generation]? = some identity) :
    (p.authenticate conn identity).Filed conn generation := by
  refine ⟨hle, identity, ?_, hlog⟩
  rw [Pool.identityOf_authenticate, if_pos rfl, getElem?_eq_getElem hm]
  rfl

theorem Pool.Sound.filed_write (hs : p.Sound) {issued : TwoFactorAuth}
    (hi : p.identityOf conn = some (some issued.identity)) :
    (p.write (some issued)).Filed conn (p.write (some issued)).credentialGeneration := by
  have hg : Guarantee none p (p.write (some issued)) := .write p _
  refine ⟨le_refl _, some issued.identity, hg.identity conn _ nofun hi, ?_⟩
  rw [(hs.write (some issued)).current]
  unfold Pool.write
  cases identityChanged p.twoFactor (some issued) <;> rfl

theorem Move.sound (h : Move p t input q t') (hs : p.Sound) (hok : t.phase.Ok p)
    (hma : ∀ e ∈ p.connections, e.conn < p.conns.length)
    (hown : ∀ e ∈ p.connections, t.phase.owned ≠ some e.conn) : q.Sound := by
  have hg := h.guarantee hma
  cases h with
  | idle halike _ _ => exact hs.of_alike halike
  | miss | borrow =>
    exact hs.of_quiet hg hown rfl rfl rfl rfl (fun _ he => (Pool.mem_dropStale.mp he).1) rfl
  | told | take | skip | present | issue | read | carry => exact hs
  | @announce channel conn hph =>
    rw [hph] at hok
    refine hs.of_guarantee hg hown rfl rfl rfl rfl (fun _ he => .inl he) ?_
    intro k c hsent
    rcases Interleave.getElem?_set_eq_some hsent with ⟨-, hold⟩ | ⟨-, heq⟩
    · exact .inl hold
    · cases heq
      exact .inr (Pool.Kept.stable hok hg)
  | @leave channel conn _ => exact hs.of_alike (p.alike_clearDialSlot t.call.protocol channel)
  | storeNew | storeSame | setNew | setSame => exact hs.write _
  | sweep _ =>
    exact hs.of_quiet hg hown rfl rfl rfl rfl (fun _ he => absurd he not_mem_nil) rfl
  | bump hph =>
    rw [hph] at hok
    exact hs.bump hok.1 hok.2
  | push hph _ _ =>
    rw [hph] at hok
    refine hs.of_guarantee hg hown rfl rfl rfl rfl ?_ (fun _ _ hsent => .inl hsent)
    intro e he
    rcases mem_append.mp he with hold | hnew
    · exact .inl hold
    · rw [mem_singleton.mp hnew]
      exact .inr hok
  | drop _ _ | hand _ | connect _ | accept _ | spend _ | keep _ | readNone _ _ | prove _
  | close _ => exact hs.of_quiet hg hown rfl rfl rfl rfl (fun _ he => he) rfl

theorem Move.ok (h : Move p t input q t') (hs : p.Sound) (hok : t.phase.Ok p)
    (hpool : ∀ e ∈ p.connections, e.conn < p.conns.length)
    (hmade : ∀ conn, t.phase.owned = some conn → conn < p.conns.length) : t'.phase.Ok q := by
  cases h with
  | idle _ hidle | drop _ hidle => exact Phase.ok_of_idle hidle
  | miss | borrow | hand | connect | take | skip | present | issue | setSame | close => trivial
  | told _ hsent => exact hs.channels _ _ hsent
  | announce hph | spend hph =>
    rw [hph] at hok
    exact hok
  | @leave channel conn hph =>
    rw [hph] at hok
    have hg : Guarantee none p (p.clearDialSlot t.call.protocol channel) :=
      (p.alike_clearDialSlot t.call.protocol channel).guarantee
    exact Pool.Kept.stable hok hg
  | @accept conn enrollment issued hph =>
    have hlt : conn < p.conns.length := hmade conn (by rw [hph]; rfl)
    show (p.authenticate conn _).identityOf conn = _
    rw [Pool.identityOf_authenticate, if_pos rfl, getElem?_eq_getElem hlt]
    rfl
  | storeNew hph | storeSame hph =>
    rw [hph] at hok
    exact hs.filed_write hok
  | setNew _ _ => exact le_refl _
  | @sweep after hph =>
    rw [hph] at hok
    have hg : Guarantee none p p.sweep := .sweep hpool
    exact ⟨After.Ok.stable hok hg nofun, fun e he => absurd he not_mem_nil⟩
  | @bump after hph =>
    rw [hph] at hok
    cases after with
    | enrolled conn issued generation => exact hok.1
    | written | dropped => trivial
    | closed =>
      cases p.ownsEndpoint <;> trivial
  | keep hph =>
    rw [hph] at hok
    exact Task.ok_authenticated hok
  | read hph hauth =>
    refine ⟨le_refl _, ?_⟩
    rw [hs.current, hauth]
    rfl
  | @readNone conn hph hauth =>
    refine Task.ok_authenticated (Pool.filed_authenticate ?_ (le_refl _) ?_)
    · exact hmade conn (by rw [hph]; rfl)
    · rw [hs.current, hauth]
      rfl
  | @prove conn auth generation hph =>
    have hlt : conn < p.conns.length := hmade conn (by rw [hph]; rfl)
    rw [hph] at hok
    exact Task.ok_authenticated (Pool.filed_authenticate hlt hok.1 hok.2)
  | carry hph hfiled =>
    exact (Phase.ok_iff_filed hfiled).mpr ((Phase.ok_iff_filed hph).mp hok)
  | @push conn generation hph _ _ =>
    unfold Task.pooled
    cases t.call with
    | preconnect => trivial
    | _ => exact .inl ⟨_, mem_append_right _ mem_cons_self, rfl⟩

theorem Pool.ambient_quiet (p : Pool) (change : Ambient) :
    (p.ambient change).identities = p.identities ∧
      (p.ambient change).credentialGeneration = p.credentialGeneration ∧
      (p.ambient change).twoFactor = p.twoFactor ∧ (p.ambient change).settled = p.settled ∧
      (p.ambient change).channels = p.channels := by
  cases change <;> exact ⟨rfl, rfl, rfl, rfl, rfl⟩

theorem Move.settled_le (h : Move p t input q t') : p.settled ≤ q.settled := by
  have hw : ∀ auth, p.settled ≤ (p.write auth).settled := fun auth =>
    le_of_eq (p.write_frame auth).2.2.2.1.symm
  cases h with
  | idle halike _ _ => exact le_of_eq halike.settled.symm
  | @leave channel conn _ =>
    exact le_of_eq (p.alike_clearDialSlot t.call.protocol channel).settled.symm
  | storeNew | storeSame | setNew | setSame => exact hw _
  | bump _ =>
    rw [Pool.settled_afterDrop]
    exact le_max_left _ _
  | _ => exact le_refl _

end Moves

/-! ### Runs -/

def Safe (w : World) : Prop :=
  Owned w ∧ Interleave.Holds Pool.Sound (fun p t => t.phase.Ok p) w

theorem Call.ok_start (call : Call) (p : Pool) : call.start.Ok p := by
  cases call <;> trivial

theorem rules : Interleave.Rules behaviour (fun w _ => Owned w) Pool.Sound
    fun p t => t.phase.Ok p where
  start w call _ _ := Call.ok_start call w.shared
  advance := by
    intro w id input t q t' h hco ht hadv
    have hmove := Pool.move_of_advance hadv
    have hown : ∀ e ∈ w.shared.connections, t.phase.owned ≠ some e.conn :=
      fun e he => hco.unpooled id t e ht he
    refine ⟨hmove.sound h.1 (h.2 id t ht) hco.pooled hown,
      hmove.ok h.1 (h.2 id t ht) hco.pooled fun conn => hco.made id t conn ht, ?_⟩
    intro j u hne hu hok
    refine Phase.Ok.stable hok (hmove.guarantee hco.pooled) ?_
    intro conn hu' ht'
    exact hne (hco.apart j id u t conn hu ht hu' ht')
  ambient := by
    intro w change q h hco hq
    cases hq
    have hg : Guarantee none w.shared (w.shared.ambient change) :=
      w.shared.ambient_guarantee hco.pooled change
    have hqu := w.shared.ambient_quiet change
    refine ⟨?_, fun j u _ hok => Phase.Ok.stable hok hg nofun⟩
    exact h.1.of_quiet hg nofun hqu.1 hqu.2.1 hqu.2.2.1 hqu.2.2.2.1
      (w.shared.ambient_frame change).2 hqu.2.2.2.2

theorem Safe.start (ownsEndpoint : Bool) : Safe ⟨.new ownsEndpoint, []⟩ := by
  refine ⟨.start ownsEndpoint, ⟨rfl, rfl, le_refl _, ?_, ?_⟩, ?_⟩
  · intro e he
    cases he
  · intro channel conn hsent
    cases hsent
  · intro id t ht
    cases ht

variable {e : Event} {w w' : World} {conn : ConnId} {p : Pool} {generation : Nat} {t : Task}

theorem Safe.step (h : Safe w) (hs : step w e = some w') : Safe w' :=
  ⟨h.1.step hs, rules.step h.2 h.1 hs⟩

theorem settled_le_step (hs : step w e = some w') : w.shared.settled ≤ w'.shared.settled := by
  rcases Interleave.step_cases hs with ⟨call, -, rfl⟩ |
    ⟨id, input, t, q, t', -, -, hadv, rfl⟩ | ⟨change, q, -, hq, rfl⟩
  · exact le_refl _
  · exact (Pool.move_of_advance hadv).settled_le
  · cases hq
    exact le_of_eq (w.shared.ambient_quiet change).2.2.2.1.symm

def Phase.changing : Phase → Option Nat
  | .bumping (.written generation) | .bumping (.enrolled _ _ generation) => some generation
  | _ => none

def Phase.writing : Phase → Option (Option TwoFactorAuth)
  | .setting auth => some auth
  | .storing _ issued => some (some issued)
  | _ => none

def Phase.dropping : Phase → Bool
  | .sweeping _ | .bumping _ => true
  | _ => false

def Hands (w : World) (e : Event) (conn : ConnId) : Prop :=
  ∃ id input t q t', e = .advance id input ∧ w.tasks[id]? = some t ∧
    w.shared.advance t input = some (q, t') ∧ t'.phase = .done (.handed conn) ∧
    q.isOpen conn = true

theorem Pool.Kept.pooled (h : p.Kept conn) (ho : p.isOpen conn = true) :
    ∃ e ∈ p.connections, e.conn = conn := by
  rcases h with hp | hcl
  · exact hp
  · simp [p.isClosed_eq_false conn ho] at hcl

theorem Task.not_handed_authenticated (t : Task) {k : ConnId}
    (h : (t.authenticated k generation).phase = .done (.handed conn)) : False := by
  have hfiled := t.filed_authenticated k generation
  rw [h] at hfiled
  cases hfiled

theorem Move.kept_of_handed {q : Pool} {t' : Task} {input : Input} (h : Move p t input q t')
    (hok : t.phase.Ok p) (hhan : t'.phase = .done (.handed conn)) : q.Kept conn := by
  cases h with
  | @borrow idle pathless _ _ _ hpick =>
    cases hhan
    have hg : Guarantee none (p.dropStale idle pathless)
        ((p.dropStale idle pathless).borrow conn) := .borrow _ _
    exact Pool.Kept.stable (.inl (Pool.pick_mem hpick)) hg
  | hand hph =>
    cases hhan
    rw [hph] at hok
    have hg : Guarantee none p (p.borrow conn) := .borrow p conn
    exact Pool.Kept.stable hok hg
  | idle _ hidle | drop _ hidle =>
    rw [hhan] at hidle
    cases hidle
  | @bump after _ =>
    cases after with
    | closed =>
      cases hep : p.ownsEndpoint <;> simp only [hep] at hhan <;> cases hhan
    | _ => cases hhan
  | keep | readNone | prove => exact (t.not_handed_authenticated hhan).elim
  | carry _ hfiled =>
    cases hhan
    cases hfiled
  | push _ _ _ =>
    unfold Task.pooled at hhan
    cases hcall : t.call <;> simp only [hcall] at hhan <;> cases hhan
  | _ => cases hhan

theorem Hands.pooled (h : Hands w e conn) (hsa : Safe w) (hs : step w e = some w') :
    ∃ k ∈ w'.shared.connections, k.conn = conn := by
  rcases h with ⟨id, input, t, q, t', rfl, ht, hadv, hhan, ho⟩
  have hk := (Pool.move_of_advance hadv).kept_of_handed (hsa.2.2 id t ht) hhan
  have hw' : w' = ⟨q, w.tasks.set id t'⟩ := by
    have hn : step w (.advance id input) = some ⟨q, w.tasks.set id t'⟩ :=
      Interleave.step_advance ht hadv
    rw [hn] at hs
    exact (Option.some.inj hs).symm
  rw [hw']
  exact hk.pooled ho

theorem settled_of_changing {id : Nat} (ht : w.tasks[id]? = some t)
    (hch : t.phase.changing = some generation) (hst : step w (.advance id .go) = some w') :
    generation ≤ w'.shared.settled := by
  rcases Interleave.step_cases hst with ⟨call, hcall, -⟩ |
    ⟨k, input, u, q, u', hk, hu, hadv, rfl⟩ | ⟨change, q, hcha, -⟩
  · cases hcall
  · cases hk
    rw [ht] at hu
    cases hu
    cases hph : t.phase with
    | bumping after =>
      have hgo : behaviour.advance w.shared t .go =
          some ({ w.shared with epoch := w.shared.epoch + 1 }.afterDrop t after) := by
        show w.shared.go t = _
        unfold Pool.go
        simp only [hph]
      rw [hgo] at hadv
      have hset := { w.shared with epoch := w.shared.epoch + 1 }.settled_afterDrop t after
      rw [Option.some.inj hadv] at hset
      have hgen : after.generation = generation := by
        rw [hph] at hch
        cases after <;> cases hch <;> rfl
      rw [hset, hgen]
      exact le_max_right _ _
    | _ =>
      rw [hph] at hch
      cases hch
  · cases hcha

theorem rotation_keeps {q : Pool} {t' : Task} {auth : Option TwoFactorAuth}
    (hwr : t.phase.writing = some auth) (hsame : identityChanged p.twoFactor auth = false)
    (hgo : p.go t = some (q, t')) :
    q.conns = p.conns ∧ q.connections = p.connections ∧ t'.phase.dropping = false := by
  unfold Pool.go at hgo
  cases hph : t.phase with
  | setting other =>
    rw [hph] at hwr
    cases hwr
    simp only [hph, hsame, Bool.false_eq_true, if_false] at hgo
    cases hgo
    exact ⟨(p.write_frame auth).2.1, (p.write_frame auth).1, rfl⟩
  | storing conn issued =>
    rw [hph] at hwr
    cases hwr
    simp only [hph, hsame, Bool.false_eq_true, if_false] at hgo
    cases hgo
    exact ⟨(p.write_frame (some issued)).2.1, (p.write_frame (some issued)).1, rfl⟩
  | _ =>
    rw [hph] at hwr
    cases hwr

/-- In every run of the pool: once a change of the identity has returned, everything that is
    pooled was authenticated under the identity of that change or of a later one, and so was
    everything that is handed out still open. Writing a credential of the same identity closes
    nothing. -/
theorem no_traffic_under_replaced_identity {ownsEndpoint : Bool} {es : List Event} {w : World}
    (hrun : Machine.run step ⟨.new ownsEndpoint, []⟩ es = some w) :
    (∀ (id generation : Nat) (t : Task) (fs : List Event) (w' v : World),
      w.tasks[id]? = some t → t.phase.changing = some generation →
      step w (.advance id .go) = some w' → Machine.run step w' fs = some v →
        (∀ e ∈ v.shared.connections,
          generation ≤ e.generation ∧ v.shared.Filed e.conn e.generation) ∧
        ∀ event v' conn, step v event = some v' → Hands v event conn →
          ∃ e ∈ v'.shared.connections, e.conn = conn ∧ generation ≤ e.generation ∧
            v'.shared.Filed conn e.generation) ∧
    ∀ (id : Nat) (t : Task) (auth : Option TwoFactorAuth) (q : Pool) (t' : Task),
      w.tasks[id]? = some t → t.phase.writing = some auth →
      identityChanged w.shared.twoFactor auth = false → w.shared.go t = some (q, t') →
        q.conns = w.shared.conns ∧ q.connections = w.shared.connections ∧
          t'.phase.dropping = false := by
  have hsa : Safe w := Machine.invariant Safe (fun _ _ _ h => h.step) (.start ownsEndpoint) hrun
  refine ⟨?_, fun id t auth q t' _ => rotation_keeps⟩
  intro id generation t fs w' v ht hch hret hlat
  -- Everything after the return has settled the generation.
  have hla : Safe v ∧ generation ≤ v.shared.settled :=
    Machine.invariant (fun v => Safe v ∧ generation ≤ v.shared.settled)
      (fun _ _ _ h hst => ⟨h.1.step hst, le_trans h.2 (settled_le_step hst)⟩)
      ⟨hsa.step hret, settled_of_changing ht hch hret⟩ hlat
  refine ⟨?_, ?_⟩
  · intro e he
    have hpo := hla.1.2.1.pooled e he
    exact ⟨le_trans hla.2 hpo.1, hpo.2⟩
  · intro event v' conn hst hhan
    rcases hhan.pooled hla.1 hst with ⟨e, he, rfl⟩
    have hpo := (hla.1.step hst).2.1.pooled e he
    have hset := le_trans hla.2 (settled_le_step hst)
    exact ⟨e, he, rfl, le_trans hset hpo.1, hpo.2⟩

def moves (id : Nat) (inputs : List Input) : List Event :=
  inputs.map fun input => .advance id input

def dialled (id : Nat) : List Event :=
  .start (.getConnection .http) :: moves id (.look [] [] true :: List.replicate 11 .go)

def replaced : List Event :=
  .start (.setCredential (some ⟨"one", none, "s"⟩)) :: moves 0 (List.replicate 3 .go) ++
    dialled 1 ++ .start (.setCredential (some ⟨"two", none, "s"⟩)) :: moves 2 [.go, .go]

def reached (es : List Event) : World :=
  (Machine.run step ⟨.new true, []⟩ es).getD ⟨.new true, []⟩

theorem no_traffic_under_replaced_identity_example :
    let w' := reached (replaced ++ moves 2 [.go])
    let v := reached (replaced ++ moves 2 [.go] ++ (dialled 3).dropLast)
    let v' := reached (replaced ++ moves 2 [.go] ++ dialled 3)
    w'.shared.connections = [] ∧ w'.shared.isClosed 0 = true ∧
      v.shared.connections = [⟨1, .http, 2⟩] ∧
      (∀ e ∈ v.shared.connections, 2 ≤ e.generation ∧ v.shared.Filed e.conn e.generation) ∧
      v'.shared.isOpen 1 = true ∧ ∃ e ∈ v'.shared.connections, e.conn = 1 ∧ 2 ≤ e.generation ∧
        v'.shared.Filed 1 e.generation := by
  intro w' v v'
  have hrun : Machine.run step ⟨.new true, []⟩ replaced = some (reached replaced) := by
    decide +kernel
  have haft := (no_traffic_under_replaced_identity hrun).1 2 2
    ⟨.setCredential (some ⟨"two", none, "s"⟩), .bumping (.written 2), none⟩ (dialled 3).dropLast
    w' v (by decide +kernel) rfl (by decide +kernel) (by decide +kernel)
  have hhan : Hands v (.advance 3 .go) 1 :=
    ⟨3, .go, ⟨.getConnection .http, .settling 1, some 1⟩, v'.shared,
      ⟨.getConnection .http, .done (.handed 1), some 1⟩, rfl, by decide +kernel,
      by decide +kernel, rfl, by decide +kernel⟩
  exact ⟨by decide +kernel, by decide +kernel, by decide +kernel, haft.1, by decide +kernel,
    haft.2 (.advance 3 .go) v' 1 (by decide +kernel) hhan⟩

end Nexapipe.ConnectionPool
