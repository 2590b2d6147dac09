import Nexapipe.Client.PoolMoves

/-!
# The exchange of a token

A one-time token buys a credential. A dial that finds a token in its pool presents it to the
server, and when the credential has come back it writes it, drops the connections of whoever was
there before, and clears the token.

`careful` is what keeps another dial from presenting it: a dial takes it only when no other has
it, and the dial that has it is not given up before it has cleared it. Then the dial is the only
one in its pool between taking the token and clearing it, and when it has cleared it the pool has
the credential. `Tokens` says so of a pool, and `Spent` says how far the exchange is once the
server has accepted.
-/

namespace Nexapipe.ConnectionPool

open Option Bool

/-! ### One pool -/

def Phase.enrolling : Phase → Bool
  | .presenting _ _ | .presented _ _ _ | .storing _ _ | .sweeping (.enrolled _ _ _)
  | .bumping (.enrolled _ _ _) | .spending _ _ _ => true
  | _ => false

def Phase.sent : Phase → Bool
  | .presenting _ _ => false
  | phase => phase.enrolling

def Phase.token : Phase → Option Enrollment
  | .presenting _ enrollment | .presented _ enrollment _ => some enrollment
  | _ => none

def Phase.accepted : Phase → Option TwoFactorAuth
  | .presented _ _ issued => issued
  | .storing _ issued | .sweeping (.enrolled _ issued _) | .bumping (.enrolled _ issued _)
  | .spending _ issued _ => some issued
  | _ => none

def Phase.stored : Phase → Bool
  | .sweeping (.enrolled _ _ _) | .bumping (.enrolled _ _ _) | .spending _ _ _ => true
  | _ => false

def Phase.touching : Phase → Bool
  | .reading _ | .setting _ => true
  | _ => false

def Phase.answers : Phase → Bool
  | .presented _ enrollment (some issued) => issued.clientId = enrollment.clientId
  | _ => true

/-- What keeps a token from being presented twice: nobody configures another credential or token,
    a dial takes a token only when no other dial of the pool has it, and one that has sent it is
    not given up before it has cleared it, unless the server refused the token. -/
def careful (w : World) : Event → Bool
  | .start (.setCredential _) => false
  | .ambient (.setEnrollment _) => false
  | .advance id input =>
    match (w.tasks[id]?).map Task.phase, input with
    | some (.connected _), .go =>
      w.shared.enrollment.isNone || w.tasks.all fun t => !t.phase.enrolling
    | some phase, .cancel | some phase, .expire => !phase.sent
    | some (.presented _ _ (some _)), .fail _ => false
    | some (.presented _ enrollment none), .issue issued =>
      issued.clientId = enrollment.clientId
    | _, _ => true
  | _ => true

inductive Turn (p q : Pool) (t t' : Task) (input : Input) : Prop where
  /-- Nothing. -/
  | still (hp : t.phase.enrolling = false) (hq : t'.phase.enrolling = false)
      (henrollment : q.enrollment = p.enrollment) (htwoFactor : q.twoFactor = p.twoFactor)
      (hreading : t'.phase.touching = true → ∃ conn, t'.phase = .reading conn ∧
        p.enrollment = none) : Turn p q t t' input
  | take {conn : ConnId} {enrollment : Enrollment} (hinput : input = .go)
      (hphase : t.phase = .connected conn) (htoken : p.enrollment = some enrollment) (hq : q = p)
      (hphase' : t'.phase = .presenting conn enrollment) : Turn p q t t' input
  /-- The exchange goes on. -/
  | on (hp : t.phase.enrolling = true) (hq : t'.phase.enrolling = true)
      (henrollment : q.enrollment = p.enrollment)
      (htoken : ∀ enrollment, t'.phase.token = some enrollment →
        t.phase.token = some enrollment)
      (haccepted : ∀ issued, t.phase.accepted = some issued → t'.phase.accepted = some issued)
      (hstored : t'.phase.stored = true →
        t.phase.stored = true ∧ q.twoFactor = p.twoFactor ∨ q.twoFactor = t'.phase.accepted) :
      Turn p q t t' input
  | spend {issued : TwoFactorAuth} (hp : t.phase.enrolling = true)
      (haccepted : t.phase.accepted = some issued) (hstored : t.phase.stored = true)
      (hq : t'.phase.enrolling = false) (htouching : t'.phase.touching = false)
      (henrollment : q.enrollment = none) (htwoFactor : q.twoFactor = p.twoFactor) :
      Turn p q t t' input
  /-- The exchange is given up before the server has accepted. -/
  | giveUp (hp : t.phase.enrolling = true) (haccepted : t.phase.accepted = none)
      (hq : t'.phase.enrolling = false) (htouching : t'.phase.touching = false)
      (henrollment : q.enrollment = p.enrollment) (htwoFactor : q.twoFactor = p.twoFactor) :
      Turn p q t t' input

section Turns

variable {p q : Pool} {t t' : Task} {input : Input}

variable {phase : Phase} {conn : ConnId} {issued : TwoFactorAuth} {configured : Option Enrollment}
  {change : Ambient}

theorem Phase.touching_of_enrolling (h : phase.enrolling = true) : phase.touching = false := by
  cases phase <;> first | rfl | cases h

theorem Phase.enrolling_of_idle (h : phase.idle = true) :
    phase.enrolling = false ∧ phase.touching = false := by
  cases phase <;> first | exact ⟨rfl, rfl⟩ | cases h

theorem Phase.enrolling_of_filed {generation : Nat} (h : phase.filed = some (conn, generation)) :
    phase.enrolling = false ∧ phase.touching = false := by
  cases phase <;> first | exact ⟨rfl, rfl⟩ | cases h

theorem Phase.owned_of_enrolling (h : phase.enrolling = true) :
    phase.owned ≠ none ∧ phase.filed = none := by
  cases phase with
  | sweeping after | bumping after =>
    cases after <;> first | exact ⟨some_ne_none _, rfl⟩ | cases h
  | _ => first | exact ⟨some_ne_none _, rfl⟩ | cases h

theorem Phase.accepted_of_not_sent (h : phase.sent = false) : phase.accepted = none := by
  cases phase with
  | sweeping after | bumping after => cases after <;> first | rfl | cases h
  | _ => first | rfl | cases h

theorem Turn.of_same (hp : t.phase.enrolling = false)
    (hq : t'.phase.enrolling = false ∧ t'.phase.touching = false)
    (henr : q.enrollment = p.enrollment) (htwo : q.twoFactor = p.twoFactor) :
    Turn p q t t' input := by
  refine .still hp hq.1 henr htwo ?_
  intro ht
  rw [hq.2] at ht
  cases ht

open Phase

theorem Move.turn (h : Move p t input q t')
    (hcan : input = .cancel ∨ input = .expire → t.phase.sent = false)
    (hfail : ∀ conn enrollment issued error,
      t.phase = .presented conn enrollment (some issued) → input ≠ .fail error)
    (hans : t.phase.answers = true) (hset : t.phase.touching = true →
      ∃ conn, t.phase = .reading conn) : Turn p q t t' input := by
  cases h with
  | idle halike hidle hgive =>
    rcases henr : t.phase.enrolling with _ | _
    · exact .of_same henr (enrolling_of_idle hidle) halike.enrollment
        halike.twoFactor
    have hsent : t.phase.sent = false := by
      rcases hgive with hown | hrest
      · exact absurd hown (owned_of_enrolling henr).1
      rcases hrest with hinp | hinp | hfiled
      · exact hcan (.inl hinp)
      · exact hcan (.inr hinp)
      · simp [(owned_of_enrolling henr).2] at hfiled
    exact .giveUp henr (accepted_of_not_sent hsent)
      (enrolling_of_idle hidle).1 (enrolling_of_idle hidle).2 halike.enrollment
      halike.twoFactor
  | drop hph hidle =>
    have haft := enrolling_of_idle hidle
    rcases hph with ⟨enrollment, issued, hph, hwhy⟩ | ⟨auth, generation, hph⟩ |
      ⟨generation, hph⟩
    · rcases issued with _ | issued
      · exact .giveUp (by rw [hph]; rfl) (by rw [hph]; rfl) haft.1 haft.2 rfl rfl
      -- The server has accepted, so the dial is not given up.
      rcases hwhy with ⟨error, hinp⟩ | ⟨auth, hauth, hcl⟩
      · exact absurd hinp (hfail _ _ _ error hph)
      cases hauth
      rw [hph] at hans
      exact absurd (of_decide_eq_true hans) hcl
    · exact .of_same (by rw [hph]; rfl) haft rfl rfl
    · exact .of_same (by rw [hph]; rfl) haft rfl rfl
  | @leave channel conn hph =>
    have halike := p.alike_clearDialSlot t.call.protocol channel
    exact .of_same (by rw [hph]; rfl) ⟨rfl, rfl⟩ halike.enrollment halike.twoFactor
  | take hph htoken => exact .take rfl hph htoken rfl rfl
  | skip hph htoken =>
    exact .still (by rw [hph]; rfl) rfl rfl rfl fun _ => ⟨_, rfl, htoken⟩
  | present hph | issue hph =>
    refine .on (by rw [hph]; rfl) rfl rfl ?_ ?_ nofun
    · intro enrollment htoken
      rw [hph]
      exact htoken
    · intro issued hacc
      rw [hph] at hacc
      cases hacc
  | accept hph =>
    refine .on (by rw [hph]; rfl) rfl rfl nofun ?_ nofun
    intro issued hacc
    rw [hph] at hacc
    exact hacc
  | @storeNew conn issued hph _ | @storeSame conn issued hph _ =>
    have hwrit : (p.write (some issued)).twoFactor = some issued := by
      unfold Pool.write
      cases identityChanged p.twoFactor (some issued) <;> rfl
    refine .on (by rw [hph]; rfl) rfl (p.write_frame _).2.2.2.2 nofun ?_ fun _ =>
      .inr hwrit
    intro issued hacc
    rw [hph] at hacc
    exact hacc
  | setNew hph | setSame hph =>
    rcases hset (by rw [hph]; rfl) with ⟨conn, hread⟩
    rw [hph] at hread
    cases hread
  | @sweep after hph =>
    cases after with
    | enrolled conn issued generation =>
      refine .on (by rw [hph]; rfl) rfl rfl nofun ?_ fun _ =>
        .inl ⟨by rw [hph]; rfl, rfl⟩
      intro issued hacc
      rw [hph] at hacc
      exact hacc
    | _ => exact .of_same (by rw [hph]; rfl) ⟨rfl, rfl⟩ rfl rfl
  | @bump after hph =>
    cases after with
    | enrolled conn issued generation =>
      refine .on (by rw [hph]; rfl) rfl rfl nofun ?_ fun _ =>
        .inl ⟨by rw [hph]; rfl, rfl⟩
      intro issued hacc
      rw [hph] at hacc
      exact hacc
    | closed =>
      refine .of_same (by rw [hph]; rfl) ?_ ?_ ?_
      all_goals
        cases p.ownsEndpoint
        all_goals first | rfl | exact ⟨rfl, rfl⟩
    | _ => exact .of_same (by rw [hph]; rfl) ⟨rfl, rfl⟩ rfl rfl
  | spend hph =>
    exact .spend (by rw [hph]; rfl) (by rw [hph]; rfl) (by rw [hph]; rfl) rfl rfl rfl rfl
  | keep hph | readNone hph | prove hph =>
    exact .of_same (by rw [hph]; rfl)
      (enrolling_of_filed (t.filed_authenticated _ _)) rfl rfl
  | carry hph hfiled =>
    exact .of_same (enrolling_of_filed hph).1 (enrolling_of_filed hfiled) rfl rfl
  | push hph _ _ =>
    refine .of_same (by rw [hph]; rfl) ?_ rfl rfl
    unfold Task.pooled
    cases t.call <;> exact ⟨rfl, rfl⟩
  | miss hph | borrow hph _ | hand hph | told hph _ | announce hph
  | connect hph | read hph _ | close hph =>
    exact .of_same (by rw [hph]; rfl) ⟨rfl, rfl⟩ rfl rfl

theorem Phase.answers_of_token (h : phase.token = none) : phase.answers = true := by
  cases phase <;> first | rfl | cases h

theorem Phase.token_of_not_enrolling (h : phase.enrolling = false) :
    phase.token = none ∧ phase.accepted = none := by
  cases phase with
  | sweeping after | bumping after => cases after <;> first | exact ⟨rfl, rfl⟩ | cases h
  | _ => first | exact ⟨rfl, rfl⟩ | cases h

theorem Move.answers (h : Move p t input q t') (hiss : ∀ conn enrollment issued,
      t.phase = .presented conn enrollment none → input = .issue issued →
        issued.clientId = enrollment.clientId) : t'.phase.answers = true := by
  cases h with
  | idle _ hidle | drop _ hidle =>
    exact answers_of_token
      (token_of_not_enrolling (enrolling_of_idle hidle).1).1
  | issue hph => exact decide_eq_true (hiss _ _ _ hph rfl)
  | @bump after _ =>
    cases after with
    | closed =>
      cases p.ownsEndpoint <;> rfl
    | _ => rfl
  | keep | readNone | prove =>
    exact answers_of_token (token_of_not_enrolling
      (enrolling_of_filed (t.filed_authenticated _ _)).1).1
  | carry _ hfiled =>
    exact answers_of_token
      (token_of_not_enrolling (enrolling_of_filed hfiled).1).1
  | push _ _ _ =>
    unfold Task.pooled
    cases t.call <;> rfl
  | _ => rfl

/-! ### Careful steps -/

variable {w w' : World} {id : Nat} {e : Event}

theorem careful_take (h : careful w (.advance id .go) = true) (ht : w.tasks[id]? = some t)
    (hph : t.phase = .connected conn) (htoken : w.shared.enrollment ≠ none) :
    ∀ u ∈ w.tasks, u.phase.enrolling = false := by
  simp only [careful, ht, map_some, hph] at h
  rcases or_eq_true_iff.mp h with hn | hall
  · exact absurd (isNone_iff_eq_none.mp hn) htoken
  · intro u hu
    exact (not_eq_true' _).mp (List.all_eq_true.mp hall u hu)

theorem careful_cancel (h : careful w (.advance id input) = true) (ht : w.tasks[id]? = some t)
    (hinp : input = .cancel ∨ input = .expire) : t.phase.sent = false := by
  rcases hinp with rfl | rfl
  · simp only [careful, ht, map_some] at h
    cases hph : t.phase <;> rw [hph] at h <;> first | rfl | exact (not_eq_true' _).mp h
  · simp only [careful, ht, map_some] at h
    cases hph : t.phase <;> rw [hph] at h <;> first | rfl | exact (not_eq_true' _).mp h

theorem careful_fail (h : careful w (.advance id input) = true) (ht : w.tasks[id]? = some t)
    (conn : ConnId) (enrollment : Enrollment) (issued : TwoFactorAuth) (error : ClientError)
    (hph : t.phase = .presented conn enrollment (some issued)) : input ≠ .fail error := by
  rintro rfl
  simp only [careful, ht, map_some, hph] at h
  cases h

theorem careful_issue (h : careful w (.advance id input) = true) (ht : w.tasks[id]? = some t)
    (conn : ConnId) (enrollment : Enrollment) (issued : TwoFactorAuth)
    (hph : t.phase = .presented conn enrollment none) (hinp : input = .issue issued) :
    issued.clientId = enrollment.clientId := by
  subst hinp
  simp only [careful, ht, map_some, hph] at h
  exact of_decide_eq_true h

/-- What holds of a pool that was given a token, or none: there is no other token, one dial at most
    has it while the pool still holds it, and the credential is read only when it is gone. -/
structure Tokens (configured : Option Enrollment) (w : World) : Prop where
  held : ∀ enrollment, w.shared.enrollment = some enrollment → configured = some enrollment
  carried : ∀ (id : Nat) t enrollment, w.tasks[id]? = some t →
    t.phase.token = some enrollment → configured = some enrollment
  one : ∀ (i j : Nat) t u, w.tasks[i]? = some t → w.tasks[j]? = some u →
    t.phase.enrolling = true → u.phase.enrolling = true → i = j
  holds : ∀ (id : Nat) t, w.tasks[id]? = some t → t.phase.enrolling = true →
    w.shared.enrollment ≠ none
  touching : ∀ (id : Nat) t, w.tasks[id]? = some t → t.phase.touching = true →
    (∃ conn, t.phase = .reading conn) ∧ w.shared.enrollment = none
  answers : ∀ (id : Nat) t, w.tasks[id]? = some t → t.phase.answers = true

def Spent (issued : TwoFactorAuth) (w : World) : Prop :=
  (w.shared.enrollment ≠ none ∧ ∃ (id : Nat) (t : Task), w.tasks[id]? = some t ∧
    t.phase.accepted = some issued ∧
    (t.phase.stored = true → w.shared.twoFactor = some issued)) ∨
  w.shared.enrollment = none ∧ w.shared.twoFactor = some issued

theorem Phase.enrolling_of_accepted (h : phase.accepted = some issued) :
    phase.enrolling = true := by
  rcases henr : phase.enrolling with _ | _
  · simp [(token_of_not_enrolling henr).2] at h
  · rfl

theorem Tokens.turn (h : Tokens configured w) (ht : w.tasks[id]? = some t)
    (hadv : w.shared.advance t input = some (q, t'))
    (hcar : careful w (.advance id input) = true) : Turn w.shared q t t' input :=
  (Pool.move_of_advance hadv).turn (careful_cancel hcar ht) (careful_fail hcar ht)
    (h.answers id t ht) fun hto => (h.touching id t ht hto).1

theorem Pool.ambient_token (h : ∀ enrollment, change ≠ .setEnrollment enrollment) (p : Pool) :
    (p.ambient change).enrollment = p.enrollment ∧
      (p.ambient change).twoFactor = p.twoFactor := by
  cases change with
  | setEnrollment enrollment => exact absurd rfl (h enrollment)
  | _ => exact ⟨rfl, rfl⟩

theorem careful_ambient (h : careful w (.ambient change) = true) :
    ∀ enrollment, change ≠ .setEnrollment enrollment := by
  rintro enrollment rfl
  cases h

theorem careful_start {call : Call} (h : careful w (.start call) = true) :
    call.start.enrolling = false ∧ call.start.touching = false := by
  cases call with
  | setCredential auth => cases h
  | _ => exact ⟨rfl, rfl⟩

structure Turned (configured : Option Enrollment) (w : World) (id : Nat) (q : Pool) (t' : Task) :
    Prop where
  enrollment : q.enrollment = w.shared.enrollment ∨ q.enrollment = none
  carried : ∀ enrollment, t'.phase.token = some enrollment → configured = some enrollment
  mine : t'.phase.enrolling = true → q.enrollment ≠ none ∧
    ∀ (j : Nat) u, j ≠ id → w.tasks[j]? = some u → u.phase.enrolling = false
  others : ∀ (j : Nat) u, j ≠ id → w.tasks[j]? = some u → u.phase.enrolling = true →
    q.enrollment ≠ none
  touching : t'.phase.touching = true → (∃ conn, t'.phase = .reading conn) ∧ q.enrollment = none

theorem Tokens.turned (h : Tokens configured w) (ht : w.tasks[id]? = some t)
    (hturn : Turn w.shared q t t' input) (hcar : careful w (.advance id input) = true) :
    Turned configured w id q t' := by
  -- The others keep what they have while the pool keeps the token.
  have hoth : q.enrollment = w.shared.enrollment → ∀ (j : Nat) u, j ≠ id →
      w.tasks[j]? = some u → u.phase.enrolling = true → q.enrollment ≠ none := by
    intro hsame j u _ hu henro
    rw [hsame]
    exact h.holds j u hu henro
  have halon : t.phase.enrolling = true → ∀ (j : Nat) u, j ≠ id → w.tasks[j]? = some u →
      u.phase.enrolling = false := by
    intro henro j u hne hu
    rcases hu' : u.phase.enrolling with _ | _
    · rfl
    · exact absurd (h.one j id u t hu ht hu' henro) hne
  have hquie : t'.phase.enrolling = false → (∀ enrollment, t'.phase.token = some enrollment →
      configured = some enrollment) := by
    intro hnone enrollment htoken
    rw [(token_of_not_enrolling hnone).1] at htoken
    cases htoken
  have hnev : ∀ {b : Bool} {P : Prop}, b = false → b = true → P := by
    intro b P hfal htrue
    rw [hfal] at htrue
    cases htrue
  cases hturn with
  | still hp hq henr _ hread =>
    refine ⟨.inl henr, hquie hq, hnev hq, hoth henr, ?_⟩
    intro htouc
    rcases hread htouc with ⟨conn, hph, hnone⟩
    exact ⟨⟨conn, hph⟩, henr.trans hnone⟩
  | @take conn enrollment hinp hph htoken hq hph' =>
    subst hq hinp
    have hsome : w.shared.enrollment ≠ none := by
      rw [htoken]
      exact some_ne_none _
    have hfree := careful_take hcar ht hph hsome
    refine ⟨.inl rfl, ?_, ?_, hoth rfl, ?_⟩
    · intro other hothe
      rw [hph'] at hothe
      cases hothe
      exact h.held enrollment htoken
    · exact fun _ => ⟨hsome, fun j u _ hu => hfree u (List.mem_of_getElem? hu)⟩
    · rw [hph']
      nofun
  | on hp hq henr htoken _ _ =>
    refine ⟨.inl henr, ?_, ?_, hoth henr,
      hnev (touching_of_enrolling hq)⟩
    · intro enrollment hcarr
      exact h.carried id t enrollment ht (htoken enrollment hcarr)
    · intro _
      rw [henr]
      exact ⟨h.holds id t ht hp, halon hp⟩
  | spend hp _ _ hq htouc henr _ =>
    refine ⟨.inr henr, hquie hq, hnev hq, ?_, hnev htouc⟩
    intro j u hne hu henro
    exact hnev (halon hp j u hne hu) henro
  | giveUp hp _ hq htouc henr _ =>
    exact ⟨.inl henr, hquie hq, hnev hq, hoth henr, hnev htouc⟩

open Interleave

theorem Tokens.step (h : Tokens configured w) (hcar : careful w e = true)
    (hstep : ConnectionPool.step w e = some w') : Tokens configured w' := by
  rcases step_cases hstep with ⟨call, rfl, rfl⟩ |
    ⟨id, input, t, q, t', rfl, ht, hadv, rfl⟩ | ⟨change, q, rfl, hq, rfl⟩
  · -- A task that starts has no token.
    have hnew := careful_start hcar
    have hold : ∀ (i : Nat) u, (w.tasks ++ [behaviour.start call])[i]? = some u →
        w.tasks[i]? = some u ∨ u.phase.enrolling = false ∧ u.phase.touching = false := by
      intro i u hu
      rcases Best.getElem?_append_singleton.mp hu with hold | ⟨-, rfl⟩
      · exact .inl hold
      · exact .inr hnew
    refine ⟨h.held, ?_, ?_, ?_, ?_, ?_⟩
    · intro i u enrollment hu htoken
      rcases hold i u hu with hu' | ⟨hnone, -⟩
      · exact h.carried i u enrollment hu' htoken
      · simp [(token_of_not_enrolling hnone).1] at htoken
    · intro i j u v hu hv hui hvi
      rcases hold i u hu with hu' | ⟨hnone, -⟩
      · rcases hold j v hv with hv' | ⟨hnone, -⟩
        · exact h.one i j u v hu' hv' hui hvi
        · simp [hnone] at hvi
      · simp [hnone] at hui
    · intro i u hu henr
      rcases hold i u hu with hu' | ⟨hnone, -⟩
      · exact h.holds i u hu' henr
      · simp [hnone] at henr
    · intro i u hu htouc
      rcases hold i u hu with hu' | ⟨-, hnone⟩
      · exact h.touching i u hu' htouc
      · simp [hnone] at htouc
    · intro i u hu
      rcases hold i u hu with hu' | ⟨hnone, -⟩
      · exact h.answers i u hu'
      · exact answers_of_token (token_of_not_enrolling hnone).1
  · have htur := h.turned ht (h.turn ht hadv hcar) hcar
    have hbef : ∀ (i : Nat) u, (w.tasks.set id t')[i]? = some u →
        i ≠ id ∧ w.tasks[i]? = some u ∨ i = id ∧ t' = u :=
      fun i u hu => getElem?_set_eq_some hu
    refine ⟨?_, ?_, ?_, ?_, ?_, ?_⟩
    · intro enrollment henro
      rcases htur.enrollment with hsame | hnone
      · exact h.held enrollment (hsame ▸ henro)
      · simp [hnone] at henro
    · intro i u enrollment hu htoken
      rcases hbef i u hu with ⟨-, hold⟩ | ⟨-, rfl⟩
      · exact h.carried i u enrollment hold htoken
      · exact htur.carried enrollment htoken
    · intro i j u v hu hv hui hvi
      rcases hbef i u hu with ⟨hi, hu'⟩ | ⟨rfl, rfl⟩
      · rcases hbef j v hv with ⟨-, hv'⟩ | ⟨rfl, rfl⟩
        · exact h.one i j u v hu' hv' hui hvi
        · simp [(htur.mine hvi).2 i u hi hu'] at hui
      rcases hbef j v hv with ⟨hj, hv'⟩ | ⟨rfl, -⟩
      · simp [(htur.mine hui).2 j v hj hv'] at hvi
      · rfl
    · intro i u hu henr
      rcases hbef i u hu with ⟨hi, hold⟩ | ⟨-, rfl⟩
      · exact htur.others i u hi hold henr
      · exact (htur.mine henr).1
    · intro i u hu htouc
      rcases hbef i u hu with ⟨-, hold⟩ | ⟨-, rfl⟩
      · have hther := h.touching i u hold htouc
        rcases htur.enrollment with hsame | hnone
        · exact ⟨hther.1, hsame.trans hther.2⟩
        · exact ⟨hther.1, hnone⟩
      · exact htur.touching htouc
    · intro i u hu
      rcases hbef i u hu with ⟨-, hold⟩ | ⟨-, rfl⟩
      · exact h.answers i u hold
      · exact (Pool.move_of_advance hadv).answers (careful_issue hcar ht)
  · cases hq
    have hsame := Pool.ambient_token (careful_ambient hcar) w.shared
    refine ⟨?_, h.carried, h.one, ?_, ?_, h.answers⟩
    · intro enrollment henro
      exact h.held enrollment (hsame.1 ▸ henro)
    · intro i u hu henr
      rw [hsame.1]
      exact h.holds i u hu henr
    · intro i u hu htouc
      rw [hsame.1]
      exact h.touching i u hu htouc

theorem Spent.step (hspen : Spent issued w) (h : Tokens configured w)
    (hcar : careful w e = true) (hstep : ConnectionPool.step w e = some w') :
    Spent issued w' := by
  rcases step_cases hstep with ⟨call, rfl, rfl⟩ |
    ⟨id, input, t, q, t', rfl, ht, hadv, rfl⟩ | ⟨change, q, rfl, hq, rfl⟩
  · rcases hspen with ⟨hsome, k, u, hu, hacc, hstored⟩ | hdone
    · exact .inl ⟨hsome, k, u, Best.getElem?_append_singleton.mpr (.inl hu), hacc,
        hstored⟩
    · exact .inr hdone
  · have hturn := h.turn ht hadv hcar
    rcases hspen with ⟨hsome, k, u, hu, hacc, hstored⟩ | ⟨hnone, htwo⟩
    · have henro := enrolling_of_accepted hacc
      by_cases hk : k = id
      · -- The dial that has the token moves.
        subst hk
        rw [ht] at hu
        cases hu
        have hlt : k < w.tasks.length := (List.getElem?_eq_some_iff.mp ht).1
        have hset : (w.tasks.set k t')[k]? = some t' := List.getElem?_set_self hlt
        cases hturn with
        | still hp _ _ _ _ => simp [hp] at henro
        | take _ hph _ _ _ =>
          rw [hph] at henro
          cases henro
        | on _ _ henr _ hgoes hwrite =>
          have hstil := hgoes issued hacc
          refine .inl ⟨henr ▸ hsome, k, t', hset, hstil, ?_⟩
          intro hwrit
          rcases hwrite hwrit with ⟨hbef, hsame⟩ | hnow
          · exact hsame.trans (hstored hbef)
          · exact hnow.trans hstil
        | spend _ hmine hwrit _ _ henr htwo =>
          exact .inr ⟨henr, htwo.trans (hstored hwrit)⟩
        | giveUp _ hnot _ _ _ _ => simp [hnot] at hacc
      · -- Any other task has no token, and cannot take it either.
        have hset : (w.tasks.set id t')[k]? = some u := by
          rw [List.getElem?_set_ne (fun heq => hk heq.symm)]
          exact hu
        have hoth : t.phase.enrolling = false := by
          rcases hmov : t.phase.enrolling with _ | _
          · rfl
          · exact absurd (h.one k id u t hu ht henro hmov) hk
        cases hturn with
        | still _ _ henr htwo _ =>
          exact .inl ⟨henr ▸ hsome, k, u, hset, hacc,
            fun hwrit => htwo.trans (hstored hwrit)⟩
        | take hinp hph _ _ _ =>
          subst hinp
          have hfree := careful_take hcar ht hph hsome u (List.mem_of_getElem? hu)
          rw [hfree] at henro
          cases henro
        | on hp | spend hp | giveUp hp => simp [hp] at hoth
    · cases hturn with
      | still _ _ henr hsame _ =>
        exact .inr ⟨henr.trans hnone, hsame.trans htwo⟩
      | take _ _ htoken _ _ => simp [hnone] at htoken
      | on hp | spend hp | giveUp hp => exact absurd hnone (h.holds id t ht hp)
  · cases hq
    have hsame := Pool.ambient_token (careful_ambient hcar) w.shared
    rcases hspen with ⟨hsome, k, u, hu, hacc, hstored⟩ | ⟨hnone, htwo⟩
    · refine .inl ⟨?_, k, u, hu, hacc, fun hwrit => hsame.2.trans (hstored hwrit)⟩
      rw [hsame.1]
      exact hsome
    · exact .inr ⟨hsame.1.trans hnone, hsame.2.trans htwo⟩

theorem Tokens.spent_of_issue (h : Tokens configured w) (ht : w.tasks[id]? = some t)
    {enrollment : Enrollment} (hph : t.phase = .presented conn enrollment none)
    (hs : ConnectionPool.step w (.advance id (.issue issued)) = some w') : Spent issued w' := by
  have hso : w.shared.enrollment ≠ none := h.holds id t ht (by rw [hph]; rfl)
  have hadv : w.shared.advance t (.issue issued) =
      some (w.shared, t.to (.presented conn enrollment (some issued))) := by
    simp only [Pool.advance, hph]
  have hn : ConnectionPool.step w (.advance id (.issue issued)) = some
      ⟨w.shared, w.tasks.set id (t.to (.presented conn enrollment (some issued)))⟩ :=
    step_advance ht hadv
  rw [hn] at hs
  cases hs
  have hlt : id < w.tasks.length := (List.getElem?_eq_some_iff.mp ht).1
  exact .inl ⟨hso, id, _, List.getElem?_set_self hlt, rfl,
    fun hstored => absurd hstored false_ne_true⟩

theorem Spent.quiet (hsp : Spent issued w) (h : Tokens configured w)
    (ht : w.tasks[id]? = some t) :
    (∀ conn enrollment, t.phase ≠ .presenting conn enrollment) ∧
      ∀ conn, t.phase = .reading conn → w.shared.twoFactor = some issued := by
  rcases hsp with ⟨hso, k, u, hu, hacc, -⟩ | ⟨hno, htwo⟩
  · refine ⟨?_, ?_⟩
    · intro conn enrollment hph
      -- The dial that has been accepted is the only one with the token.
      have hk := h.one k id u t hu ht (enrolling_of_accepted hacc) (by rw [hph]; rfl)
      subst hk
      rw [ht] at hu
      cases hu
      rw [hph] at hacc
      cases hacc
    · intro conn hph
      exact absurd (h.touching id t ht (by rw [hph]; rfl)).2 hso
  · refine ⟨?_, fun _ _ => htwo⟩
    intro conn enrollment hph
    exact h.holds id t ht (by rw [hph]; rfl) hno

end Turns

end Nexapipe.ConnectionPool
