import Nexapipe.Client.PoolMoves

/-!
# Shared dials

Whoever needs a connection takes the slot of its protocol and dials, or joins the dial that has
the slot and waits for what is said on its channel. Everybody who is done with a dial clears the
slot, if it is still that of this dial. A caller that is dropped while it dials leaves its slot
behind, and its channel is lost.

A channel on which nothing has been said is that of one task, which dials and has the slot. Who
clears a slot has dialled or been told, so that it is not that of a dial that runs.
-/

namespace Nexapipe.ConnectionPool

open List

abbrev Told : Type := Option (Except ClientError ConnId)

inductive Stage where
  | off
  | dialing
  | waiting (channel : Nat)
  | leaving (channel : Nat) (said : Channel)

def Phase.stage : Phase → Stage
  | .waiting channel => .waiting channel
  | .leaving channel outcome => .leaving channel (outcome.elim .lost .sent)
  | .asking | .warming | .choosing | .setting _ | .settling _ | .closing | .done _ => .off
  | .sweeping (.enrolled ..) | .bumping (.enrolled ..) => .dialing
  | .sweeping _ | .bumping _ => .off
  | _ => .dialing

def Phase.mine (shares : Bool) : Phase → Bool
  | .asking | .choosing | .waiting _ | .leaving _ _ | .settling _ => shares
  | .warming | .warmed _ _ | .observing _ _ => !shares
  | _ => true

def Call.shares : Call → Bool
  | .getConnection _ => true
  | _ => false

def Task.stage (t : Task) : Stage :=
  if t.call.shares then t.phase.stage else .off

def Task.Mine (t : Task) : Prop :=
  t.phase.mine t.call.shares = true

inductive DialTurn (p : Pool) (t : Task) : Input → Pool → Task → Prop where
  | keep {input : Input} {q : Pool} {t' : Task}
      (hsame : q.dialing = p.dialing ∧ q.channels = p.channels ∧ t'.call = t.call ∧
        t'.channel = t.channel ∧ t'.stage = t.stage ∧ t'.Mine) : DialTurn p t input q t'
  | take (hphase : t.phase = .choosing) : DialTurn p t .go (p.takeSlot t).1 (p.takeSlot t).2
  | hear {channel : Nat} {outcome : Told} (hphase : t.phase = .waiting channel)
      (hsaid : p.channels[channel]? = some (outcome.elim .lost .sent)) :
      DialTurn p t .go p (t.to (.leaving channel outcome))
  | announce {channel : Nat} {outcome : Except ClientError ConnId}
      (hphase : t.phase = .announcing outcome) (hchannel : t.channel = some channel) :
      DialTurn p t .go { p with channels := p.channels.set channel (.sent outcome) }
        (t.to (.leaving channel (some outcome)))
  | leave {channel : Nat} {outcome : Told} {phase : Phase}
      (hphase : t.phase = .leaving channel outcome) (hstage : phase.stage = .off)
      (hmine : phase.mine true = true) : DialTurn p t .go (p.clearDialSlot t.call.protocol channel)
        (t.to phase)
  | cancel : DialTurn p t .cancel (p.lose t) (t.to (.done .gone))

section Moves

attribute [local grind] Task.to Task.stage Task.Mine Call.shares

open Entries

variable {p q : Pool} {t t' u : Task} {input : Input}

theorem turn_of_go (hmine : t.Mine) (h : p.go t = some (q, t')) : DialTurn p t .go q t' := by
  revert h
  fun_cases Pool.go p t with
  | case4 hph =>
    intro h
    rw [← (Prod.mk.inj (Option.some.inj h)).1, ← (Prod.mk.inj (Option.some.inj h)).2]
    exact .take hph
  | case5 channel hph outcome hsaid | case6 channel hph hsaid =>
    rintro ⟨⟩
    exact .hear hph hsaid
  | case34 outcome hph channel hch =>
    rintro ⟨⟩
    exact .announce hph hch
  | case36 _ _ _ hph | case37 _ _ _ hph | case38 _ _ hph =>
    intro h
    rcases Prod.mk.inj (Option.some.inj h) with ⟨rfl, rfl⟩
    exact .leave hph rfl rfl
  | case21 after | case22 after =>
    intro h
    refine .keep ?_
    cases after <;> grind [Phase.stage, Phase.mine, Pool.sweep, Pool.close, Pool.edit,
      Pool.afterDrop]
  | case33 conn generation =>
    fun_cases Pool.poolConnection p t conn generation <;>
    · intro h
      refine .keep ?_
      grind [Phase.stage, Phase.mine, Task.fail, Task.pooled, Pool.close, Pool.edit]
  | _ =>
    intro h
    refine .keep ?_
    grind [Phase.stage, Phase.mine, Task.fail, Task.authenticated, Pool.write, Pool.close,
      Pool.edit, Pool.authenticate, Pool.borrow]

theorem turn_of_advance (hmine : t.Mine) (h : p.advance t input = some (q, t')) :
    DialTurn p t input q t' := by
  revert h
  fun_cases Pool.advance p t input with
  | case1 => exact turn_of_go hmine
  | case15 =>
    rintro ⟨⟩
    exact .cancel
  | _ =>
    intro h
    refine .keep ?_
    grind [Phase.stage, Task.fail, Phase.mine, Pool.close, Pool.edit, Pool.borrowPooled,
      Pool.borrow, Pool.dropStale, Pool.lookWarm]

/-- What a move does to the dials of the others. Only who dials can say something on a channel,
    and only what came of the dial, or that it is gone. A dial that runs keeps its slot. -/
structure Kept (p : Pool) (t : Task) (input : Input) (q : Pool) (t' : Task) : Prop where
  call : t'.call = t.call
  said : ∀ (channel : Nat) said, p.channels[channel]? = some said →
    q.channels[channel]? = some said ∨ said = .pending ∧ t.channel = some channel ∧
      ((∃ outcome, t.phase = .announcing outcome ∧
          q.channels[channel]? = some (.sent outcome)) ∨
        input = .cancel ∧ q.channels[channel]? = some .lost)
  slot : ∀ protocol channel, p.dialing.lookup protocol = some channel →
    p.channels[channel]? = some Channel.pending → q.dialing.lookup protocol = some channel
  taken : t'.channel = t.channel ∧ (∀ protocol channel, q.dialing.lookup protocol = some channel →
      p.dialing.lookup protocol = some channel) ∨
    t.stage = .off ∧ t'.channel = some p.channels.length ∧
      q.channels[p.channels.length]? = some .pending ∧ t.call = .getConnection t.call.protocol ∧
      ∀ protocol channel, q.dialing.lookup protocol = some channel →
        protocol = t.call.protocol ∧ channel = p.channels.length ∨
          p.dialing.lookup protocol = some channel

structure Fits (p : Pool) (t : Task) : Prop where
  mine : t.Mine
  shares : t.channel ≠ none → t.call.shares = true
  own : ∀ channel, t.channel = some channel → ∃ said, p.channels[channel]? = some said ∧
    (said = .pending ↔ t.stage = .dialing) ∧
    (said = .pending → p.dialing.lookup t.call.protocol = some channel)
  dials : t.stage = .dialing → t.channel ≠ none
  waits : ∀ channel, t.stage = .waiting channel → ∃ said, p.channels[channel]? = some said ∧
    (said = .pending → p.dialing.lookup t.call.protocol = some channel)
  leaves : ∀ channel said, t.stage = .leaving channel said →
    said ≠ .pending ∧ p.channels[channel]? = some said

structure Sound (w : World) : Prop where
  fits : ∀ (i : Nat) t, w.tasks[i]? = some t → Fits w.shared t
  apart : ∀ (i j : Nat) t u channel, w.tasks[i]? = some t → w.tasks[j]? = some u →
    t.channel = some channel → u.channel = some channel → i = j
  slot : ∀ protocol channel, w.shared.dialing.lookup protocol = some channel →
    ∃ said, w.shared.channels[channel]? = some said ∧ (said = .pending →
      ∃ (i : Nat) (t : Task), w.tasks[i]? = some t ∧ t.channel = some channel ∧
        t.call = .getConnection protocol)

theorem Task.Mine.call (hmine : t.Mine) (hph : t.phase.mine false = false) :
    t.call = .getConnection t.call.protocol := by
  cases hcall : t.call <;> grind [Call.protocol]

theorem kept_of_same (hdial : q.dialing = p.dialing) (hchan : q.channels = p.channels)
    (hcall : t'.call = t.call) (hown : t'.channel = t.channel) : Kept p t input q t' :=
  ⟨hcall, fun _ _ h => .inl (hchan ▸ h), fun _ _ h _ => hdial ▸ h,
    .inl ⟨hown, fun _ _ h => hdial ▸ h⟩⟩

theorem DialTurn.kept (ht : Fits p t) (h : DialTurn p t input q t') : Kept p t input q t' := by
  rcases ht with ⟨hmine, hs, hown, -, -, hl⟩
  cases h with
  | keep hsame => exact kept_of_same hsame.1 hsame.2.1 hsame.2.2.1 hsame.2.2.2.1
  | hear => exact kept_of_same rfl rfl rfl rfl
  | take hph =>
    have hcall := hmine.call (by rw [hph]; rfl)
    unfold Pool.takeSlot
    rcases hsl : p.dialing.lookup t.call.protocol with _ | channel
    · refine ⟨rfl, ?_, ?_, .inr ⟨?_, rfl, ?_, hcall, ?_⟩⟩ <;> grind [lookup_set, Phase.stage]
    · exact kept_of_same rfl rfl rfl rfl
  | announce =>
    -- Nothing had been said, since the task dials.
    exact ⟨rfl, by grind [Phase.stage], fun _ _ h _ => h, .inl ⟨rfl, fun _ _ h => h⟩⟩
  | leave =>
    unfold Pool.clearDialSlot
    split
    · -- Something has been said on the channel whose slot is cleared.
      refine ⟨rfl, fun _ _ h => .inl h, ?_, .inl ⟨rfl, ?_⟩⟩ <;>
        grind [lookup_remove, Phase.stage, Phase.mine]
    · exact kept_of_same rfl rfl rfl rfl
  | cancel =>
    unfold Pool.lose
    split
    · exact ⟨rfl, by grind, fun _ _ h _ => h, .inl ⟨rfl, fun _ _ h => h⟩⟩
    · exact kept_of_same rfl rfl rfl rfl

theorem Kept.fits (h : Kept p t input q t') (hu : Fits p u)
    (ha : ∀ channel, t.channel = some channel → u.channel ≠ some channel) : Fits q u := by
  rcases h with ⟨-, hsaid, hs, -⟩
  rcases hu with ⟨hmine, hsh, hown, hd, hw, hl⟩
  refine ⟨hmine, hsh, fun channel hch => ?_, hd, fun channel hst => ?_, fun channel said hst => ?_⟩
  · -- Only who dials can say something on a channel.
    rcases hown channel hch with ⟨said, hat, hiff, hslot⟩
    have hsame := (hsaid channel said hat).resolve_right fun h => ha channel h.2.1 hch
    exact ⟨said, hsame, hiff, fun hpen => hs _ _ (hslot hpen) (hpen ▸ hat)⟩
  · rcases hw channel hst with ⟨said, hat, hslot⟩
    rcases hsaid channel said hat with hsame | ⟨-, -, ⟨outcome, -, hsent⟩ | ⟨-, hlost⟩⟩
    · exact ⟨said, hsame, fun hpen => hs _ _ (hslot hpen) (hpen ▸ hat)⟩
    · exact ⟨_, hsent, nofun⟩
    · exact ⟨_, hlost, nofun⟩
  · rcases hl channel said hst with ⟨hne, hat⟩
    exact ⟨hne, (hsaid channel said hat).resolve_right fun h => hne h.1⟩

theorem DialTurn.fits (ht : Fits p t) (hsl : ∀ protocol channel,
    p.dialing.lookup protocol = some channel → ∃ said, p.channels[channel]? = some said)
    (h : DialTurn p t input q t') : Fits q t' := by
  rcases ht with ⟨hmine, hsh, hown, hdi, hwa, hle⟩
  cases h with
  | keep hsame =>
    rcases hsame with ⟨hdial, hchan, hcall, htask, hstage, hmine⟩
    refine ⟨hmine, ?_, ?_, ?_, ?_, ?_⟩ <;> simp only [hdial, hchan, hcall, htask, hstage]
    exacts [hsh, hown, hdi, hwa, hle]
  | take hph =>
    unfold Pool.takeSlot
    rcases hslo : p.dialing.lookup t.call.protocol with _ | channel
    · have hset := lookup_set t.call.protocol t.call.protocol p.channels.length p.dialing
      have hla : (p.channels ++ [.pending])[p.channels.length]? = some .pending := by simp
      constructor <;> grind [Phase.stage, Phase.mine]
    · rcases hsl _ _ hslo with ⟨said, hsaid⟩
      constructor <;> grind [Phase.stage, Phase.mine]
  | @hear _ outcome =>
    -- Who waits has no channel of its own on which nothing has been said.
    cases outcome
    all_goals constructor <;> grind [Phase.stage, Phase.mine]
  | announce => constructor <;> grind [Phase.stage, Phase.mine]
  | @leave channel outcome =>
    constructor <;> grind [Pool.clearDialSlot, Phase.stage, Phase.mine]
  | cancel =>
    unfold Pool.lose
    constructor <;> grind [Phase.stage, Phase.mine]

end Moves

section Runs

variable {w w' : World} {e : Event}

open Interleave

theorem Sound.start (h : Sound w) (call : Call) : Sound ⟨w.shared, w.tasks ++ [.start call]⟩ := by
  have hnew : Fits w.shared (.start call) ∧ (Task.start call).channel = none := by
    refine ⟨?_, rfl⟩
    cases call <;> constructor <;>
      simp [Task.start, Task.Mine, Call.start, Phase.mine, Call.shares, Task.stage, Phase.stage]
  refine ⟨?_, ?_, ?_⟩
  · intro i t ht
    rcases Best.getElem?_append_singleton.mp ht with hold | ⟨-, rfl⟩
    · exact h.fits i t hold
    · exact hnew.1
  · have hap := h.apart
    grind
  · intro protocol channel hsl
    rcases h.slot protocol channel hsl with ⟨said, hsaid, hdi⟩
    refine ⟨said, hsaid, fun hpen => ?_⟩
    rcases hdi hpen with ⟨i, t, ht, hch⟩
    exact ⟨i, t, Best.getElem?_append_singleton.mpr (.inl ht), hch⟩

theorem Sound.step (h : Sound w) (hstep : step w e = some w') : Sound w' := by
  rcases step_cases hstep with ⟨call, -, rfl⟩ | ⟨id, input, t, q, t', -, ht, hadv, rfl⟩ |
    ⟨change, q, -, hq, rfl⟩
  · exact h.start call
  · rcases h with ⟨hfits, hapar, hslot⟩
    have hturn := turn_of_advance (hfits id t ht).mine hadv
    have hkept := hturn.kept (hfits id t ht)
    have hself := hturn.fits (hfits id t ht) (by grind)
    have hold : ∀ u channel, Fits w.shared u → u.channel = some channel →
        ∃ said, w.shared.channels[channel]? = some said :=
      fun u channel hu hchan => (hu.own channel hchan).imp fun _ h => h.1
    refine ⟨?_, ?_, ?_⟩
    · intro j u hu
      rcases getElem?_set_eq_some hu with ⟨hne, hold⟩ | ⟨-, rfl⟩
      · exact hkept.fits (hfits j u hold) fun channel hmine hthei =>
          hne (hapar j id u t channel hold ht hthei hmine)
      · exact hself
    · intro i j u v channel hu hv hcu hcv
      have htak := hkept.taken
      rcases getElem?_set_eq_some hu with ⟨hi, hu⟩ | ⟨rfl, rfl⟩ <;>
      rcases getElem?_set_eq_some hv with ⟨hj, hv⟩ | ⟨rfl, rfl⟩ <;> grind
    · -- A slot from before still has its dialler: who moves off a channel has told it.
      have hown := (hfits id t ht).own
      have hcall := hkept.call
      have htak := hkept.taken
      have hold : ∀ protocol channel, w.shared.dialing.lookup protocol = some channel →
          ∃ said, q.channels[channel]? = some said ∧ (said = .pending →
            ∃ (i : Nat) (u : Task), (w.tasks.set id t')[i]? = some u ∧
              u.channel = some channel ∧ u.call = .getConnection protocol) := by
        intro protocol channel hlk
        rcases hslot protocol channel hlk with ⟨said, hsaid, hdial⟩
        rcases hkept.said channel said hsaid with hsame | ⟨-, -, ⟨outcome, -, hsent⟩ | ⟨-, hlost⟩⟩
        · refine ⟨said, hsame, fun hpen => ?_⟩
          rcases hdial hpen with ⟨i, u, hu, hmine, hcall⟩
          by_cases hi : i = id
          · refine ⟨id, t', ?_, ?_, ?_⟩ <;> grind
          · exact ⟨i, u, by grind, hmine, hcall⟩
        · exact ⟨_, hsent, by simp⟩
        · exact ⟨_, hlost, by simp⟩
      intro protocol channel hlk
      rcases hkept.taken with ⟨-, hslots⟩ | ⟨-, hnew, hpen, hget, hslots⟩
      · exact hold protocol channel (hslots protocol channel hlk)
      · rcases hslots protocol channel hlk with ⟨rfl, rfl⟩ | hbef
        · refine ⟨_, hpen, fun _ => ⟨id, t', ?_, hnew, hkept.call.trans hget⟩⟩
          grind
        · exact hold protocol channel hbef
  · cases hq
    have hshar : (w.shared.ambient change).dialing = w.shared.dialing ∧
        (w.shared.ambient change).channels = w.shared.channels := by
      cases change <;> exact ⟨rfl, rfl⟩
    have hfits : ∀ t, Fits w.shared t → Fits (w.shared.ambient change) t := by
      rintro t ⟨hmine, hshare, hown, hdials, hwait, hleav⟩
      refine ⟨hmine, hshare, ?_, hdials, ?_, ?_⟩ <;> simp only [hshar]
      exacts [hown, hwait, hleav]
    refine ⟨fun i t ht => hfits t (h.fits i t ht), h.apart, ?_⟩
    simp only [hshar]
    exact h.slot

theorem sound_new (ownsEndpoint : Bool) : Sound ⟨.new ownsEndpoint, []⟩ :=
  ⟨by simp, by simp, by simp [Pool.new]⟩

def World.Dials (w : World) (call : Call) (channel : Nat) : Prop :=
  ∃ t ∈ w.tasks, t.call = call ∧ t.channel = some channel ∧ t.stage = .dialing

theorem Sound.running (h : Sound w) {protocol : Protocol} {channel : Nat}
    (hs : w.shared.dialing.lookup protocol = some channel) :
    w.Dials (.getConnection protocol) channel ∨ ∃ outcome : Told,
      w.shared.channels[channel]? = some (outcome.elim .lost .sent) := by
  rcases h.slot protocol channel hs with ⟨said, hsaid, hd⟩
  cases said with
  | pending =>
    rcases hd rfl with ⟨i, t, ht, hc, hcall⟩
    have hown := (h.fits i t ht).own channel hc
    exact .inl ⟨t, mem_of_getElem? ht, hcall, hc, by grind⟩
  | sent outcome => exact .inr ⟨some outcome, hsaid⟩
  | lost => exact .inr ⟨none, hsaid⟩

theorem go_of_waiting {t : Task} {i channel : Nat} {outcome : Told} (ht : w.tasks[i]? = some t)
    (hph : t.phase = .waiting channel)
    (hsaid : w.shared.channels[channel]? = some (outcome.elim .lost .sent)) :
    step w (.advance i .go) =
      some ⟨w.shared, w.tasks.set i (t.to (.leaving channel outcome))⟩ := by
  refine step_advance ht ?_
  cases outcome <;> simp only [behaviour, Pool.advance, Pool.go, hph, hsaid, Option.elim]

def droppedDial : List Event :=
  let move (i : Nat) : Event := .advance i .go
  ((range 3).flatMap fun i =>
    [.start (.getConnection .http), .advance i (.look [] [] true), move i]) ++
  [.advance 0 .cancel, move 1, move 2, move 1, move 1, move 2, move 2, move 1,
    .advance 1 (.connectFailed .timedOut), move 1, move 2, move 2]

end Runs

end Nexapipe.ConnectionPool
