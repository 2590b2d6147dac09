import Nexapipe.Conn.Serving

/-!
# Turning two-factor on

A reload that turns two-factor on closes the registered connections that never authenticated.

The two reads and the registration are three steps, and the auth lock is free between the second
read and the registration. A reload that lands there closes nobody, and the set-up then registers
and serves without a credential: `unguarded_served_after_reload` is that run. It is the only way
in.
-/

namespace Nexapipe.Server

open PeerRegistry

def Settled (s : Server) : Prop :=
  s.tasks.Forall fun _ task => task.phase ≠ .cleared

def QuietGate (s : Server) : Event → Prop
  | .reload (some config) => (moveEnabled s.plaintext s.live config.cfg).2 = true → s.Settled
  | _ => True

/-- What holds in every state with two-factor on: nobody is about to register
    without a handshake, and everybody who did has been signalled. -/
structure Gated (s : Server) : Prop where
  settled : s.live.enabled = true → s.Settled
  signalled : s.live.enabled = true → ∀ e peer, s.peers.Listed e peer →
    peer.identity.clientId = none → peer.revoked = true

theorem gated_start (config : LoadedConfig) (plaintext : Option PlaintextListener) :
    (start config plaintext).Gated where
  settled := by
    intro _ task t hfound
    simp [start] at hfound
  signalled := by
    intro _ e peer hl
    exact absurd hl (not_listed_new e peer)

variable {s : Server}

theorem Gated.setTask (h : s.Gated) (task : Nat) (e : EndpointId) {phase : Phase}
    (hcl : phase = .cleared → s.live.enabled = false) :
    (s.setTask task e phase).Gated where
  settled := by
    intro hen task' t hfound
    simp only [Server.setTask, Table.lookup_insert_eq] at hfound
    by_cases heq : task' = task
    · rw [if_pos heq] at hfound
      cases hfound
      -- The task moved into the gap, which it does only while two-factor is off.
      intro hph
      have hdis := hcl hph
      rw [show s.live.enabled = true from hen] at hdis
      cases hdis
    · rw [if_neg heq] at hfound
      exact h.settled hen task' t hfound
  signalled := h.signalled

theorem Gated.endTask (h : s.Gated) (task : Nat) (phase : Phase) :
    (s.endTask task phase).Gated where
  settled := by
    intro he task' t hfound
    simp only [Server.endTask, Table.lookup_erase_eq] at hfound
    split at hfound
    · cases hfound
    · exact h.settled he task' t hfound
  signalled := by
    intro he e peer hl hcl
    refine h.signalled he e peer ?_ hcl
    simp only [Server.endTask] at hl
    split at hl
    · exact ((listed_remove _ _ _ _).mp hl).1
    · exact hl

theorem Gated.setLive (h : s.Gated) {live : AuthConfig} (he : live.enabled = s.live.enabled) :
    ({ s with live := live } : Server).Gated where
  settled := fun hon => h.settled (he.symm.trans hon)
  signalled := fun hon => h.signalled (he.symm.trans hon)

theorem Gated.insertPeer (h : s.Gated) (e : EndpointId) (identity : PeerIdentity)
    (hcl : s.live.enabled = true → identity.clientId ≠ none) :
    ({ s with peers := (s.peers.insert e identity).1 } : Server).Gated where
  settled := h.settled
  signalled := by
    intro he e' peer hl hn
    -- The newcomer is no exception: with two-factor on it has a client id.
    rcases (listed_insert _ _ _ _ _).mp hl with hold | ⟨-, hnew⟩
    · exact h.signalled he e' peer hold hn
    · rw [hnew] at hn
      exact absurd hn (hcl he)

theorem Gated.reload (h : s.Gated) (config : LoadedConfig)
    (hq : s.QuietGate (.reload (some config))) :
    ({ s with
        live := (reloadLocked s.plaintext s.live s.peers (some config.cfg)).cfg
        peers := (reloadLocked s.plaintext s.live s.peers (some config.cfg)).registry } :
      Server).Gated where
  settled := by
    intro hon
    rw [reloadLocked_enabled] at hon
    rcases moveEnabled_cases s.plaintext s.live config.cfg with heq | ⟨-, -, heq⟩
    · rw [heq] at hon
      exact h.settled hon
    · -- The gate was turned on just now.
      exact hq (by rw [heq])
  signalled := by
    intro hon e peer hli hno
    rw [reloadLocked_registry, listed_closeWhere] at hli
    rcases hli with ⟨before, hbef, rfl⟩
    rw [Peer.signal_identity] at hno
    rw [Peer.signal_revoked, Bool.or_eq_true]
    rw [reloadLocked_enabled] at hon
    rcases moveEnabled_cases s.plaintext s.live config.cfg with heq | ⟨-, -, heq⟩
    · rw [heq] at hon
      -- It was on before, so the connection was signalled before.
      exact Or.inr (h.signalled hon e before hbef hno)
    refine Or.inl ?_
    -- It is turned on by this reload, which selects every connection without a client id.
    simp [reloadSelects, heq, hno]

theorem gated_step {cr : Crypto} {s' : Server} {e : Event} (hgat : s.HandshakesGated)
    (h : s.Gated) (hq : s.QuietGate e) (hst : step cr s e = some s') : s'.Gated := by
  cases step_inv hst with
  | accepted | guarded | unguarded | served => exact h.setTask _ _ nofun
  | enrolled found => exact h.setLive (keeps_enrollClient _ _ _ _ _ _).enabled
  | notEnrolled found =>
    exact (h.endTask _ _).setLive (keeps_enrollClient _ _ _ _ _ _).enabled
  | @admitted task endpoint clock req acl found verdict =>
    -- A connection registered by a handshake has a client id, so it is none of those the gate is
    -- about.
    have hen := hgat task endpoint found
    have hke := (keeps_authenticateLocked cr clock req hen).enabled
    exact ((h.insertPeer endpoint _ (fun _ => by simp)).setLive hke).setTask _ _ nofun
  | notAdmitted found =>
    have hen := hgat _ _ found
    exact (h.endTask _ _).setLive (keeps_authenticateLocked cr _ _ hen).enabled
  | turnedAway | hungUp => exact h.endTask _ _
  | cleared found disabled => exact h.setTask _ _ fun _ => disabled
  | registered found =>
    -- The task stands in the gap, so two-factor cannot be on.
    refine (h.insertPeer _ _ ?_).setTask _ _ nofun
    intro hen
    exact absurd rfl (h.settled hen _ _ found)
  | keptSection => exact h
  | reloaded => exact h.reload _ hq

open Machine

/-- Turning two-factor on leaves no unauthenticated connection behind, in every
    run in which a reload that turns it on finds no set-up between its second
    read and its registration: after that reload each registered connection
    without a client id, served yet or not, has been told to close. -/
theorem gate_closes_unauthenticated (cr : Crypto) (config : LoadedConfig)
    (plaintext : Option PlaintextListener) (before after : List Event)
    (snapshot : Option LoadedConfig) (s s₁ s₂ : Server)
    (hquiet : Machine.Along (step cr) QuietGate (start config plaintext)
      (before ++ .reload snapshot :: after))
    (hbefore : Machine.run (step cr) (start config plaintext) before = some s)
    (hreload : step cr s (.reload snapshot) = some s₁)
    (hon : s₁.live.enabled = true)
    (hafter : Machine.run (step cr) s₁ after = some s₂) (e : EndpointId) (peer : Peer)
    (hlisted : s₂.peers.Listed e peer) (hclient : peer.identity.clientId = none) :
    peer.revoked = true := by
  have hrun : run (step cr) (start config plaintext)
      (before ++ .reload snapshot :: after) = some s₂ := by
    rw [run_append, hbefore, Option.bind_some]
    exact run_cons_eq_some.mpr ⟨s₁, hreload, hafter⟩
  have hgat : s₂.HandshakesGated ∧ s₂.Gated :=
    invariant_along (fun s => s.HandshakesGated ∧ s.Gated)
      (fun _ _ _ h hq hs => ⟨handshakesGated_step h.1 hs, gated_step h.1 h.2 hq hs⟩)
      ⟨handshakesGated_start config plaintext, gated_start config plaintext⟩ hquiet hrun
  -- Nothing after the reload turns it off again.
  have hen : s₂.live.enabled = true :=
    invariant (fun s => s.live.enabled = true) (fun _ _ _ h hs => enabled_step h hs) hon
      hafter
  exact hgat.2.signalled hen e peer hlisted hclient

def noClients (enabled : Bool) : LoadedConfig :=
  { cfg := { AuthConfig.default with enabled := enabled }
    hostsAccepted := by
      intro id client hfound
      simp [AuthConfig.default] at hfound }

instance (s : Server) : Decidable s.Settled :=
  inferInstanceAs (Decidable (s.tasks.Forall _))

instance (s : Server) : ∀ e, Decidable (s.QuietGate e)
  | .reload (some config) =>
    inferInstanceAs (Decidable ((moveEnabled s.plaintext s.live config.cfg).2 = true → s.Settled))
  | .reload none => .isTrue trivial
  | .accept _ _ => .isTrue trivial
  | .readEnabled _ => .isTrue trivial
  | .enroll _ _ _ _ _ => .isTrue trivial
  | .authenticate _ _ _ => .isTrue trivial
  | .rereadEnabled _ => .isTrue trivial
  | .register _ => .isTrue trivial
  | .serve _ => .isTrue trivial
  | .hangUp _ => .isTrue trivial

def setUp : List Event :=
  [.accept 0 [1], .readEnabled 0, .rereadEnabled 0, .register 0]

/-- A connection that was being served is told to close by the reload. -/
theorem gate_closes_unauthenticated_set_up :
    ∃ s s₁, Machine.run (step .refusing) (start (noClients false) none) setUp = some s ∧
      step .refusing s (.reload (some (noClients true))) = some s₁ ∧
      s.tasks.lookup 0 = some ⟨[1], .serving ⟨[1], 1⟩ none⟩ ∧
      (∃ peer, s₁.peers.Listed [1] peer) ∧
      ∀ e peer, s₁.peers.Listed e peer → peer.identity.clientId = none → peer.revoked = true := by
  refine ⟨_, _, rfl, rfl, by decide, ⟨_, _, rfl, List.mem_singleton.mpr rfl⟩, ?_⟩
  intro e peer hl hcl
  exact gate_closes_unauthenticated .refusing (noClients false) none setUp []
    (some (noClients true)) _ _ _ (by decide) rfl rfl rfl rfl e peer hl hcl

/-- A set-up whose second read comes before the reload and whose registration
    comes after it is served without a credential, and nobody told it to stop. -/
theorem unguarded_served_after_reload :
    ∃ s, Machine.run (step .refusing) (start (noClients false) none)
        [.accept 0 [1], .readEnabled 0, .rereadEnabled 0, .reload (some (noClients true)),
          .register 0] = some s ∧
      s.live.enabled = true ∧
      ∃ guard peer, s.tasks.lookup 0 = some ⟨[1], .serving guard none⟩ ∧
        s.peers.Listed guard.endpointId peer ∧ peer.id = guard.id ∧
        peer.identity.clientId = none ∧ peer.revoked = false := by
  refine ⟨_, rfl, rfl, ⟨[1], 1⟩, ⟨1, ⟨none, none⟩, false⟩, by decide, ?_, rfl, rfl, rfl⟩
  exact ⟨_, rfl, List.mem_singleton.mpr rfl⟩

end Nexapipe.Server
