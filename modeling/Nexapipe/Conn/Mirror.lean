import Nexapipe.Conn.Peers
import Nexapipe.Lib.Run

/-!
# The registry mirrors the live connections

Connections come and go in any order, several of one endpoint among them, and a reload signals some
of them.
-/

namespace Nexapipe.PeerRegistry

open List Table

def bucket (reg : PeerRegistry) (e : EndpointId) : List Peer :=
  (reg.peers.lookup e).getD []

theorem bucket_insert (reg : PeerRegistry) (e : EndpointId) (identity : PeerIdentity)
    (e' : EndpointId) :
    (reg.insert e identity).1.bucket e' =
      reg.bucket e' ++ if e' = e then [⟨reg.nextId + 1, identity, false⟩] else [] := by
  unfold bucket insert
  rw [lookup_insert_eq]
  by_cases he : e' = e
  · rw [if_pos he, if_pos he, he]
    rfl
  · rw [if_neg he, if_neg he, append_nil]

theorem bucket_remove (reg : PeerRegistry) (g : PeerGuard) (e : EndpointId) :
    (reg.remove g).bucket e = (reg.bucket e).filter fun peer => ⟨e, peer.id⟩ ≠ g := by
  by_cases he : e = g.endpointId
  · subst he
    have hown : ∀ peer : Peer, (⟨g.endpointId, peer.id⟩ : PeerGuard) ≠ g ↔ peer.id ≠ g.id := by
      rcases g with ⟨e, id⟩
      simp
    simp only [hown]
    fun_cases reg.remove g with
    | case1 hno => simp [bucket, hno]
    | case2 old hold entries hnil =>
      have hno := filter_eq_nil_iff.mp hnil
      simpa [bucket, hold, lookup_erase_eq] using hno
    | case3 old hold entries hso => simp [bucket, hold, entries]
  · have hoth : ∀ peer : Peer, (⟨e, peer.id⟩ : PeerGuard) ≠ g := fun _ heq => he (heq ▸ rfl)
    rw [filter_eq_self.mpr fun peer _ => decide_eq_true (hoth peer)]
    fun_cases reg.remove g with
    | case1 => rfl
    | case2 | case3 => simp [bucket, he]

theorem bucket_closeWhere (reg : PeerRegistry) (selects : PeerIdentity → Bool) (e : EndpointId) :
    (reg.closeWhere selects).1.bucket e = (reg.bucket e).map (Peer.signal selects) := by
  unfold bucket closeWhere
  rw [lookup_mapVals]
  cases reg.peers.lookup e <;> rfl

/-! ### Any order of them -/

structure Guarded where
  registry : PeerRegistry
  guards : List (PeerGuard × PeerIdentity)

inductive Event where
  | insert (e : EndpointId) (identity : PeerIdentity)
  | drop (g : PeerGuard)
  | closeWhere (selects : PeerIdentity → Bool)

def step (s : Guarded) : Event → Option Guarded
  | .insert e identity =>
    let inserted := s.registry.insert e identity
    some ⟨inserted.1, s.guards ++ [(inserted.2, identity)]⟩
  | .drop g =>
    -- A guard is dropped once.
    if g ∈ s.guards.map Prod.fst then
      some ⟨s.registry.remove g, s.guards.filter fun held => held.1 ≠ g⟩
    else none
  | .closeWhere selects => some { s with registry := (s.registry.closeWhere selects).1 }

def held (e : EndpointId) (peer : Peer) : PeerGuard × PeerIdentity :=
  (⟨e, peer.id⟩, peer.identity)

structure Mirrors (s : Guarded) : Prop where
  listed : ∀ e, (s.registry.bucket e).map (held e) =
    s.guards.filter fun g => g.1.endpointId = e
  numbered : ∀ g ∈ s.guards, g.1.id ≤ s.registry.nextId
  distinct : (s.guards.map Prod.fst).Nodup

theorem Mirrors.insert {s : Guarded} (h : Mirrors s) (e : EndpointId) (identity : PeerIdentity) :
    Mirrors ⟨(s.registry.insert e identity).1,
      s.guards ++ [((s.registry.insert e identity).2, identity)]⟩ where
  listed e' := by
    rw [bucket_insert, map_append, h.listed, filter_append, insert_guard]
    by_cases he : e' = e
    · simp [he, held]
    · simp [he, Ne.symm he]
  numbered := by
    simp only [mem_append, mem_singleton]
    rintro g (hold | rfl)
    · exact Nat.le_succ_of_le (h.numbered g hold)
    · exact Nat.le_refl _
  distinct := by
    rw [map_append, nodup_append]
    refine ⟨h.distinct, nodup_singleton _, ?_⟩
    simp only [map_cons, map_nil, mem_singleton]
    rintro g hg _ rfl rfl
    rcases mem_map.mp hg with ⟨old, hold, heq⟩
    have hle := h.numbered old hold
    rw [heq, insert_guard] at hle
    exact absurd hle (Nat.not_succ_le_self _)

theorem Mirrors.remove {s : Guarded} (h : Mirrors s) (g : PeerGuard) :
    Mirrors ⟨s.registry.remove g, s.guards.filter fun held => held.1 ≠ g⟩ where
  listed e := by
    rw [bucket_remove, filter_comm, ← h.listed e, filter_map]
    rfl
  numbered held hh := by
    rw [remove_nextId]
    exact h.numbered held (mem_of_mem_filter hh)
  distinct := h.distinct.sublist (filter_sublist.map _)

theorem Mirrors.step {s s' : Guarded} {event : Event} (h : Mirrors s)
    (hs : step s event = some s') : Mirrors s' := by
  revert hs
  fun_cases PeerRegistry.step s event with
  | case1 e identity =>
    rintro ⟨⟩
    exact h.insert e identity
  | case2 g =>
    rintro ⟨⟩
    exact h.remove g
  | case3 => rintro ⟨⟩
  | case4 selects =>
    rintro ⟨⟩
    refine ⟨fun e => ?_, h.numbered, h.distinct⟩
    rw [bucket_closeWhere, map_map, ← h.listed e]
    exact map_congr_left fun peer _ => by simp [held]

/-- In every run the registry lists exactly the connections whose guards are alive, each once.
    A dropped guard takes out its own entry alone, and a close pass sets the signal of exactly the
    connections it selects and removes none. -/
theorem registry_mirrors_connections (events : List Event) (s : Guarded)
    (hrun : Machine.run step ⟨new, []⟩ events = some s) :
    ((∀ e, (s.registry.bucket e).map (held e) = s.guards.filter fun g => g.1.endpointId = e) ∧
      (s.guards.map Prod.fst).Nodup) ∧
    (∀ g s', step s (.drop g) = some s' → ∀ e,
      s'.registry.bucket e = (s.registry.bucket e).filter fun peer => ⟨e, peer.id⟩ ≠ g) ∧
    ∀ selects s', step s (.closeWhere selects) = some s' → ∀ e,
      s'.registry.bucket e = (s.registry.bucket e).map fun peer =>
        { peer with revoked := selects peer.identity || peer.revoked } := by
  have h : Mirrors s := by
    refine Machine.invariant Mirrors (fun s e s' => Mirrors.step) ?_ hrun
    exact ⟨fun e => by simp [bucket, new], nofun, nodup_nil⟩
  refine ⟨⟨h.listed, h.distinct⟩, ?_, ?_⟩
  · intro g s' hdr e
    simp only [step] at hdr
    split at hdr
    · cases hdr
      exact bucket_remove _ g e
    · cases hdr
  · rintro selects s' ⟨⟩ e
    rw [bucket_closeWhere]
    refine map_congr_left fun peer _ => ?_
    unfold Peer.signal
    cases selects peer.identity <;> rfl

/-- Of two connections of one endpoint the first ends: the second stays listed. -/
theorem registry_mirrors_second_connection :
    ∃ s, Machine.run step ⟨new, []⟩
        [.insert [1] ⟨none, none⟩, .insert [1] ⟨none, none⟩, .drop ⟨[1], 1⟩] = some s ∧
      (s.registry.bucket [1]).map (held [1]) = [(⟨[1], 2⟩, ⟨none, none⟩)] := by
  refine ⟨_, rfl, ?_⟩
  exact (registry_mirrors_connections
    [.insert [1] ⟨none, none⟩, .insert [1] ⟨none, none⟩, .drop ⟨[1], 1⟩] _ rfl).1.1 [1]

end Nexapipe.PeerRegistry
