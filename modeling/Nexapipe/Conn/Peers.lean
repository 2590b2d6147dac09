import Nexapipe.Lib.Table

/-!
# The peer registry

Who is connected: the connections of each endpoint, each with the identity it
authenticated as and the channel that tells it to stop. A connection registers
itself when it is admitted and leaves when its guard is dropped; a reload closes
connections by setting the value of their channels, and removes nothing.

The registry is a table of lists, as in the source, but proofs speak of the
connections it lists and not of the lists. `Listed` is that view, and each
operation has one equation in it.
-/

namespace Nexapipe

open Table

abbrev EndpointId := List UInt8

/-- Who a connection authenticated as. Without two-factor there is no client. -/
structure PeerIdentity where
  clientId : Option String
  device : Option String
deriving DecidableEq

/-- One registered connection. `revoked` is the value of the channel the
    connection watches: it stops serving once the value is set. -/
structure Peer where
  id : Nat
  identity : PeerIdentity
  revoked : Bool
deriving DecidableEq

structure PeerGuard where
  endpointId : EndpointId
  id : Nat
deriving DecidableEq

structure PeerRegistry where
  peers : Table EndpointId (List Peer)
  /-- It does not reach `2 ^ 64`. -/
  nextId : Nat

variable (selects : PeerIdentity → Bool)

def Peer.signal (peer : Peer) : Peer :=
  if selects peer.identity then { peer with revoked := true } else peer

@[simp] theorem Peer.signal_id (peer : Peer) :
    (peer.signal selects).id = peer.id := by
  unfold Peer.signal
  split <;> rfl

@[simp] theorem Peer.signal_identity (peer : Peer) :
    (peer.signal selects).identity = peer.identity := by
  unfold Peer.signal
  split <;> rfl

theorem Peer.signal_revoked (peer : Peer) :
    (peer.signal selects).revoked = (selects peer.identity || peer.revoked) := by
  unfold Peer.signal
  cases h : selects peer.identity <;> simp

theorem Peer.signal_signal (f g : PeerIdentity → Bool) (peer : Peer) :
    (peer.signal f).signal g = peer.signal fun identity => f identity || g identity := by
  unfold Peer.signal
  cases hf : f peer.identity <;> cases hg : g peer.identity <;> simp [hf, hg]

namespace PeerRegistry

def new : PeerRegistry :=
  { peers := ∅, nextId := 0 }

variable (reg : PeerRegistry)

def insert (endpointId : EndpointId) (identity : PeerIdentity) :
    PeerRegistry × PeerGuard :=
  let id := reg.nextId + 1
  let entries := (reg.peers.lookup endpointId).getD []
  ({ peers := reg.peers.insert endpointId
      (entries ++ [{ id := id, identity := identity, revoked := false }])
     nextId := id },
    { endpointId := endpointId, id := id })

/-- Fires the close signal of every connection `selects` names, and says how
    many there were. Nothing is removed. -/
def closeWhere (selects : PeerIdentity → Bool) : PeerRegistry × Nat :=
  ({ reg with peers := reg.peers.mapVals fun _ entries => entries.map (Peer.signal selects) },
    (reg.peers.entries.map fun e => e.2.countP fun peer => selects peer.identity).sum)

def closeUnauthenticated : PeerRegistry × Nat :=
  reg.closeWhere fun identity => identity.clientId.isNone

def remove (guard : PeerGuard) : PeerRegistry :=
  match reg.peers.lookup guard.endpointId with
  | none => reg
  | some entries =>
    -- By number and not by endpoint: one endpoint can hold several connections.
    let entries := entries.filter fun peer => peer.id ≠ guard.id
    if entries = [] then { reg with peers := reg.peers.erase guard.endpointId }
    else { reg with peers := reg.peers.insert guard.endpointId entries }

theorem insert_guard (e : EndpointId) (identity : PeerIdentity) :
    (reg.insert e identity).2 = ⟨e, reg.nextId + 1⟩ := rfl

@[simp] theorem remove_nextId (guard : PeerGuard) :
    (reg.remove guard).nextId = reg.nextId := by
  unfold remove
  split
  · rfl
  · simp only
    split <;> rfl

/-! ### The connections a registry lists -/

def Listed (endpointId : EndpointId) (peer : Peer) : Prop :=
  ∃ entries, reg.peers.lookup endpointId = some entries ∧ peer ∈ entries

theorem not_listed_new (endpointId : EndpointId) (peer : Peer) : ¬ new.Listed endpointId peer := by
  rintro ⟨entries, hlk, -⟩
  exact absurd hlk (by simp [new])

theorem listed_insert (e e' : EndpointId) (identity : PeerIdentity)
    (peer : Peer) :
    (reg.insert e identity).1.Listed e' peer ↔
      reg.Listed e' peer ∨
        e' = e ∧ peer = { id := reg.nextId + 1, identity := identity, revoked := false } := by
  unfold Listed insert
  by_cases he : e' = e
  · subst he
    -- An endpoint without connections gets a list of one, another a longer list.
    cases hl : reg.peers.lookup e' <;> simp
  · simp [he]

theorem listed_closeWhere (selects : PeerIdentity → Bool) (e : EndpointId)
    (peer : Peer) :
    (reg.closeWhere selects).1.Listed e peer ↔
      ∃ before, reg.Listed e before ∧ peer = before.signal selects := by
  unfold Listed closeWhere
  simp only [lookup_mapVals]
  constructor
  · rintro ⟨entries, hlk, hmem⟩
    obtain ⟨old, hold, rfl⟩ := Option.map_eq_some_iff.mp hlk
    obtain ⟨before, hbef, rfl⟩ := List.mem_map.mp hmem
    exact ⟨before, ⟨old, hold, hbef⟩, rfl⟩
  · rintro ⟨before, ⟨old, hold, hbef⟩, rfl⟩
    refine ⟨old.map (Peer.signal selects), ?_, List.mem_map_of_mem hbef⟩
    rw [hold]
    rfl

theorem closeWhere_closeWhere (f g : PeerIdentity → Bool) :
    ((reg.closeWhere f).1.closeWhere g).1 =
      (reg.closeWhere fun identity => f identity || g identity).1 := by
  unfold closeWhere
  simp only [mk.injEq, and_true]
  apply Finmap.ext_lookup
  intro e
  simp only [lookup_mapVals, Option.map_map, Function.comp_def, List.map_map,
    Peer.signal_signal]

theorem closeWhere_false : (reg.closeWhere fun _ => false).1 = reg := by
  unfold closeWhere
  have hp : Table.mapVals (fun _ entries => entries.map (Peer.signal fun _ => false))
      reg.peers = reg.peers := by
    apply Finmap.ext_lookup
    intro e
    -- No signal is fired, so the lists are mapped by the identity.
    have hid : (Peer.signal fun _ => false) = id := rfl
    simp [hid]
  rw [hp]

theorem listed_remove (guard : PeerGuard) (e : EndpointId) (peer : Peer) :
    (reg.remove guard).Listed e peer ↔
      reg.Listed e peer ∧ ¬ (e = guard.endpointId ∧ peer.id = guard.id) := by
  unfold Listed remove
  rcases hl : reg.peers.lookup guard.endpointId with _ | entries
  · constructor
    · rintro ⟨entries, hlk, hmem⟩
      refine ⟨⟨entries, hlk, hmem⟩, ?_⟩
      rintro ⟨rfl, -⟩
      -- The endpoint is not in the table, so nothing is listed under it.
      rw [hl] at hlk
      cases hlk
    · exact fun h => h.1
  · by_cases hnil : entries.filter (fun peer => peer.id ≠ guard.id) = []
    · simp only [hnil, if_true, lookup_erase_eq]
      by_cases he : e = guard.endpointId
      -- The guard's connection was the endpoint's last: whatever was listed there had its number.
      · subst he
        simp_all
      · simp [he]
    · simp only [hnil, if_false, lookup_insert_eq]
      by_cases he : e = guard.endpointId
      · subst he
        simp [hl]
      · simp [he]

end PeerRegistry

end Nexapipe
