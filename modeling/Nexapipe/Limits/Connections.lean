import Nexapipe.Lib.Run
import Nexapipe.Lib.Table
import Nexapipe.Lib.Usize

/-!
# The connections one peer may hold, and the ones the process may hold

Two ceilings are checked under one lock. What holds a slot is a guard, and dropping the guard gives
the slot back, so the number of slots taken is to be the number of guards that are alive.

Every operation runs under the lock, so an interleaving is a list of operations
and one step is one operation. A guard is dropped at most once: the step exists
only for a guard that is alive.
-/

namespace Nexapipe

open List

structure ConnectionLimiter where
  maxPerPeer : Nat
  maxGlobal : Nat
  maxPerPeer_le : maxPerPeer ≤ Usize.max
  maxGlobal_le : maxGlobal ≤ Usize.max

structure Counts (Peer : Type) where
  perPeer : Table Peer Nat
  total : Nat

inductive Guard (Peer : Type) where
  | peer (peer : Peer)
  | global
deriving DecidableEq

section

variable {Peer : Type} [DecidableEq Peer]

def Counts.count (counts : Counts Peer) (peer : Peer) : Nat :=
  (counts.perPeer.lookup peer).getD 0

def ConnectionLimiter.tryAcquire (limiter : ConnectionLimiter) (counts : Counts Peer)
    (peer : Peer) : Counts Peer × Option (Guard Peer) :=
  let current := counts.count peer
  if limiter.maxPerPeer ≤ current ∨ limiter.maxGlobal ≤ counts.total then (counts, none)
  else
    ({ perPeer := counts.perPeer.insert peer (Usize.add current 1)
       total := Usize.add counts.total 1 }, some (.peer peer))

def ConnectionLimiter.tryAcquireGlobal (limiter : ConnectionLimiter) (counts : Counts Peer) :
    Counts Peer × Option (Guard Peer) :=
  if limiter.maxGlobal ≤ counts.total then (counts, none)
  else ({ counts with total := Usize.add counts.total 1 }, some .global)

def Counts.releaseGlobal (counts : Counts Peer) : Counts Peer :=
  { counts with total := counts.total - 1 }

def Counts.release (counts : Counts Peer) (peer : Peer) : Counts Peer :=
  let counts := { counts with total := counts.total - 1 }
  match counts.perPeer.lookup peer with
  | some n =>
    if n - 1 = 0 then { counts with perPeer := counts.perPeer.erase peer }
    else { counts with perPeer := counts.perPeer.insert peer (n - 1) }
  | none => counts

def Counts.drop (counts : Counts Peer) : Guard Peer → Counts Peer
  | .peer peer => counts.release peer
  | .global => counts.releaseGlobal

end

/-! ### Interleavings -/

structure LimiterState (Peer : Type) where
  counts : Counts Peer
  guards : List (Guard Peer)

inductive LimiterEvent (Peer : Type) where
  | tryAcquire (peer : Peer)
  | tryAcquireGlobal
  | drop (guard : Guard Peer)

def LimiterState.start {Peer : Type} : LimiterState Peer :=
  { counts := { perPeer := ∅, total := 0 }, guards := [] }

section

variable {Peer : Type} [DecidableEq Peer]

def LimiterState.acquired (s : LimiterState Peer)
    (answer : Counts Peer × Option (Guard Peer)) : LimiterState Peer :=
  { counts := answer.1, guards := answer.2.toList ++ s.guards }

def ConnectionLimiter.step (limiter : ConnectionLimiter) (s : LimiterState Peer) :
    LimiterEvent Peer → Option (LimiterState Peer)
  | .tryAcquire peer => some (s.acquired (limiter.tryAcquire s.counts peer))
  | .tryAcquireGlobal => some (s.acquired (limiter.tryAcquireGlobal s.counts))
  | .drop guard =>
    if guard ∈ s.guards then
      some { counts := s.counts.drop guard, guards := s.guards.erase guard }
    else none

def LimiterState.live (s : LimiterState Peer) (peer : Peer) : Nat :=
  s.guards.count (.peer peer)

structure ConnectionLimiter.Exact (limiter : ConnectionLimiter) (s : LimiterState Peer) : Prop where
  total : s.counts.total = s.guards.length
  perPeer : ∀ peer, s.counts.perPeer.lookup peer =
    if s.live peer = 0 then none else some (s.live peer)
  perPeer_le : ∀ peer, s.live peer ≤ limiter.maxPerPeer
  total_le : s.guards.length ≤ limiter.maxGlobal
  refused : ∀ peer, (limiter.tryAcquire s.counts peer).2 = none ↔
    limiter.maxPerPeer ≤ s.live peer ∨ limiter.maxGlobal ≤ s.guards.length
  refused_global : (limiter.tryAcquireGlobal s.counts).2 = none ↔
    limiter.maxGlobal ≤ s.guards.length
  unchanged : ∀ peer, (limiter.tryAcquire s.counts peer).2 = none →
    (limiter.tryAcquire s.counts peer).1 = s.counts
  unchanged_global : (limiter.tryAcquireGlobal s.counts).2 = none →
    (limiter.tryAcquireGlobal s.counts).1 = s.counts

end

/-! ### The counts follow the guards -/

section

variable {Peer : Type} [DecidableEq Peer] {limiter : ConnectionLimiter} {s : LimiterState Peer}

structure Accounted (limiter : ConnectionLimiter) (s : LimiterState Peer) : Prop where
  total : s.counts.total = s.guards.length
  perPeer : ∀ peer, s.counts.perPeer.lookup peer =
    if s.live peer = 0 then none else some (s.live peer)
  perPeer_le : ∀ peer, s.live peer ≤ limiter.maxPerPeer
  total_le : s.guards.length ≤ limiter.maxGlobal

theorem Accounted.count_eq (h : Accounted limiter s) (peer : Peer) :
    s.counts.count peer = s.live peer := by
  unfold Counts.count
  rw [h.perPeer peer]
  by_cases hz : s.live peer = 0
  · rw [if_pos hz, hz]
    rfl
  · rw [if_neg hz]
    rfl

open ConnectionLimiter

theorem Accounted.tryAcquire_refused (h : Accounted limiter s) {peer : Peer}
    (hf : limiter.maxPerPeer ≤ s.live peer ∨ limiter.maxGlobal ≤ s.guards.length) :
    limiter.tryAcquire s.counts peer = (s.counts, none) := by
  simp only [tryAcquire, h.count_eq, h.total, if_pos hf]

theorem Accounted.tryAcquire_granted (h : Accounted limiter s) {peer : Peer}
    (hf : ¬(limiter.maxPerPeer ≤ s.live peer ∨ limiter.maxGlobal ≤ s.guards.length)) :
    limiter.tryAcquire s.counts peer =
      ({ perPeer := s.counts.perPeer.insert peer (s.live peer + 1)
         total := s.guards.length + 1 }, some (.peer peer)) := by
  have hp := limiter.maxPerPeer_le
  have hg := limiter.maxGlobal_le
  have hcur : Usize.add (s.live peer) 1 = s.live peer + 1 := Usize.add_of_le (by omega)
  have htot : Usize.add s.guards.length 1 = s.guards.length + 1 := Usize.add_of_le (by omega)
  simp only [tryAcquire, h.count_eq, h.total, hcur, htot]
  rw [if_neg (by omega)]

theorem Accounted.tryAcquireGlobal_refused (h : Accounted limiter s)
    (hf : limiter.maxGlobal ≤ s.guards.length) :
    limiter.tryAcquireGlobal s.counts = (s.counts, none) := by
  simp only [tryAcquireGlobal, h.total, if_pos hf]

theorem Accounted.tryAcquireGlobal_granted (h : Accounted limiter s)
    (hf : ¬limiter.maxGlobal ≤ s.guards.length) :
    limiter.tryAcquireGlobal s.counts =
      ({ s.counts with total := s.guards.length + 1 }, some .global) := by
  have hg := limiter.maxGlobal_le
  have htot : Usize.add s.guards.length 1 = s.guards.length + 1 := Usize.add_of_le (by omega)
  simp only [tryAcquireGlobal, h.total, htot, if_neg hf]

omit [DecidableEq Peer] in
theorem LimiterState.acquired_refused (s : LimiterState Peer) : s.acquired (s.counts, none) = s :=
  rfl

open LimiterState

theorem Accounted.acquire (h : Accounted limiter s) (peer : Peer) :
    Accounted limiter (s.acquired (limiter.tryAcquire s.counts peer)) := by
  by_cases hfu : limiter.maxPerPeer ≤ s.live peer ∨ limiter.maxGlobal ≤ s.guards.length
  · rw [h.tryAcquire_refused hfu, s.acquired_refused]
    exact h
  rw [h.tryAcquire_granted hfu]
  have hli : ∀ q, live (s.acquired
      ({ perPeer := s.counts.perPeer.insert peer (s.live peer + 1)
         total := s.guards.length + 1 }, some (.peer peer))) q =
      if q = peer then s.live peer + 1 else s.live q := by
    intro q
    unfold live acquired
    by_cases hq : q = peer
    · simp [hq]
    · simp [hq, Ne.symm hq]
  refine ⟨rfl, ?_, ?_, ?_⟩
  · intro q
    rw [hli]
    simp only [acquired, Table.lookup_insert_eq]
    by_cases hq : q = peer
    · simp [hq]
    · simp only [if_neg hq]
      exact h.perPeer q
  · intro q
    rw [hli]
    by_cases hq : q = peer
    · rw [if_pos hq]
      omega
    · rw [if_neg hq]
      exact h.perPeer_le q
  · simp only [acquired, Option.toList_some, singleton_append, length_cons]
    omega

theorem Accounted.acquireGlobal (h : Accounted limiter s) :
    Accounted limiter (s.acquired (limiter.tryAcquireGlobal s.counts)) := by
  by_cases hfu : limiter.maxGlobal ≤ s.guards.length
  · rw [h.tryAcquireGlobal_refused hfu, s.acquired_refused]
    exact h
  rw [h.tryAcquireGlobal_granted hfu]
  -- The guard belongs to no peer, so no peer's number of guards moves.
  refine ⟨rfl, ?_, ?_, ?_⟩
  · intro q
    exact h.perPeer q
  · intro q
    exact h.perPeer_le q
  · simp only [acquired, Option.toList_some, singleton_append, length_cons]
    omega

def LimiterState.dropped (s : LimiterState Peer) (guard : Guard Peer) : LimiterState Peer :=
  { counts := s.counts.drop guard, guards := s.guards.erase guard }

theorem LimiterState.live_dropped (s : LimiterState Peer) (guard : Guard Peer) (q : Peer) :
    (s.dropped guard).live q = if guard = .peer q then s.live q - 1 else s.live q := by
  unfold live dropped
  rw [count_erase]
  by_cases hq : guard = .peer q
  · simp [hq]
  · simp [hq]

theorem Counts.release_total (counts : Counts Peer) (peer : Peer) :
    (counts.release peer).total = counts.total - 1 := by
  simp only [Counts.release]
  split
  · split
    · rfl
    · rfl
  · rfl

variable {guard : Guard Peer}

theorem Accounted.total_drop (h : Accounted limiter s) (hmem : guard ∈ s.guards) :
    (s.counts.drop guard).total = (s.guards.erase guard).length := by
  rw [length_erase_of_mem hmem]
  cases guard with
  | global =>
    simp only [Counts.drop, Counts.releaseGlobal, h.total]
  | peer peer =>
    simp only [Counts.drop, Counts.release_total, h.total]

theorem Accounted.perPeer_drop (h : Accounted limiter s) (hmem : guard ∈ s.guards) (q : Peer) :
    (s.counts.drop guard).perPeer.lookup q =
      if (s.dropped guard).live q = 0 then none else some ((s.dropped guard).live q) := by
  rw [s.live_dropped]
  cases guard with
  | global => exact h.perPeer q
  | peer peer =>
    -- The guard is alive, so the peer has an entry and the subtraction is a real one.
    have hli : 0 < s.live peer := count_pos_iff.mpr hmem
    have hentry : s.counts.perPeer.lookup peer = some (s.live peer) := by
      rw [h.perPeer, if_neg (by omega)]
    simp only [Counts.drop, Counts.release, hentry, Guard.peer.injEq]
    by_cases hla : s.live peer - 1 = 0
    · rw [if_pos hla, Table.lookup_erase_eq]
      by_cases hq : q = peer
      · simp [hq, hla]
      · simp only [if_neg hq, if_neg (Ne.symm hq)]
        exact h.perPeer q
    · rw [if_neg hla, Table.lookup_insert_eq]
      by_cases hq : q = peer
      · simp [hq, hla]
      · simp only [if_neg hq, if_neg (Ne.symm hq)]
        exact h.perPeer q

theorem Accounted.release (h : Accounted limiter s) (hmem : guard ∈ s.guards) :
    Accounted limiter (s.dropped guard) := by
  refine ⟨h.total_drop hmem, h.perPeer_drop hmem, ?_, ?_⟩
  · intro q
    have hq := h.perPeer_le q
    rw [s.live_dropped]
    by_cases hg : guard = .peer q
    · rw [if_pos hg]
      omega
    · rw [if_neg hg]
      exact hq
  · have hle : (s.guards.erase guard).length ≤ s.guards.length :=
      (erase_sublist).length_le
    have htot := h.total_le
    simp only [dropped]
    omega

theorem Accounted.step {s' : LimiterState Peer} {e : LimiterEvent Peer} (h : Accounted limiter s)
    (hs : limiter.step s e = some s') : Accounted limiter s' := by
  cases e with
  | tryAcquire peer =>
    cases hs
    exact h.acquire peer
  | tryAcquireGlobal =>
    cases hs
    exact h.acquireGlobal
  | drop guard =>
    by_cases hmem : guard ∈ s.guards
    · rw [ConnectionLimiter.step, if_pos hmem] at hs
      cases hs
      exact h.release hmem
    · simp [ConnectionLimiter.step, if_neg hmem] at hs

theorem accounted_start (limiter : ConnectionLimiter) :
    Accounted limiter (LimiterState.start : LimiterState Peer) :=
  { total := rfl
    perPeer := fun peer => Finmap.lookup_empty peer
    perPeer_le := fun _ => Nat.zero_le _
    total_le := Nat.zero_le _ }

theorem Accounted.exact (h : Accounted limiter s) : limiter.Exact s := by
  refine
    { total := h.total
      perPeer := h.perPeer
      perPeer_le := h.perPeer_le
      total_le := h.total_le
      refused := ?_
      refused_global := ?_
      unchanged := ?_
      unchanged_global := ?_ }
  · intro peer
    by_cases hfu : limiter.maxPerPeer ≤ s.live peer ∨ limiter.maxGlobal ≤ s.guards.length
    · simp [h.tryAcquire_refused hfu, hfu]
    · simp [h.tryAcquire_granted hfu, hfu]
  · by_cases hfu : limiter.maxGlobal ≤ s.guards.length
    · simp [h.tryAcquireGlobal_refused hfu, hfu]
    · simp [h.tryAcquireGlobal_granted hfu, hfu]
  · intro peer hno
    by_cases hfu : limiter.maxPerPeer ≤ s.live peer ∨ limiter.maxGlobal ≤ s.guards.length
    · rw [h.tryAcquire_refused hfu]
    · simp [h.tryAcquire_granted hfu] at hno
  · intro hno
    by_cases hfu : limiter.maxGlobal ≤ s.guards.length
    · rw [h.tryAcquireGlobal_refused hfu]
    · simp [h.tryAcquireGlobal_granted hfu] at hno

/-- However acquisitions and drops by any number of peers interleave, the counts
    are the numbers of guards that are alive and the ceilings are exact. -/
theorem connection_ceilings_exact (limiter : ConnectionLimiter)
    {events : List (LimiterEvent Peer)}
    (hrun : Machine.run limiter.step LimiterState.start events = some s) : limiter.Exact s :=
  (Machine.invariant (Accounted limiter) (fun _ _ _ h hstep => h.step hstep)
    (accounted_start limiter) hrun).exact

end

def smallLimiter : ConnectionLimiter :=
  { maxPerPeer := 1
    maxGlobal := 2
    maxPerPeer_le := by decide
    maxGlobal_le := by decide }

/-- A peer takes its slot and is refused a second one; the listener takes the last
    slot of the process, so another peer is refused; both are given back. -/
def sharedCeiling : List (LimiterEvent Nat) :=
  [.tryAcquire 7, .tryAcquire 7, .tryAcquireGlobal, .tryAcquire 8, .drop (.peer 7), .tryAcquire 8]

theorem connection_ceilings_exact_shared :
    ∃ s, Machine.run smallLimiter.step LimiterState.start sharedCeiling = some s ∧
      s.guards = [.peer 8, .global] ∧ smallLimiter.Exact s := by
  have hv : (Machine.run smallLimiter.step LimiterState.start sharedCeiling).map
      LimiterState.guards = some [.peer 8, .global] := by decide
  rcases Option.map_eq_some_iff.mp hv with ⟨s, hrun, hg⟩
  exact ⟨s, hrun, hg, connection_ceilings_exact smallLimiter hrun⟩

end Nexapipe
