import Nexapipe.Lb.Pool
import Nexapipe.Lib.Ledger
import Nexapipe.Lib.Run

/-!
# How long a backend counts as busy

A flow that is given a backend holds a lease on it, and the lease is what the
balancer counts. Where the lease lives changes as the flow goes on: a request keeps
it with what it knows about the backend until the answer's head is in, and moves it
into the body of the answer then; a session and a tunnelled flow keep it for as long
as they copy.

Two paths let go of it early. A compressible answer is read whole before it goes
out, and its lease is dropped with the function that reads it. But that function
gives up on an answer that is too large and hands the rest of the body on, and then
the lease is gone while the backend is still sending. And an upgrade drops it with
the function that made the handshake, while the conversation goes on in a task of its
own.

A flow uses its backend from the moment it is given it to the last byte.
-/

namespace Nexapipe

open List Ledger

def maxCompressSize : Nat := 1024 * 1024

/-- What is given a backend. Only the plaintext listener compresses answers, and only
    the tunnel upgrades connections. -/
inductive FlowKind where
  | plaintextRequest
  | tunnelRequest
  | webSocket
  | tlsSession
  | l4Flow

inductive Stage where
  | asking (kind : FlowKind)
  | upgrading
  | collecting (bytes : Nat)
  | answering
  | passedOn
  | conversing
  | copying

namespace Stage

def first : FlowKind → Stage
  | .plaintextRequest => asking .plaintextRequest
  | .tunnelRequest => asking .tunnelRequest
  | .webSocket => upgrading
  | .tlsSession => copying
  | .l4Flow => copying

def holdsLease : Stage → Bool
  | passedOn => false
  | conversing => false
  | _ => true

def withinLimit (bytes : Nat) : Stage → Bool
  | collecting read => read + bytes ≤ maxCompressSize
  | _ => true

end Stage

structure Flow where
  entry : Nat
  stage : Stage

def Flow.uses (i : Nat) (f : Flow) : Nat :=
  if f.entry = i then 1 else 0

def Flow.holds (i : Nat) (f : Flow) : Nat :=
  if f.stage.holdsLease = true ∧ f.entry = i then 1 else 0

structure BalancerState where
  pool : PoolState
  flows : List Flow

/-- What can happen to a pool and its flows, which are named by their place. A flow
    that is over has finished, failed, or been dropped. -/
inductive BalancerEvent where
  | start (kind : FlowKind) (draw : Draw)
  | refused (draw : Draw) (exclude : List String)
  | retry (flow : Nat) (draw : Draw) (exclude : List String)
  | answered (flow : Nat) (compressible : Bool)
  | frame (flow : Nat) (bytes : Nat)
  | collected (flow : Nat)
  | handshook (flow : Nat) (status : Nat)
  | ended (flow : Nat)
  | probed (entry : Nat) (healthy : Bool)
  | reported (entry : Nat) (answered : Bool) (now : Nat)

namespace BalancerState

def move (s : BalancerState) (k : Nat) (f : Flow) (stage : Stage) : BalancerState :=
  { s with flows := s.flows.set k { f with stage := stage } }

def letGo (s : BalancerState) (k : Nat) (f : Flow) (stage : Stage) : BalancerState :=
  { pool := s.pool.release f.entry, flows := s.flows.set k { f with stage := stage } }

def finish (s : BalancerState) (k : Nat) (f : Flow) : BalancerState :=
  { pool := if f.stage.holdsLease then s.pool.release f.entry else s.pool
    flows := s.flows.eraseIdx k }

/-- The request is tried again. The new lease is taken before the old one is dropped;
    where there is nobody else to ask the request is over. -/
def retry (backends : BackendPool) (s : BalancerState) (k : Nat) (f : Flow) (draw : Draw)
    (exclude : List String) : BalancerState :=
  match backends.selectBackendExcluding s.pool draw exclude with
  | some (i, pool) =>
    { pool := pool.release f.entry, flows := s.flows.set k { f with entry := i } }
  | none => s.finish k f

def stepFlow (backends : BackendPool) (s : BalancerState) (k : Nat) (f : Flow) :
    BalancerEvent → Option BalancerState
  | .retry _ draw exclude =>
    match f.stage with
    | .asking _ => some (s.retry backends k f draw exclude)
    | _ => none
  | .answered _ compressible =>
    match f.stage with
    | .asking .plaintextRequest =>
      some (s.move k f (if compressible then .collecting 0 else .answering))
    | .asking _ => some (s.move k f .answering)
    | _ => none
  | .frame _ bytes =>
    match f.stage with
    | .collecting read =>
      -- Past the limit the rest is handed on, and the function returns.
      if maxCompressSize < read + bytes then some (s.letGo k f .passedOn)
      else some (s.move k f (.collecting (read + bytes)))
    | _ => none
  | .collected _ =>
    match f.stage with
    | .collecting _ => some (s.finish k f)
    | _ => none
  | .handshook _ status =>
    match f.stage with
    | .upgrading => some (if status = 101 then s.letGo k f .conversing else s.finish k f)
    | _ => none
  | .ended _ => some (s.finish k f)
  | _ => none

def step (backends : BackendPool) (s : BalancerState) (e : BalancerEvent) :
    Option BalancerState :=
  match e with
  | .start kind draw =>
    match backends.selectBackend s.pool draw with
    | some (i, pool) =>
      some { pool := pool, flows := { entry := i, stage := .first kind } :: s.flows }
    | none => some s
  | .refused draw exclude =>
    -- The access list or the limit on flows refuses, and the lease goes out of scope.
    match backends.selectBackendExcluding s.pool draw exclude with
    | some (i, pool) => some { s with pool := pool.release i }
    | none => some s
  | .probed i healthy => some { s with pool := s.pool.probe i healthy }
  | .reported i answered now => some { s with pool := s.pool.report i answered now }
  | .retry k .. | .answered k _ | .frame k _ | .collected k | .handshook k _ | .ended k =>
    s.flows[k]?.bind fun f => s.stepFlow backends k f e

def leases (s : BalancerState) (i : Nat) : Nat :=
  Ledger.total (Flow.holds i) s.flows

def busy (s : BalancerState) (i : Nat) : Nat :=
  Ledger.total (Flow.uses i) s.flows

end BalancerState

/-- A step that lets go of no lease while its flow goes on: a handshake that does not
    switch protocols, a frame within the limit. The flows are fewer than a counter can
    count. -/
def KeepsLease (s : BalancerState) (e : BalancerEvent) : Prop :=
  s.flows.length < Usize.max ∧
    match e with
    | .handshook _ status => status ≠ 101
    | .frame k bytes => ∀ f ∈ s.flows[k]?, f.stage.withinLimit bytes = true
    | _ => True

instance (s : BalancerState) (e : BalancerEvent) : Decidable (KeepsLease s e) :=
  @instDecidableAnd _ _ _ (match e with
    | .handshook _ status => inferInstanceAs (Decidable (status ≠ 101))
    | .frame k bytes =>
      inferInstanceAs (Decidable (∀ f ∈ s.flows[k]?, f.stage.withinLimit bytes = true))
    | .start .. | .refused .. | .retry .. | .answered .. | .collected _ | .ended _ | .probed ..
    | .reported .. => inferInstanceAs (Decidable True))

/-! ### The balancer counts leases -/

structure Leased (s : BalancerState) : Prop where
  counted : ∀ i, (s.pool.entry i).inFlight = s.leases i
  few : s.flows.length ≤ Usize.max

section

variable {backends : BackendPool} {s : BalancerState} {k : Nat} {f : Flow} {stage : Stage}

open Nexapipe.Flow

theorem Flow.holds_eq (i : Nat) (h : f.stage.holdsLease = true) :
    f.holds i = if i = f.entry then 1 else 0 := by
  unfold holds
  simp only [h, true_and, eq_comm]

theorem Flow.holds_of_not (i : Nat) (h : f.stage.holdsLease = false) : f.holds i = 0 := by
  unfold holds
  simp [h]

theorem BalancerState.leases_le (s : BalancerState) (i : Nat) : s.leases i ≤ s.flows.length := by
  refine total_le_length _ (fun f => ?_) s.flows
  unfold holds
  split <;> omega

theorem Leased.release (h : Leased s) (hget : s.flows[k]? = some f)
    (hhol : f.stage.holdsLease = true) (i : Nat) :
    ((s.pool.release f.entry).entry i).inFlight + f.holds i = s.leases i := by
  have hc := h.counted i
  have hfew := h.few
  have hle := s.leases_le i
  have hone : f.holds i ≤ s.leases i := le_total (holds i) hget
  rw [PoolState.inFlight_release]
  rw [holds_eq i hhol] at hone ⊢
  by_cases hi : i = f.entry
  · rw [if_pos hi] at hone
    rw [if_pos hi, if_pos hi, Usize.sub_of_le (by omega) (by omega)]
    omega
  · rw [if_neg hi, if_neg hi]
    omega

open BalancerState

theorem Leased.move (h : Leased s) (hget : s.flows[k]? = some f)
    (hhol : f.stage.holdsLease = true) (hstage : stage.holdsLease = true) :
    Leased (s.move k f stage) := by
  refine ⟨?_, ?_⟩
  · intro i
    have htot := total_set (holds i) { f with stage := stage } hget
    have hsame : holds i { f with stage := stage } = f.holds i := by
      simp [holds, hhol, hstage]
    have hc := h.counted i
    unfold leases at hc ⊢
    simp only [BalancerState.move]
    omega
  · simpa [BalancerState.move] using h.few

theorem Leased.letGo (h : Leased s) (hget : s.flows[k]? = some f)
    (hhol : f.stage.holdsLease = true) (hstage : stage.holdsLease = false) :
    Leased (s.letGo k f stage) := by
  refine ⟨?_, ?_⟩
  · intro i
    have htot := total_set (holds i) { f with stage := stage } hget
    have hn : holds i { f with stage := stage } = 0 := holds_of_not i hstage
    have hrel := h.release hget hhol i
    unfold leases at hrel ⊢
    simp only [BalancerState.letGo]
    omega
  · simpa [BalancerState.letGo] using h.few

theorem Leased.finish (h : Leased s) (hget : s.flows[k]? = some f) : Leased (s.finish k f) := by
  refine ⟨?_, ?_⟩
  · intro i
    have htot := total_eraseIdx (holds i) hget
    unfold BalancerState.leases
    simp only [BalancerState.finish]
    by_cases hhol : f.stage.holdsLease = true
    · have hrel := h.release hget hhol i
      unfold leases at hrel
      rw [if_pos hhol]
      omega
    · have hno : f.holds i = 0 := holds_of_not i (by simpa using hhol)
      have hco := h.counted i
      unfold leases at hco
      rw [if_neg hhol]
      omega
  · have hlen : (s.flows.eraseIdx k).length ≤ s.flows.length := length_eraseIdx_le _ _
    exact le_trans hlen h.few

variable {draw : Draw} {exclude : List String} {st' : PoolState} {e : BalancerEvent}
  {s' : BalancerState}

theorem inFlight_of_select {st : PoolState} {i : Nat}
    (h : backends.selectBackendExcluding st draw exclude = some (i, st')) (j : Nat) :
    (st'.entry j).inFlight =
      if j = i then Usize.add (st.entry j).inFlight 1 else (st.entry j).inFlight := by
  rcases (BackendPool.selectBackendExcluding_cases h).2 with rfl | rfl
  · exact st.inFlight_lease i j
  · exact st.advance.inFlight_lease i j

theorem Leased.select {i : Nat} (h : Leased s) (hfew : s.flows.length < Usize.max)
    (hselect : backends.selectBackendExcluding s.pool draw exclude = some (i, st')) (j : Nat) :
    (st'.entry j).inFlight = s.leases j + if j = i then 1 else 0 := by
  have hle := s.leases_le j
  rw [inFlight_of_select hselect, h.counted j]
  by_cases hji : j = i
  · rw [if_pos hji, if_pos hji, Usize.add_of_le (by omega)]
  · rw [if_neg hji, if_neg hji, Nat.add_zero]

theorem Leased.start {i : Nat} (h : Leased s) (hfew : s.flows.length < Usize.max)
    (hselect : backends.selectBackendExcluding s.pool draw exclude = some (i, st'))
    (hstage : stage.holdsLease = true) :
    Leased { pool := st', flows := { entry := i, stage := stage } :: s.flows } := by
  refine ⟨?_, ?_⟩
  · intro j
    have hnew : holds j { entry := i, stage := stage } = if j = i then 1 else 0 :=
      holds_eq j hstage
    rw [h.select hfew hselect j]
    unfold leases
    rw [total_cons, hnew]
    omega
  · simp only [length_cons]
    omega

theorem Leased.refused {st' : PoolState} {draw : Draw} {exclude : List String} {i : Nat}
    (h : Leased s) (hfew : s.flows.length < Usize.max)
    (hselect : backends.selectBackendExcluding s.pool draw exclude = some (i, st')) :
    Leased { s with pool := st'.release i } := by
  refine ⟨?_, h.few⟩
  intro j
  have hle := s.leases_le j
  have hcount := h.select hfew hselect j
  rw [PoolState.inFlight_release]
  simp only [leases] at hle hcount ⊢
  by_cases hji : j = i
  · rw [if_pos hji] at hcount ⊢
    rw [hcount, Usize.sub_of_le (by omega) (by omega)]
    omega
  · rw [if_neg hji] at hcount ⊢
    omega

theorem Leased.retry {draw : Draw} {exclude : List String} (h : Leased s)
    (hfew : s.flows.length < Usize.max) (hget : s.flows[k]? = some f)
    (hhol : f.stage.holdsLease = true) : Leased (s.retry backends k f draw exclude) := by
  unfold BalancerState.retry
  split
  · rename_i i st' hselect
    refine ⟨?_, by simpa using h.few⟩
    intro j
    have hle := s.leases_le j
    have hcount := h.select hfew hselect j
    have htot := total_set (holds j) { f with entry := i } hget
    have hone : f.holds j ≤ s.leases j := le_total (holds j) hget
    have hnew : holds j { f with entry := i } = if j = i then 1 else 0 :=
      holds_eq j hhol
    rw [PoolState.inFlight_release]
    rw [holds_eq j hhol] at hone htot
    simp only [leases] at hle hcount hone ⊢
    by_cases hj : j = f.entry
    · rw [if_pos hj] at hone htot ⊢
      rw [hcount, Usize.sub_of_le (by omega) (by split <;> omega)]
      omega
    · rw [if_neg hj] at htot ⊢
      omega
  · exact h.finish hget

theorem Stage.holdsLease_first (kind : FlowKind) : (Stage.first kind).holdsLease = true := by
  cases kind <;> rfl

/-- Everything an event of a flow can do: it moves on with its lease, is tried again,
    is over, or lets go of the lease early. -/
inductive FlowMove (backends : BackendPool) (s : BalancerState) (k : Nat) (f : Flow) :
    BalancerEvent → BalancerState → Prop
  | moved {e : BalancerEvent} {stage : Stage} (hleased : f.stage.holdsLease = true)
      (hstage : stage.holdsLease = true) : FlowMove backends s k f e (s.move k f stage)
  | retried {e : BalancerEvent} {draw : Draw} {exclude : List String}
      (hleased : f.stage.holdsLease = true) :
      FlowMove backends s k f e (s.retry backends k f draw exclude)
  | finished {e : BalancerEvent} : FlowMove backends s k f e (s.finish k f)
  | upgraded {j : Nat} {stage : Stage} (hleased : f.stage.holdsLease = true)
      (hstage : stage.holdsLease = false) :
      FlowMove backends s k f (.handshook j 101) (s.letGo k f stage)
  | outgrew {j bytes read : Nat} {stage : Stage} (hread : f.stage = .collecting read)
      (hover : maxCompressSize < read + bytes) (hstage : stage.holdsLease = false) :
      FlowMove backends s k f (.frame j bytes) (s.letGo k f stage)

theorem flowMove_of_stepFlow (hst : s.stepFlow backends k f e = some s') :
    FlowMove backends s k f e s' := by
  revert hst
  fun_cases stepFlow backends s k f e with
  | case1 _ _ _ _ hstage =>
    rintro ⟨⟩
    exact .retried (by rw [hstage]; rfl)
  -- The head of the answer is in.
  | case3 _ _ hstage =>
    rintro ⟨⟩
    exact .moved (by rw [hstage]; rfl) (by split <;> rfl)
  | case4 _ _ _ _ hstage =>
    rintro ⟨⟩
    exact .moved (by rw [hstage]; rfl) rfl
  -- A frame of an answer that is to be compressed.
  | case6 _ _ _ hstage hover =>
    rintro ⟨⟩
    exact .outgrew hstage hover rfl
  | case7 _ _ _ hstage =>
    rintro ⟨⟩
    exact .moved (by rw [hstage]; rfl) rfl
  | case9 | case13 =>
    rintro ⟨⟩
    exact .finished
  -- The backend's answer to an upgrade.
  | case11 _ status hstage =>
    rintro ⟨⟩
    by_cases hsw : status = 101
    · rw [if_pos hsw, hsw]
      exact .upgraded (by rw [hstage]; rfl) rfl
    · rw [if_neg hsw]
      exact .finished
  | _ => rintro ⟨⟩

/-- Everything an event can do. It is a flow's own, starts a flow, takes a lease for
    nothing, or leaves the flows with their leases. -/
inductive BalancerMove (backends : BackendPool) (s : BalancerState) :
    BalancerEvent → BalancerState → Prop
  | flow {e : BalancerEvent} {s' : BalancerState} {k : Nat} {f : Flow}
      (hget : s.flows[k]? = some f) (hmove : FlowMove backends s k f e s')
      (hown : ∀ j bytes, e = .frame j bytes → j = k) : BalancerMove backends s e s'
  | started {e : BalancerEvent} {draw : Draw} {i : Nat} {pool : PoolState} {kind : FlowKind}
      (hselect : backends.selectBackendExcluding s.pool draw [] = some (i, pool)) :
      BalancerMove backends s e
        { pool := pool, flows := { entry := i, stage := .first kind } :: s.flows }
  | refused {e : BalancerEvent} {draw : Draw} {exclude : List String} {i : Nat}
      {pool : PoolState}
      (hselect : backends.selectBackendExcluding s.pool draw exclude = some (i, pool)) :
      BalancerMove backends s e { s with pool := pool.release i }
  | aside {e : BalancerEvent} {s' : BalancerState} (hflows : s'.flows = s.flows)
      (hcount : ∀ i, (s'.pool.entry i).inFlight = (s.pool.entry i).inFlight) :
      BalancerMove backends s e s'

theorem balancerMove_of_step (hst : s.step backends e = some s') :
    BalancerMove backends s e s' := by
  revert hst
  fun_cases step backends s e with
  | case1 _ _ _ _ hselect =>
    rintro ⟨⟩
    exact .started hselect
  | case3 _ _ _ _ hselect =>
    rintro ⟨⟩
    exact .refused hselect
  | case2 | case4 =>
    rintro ⟨⟩
    exact .aside rfl (fun _ => rfl)
  | case5 i healthy =>
    rintro ⟨⟩
    exact .aside rfl (fun j => s.pool.inFlight_probe i j healthy)
  | case6 i answered now =>
    rintro ⟨⟩
    exact .aside rfl (fun j => s.pool.inFlight_report i j answered now)
  | _ =>
    intro hst
    obtain ⟨f, hget, hfl⟩ := Option.bind_eq_some_iff.mp hst
    exact .flow hget (flowMove_of_stepFlow hfl) (by simp)

theorem Leased.step (h : Leased s) (hfew : s.flows.length < Usize.max)
    (hst : s.step backends e = some s') : Leased s' := by
  cases balancerMove_of_step hst with
  | flow hget hmove hown =>
    cases hmove with
    | moved hleased hstage => exact h.move hget hleased hstage
    | retried hleased => exact h.retry hfew hget hleased
    | finished => exact h.finish hget
    | upgraded hleased hstage => exact h.letGo hget hleased hstage
    | outgrew hread hover hstage => exact h.letGo hget (by rw [hread]; rfl) hstage
  | started hselect => exact h.start hfew hselect (Stage.holdsLease_first _)
  | refused hselect => exact h.refused hfew hselect
  | aside hflows hcount =>
    refine ⟨?_, hflows ▸ h.few⟩
    intro i
    rw [hcount, leases, hflows]
    exact h.counted i

/-! ### Flows keep their leases -/

def AllLeased (s : BalancerState) : Prop :=
  ∀ f ∈ s.flows, f.stage.holdsLease = true

theorem AllLeased.set (h : AllLeased s) {g : Flow} {pool : PoolState}
    (hg : g.stage.holdsLease = true) : AllLeased { pool := pool, flows := s.flows.set k g } := by
  intro x hx
  rcases mem_or_eq_of_mem_set hx with hold | rfl
  · exact h x hold
  · exact hg

theorem AllLeased.finish (h : AllLeased s) : AllLeased (s.finish k f) :=
  fun x hx => h x (mem_of_mem_eraseIdx hx)

theorem AllLeased.step (h : AllLeased s) (hke : KeepsLease s e)
    (hst : s.step backends e = some s') : AllLeased s' := by
  cases balancerMove_of_step hst with
  | flow hget hmove hown =>
    cases hmove with
    | moved hleased hstage => exact h.set hstage
    | retried hleased =>
      unfold retry
      split
      · exact h.set hleased
      · exact h.finish
    | finished => exact h.finish
    -- The two early releases are the ones the condition rules out.
    | upgraded hleased hstage => exact absurd rfl hke.2
    | @outgrew j bytes read stage hread hover hstage =>
      rw [← hown j bytes rfl] at hget
      have hfi := hke.2 _ hget
      simp only [hread, Stage.withinLimit, decide_eq_true_eq] at hfi
      omega
  | started hselect =>
    intro x hx
    rcases mem_cons.mp hx with rfl | hold
    · exact Stage.holdsLease_first _
    · exact h x hold
  | refused hselect => exact h
  | aside hflows hcount =>
    intro x hx
    exact h x (hflows ▸ hx)

end

def BalancerState.new (breaker : Option CircuitBreaker) : BalancerState :=
  { pool := { entry := fun _ => .new breaker, roundRobinIndex := 0 }, flows := [] }

/-- In every run that lets go of no lease early, the count of a backend is the number
    of flows that are exchanging bytes with it, and no count is taken below zero: each
    flow's backend still has it counted. -/
theorem busy_counted (backends : BackendPool) (breaker : Option CircuitBreaker)
    (events : List BalancerEvent) (s : BalancerState)
    (hkeeps : Machine.Along (BalancerState.step backends) KeepsLease (.new breaker) events)
    (hrun : Machine.run (BalancerState.step backends) (.new breaker) events = some s) :
    (∀ i, (s.pool.entry i).inFlight = s.busy i) ∧
      ∀ f ∈ s.flows, 1 ≤ (s.pool.entry f.entry).inFlight := by
  have hinv : Leased s ∧ AllLeased s := by
    refine Machine.invariant_along (fun s => Leased s ∧ AllLeased s) ?_ ?_ hkeeps hrun
    · rintro s e s' ⟨hleased, hall⟩ hok hst
      exact ⟨hleased.step hok.1 hst, hall.step hok hst⟩
    · refine ⟨⟨fun i => rfl, Nat.zero_le _⟩, ?_⟩
      intro f hf
      exact absurd hf not_mem_nil
  rcases hinv with ⟨hleased, hall⟩
  have hbu : ∀ i, (s.pool.entry i).inFlight = s.busy i := by
    intro i
    rw [hleased.counted i]
    refine total_congr _ fun f hf => ?_
    simp [Flow.holds, Flow.uses, hall f hf]
  refine ⟨hbu, ?_⟩
  intro f hf
  obtain ⟨k, hk⟩ := mem_iff_getElem?.mp hf
  have hone : Flow.uses f.entry f ≤ s.busy f.entry := le_total (Flow.uses f.entry) hk
  rw [hbu]
  simpa [Flow.uses] using hone

def twoBackends : BackendPool :=
  { id := 0, strategy := .leastConn, backends := ["http://10.0.0.5", "http://10.0.0.6"] }

def mixedFlows : List BalancerEvent :=
  [.start .plaintextRequest ⟨0, 0⟩, .start .tunnelRequest ⟨0, 0⟩, .answered 1 true,
    .frame 1 4096, .answered 0 false, .start .tlsSession ⟨0, 0⟩, .collected 2]

/-- The answer that was compressed is over, and the other two flows are each alone on a
    backend. -/
theorem busy_counted_mixed :
    ∃ s, Machine.run (BalancerState.step twoBackends) (.new none) mixedFlows = some s ∧
      s.flows.map Flow.entry = [0, 1] ∧ s.busy 0 = 1 ∧
      (∀ i, (s.pool.entry i).inFlight = s.busy i) ∧
      ∀ f ∈ s.flows, 1 ≤ (s.pool.entry f.entry).inFlight := by
  have hrun : (Machine.run (BalancerState.step twoBackends) (.new none) mixedFlows).map
      (fun s => (s.flows.map Flow.entry, s.busy 0)) = some ([0, 1], 1) := by decide
  obtain ⟨s, hs, hv⟩ := Option.map_eq_some_iff.mp hrun
  rw [Prod.mk.injEq] at hv
  exact ⟨s, hs, hv.1, hv.2, busy_counted twoBackends none _ s (by decide) hs⟩

/-- A conversation after an upgrade, and an answer that turned out too large to be
    compressed: the backend is in use and does not count as busy. -/
theorem lease_let_go_early :
    (Machine.run (BalancerState.step twoBackends) (.new none)
        [.start .webSocket ⟨0, 0⟩, .handshook 0 101]).map
        (fun s => ((s.pool.entry 0).inFlight, s.busy 0)) = some (0, 1) ∧
      (Machine.run (BalancerState.step twoBackends) (.new none)
        [.start .plaintextRequest ⟨0, 0⟩, .answered 0 true, .frame 0 1048577]).map
        (fun s => ((s.pool.entry 0).inFlight, s.busy 0)) = some (0, 1) := by
  decide

end Nexapipe
