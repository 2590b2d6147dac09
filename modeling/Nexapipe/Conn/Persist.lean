import Nexapipe.Auth.State
import Nexapipe.Lib.Run

/-!
# Writing the counters back

`persistAuthState` spawns a task that takes the auth lock for reading, then the
write gate, then its snapshot, lets go of the auth lock, writes the file, and
lets go of the gate. Counters are moved under the same auth lock, held for
writing; other writes of the configuration take the gate too. Any number of
these run at once, and a caller that gives up does not stop its task.

Between taking a snapshot and writing it a task holds nothing that keeps the
counters still, so what orders the contents of the file is the gate alone: a
snapshot is taken only once the gate is held, so it is newer than everything
that was written before it.
-/

namespace Nexapipe

open List Option Nat

/-- Where a persist task stands. It holds the auth lock for reading while it is
    `reading` or `gated`, and the gate from `gated` to `written`. -/
inductive PersistPhase where
  | spawned
  | reading
  | gated
  | writing (stamp : Nat) (counters : AuthConfig)
  | written (result : Except StateError Unit)
  | done (result : Except StateError Unit)

def PersistPhase.holdsRead : PersistPhase → Bool
  | reading | gated => true
  | spawned | writing _ _ | written _ | done _ => false

def PersistPhase.holdsGate : PersistPhase → Bool
  | gated | writing _ _ | written _ => true
  | spawned | reading | done _ => false

def PersistPhase.isDone : PersistPhase → Bool
  | done _ => true
  | spawned | reading | gated | writing _ _ | written _ => false

structure Persist where
  calledAt : Nat
  phase : PersistPhase

inductive GateHolder where
  | persist (id : Nat)
  | storageWrite
deriving DecidableEq

structure Written where
  stamp : Nat
  content : Option RuntimeState

structure Counting where
  now : Nat
  live : AuthConfig
  /-- Every value the table has had, with the time it was given, newest first. -/
  past : List (Nat × AuthConfig)
  writeLocked : Bool
  gate : Option GateHolder
  tasks : Table Nat Persist
  file : Option RuntimeState
  /-- The writes that reached the file, newest first. -/
  contents : List Written

inductive CountingEvent where
  | lockWrite
  | mutate (cfg : AuthConfig)
  | unlockWrite
  | call (id : Nat)
  | lockRead (id : Nat)
  | takeGate (id : Nat)
  | snapshot (id : Nat)
  | write (id : Nat) (io : StateIo)
  | dropGate (id : Nat)
  | otherGate
  | otherDone

namespace Counting

def start (cfg : AuthConfig) (file : Option RuntimeState) : Counting :=
  { now := 1
    live := cfg
    past := [(0, cfg)]
    writeLocked := false
    gate := none
    tasks := ∅
    file := file
    contents := [] }

def configAt (s : Counting) (time : Nat) : AuthConfig :=
  ((s.past.find? fun value => decide (value.1 ≤ time)).map Prod.snd).getD AuthConfig.default

def setPhase (s : Counting) (id since : Nat) (phase : PersistPhase) : Counting :=
  { s with tasks := s.tasks.insert id ⟨since, phase⟩ }

def afterWrite (cr : Crypto) (s : Counting) (id since stamp : Nat) (counters : AuthConfig)
    (io : StateIo) : Counting :=
  let r := saveAuthStateTo cr io s.file counters
  { s with
    tasks := s.tasks.insert id ⟨since, .written r.2⟩
    file := r.1
    contents := if io.reaches then ⟨stamp, r.1⟩ :: s.contents else s.contents }

/-- What an event changes, where it can happen. Locks are taken only when they are
    free, and a task moves only from the phase before. -/
def next (cr : Crypto) (s : Counting) : CountingEvent → Option Counting
  | .lockWrite =>
    if s.writeLocked = false ∧ s.tasks.Forall (fun _ t => t.phase.holdsRead = false) then
      some { s with writeLocked := true }
    else none
  | .mutate cfg =>
    if s.writeLocked then some { s with live := cfg, past := (s.now, cfg) :: s.past }
    else none
  | .unlockWrite => if s.writeLocked then some { s with writeLocked := false } else none
  | .call id =>
    if (s.tasks.lookup id).isNone then
      some { s with tasks := s.tasks.insert id { calledAt := s.now, phase := .spawned } }
    else none
  | .lockRead id =>
    match s.tasks.lookup id with
    | some ⟨since, .spawned⟩ =>
      if s.writeLocked then none else some (s.setPhase id since .reading)
    | _ => none
  | .takeGate id =>
    match s.tasks.lookup id with
    | some ⟨since, .reading⟩ =>
      if s.gate.isNone then
        some { s.setPhase id since .gated with gate := some (.persist id) }
      else none
    | _ => none
  | .snapshot id =>
    match s.tasks.lookup id with
    | some ⟨since, .gated⟩ =>
      some (s.setPhase id since (.writing s.now s.live.counterSnapshot))
    | _ => none
  | .write id io =>
    match s.tasks.lookup id with
    | some ⟨since, .writing stamp counters⟩ =>
      some (s.afterWrite cr id since stamp counters io)
    | _ => none
  | .dropGate id =>
    match s.tasks.lookup id with
    | some ⟨since, .written result⟩ =>
      some { s.setPhase id since (.done result) with gate := none }
    | _ => none
  | .otherGate => if s.gate.isNone then some { s with gate := some .storageWrite } else none
  | .otherDone =>
    if s.gate = some .storageWrite then some { s with gate := none } else none

def step (cr : Crypto) (s : Counting) (e : CountingEvent) : Option Counting :=
  (next cr s e).map fun s => { s with now := s.now + 1 }

/-! ### The order of the contents -/

/-- What is known of a task in its phase. A snapshot that is about to be written
    is newer than everything in the file, and a write that succeeded is no newer
    than what the file holds now. -/
def PhaseOk (s : Counting) (calledAt : Nat) : PersistPhase → Prop
  | .writing stamp counters =>
    calledAt ≤ stamp ∧ stamp < s.now ∧ counters = (s.configAt stamp).counterSnapshot ∧
      ∀ w ∈ s.contents, w.stamp < stamp
  | .written result | .done result =>
    result = .ok () → ∃ w ∈ s.contents.head?, calledAt ≤ w.stamp
  | .spawned | .reading | .gated => True

structure TaskOk (s : Counting) (id : Nat) (task : Persist) : Prop where
  called : task.calledAt < s.now
  gate : task.phase.holdsGate = true → s.gate = some (.persist id)
  phase : s.PhaseOk task.calledAt task.phase

structure Ordered (cr : Crypto) (s : Counting) : Prop where
  past_lt : ∀ value ∈ s.past, value.1 < s.now
  current : ∃ since rest, s.past = (since, s.live) :: rest
  increasing : s.contents.Pairwise fun newer older => older.stamp < newer.stamp
  whole : ∀ w ∈ s.contents,
    w.stamp < s.now ∧ w.content = some (Nexapipe.snapshot cr (s.configAt w.stamp))
  file_eq : ∀ w ∈ s.contents.head?, s.file = w.content
  task : ∀ id t, s.tasks.lookup id = some t → s.TaskOk id t

theorem ordered_start (cr : Crypto) (cfg : AuthConfig) (file : Option RuntimeState) :
    Ordered cr (start cfg file) where
  past_lt := by
    intro value hval
    rw [mem_singleton.mp hval]
    exact zero_lt_one
  current := ⟨0, [], rfl⟩
  increasing := List.Pairwise.nil
  whole := fun w hw => absurd hw not_mem_nil
  file_eq := fun w hw => absurd hw (not_mem_none w)
  task := fun id t ht => by
    cases ht

variable {cr : Crypto} {s s' : Counting}

theorem Ordered.configAt_now (h : Ordered cr s) : s.configAt s.now = s.live := by
  rcases h.current with ⟨since, rest, hp⟩
  -- The newest value is the live one, and it was given before now.
  have hlt : since < s.now := h.past_lt (since, s.live) (by rw [hp]; exact mem_cons_self)
  simp only [configAt, hp, List.find?_cons, decide_eq_true hlt.le]
  rfl

variable {id : Nat} {counters : AuthConfig}

/-- What is known of a task stays known while the time moves on, the gate is left
    to it, the past is kept, and nothing is written while it is in the gate. -/
theorem TaskOk.mono {task : Persist} (h : s.TaskOk id task) (hnow : s.now ≤ s'.now)
    (hpa : ∀ time < s.now, s'.configAt time = s.configAt time)
    (hga : task.phase.holdsGate = true → s'.gate = s.gate ∧ s'.contents = s.contents)
    (hhe : ∀ w ∈ s.contents.head?, ∃ w' ∈ s'.contents.head?, w.stamp ≤ w'.stamp) :
    s'.TaskOk id task where
  called := h.called.trans_le hnow
  gate := fun hhol => (hga hhol).1.trans (h.gate hhol)
  phase := by
    have hph := h.phase
    -- A write that succeeded stays no newer than the newest content, since that only moves up.
    have hke : ∀ result : Except StateError Unit,
        (result = .ok () → ∃ w ∈ s.contents.head?, task.calledAt ≤ w.stamp) →
        result = .ok () → ∃ w ∈ s'.contents.head?, task.calledAt ≤ w.stamp := by
      intro result hres hok
      rcases hres hok with ⟨w, hw, hle⟩
      rcases hhe w hw with ⟨w', hw', hle'⟩
      exact ⟨w', hw', hle.trans hle'⟩
    cases hp : task.phase with
    | spawned | reading | gated => trivial
    | writing stamp counters =>
      -- Its snapshot is of the past, which is kept, and nobody else writes while it is in the
      -- gate.
      rw [hp] at hph hga
      rcases hph with ⟨hcal, hlt, hco, hnew⟩
      refine ⟨hcal, hlt.trans_le hnow, ?_, ?_⟩
      · rw [hpa stamp hlt]
        exact hco
      · rw [(hga rfl).2]
        exact hnew
    | written result | done result =>
      rw [hp] at hph
      exact hke result hph

theorem Ordered.frame (h : Ordered cr s) (hnow : s.now < s'.now) (hli : s'.live = s.live)
    (hpa : s'.past = s.past) (hcon : s'.contents = s.contents) (hfi : s'.file = s.file)
    (hta : ∀ id t, s'.tasks.lookup id = some t → s'.TaskOk id t) : Ordered cr s' where
  past_lt := by
    intro value hval
    rw [hpa] at hval
    exact (h.past_lt value hval).trans hnow
  current := by
    rw [hpa, hli]
    exact h.current
  increasing := by
    rw [hcon]
    exact h.increasing
  whole := by
    intro w hw
    rw [hcon] at hw
    simp only [configAt, hpa]
    exact ⟨(h.whole w hw).1.trans hnow, (h.whole w hw).2⟩
  file_eq := by
    rw [hcon, hfi]
    exact h.file_eq
  task := hta

theorem Ordered.moveTask (h : Ordered cr s) {task : Persist} (hnow : s.now < s'.now)
    (hli : s'.live = s.live) (hpa : s'.past = s.past) (hcon : s'.contents = s.contents)
    (hfi : s'.file = s.file) (htas : s'.tasks = s.tasks.insert id task)
    (hga : ∀ other t, other ≠ id → s.tasks.lookup other = some t → t.phase.holdsGate = true →
      s'.gate = s.gate) (hnew : s'.TaskOk id task) : Ordered cr s' := by
  refine h.frame hnow hli hpa hcon hfi ?_
  intro other t ht
  rw [htas, Table.lookup_insert_eq] at ht
  by_cases hoth : other = id
  · rw [if_pos hoth] at ht
    cases ht
    rw [hoth]
    exact hnew
  · rw [if_neg hoth] at ht
    refine (h.task other t ht).mono hnow.le ?_ ?_ ?_
    · intro time _
      simp only [configAt, hpa]
    · intro hhol
      exact ⟨hga other t hoth ht hhol, hcon⟩
    · intro w hw
      rw [hcon]
      exact ⟨w, hw, le_refl _⟩

theorem Ordered.relock (h : Ordered cr s) (hnow : s.now < s'.now) (hl : s'.live = s.live)
    (hp : s'.past = s.past) (hcon : s'.contents = s.contents) (hf : s'.file = s.file)
    (htas : s'.tasks = s.tasks) (hg : ∀ id, s.gate = some (.persist id) → s'.gate = s.gate) :
    Ordered cr s' := by
  refine h.frame hnow hl hp hcon hf ?_
  intro id t ht
  rw [htas] at ht
  refine (h.task id t ht).mono hnow.le ?_ ?_ ?_
  · intro time _
    simp only [configAt, hp]
  · intro hhol
    exact ⟨hg id ((h.task id t ht).gate hhol), hcon⟩
  · intro w hw
    rw [hcon]
    exact ⟨w, hw, le_refl _⟩

theorem Ordered.mutate (h : Ordered cr s) (cfg : AuthConfig) :
    Ordered cr { s with live := cfg, past := (s.now, cfg) :: s.past, now := s.now + 1 } := by
  have hpa : ∀ time < s.now,
      configAt { s with live := cfg, past := (s.now, cfg) :: s.past, now := s.now + 1 } time =
        s.configAt time := by
    intro time hti
    -- The new value was given now, so no earlier time finds it.
    simp only [configAt, List.find?_cons, decide_eq_false (Nat.not_le_of_lt hti)]
  refine ⟨?_, ⟨s.now, s.past, rfl⟩, h.increasing, ?_, h.file_eq, ?_⟩
  · intro value hval
    rcases mem_cons.mp hval with rfl | hold
    · exact lt_succ_self s.now
    · exact (h.past_lt value hold).trans (lt_succ_self s.now)
  · intro w hw
    have hlt := (h.whole w hw).1
    rw [hpa w.stamp hlt]
    exact ⟨hlt.trans (lt_succ_self s.now), (h.whole w hw).2⟩
  · intro id t ht
    exact (h.task id t ht).mono (le_succ s.now) hpa (fun _ => ⟨rfl, rfl⟩)
      (fun w hw => ⟨w, hw, le_refl _⟩)

theorem Ordered.failedWrite (h : Ordered cr s) {since stamp : Nat} {io : StateIo}
    (ht : s.tasks.lookup id = some ⟨since, .writing stamp counters⟩)
    (hr : io.reaches = false) :
    Ordered cr { s.afterWrite cr id since stamp counters io with now := s.now + 1 } := by
  rcases putState_of_not_reaches s.file (Nexapipe.snapshot cr counters) hr with
    ⟨hf, why, hwhy⟩
  have hok := h.task id _ ht
  refine h.moveTask (lt_succ_self s.now) rfl rfl ?_ hf rfl (fun _ _ _ _ _ => rfl) ?_
  · simp only [afterWrite, hr, Bool.false_eq_true, if_false]
  · refine ⟨hok.called.trans (lt_succ_self s.now), hok.gate, ?_⟩
    -- The task ends with an error, and only a success promises anything about the file.
    intro hres
    rw [saveAuthStateTo, hwhy] at hres
    cases hres

theorem Ordered.reachedWrite (h : Ordered cr s) {since stamp : Nat} {io : StateIo}
    (ht : s.tasks.lookup id = some ⟨since, .writing stamp counters⟩) (hreac : io.reaches = true)
    (hwh : io.tears = false) :
    Ordered cr { s.afterWrite cr id since stamp counters io with now := s.now + 1 } := by
  have hok := h.task id _ ht
  have hgate : s.gate = some (.persist id) := hok.gate rfl
  rcases hok.phase with ⟨hcal, hstam, hcoun, hnew⟩
  have hfile : (saveAuthStateTo cr io s.file counters).1 =
      some (Nexapipe.snapshot cr (s.configAt stamp)) := by
    rw [saveAuthStateTo, putState_of_reaches _ _ hreac hwh, hcoun,
      snapshot_counterSnapshot]
  have hcon : (s.afterWrite cr id since stamp counters io).contents =
      ⟨stamp, (saveAuthStateTo cr io s.file counters).1⟩ :: s.contents := by
    simp only [afterWrite, hreac, if_true]
  refine ⟨?_, h.current, ?_, ?_, ?_, ?_⟩
  · intro value hval
    exact (h.past_lt value hval).trans (lt_succ_self s.now)
  · rw [hcon, pairwise_cons]
    exact ⟨hnew, h.increasing⟩
  · intro w hw
    rw [hcon] at hw
    rcases mem_cons.mp hw with rfl | hold
    · exact ⟨hstam.trans (lt_succ_self s.now), hfile⟩
    · exact ⟨(h.whole w hold).1.trans (lt_succ_self s.now), (h.whole w hold).2⟩
  · intro w hw
    rw [hcon] at hw
    cases hw
    rfl
  · intro other t hoth
    change (s.tasks.insert id _).lookup other = some t at hoth
    rw [Table.lookup_insert_eq] at hoth
    by_cases heq : other = id
    · rw [if_pos heq] at hoth
      cases hoth
      rw [heq]
      refine ⟨hok.called.trans (lt_succ_self s.now), hok.gate, fun _ => ?_⟩
      rw [hcon]
      exact ⟨_, rfl, hcal⟩
    · rw [if_neg heq] at hoth
      refine (h.task other t hoth).mono (le_succ s.now) (fun _ _ => rfl) ?_ ?_
      · intro hhol
        -- Only one task is in the gate, and it is the one that wrote.
        have hsame := (h.task other t hoth).gate hhol
        rw [hgate] at hsame
        cases hsame
        exact absurd rfl heq
      · intro w hw
        rw [hcon]
        exact ⟨_, rfl, (hnew w (mem_of_mem_head? hw)).le⟩

end Counting

def CountingEvent.Whole : CountingEvent → Prop
  | write _ io => io.tears = false
  | _ => True

instance (e : CountingEvent) : Decidable e.Whole := by
  unfold CountingEvent.Whole
  cases e <;> infer_instance

namespace Counting

variable {cr : Crypto} {s s' : Counting}

variable {id since : Nat}

theorem Ordered.takeGate (h : Ordered cr s) (ht : s.tasks.lookup id = some ⟨since, .reading⟩)
    (hf : s.gate.isNone = true) :
    Ordered cr
      { s.setPhase id since .gated with gate := some (.persist id), now := s.now + 1 } := by
  have hlt := lt_succ_self s.now
  refine h.moveTask hlt rfl rfl rfl rfl rfl ?_
    ⟨(h.task id _ ht).called.trans hlt, fun _ => rfl, trivial⟩
  intro other t _ hoth hhol
  rw [(h.task other t hoth).gate hhol] at hf
  cases hf

theorem Ordered.takeSnapshot (h : Ordered cr s) (ht : s.tasks.lookup id = some ⟨since, .gated⟩) :
    Ordered cr
      { s.setPhase id since (.writing s.now s.live.counterSnapshot) with now := s.now + 1 } := by
  have hlt := lt_succ_self s.now
  have hok := h.task id _ ht
  refine h.moveTask hlt rfl rfl rfl rfl rfl (fun _ _ _ _ _ => rfl)
    ⟨hok.called.trans hlt, fun _ => hok.gate rfl, hok.called.le, hlt, ?_, ?_⟩
  · exact congrArg AuthConfig.counterSnapshot h.configAt_now.symm
  · intro w hw
    exact (h.whole w hw).1

theorem Ordered.dropGate (h : Ordered cr s) {result : Except StateError Unit}
    (ht : s.tasks.lookup id = some ⟨since, .written result⟩) :
    Ordered cr { s.setPhase id since (.done result) with gate := none, now := s.now + 1 } := by
  have hlt := lt_succ_self s.now
  have hok := h.task id _ ht
  refine h.moveTask hlt rfl rfl rfl rfl rfl ?_
    ⟨hok.called.trans hlt, fun hhol => absurd hhol Bool.false_ne_true, hok.phase⟩
  intro other t hne hoth hhol
  have hsame := (h.task other t hoth).gate hhol
  rw [hok.gate rfl] at hsame
  cases hsame
  exact absurd rfl hne

theorem ordered_step (e : CountingEvent) (h : Ordered cr s) (hwh : e.Whole)
    (hstep : step cr s e = some s') : Ordered cr s' := by
  rcases map_eq_some_iff.mp hstep with ⟨m, hm, rfl⟩
  have hlt := lt_succ_self s.now
  revert hm
  fun_cases next cr s e with
  | case1 | case5 =>
    rintro ⟨⟩
    exact h.relock hlt rfl rfl rfl rfl rfl fun _ _ => rfl
  | case3 cfg =>
    rintro ⟨⟩
    exact h.mutate cfg
  | case7 =>
    rintro ⟨⟩
    exact h.moveTask hlt rfl rfl rfl rfl rfl (fun _ _ _ _ _ => rfl)
      ⟨hlt, fun hhol => absurd hhol Bool.false_ne_true, trivial⟩
  | case10 id _ ht =>
    rintro ⟨⟩
    exact h.moveTask hlt rfl rfl rfl rfl rfl (fun _ _ _ _ _ => rfl)
      ⟨(h.task id _ ht).called.trans hlt, fun hhol => absurd hhol Bool.false_ne_true,
        trivial⟩
  | case12 _ _ ht hfree =>
    rintro ⟨⟩
    exact h.takeGate ht hfree
  | case15 _ _ ht =>
    rintro ⟨⟩
    exact h.takeSnapshot ht
  | case17 _ io _ _ _ ht =>
    rintro ⟨⟩
    rcases hreac : io.reaches with _ | _
    · exact h.failedWrite ht hreac
    · exact h.reachedWrite ht hreac hwh
  | case19 _ _ _ ht =>
    rintro ⟨⟩
    exact h.dropGate ht
  | case21 hgate | case23 hgate =>
    rintro ⟨⟩
    refine h.relock hlt rfl rfl rfl rfl rfl ?_
    -- A task in the gate would have kept it from being taken.
    intro id hid
    rw [hid] at hgate
    cases hgate
  | _ => rintro ⟨⟩

def Idle (s : Counting) : Prop :=
  s.tasks.Forall fun _ t => t.phase.isDone = true

instance (s : Counting) : Decidable s.Idle :=
  inferInstanceAs (Decidable (s.tasks.Forall _))

open Machine

/-- The state file never goes back in time. Whatever the interleaving, its
    successive contents are snapshots of the live counters, each taken later than
    the one before, and once a call has answered with success the file holds a
    snapshot no older than any change of the counters made before the call. -/
theorem state_file_in_order {cfg : AuthConfig} {file : Option RuntimeState}
    {es : List CountingEvent} (hrun : Machine.run (step cr) (start cfg file) es = some s)
    (hwhole : ∀ e ∈ es, e.Whole) :
    (s.contents.Pairwise fun newer older => older.stamp < newer.stamp) ∧
      (∀ w ∈ s.contents, w.content = some (Nexapipe.snapshot cr (s.configAt w.stamp))) ∧
      ∀ change ∈ s.past, ∀ id calledAt,
        s.tasks.lookup id = some ⟨calledAt, .done (.ok ())⟩ → change.1 ≤ calledAt →
        ∃ time, change.1 ≤ time ∧
          s.file = some (Nexapipe.snapshot cr (s.configAt time)) := by
  have hal : Machine.Along (step cr) (fun _ e => e.Whole ∧ True) (start cfg file) es :=
    Machine.Along.and_forall hwhole (along_true _ _)
  have h : Ordered cr s :=
    invariant_along (Ordered cr) (fun _ e _ h hok hst => ordered_step e h hok.1 hst)
      (ordered_start cr cfg file) hal hrun
  refine ⟨h.increasing, fun w hw => (h.whole w hw).2, ?_⟩
  intro change _ id calledAt ht hle
  -- The newest content is no older than the call, which came after the change.
  rcases (h.task id _ ht).phase rfl with ⟨w, hw, hcal⟩
  refine ⟨w.stamp, hle.trans hcal, ?_⟩
  rw [h.file_eq w hw]
  exact (h.whole w (mem_of_mem_head? hw)).2

def oneClient (failedAttempts : UInt32) : AuthConfig :=
  AuthConfig.gated [("alice", { ClientAuth.ofSecret "K" with failedAttempts := failedAttempts })]

def countAndPersist (failedAttempts : UInt32) (id : Nat) (write : WriteIo RuntimeState) :
    List CountingEvent :=
  [.lockWrite, .mutate (oneClient failedAttempts), .unlockWrite, .call id, .lockRead id,
    .takeGate id, .snapshot id, .write id ⟨none, true, write⟩, .dropGate id]

def overlappingPersists : List CountingEvent :=
  [.lockWrite, .mutate (oneClient 1), .unlockWrite, .call 1, .lockRead 1, .takeGate 1,
    .snapshot 1, .lockWrite, .mutate (oneClient 2), .unlockWrite, .call 2, .lockRead 2,
    .write 1 ⟨none, true, .replaced⟩, .dropGate 1, .takeGate 2, .snapshot 2,
    .write 2 ⟨none, true, .replaced⟩, .dropGate 2]

theorem state_file_in_order_overlapping :
    ∃ s, Machine.run (step Crypto.toy) (start (oneClient 0) none) overlappingPersists = some s ∧
      s.file = some (Nexapipe.snapshot Crypto.toy (oneClient 2)) ∧
      (s.contents.Pairwise fun newer older => older.stamp < newer.stamp) ∧
      s.contents.map Written.stamp = [16, 7] := by
  have hv : (run (step Crypto.toy) (start (oneClient 0) none) overlappingPersists).map
      (fun s => (s.file, s.contents.map Written.stamp)) =
      some (some (Nexapipe.snapshot Crypto.toy (oneClient 2)), [16, 7]) := by decide
  rcases map_eq_some_iff.mp hv with ⟨s, hrun, hs⟩
  exact ⟨s, hrun, congrArg Prod.fst hs, (state_file_in_order hrun (by decide)).1,
    congrArg Prod.snd hs⟩

/-- A call whose write fails leaves the snapshot before it in the file, and a
    write in place that fails half way leaves no snapshot at all. -/
theorem failed_persist_leaves_older :
    (∃ s, Machine.run (step Crypto.toy) (start (oneClient 0) none)
        (countAndPersist 1 1 .replaced ++ countAndPersist 2 2 (.tempFailed .writing)) = some s ∧
      s.Idle ∧ ∃ change ∈ s.past,
        (∃ id t, s.tasks.lookup id = some t ∧ change.1 ≤ t.calledAt) ∧
        ∀ time, change.1 ≤ time →
          s.file ≠ some (Nexapipe.snapshot Crypto.toy (s.configAt time))) ∧
    ∃ s, Machine.run (step Crypto.toy) (start (oneClient 0) none)
        (countAndPersist 1 1 (.torn none)) = some s ∧
      ∃ w ∈ s.contents, ∀ time,
        w.content ≠ some (Nexapipe.snapshot Crypto.toy (s.configAt time)) := by
  constructor
  · have hview : (run (step Crypto.toy) (start (oneClient 0) none)
        (countAndPersist 1 1 .replaced ++ countAndPersist 2 2 (.tempFailed .writing))).map
        (fun s => (s.past, s.file, decide s.Idle, (s.tasks.lookup 2).map Persist.calledAt)) =
        some ([(11, oneClient 2), (2, oneClient 1), (0, oneClient 0)],
          some (Nexapipe.snapshot Crypto.toy (oneClient 1)), true, some 13) := by decide
    rcases map_eq_some_iff.mp hview with ⟨s, hrun, hs⟩
    simp only [Prod.mk.injEq] at hs
    rcases hs with ⟨hpast, hfile, hidle, hcal⟩
    rcases map_eq_some_iff.mp hcal with ⟨t, ht, hat⟩
    refine ⟨s, hrun, of_decide_eq_true hidle, (11, oneClient 2), ?_, ⟨2, t, ht, ?_⟩, ?_⟩
    · rw [hpast]
      exact mem_cons_self
    · rw [hat]
      decide
    · intro time htime
      -- From the second count on the table has two failures, and the file says one.
      simp only [configAt, hpast, hfile, List.find?_cons, decide_eq_true htime]
      decide
  · have hview : (run (step Crypto.toy) (start (oneClient 0) none)
        (countAndPersist 1 1 (.torn none))).map (fun s => s.contents.map Written.content) =
        some [none] := by decide
    rcases map_eq_some_iff.mp hview with ⟨s, hrun, hs⟩
    rcases map_eq_singleton_iff.mp hs with ⟨w, hw, hcon⟩
    refine ⟨s, hrun, w, ?_, ?_⟩
    · rw [hw]
      exact mem_singleton_self w
    · intro time
      rw [hcon]
      exact (some_ne_none _).symm

end Counting

end Nexapipe
