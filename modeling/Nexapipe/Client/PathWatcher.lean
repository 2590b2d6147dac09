import Nexapipe.Lib.Interleave

/-!
# Path watchers

A watcher records how the traffic of its connection is routed. Where it is started it reads the
generation, writes a first reading if the lock of the readings is free, and then runs: each later
reading is written under that lock, and only while the generation is the one it has read.
`drop_connections` and `close_all` move the generation and clear the reading under the lock.

The first reading is written without a look at the generation, so a call that comes between the
two is no help against it. A reading here is the number of the watcher that wrote it; watchers
are numbered as they are started.
-/

namespace Nexapipe.PathWatcher

inductive Phase where
  | entered
  | read (generation : Nat)
  | running (generation : Nat)
  | stopped
deriving DecidableEq

structure Status where
  /-- It does not reach `2 ^ 64`. -/
  epoch : Nat
  cached : Option Nat
  watchers : List Phase

inductive Event where
  | spawn
  | load (id : Nat)
  | first (id : Nat) (free : Bool)
  | publish (id : Nat)
  | clear

def step (s : Status) : Event → Option Status
  | .spawn => some { s with watchers := s.watchers ++ [.entered] }
  | .load id =>
    if s.watchers[id]? = some .entered then
      some { s with watchers := s.watchers.set id (.read s.epoch) }
    else none
  -- The lock is only tried.
  | .first id free =>
    match s.watchers[id]? with
    | some (.read generation) => some { s with
        watchers := s.watchers.set id (.running generation)
        cached := if free then some id else s.cached }
    | _ => none
  | .publish id =>
    match s.watchers[id]? with
    | some (.running generation) =>
      if s.epoch = generation then some { s with cached := some id }
      else some { s with watchers := s.watchers.set id .stopped }
    | _ => none
  | .clear => some { s with epoch := s.epoch + 1, cached := none }

def Phase.Behind (epoch : Nat) : Phase → Prop
  | .read generation | .running generation => generation ≤ epoch
  | .entered | .stopped => True

theorem Phase.Behind.mono {phase : Phase} {epoch : Nat} (h : phase.Behind epoch) :
    phase.Behind (epoch + 1) := by
  cases phase with
  | read | running => exact Nat.le_succ_of_le h
  | entered | stopped => trivial

def AllBehind (s : Status) : Prop :=
  ∀ phase ∈ s.watchers, phase.Behind s.epoch

variable {s s' : Status} {e : Event}

theorem AllBehind.set (h : AllBehind s) (id : Nat) (cached : Option Nat) (phase : Phase)
    (hph : phase.Behind s.epoch) :
    AllBehind { s with watchers := s.watchers.set id phase, cached := cached } := by
  intro other hoth
  rcases List.mem_or_eq_of_mem_set hoth with hold | rfl
  · exact h other hold
  · exact hph

theorem AllBehind.step (h : AllBehind s) (hst : step s e = some s') : AllBehind s' := by
  revert hst
  fun_cases PathWatcher.step s e with
  | case1 =>
    rintro ⟨⟩ phase hph
    rcases List.mem_append.mp hph with hold | hnew
    · exact h phase hold
    · rw [List.mem_singleton.mp hnew]
      trivial
  | case2 id =>
    rintro ⟨⟩
    exact h.set id s.cached _ (Nat.le_refl s.epoch)
  | case4 id free generation hid =>
    rintro ⟨⟩
    have hread : generation ≤ s.epoch := h _ (List.mem_of_getElem? hid)
    exact h.set id _ (.running generation) hread
  | case6 =>
    rintro ⟨⟩
    exact h
  | case7 id =>
    rintro ⟨⟩
    exact h.set id s.cached .stopped trivial
  | case9 =>
    rintro ⟨⟩
    exact fun phase hph => (h phase hph).mono
  | _ => rintro ⟨⟩

def Phase.Gone (epoch : Nat) : Phase → Prop
  | .running generation => generation < epoch
  | .stopped => True
  | .entered | .read _ => False

structure Past (before : Nat) (s : Status) : Prop where
  cached : ∀ id, s.cached = some id → before ≤ id
  length : before ≤ s.watchers.length
  gone : ∀ (id : Nat) phase, s.watchers[id]? = some phase → id < before → phase.Gone s.epoch

variable {before : Nat}

theorem Past.set (h : Past before s) {id : Nat} {phase : Phase} {cached : Option Nat}
    (hph : id < before → phase.Gone s.epoch) (hcac : ∀ k, cached = some k → before ≤ k) :
    Past before { s with watchers := s.watchers.set id phase, cached := cached } where
  cached := hcac
  length := by
    rw [List.length_set]
    exact h.length
  gone k other hk hlt := by
    rcases Interleave.getElem?_set_eq_some hk with ⟨-, hold⟩ | ⟨rfl, rfl⟩
    · exact h.gone k other hold hlt
    · exact hph hlt

theorem Past.step (h : Past before s) (hst : step s e = some s') : Past before s' := by
  revert hst
  fun_cases PathWatcher.step s e with
  | case1 =>
    rintro ⟨⟩
    refine ⟨h.cached, ?_, fun id phase hid hlt => ?_⟩
    · rw [List.length_append]
      exact Nat.le_add_right_of_le h.length
    · rcases Best.getElem?_append_singleton.mp hid with hold | ⟨rfl, -⟩
      · exact h.gone id phase hold hlt
      · exact absurd h.length (Nat.not_le_of_lt hlt)
  | case2 id hid =>
    rintro ⟨⟩
    exact h.set (fun hlt => (h.gone id _ hid hlt).elim) h.cached
  | case4 id free generation hid =>
    rintro ⟨⟩
    refine h.set (fun hlt => (h.gone id _ hid hlt).elim) (fun k hk => ?_)
    -- A watcher whose start is not over was started after the call.
    have hla : before ≤ id := Nat.le_of_not_lt fun hlt => h.gone id _ hid hlt
    cases free with
    | false => exact h.cached k hk
    | true => exact Option.some.inj hk ▸ hla
  | case6 id hid =>
    rintro ⟨⟩
    refine ⟨fun k hk => ?_, h.length, h.gone⟩
    rw [← Option.some.inj hk]
    exact Nat.le_of_not_lt fun hlt => Nat.lt_irrefl _ (h.gone id _ hid hlt)
  | case7 id =>
    rintro ⟨⟩
    exact h.set (fun _ => trivial) h.cached
  | case9 =>
    rintro ⟨⟩
    refine ⟨nofun, h.length, fun id phase hid hlt => ?_⟩
    have hgo := h.gone id phase hid hlt
    cases phase with
    | running => exact Nat.lt_succ_of_lt hgo
    | stopped => trivial
    | entered | read => exact hgo
  | _ => rintro ⟨⟩

def Phase.started : Phase → Bool
  | .running _ | .stopped => true
  | .entered | .read _ => false

/-- After a call has cleared the reading, no interleaving brings back one of a watcher that was
    started before the call, exactly when all these watchers were past their start. -/
theorem no_old_reading_iff (events : List Event) (s s' : Status) (before : Nat)
    (hrun : Machine.run step ⟨0, none, []⟩ events = some s) (hbefore : before ≤ s.watchers.length)
    (hclear : step s .clear = some s') :
    (∀ later s'', Machine.run step s' later = some s'' → ∀ id, s''.cached = some id →
      before ≤ id) ↔
    ∀ (id : Nat) phase, s.watchers[id]? = some phase → id < before → phase.started = true := by
  have h : AllBehind s :=
    Machine.invariant AllBehind (fun _ _ _ => AllBehind.step) (fun _ hin => by cases hin) hrun
  cases hclear
  constructor
  · intro hnev id phase hid hlt
    cases phase with
    | running | stopped => rfl
    -- The start goes on, and the lock is free.
    | read generation =>
      refine absurd (hnev [.first id true] ⟨s.epoch + 1, some id,
        s.watchers.set id (.running generation)⟩ ?_ id rfl) (Nat.not_le_of_lt hlt)
      simp [Machine.run, step, hid]
    | entered =>
      refine absurd (hnev [.load id, .first id true] ⟨s.epoch + 1, some id,
        s.watchers.set id (.running (s.epoch + 1))⟩ ?_ id rfl) (Nat.not_le_of_lt hlt)
      rcases List.getElem?_eq_some_iff.mp hid with ⟨hlen, hent⟩
      simp [Machine.run, step, hlen, hent]
  · intro hst later s'' hlat
    refine (Machine.invariant (Past before) (fun _ _ _ => Past.step) ?_ hlat).cached
    refine ⟨(fun _ hcac => by cases hcac), hbefore, fun id phase hid hlt => ?_⟩
    have hbehind := h phase (List.mem_of_getElem? hid)
    have hpa := hst id phase hid hlt
    cases phase with
    | running => exact Nat.lt_succ_of_le hbehind
    | stopped => trivial
    | entered | read => cases hpa

/-- A watcher that runs when the network changes. -/
theorem no_old_reading_running :
    ∃ s s', Machine.run step ⟨0, none, []⟩ [.spawn, .load 0, .first 0 true] = some s ∧
      step s .clear = some s' ∧ ∀ later s'', Machine.run step s' later = some s'' →
        ∀ id, s''.cached = some id → 1 ≤ id := by
  refine ⟨_, _, rfl, rfl, ?_⟩
  refine (no_old_reading_iff [.spawn, .load 0, .first 0 true] _ _ 1 rfl (by decide) rfl).mpr ?_
  rintro _ phase hid hlt
  cases Nat.lt_one_iff.mp hlt
  cases hid
  rfl

/-- The reading is cleared while a watcher is between its look at the generation and its first
    reading. -/
theorem first_reading_late :
    ∃ s, Machine.run step ⟨0, none, []⟩ [.spawn, .load 0, .clear, .first 0 true] = some s ∧
      s.cached = some 0 :=
  ⟨_, rfl, rfl⟩

end Nexapipe.PathWatcher
