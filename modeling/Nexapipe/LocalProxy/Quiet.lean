import Nexapipe.Lib.Run
import Mathlib.Data.List.Basic

/-!
# The quiet window of a response

Two tasks carry an exchange on the plain path. One forwards the body of the request, and the other
waits for the response and passes it on. Every wait of the second has a window of its own, and what
the first does is not part of it. A response that arrives ends the wait at once, and what arrives
while some of it is written is there when the next wait begins.

## Main definitions

* `Exchange`, `step`: The two tasks of an exchange and what happens to them.
* `Unmoved`: A response that was cut for quietness was quiet, and so was the body.
* `ForwardedBefore`: The body was out when the last wait began.
* `Timed`: What holds of the times in every run.

## Theorems

* `Timed.step`: One step keeps the times in order.
* `unmoved_iff`: A cut response was quiet exactly if the body was out before its last wait.
* `upload_cut`: A response that is cut while the body moves.
-/

namespace Nexapipe.LocalProxy.Quiet

/-- In milliseconds. -/
def responseIdle : Nat := 120000

/-- How the relay of a response ends. -/
inductive ResponseRelay where
  | complete
  | quiet
  | failed
  | clientGone
deriving DecidableEq

/-- What the task of the response is at. -/
inductive Phase where
  | reading
  | writing
  | ended (outcome : ResponseRelay)
deriving DecidableEq

/-- An exchange: the clock, when the last wait for the response began, whether more of it is there,
    and when bytes of the body were forwarded and bytes of the response arrived. -/
structure Exchange where
  now : Nat
  since : Nat
  phase : Phase
  buffered : Bool
  forwarded : List Nat
  arrived : List Nat
deriving DecidableEq

/-- The wait for the first bytes of the response begins with the exchange. -/
def start : Exchange := ⟨0, 0, .reading, false, [], []⟩

/-- What happens: time passes, bytes of the body go out, bytes of the response arrive or have been
    passed on, the window runs out, the response ends or fails, and the client leaves. -/
inductive Event where
  | pass (time : Nat)
  | forward
  | arrive
  | wrote
  | expire
  | close
  | fail
  | leave

/-- One step of the two tasks. No time passes beyond the window of a wait. -/
def step (s : Exchange) : Event → Option Exchange
  | .pass time =>
    match s.phase with
    | .reading =>
      if s.now + time ≤ s.since + responseIdle then some { s with now := s.now + time } else none
    | .writing => some { s with now := s.now + time }
    | .ended _ => none
  | .forward =>
    match s.phase with
    -- The task is aborted when the response is over.
    | .ended _ => none
    | _ => some { s with forwarded := s.now :: s.forwarded }
  | .arrive =>
    match s.phase with
    | .reading => some { s with phase := .writing, arrived := s.now :: s.arrived }
    | .writing => some { s with buffered := true, arrived := s.now :: s.arrived }
    | .ended _ => none
  | .wrote =>
    match s.phase with
    | .writing =>
      if s.buffered then some { s with buffered := false, since := s.now }
      else some { s with phase := .reading, since := s.now }
    | _ => none
  | .expire =>
    if s.phase = .reading ∧ s.now = s.since + responseIdle then
      some { s with phase := .ended .quiet }
    else none
  | .close => if s.phase = .reading then some { s with phase := .ended .complete } else none
  | .fail => if s.phase = .reading then some { s with phase := .ended .failed } else none
  | .leave => if s.phase = .writing then some { s with phase := .ended .clientGone } else none

/-- Where the response was cut for quietness, nothing has moved within the window. -/
def Unmoved (s : Exchange) : Prop :=
  s.phase = .ended .quiet → ∀ t ∈ s.forwarded ++ s.arrived, t + responseIdle ≤ s.now

/-- Where the response was cut, the body had been forwarded when the last wait began. -/
def ForwardedBefore (s : Exchange) : Prop :=
  s.phase = .ended .quiet → ∀ t ∈ s.forwarded, t ≤ s.since

/-- Nothing has arrived since the last wait began, as long as it lasts, and a wait that ended for
    quietness has lasted its whole window. -/
structure Timed (s : Exchange) : Prop where
  past : ∀ t ∈ s.arrived, t ≤ s.now
  waiting : s.phase = .reading ∨ s.phase = .ended .quiet → ∀ t ∈ s.arrived, t ≤ s.since
  whole : s.phase = .ended .quiet → s.now = s.since + responseIdle

variable {s s' : Exchange} {e : Event} {es : List Event}

/-- Time passes, unless the wait is over. -/
theorem Timed.pass (h : Timed s) (hph : s.phase ≠ .ended .quiet) (time : Nat) :
    Timed { s with now := s.now + time } where
  past t ht := Nat.le_trans (h.past t ht) (Nat.le_add_right _ _)
  waiting := h.waiting
  whole hq := absurd hq hph

/-- Some of the response arrives. What is not waited for may arrive after the wait began. -/
theorem Timed.arrive (h : Timed s) (buffered : Bool) :
    Timed { s with phase := .writing, buffered, arrived := s.now :: s.arrived } where
  past := List.forall_mem_cons.mpr ⟨Nat.le_refl _, h.past⟩
  waiting := by rintro (hr | hq) <;> contradiction
  whole := nofun

/-- A wait begins, and everything that has arrived is in the past. -/
theorem Timed.wrote (h : Timed s) {phase : Phase} (hph : phase ≠ .ended .quiet) (buffered : Bool) :
    Timed { s with phase, buffered, since := s.now } where
  past := h.past
  waiting _ := h.past
  whole hq := absurd hq hph

theorem Timed.over (h : Timed s) {outcome : ResponseRelay} (ho : outcome ≠ .quiet) :
    Timed { s with phase := .ended outcome } where
  past := h.past
  waiting hw := absurd (Phase.ended.inj (hw.resolve_left nofun)) ho
  whole hq := absurd (Phase.ended.inj hq) ho

theorem Timed.step (h : Timed s) (hs : step s e = some s') : Timed s' := by
  revert hs
  fun_cases Quiet.step s e with
  | case1 time hph | case3 time hph =>
    rintro ⟨⟩
    exact h.pass (by simp [hph]) time
  | case6 =>
    rintro ⟨⟩
    exact ⟨h.past, h.waiting, h.whole⟩
  | case7 hph =>
    rintro ⟨⟩
    exact h.arrive s.buffered
  | case8 hph =>
    rintro ⟨⟩
    rw [hph]
    exact h.arrive true
  | case10 hph =>
    rintro ⟨⟩
    exact h.wrote (by simp [hph]) false
  | case11 =>
    rintro ⟨⟩
    exact h.wrote Phase.noConfusion s.buffered
  | case13 hcut =>
    -- The wait was on until now, so that nothing has arrived in it.
    rintro ⟨⟩
    exact ⟨h.past, fun _ => h.waiting (.inl hcut.1), fun _ => hcut.2⟩
  | case15 | case17 | case19 =>
    rintro ⟨⟩
    exact h.over nofun
  | _ => nofun

/-- A response is cut for quietness with nothing moved within the window exactly if the body had
    been forwarded when the last wait for the response began. -/
theorem unmoved_iff (hrun : Machine.run step start es = some s) :
    Unmoved s ↔ ForwardedBefore s := by
  have h : Timed s := Machine.invariant Timed (fun _ _ _ h => h.step)
    ⟨by simp [start], by simp [start], by simp [start]⟩ hrun
  refine forall_congr' fun hq => ?_
  have hwh := h.whole hq
  have hwa := h.waiting (.inr hq)
  constructor
  · intro hmov t ht
    have hbef := hmov t (List.mem_append_left _ ht)
    omega
  · intro hfor t ht
    rcases List.mem_append.mp ht with ht | ht
    · have hbef := hfor t ht
      omega
    · have hbef := hwa t ht
      omega

/-- The response goes quiet after the whole body has been forwarded. -/
theorem unmoved_answered : ∃ s, Machine.run step start [.pass 1000, .forward, .arrive, .wrote,
    .pass responseIdle, .expire] = some s ∧ s.phase = .ended .quiet ∧ Unmoved s := by
  have hrun : Machine.run step start [.pass 1000, .forward, .arrive, .wrote, .pass responseIdle,
      .expire] = some ⟨121000, 1000, .ended .quiet, false, [1000], [1000]⟩ := by decide
  exact ⟨_, hrun, rfl, (unmoved_iff hrun).mpr fun _ => by decide⟩

/-- A body that takes longer than the window: the response is cut while it is forwarded. -/
theorem upload_cut : ∃ s, Machine.run step start [.pass 60000, .forward, .pass 59000, .forward,
    .pass 1000, .expire] = some s ∧ ¬Unmoved s := by
  refine ⟨⟨120000, 0, .ended .quiet, false, [119000, 60000], []⟩, by decide, ?_⟩
  intro hmov
  exact absurd (hmov rfl 119000 (by decide)) (by decide)

end Nexapipe.LocalProxy.Quiet
