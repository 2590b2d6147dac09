import Nexapipe.Client.LiveGroup
import Nexapipe.Lib.Timeout

/-!
# The time it takes to open a flow

A flow is to be open ninety seconds after it was asked for. The deadline is held against opening a
stream and against the first bytes that are written to it, but not against the wait for a
connection, which may have to dial one. And a caller that waits for the server's answer gives it
ninety seconds of its own, from when the stream was open.

What an attempt does to its connection and to the health of the backends is in `LiveGroup`, which
has no deadline. Times are in nanoseconds.

## Main definitions

* `Attempt`: What the connection, the stream and the first bytes of one attempt take.
* `openStreamWithRetryUntil`: The attempts to open a stream, under one deadline.
* `openFlow`, `openTcpChecked`: Opening a flow, without and with the server's answer.
* `Opening.ReturnsBy`, `Opening.ConnectedBy`, `Opening.AnsweredBy`: What is there by a time.

## Theorems

* `onConnection_bounds`: What follows the connection is within the deadline.
* `openFrom_returnsBy_iff`: The attempts return in time exactly when their connections come in time.
* `opening_in_budget_iff`: The same of a flow, with the answer it waits for.
* `flow_opened_late`: A flow that takes more than its budget.
-/

namespace Nexapipe.FlowOpen

open ConnectionPool (ClientError)

/-- The source's `FLOW_OPEN_TIMEOUT`. -/
def flowOpenTimeout : Nat := 90 * 10 ^ 9

/-- What is waited for comes or fails. -/
abbrev Wait : Type :=
  Timeout.Wait (Except ClientError Unit)

/-- When the wait for something ends, and what with. An elapsed deadline is an error. -/
def waitUntil (now deadline : Nat) (wait : Option Wait) : Nat × Except ClientError Unit :=
  let ended := Timeout.timeoutAt now deadline wait
  (ended.1, ended.2.getD (.error .timeoutError))

/-- What one attempt waits for: its connection, a stream on it, and the first bytes' way out. -/
structure Attempt where
  connection : Option Wait
  openBi : Option Wait
  writeAll : Option Wait

/-- The part of an attempt that the deadline is held against. -/
def Attempt.onConnection (attempt : Attempt) (initialData : Bool) (deadline now : Nat) :
    Nat × Except ClientError Unit :=
  let opened := waitUntil now deadline attempt.openBi
  match opened.2 with
  | .ok () => if initialData then waitUntil opened.1 deadline attempt.writeAll else opened
  | .error _ => opened

/-- When a call returned and what with, if it did, and when it was given each of the connections it
    asked for. -/
structure Opening where
  returned : Option (Nat × Except ClientError Unit)
  connections : List (Option Nat)

/-- The attempts from here on. `lastErr` is why the one before failed. -/
def openFrom (host : String) (initialData : Bool) (deadline : Nat) :
    List Attempt → Nat → Option ClientError → Opening
  | [], now, lastErr =>
    let exhausted := .connectionError ("Failed to open stream to " ++ host ++ " after " ++
      toString LiveGroup.openAttempts ++ " attempts")
    ⟨some (now, .error (lastErr.getD exhausted)), []⟩
  | attempt :: rest, now, _ =>
    if deadline ≤ now then ⟨some (now, .error .timeoutError), []⟩
    else
      match attempt.connection with
      | none => ⟨none, [none]⟩
      | some w =>
        let connected := now + w.takes
        match w.result with
        | .error e => ⟨some (connected, .error e), [some connected]⟩
        | .ok () =>
          let tried := attempt.onConnection initialData deadline connected
          match tried.2 with
          | .ok () => ⟨some tried, [some connected]⟩
          | .error e =>
            let o := openFrom host initialData deadline rest tried.1 (some e)
            ⟨o.returned, some connected :: o.connections⟩

/-- Opens a stream by a deadline, which is looked at before each attempt. -/
def openStreamWithRetryUntil (host : String) (initialData : Bool) (deadline : Nat)
    (attempts : Nat → Attempt) (now : Nat) : Opening :=
  openFrom host initialData deadline ((List.range LiveGroup.openAttempts).map attempts) now none

/-- The source's `open`. `preface` is what the preface is written as, or why it cannot be. -/
def openFlow (host : String) (port : UInt16) (preface : Except String (List UInt8))
    (attempts : Nat → Attempt) (now : Nat) : Opening :=
  match preface with
  | .error e =>
    let message := "cannot ask the server for " ++ host ++ ":" ++ toString port ++ ": " ++ e
    ⟨some (now, .error (.invalidConfig message)), []⟩
  | .ok _ => openStreamWithRetryUntil host true (now + flowOpenTimeout) attempts now

/-- The wait for the server's answer, with a budget of its own. -/
def readStatus (answer : Option Wait) (now : Nat) : Nat × Except ClientError Unit :=
  waitUntil now (now + flowOpenTimeout) answer

/-- An answer that refuses the tunnel comes as the error it is turned into. -/
def openTcpChecked (host : String) (port : UInt16) (preface : Except String (List UInt8))
    (attempts : Nat → Attempt) (answer : Option Wait) (now : Nat) : Opening :=
  let flow := openFlow host port preface attempts now
  match flow.returned with
  | some (opened, .ok ()) => { flow with returned := some (readStatus answer opened) }
  | _ => flow

/-- The call has returned by a time. -/
def Opening.ReturnsBy (o : Opening) (time : Nat) : Prop :=
  ∃ r ∈ o.returned, r.1 ≤ time

/-- Every connection that was asked for is there by a time. -/
def Opening.ConnectedBy (o : Opening) (time : Nat) : Prop :=
  ∀ c ∈ o.connections, ∃ connected ∈ c, connected ≤ time

/-- The answer comes by a time to a tunnel that was opened, or nothing was spent on opening it. -/
def Opening.AnsweredBy (o : Opening) (answer : Option Wait) (now time : Nat) : Prop :=
  ∀ opened, o.returned = some (opened, .ok ()) →
    opened ≤ now ∨ ∃ a ∈ answer, opened + a.takes ≤ time

theorem waitUntil_bounds (now deadline : Nat) (wait : Option Wait) :
    now ≤ (waitUntil now deadline wait).1 ∧ (waitUntil now deadline wait).1 ≤ max now deadline :=
  Timeout.timeoutAt_bounds now deadline wait

/-- What an attempt does on its connection ends by the deadline, or as soon as it begins. -/
theorem onConnection_bounds (attempt : Attempt) (initialData : Bool) (deadline now : Nat) :
    now ≤ (attempt.onConnection initialData deadline now).1 ∧
      (attempt.onConnection initialData deadline now).1 ≤ max now deadline := by
  have ho := waitUntil_bounds now deadline attempt.openBi
  unfold Attempt.onConnection
  generalize waitUntil now deadline attempt.openBi = opened at ho ⊢
  rcases opened with ⟨time, _ | _⟩
  · exact ho
  have hw := waitUntil_bounds time deadline attempt.writeAll
  cases initialData with
  | false => exact ho
  | true =>
    exact ⟨ho.1.trans hw.1, hw.2.trans (max_le ho.2 (le_max_right _ _))⟩

/-- The attempts return by the deadline exactly when they start by it and their connections come by
    it, whatever happens on the connections. -/
theorem openFrom_returnsBy_iff (host : String) (initialData : Bool) (deadline : Nat)
    (attempts : List Attempt) (now : Nat) (lastErr : Option ClientError) :
    let o := openFrom host initialData deadline attempts now lastErr
    o.ReturnsBy deadline ↔ now ≤ deadline ∧ o.ConnectedBy deadline := by
  induction attempts generalizing now lastErr with
  | nil => simp [openFrom, Opening.ReturnsBy, Opening.ConnectedBy]
  | cons attempt rest ih =>
    rw [openFrom]
    split
    · simp [Opening.ReturnsBy, Opening.ConnectedBy]
    rename_i hear
    have hear : now ≤ deadline := by omega
    rcases attempt.connection with _ | ⟨takes, _ | _⟩
    · simp [Opening.ReturnsBy, Opening.ConnectedBy]
    · simp [Opening.ReturnsBy, Opening.ConnectedBy, hear]
    have hbo := onConnection_bounds attempt initialData deadline (now + takes)
    -- The rest of the attempt is within the deadline exactly when its connection came by then.
    have hiff : (attempt.onConnection initialData deadline (now + takes)).1 ≤ deadline ↔
        now + takes ≤ deadline := by omega
    dsimp only
    generalize attempt.onConnection initialData deadline (now + takes) = tried at hiff ⊢
    rcases tried with ⟨time, e | _⟩
    · refine (ih time (some e)).trans ?_
      simp only [hiff, hear, true_and, Opening.ConnectedBy, List.forall_mem_cons, Option.mem_def,
        Option.some.injEq, exists_eq_left']
    · simp [Opening.ReturnsBy, Opening.ConnectedBy, hiff, hear]

/-- A flow has its deadline from when it is asked for. -/
theorem openFlow_returnsBy_iff (host : String) (port : UInt16)
    (preface : Except String (List UInt8)) (attempts : Nat → Attempt) (now : Nat) :
    let flow := openFlow host port preface attempts now
    flow.ReturnsBy (now + flowOpenTimeout) ↔ flow.ConnectedBy (now + flowOpenTimeout) := by
  cases preface with
  | error e => simp [openFlow, Opening.ReturnsBy, Opening.ConnectedBy]
  | ok bytes =>
    exact (openFrom_returnsBy_iff _ _ _ _ _ _).trans (and_iff_right (Nat.le_add_right _ _))

/-- The wait for the answer is within the flow's budget exactly when the answer is, unless no time
    was spent before it. -/
theorem readStatus_le_iff (answer : Option Wait) (now opened : Nat) :
    (readStatus answer opened).1 ≤ now + flowOpenTimeout ↔
      opened ≤ now ∨ ∃ a ∈ answer, opened + a.takes ≤ now + flowOpenTimeout := by
  unfold readStatus waitUntil
  rcases answer with _ | a
  · simp only [Timeout.timeoutAt, Option.mem_def, reduceCtorEq, false_and, exists_false, or_false]
    omega
  · simp only [Timeout.timeoutAt, Option.mem_def, Option.some.injEq, exists_eq_left']
    split <;> omega

/-- Opening a stream returns by its deadline exactly when every connection it asks for is there by
    then. A flow that is checked takes one budget exactly when the server's answer is there by then
    as well, or the stream was opened in no time. -/
theorem opening_in_budget_iff (host : String) (attempts : Nat → Attempt) (now : Nat) :
    (∀ initialData deadline,
      let o := openStreamWithRetryUntil host initialData deadline attempts now
      o.ReturnsBy deadline ↔ now ≤ deadline ∧ o.ConnectedBy deadline) ∧
    ∀ port preface answer,
      let flow := openFlow host port preface attempts now
      (openTcpChecked host port preface attempts answer now).ReturnsBy (now + flowOpenTimeout) ↔
        flow.ConnectedBy (now + flowOpenTimeout) ∧
          flow.AnsweredBy answer now (now + flowOpenTimeout) := by
  refine ⟨fun initialData deadline => openFrom_returnsBy_iff _ _ _ _ _ _, ?_⟩
  intro port preface answer
  have hfl := openFlow_returnsBy_iff host port preface attempts now
  unfold openTcpChecked
  generalize openFlow host port preface attempts now = flow at hfl ⊢
  refine Iff.trans ?_ (and_congr_left' hfl)
  rcases flow with ⟨_ | ⟨opened, e | _⟩, connections⟩
  · simp [Opening.ReturnsBy]
  · simp [Opening.ReturnsBy, Opening.AnsweredBy]
  have hans := readStatus_le_iff answer now opened
  simp only [Opening.ReturnsBy, Opening.AnsweredBy, Option.mem_def, Option.some.injEq,
    exists_eq_left', Prod.mk.injEq, and_true, forall_eq', hans]
  -- An answer in time was asked for in time.
  refine ⟨fun h => ⟨?_, h⟩, And.right⟩
  rcases h with h | ⟨a, _, h⟩ <;> omega

/-- A connection fails to open a stream for 89 seconds, and it takes 20 more to dial another one. Or
    the stream takes 80 seconds to open, and the server 80 more to answer. -/
theorem flow_opened_late :
    let come : Nat → Option Wait := fun seconds => some ⟨seconds * 10 ^ 9, .ok ()⟩
    let lost : Option Wait := some ⟨89 * 10 ^ 9, .error (.connectionError "lost")⟩
    let dialled := fun n => if n = 0 then ⟨come 0, lost, none⟩ else ⟨come 20, come 0, come 0⟩
    let slow := fun _ => ⟨come 0, come 80, come 0⟩
    ¬(openStreamWithRetryUntil "a.b" true (90 * 10 ^ 9) dialled 0).ReturnsBy (90 * 10 ^ 9) ∧
      ¬(openTcpChecked "a.b" 22 (.ok []) slow (come 80) 0).ReturnsBy flowOpenTimeout := by
  have hl : ∀ (time : Nat) {o : Opening} {limit : Nat}, o.returned.map Prod.fst = some time →
      limit < time → ¬o.ReturnsBy limit := by
    rintro time o limit h hlt ⟨r, hr, hle⟩
    rw [Option.mem_def.mp hr] at h
    cases h
    exact absurd hle (not_le.mpr hlt)
  exact ⟨hl (109 * 10 ^ 9) (by decide +kernel) (by decide),
    hl (160 * 10 ^ 9) (by decide +kernel) (by decide)⟩

end Nexapipe.FlowOpen
