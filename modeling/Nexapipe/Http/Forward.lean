import Nexapipe.Lb.Pool
import Nexapipe.Lib.Run

/-!
# Forwarding a request and what it says about the backend

An attempt at a backend is a future that is polled until it has an answer or a
failure. Each poll asks the request first, then looks at two clocks: the upload of
a body that is still on the client's stream has to be over by its deadline, and the
answer has to be in by its own, which starts to run when the body was sent. The body
is read by the connection, between those polls, and has a deadline of its own.

A failure that comes before any of the answer counts against the backend unless it says that the
request never left. A body that stalls, breaks off or is refused by the byte budget fails the
request, and an upload whose deadline passes fails it even when the body was sent long before and
the backend is within its time.

The client of the backend is a third party's. It is modelled by what it reports: an
answer, a connection that could not be made, or one that broke; and a request whose
body fails is lost. Sending takes no time, so a backend receives a body when it has
been read to its end.
-/

namespace Nexapipe

open Option

/-! ### One attempt -/

inductive Retryability where
  | always
  | ifIdempotent
  | never
deriving DecidableEq

structure ForwardTimeouts where
  body : Nat
  response : Nat

structure BodyState where
  wasRead : Bool
  timedOut : Bool
  sent : Bool
deriving DecidableEq

inductive Listener where
  | plaintext
  | tunnel
deriving DecidableEq

/-- One attempt at a backend. `readBy` is the deadline of a streamed body, which is
    the request's, and `before` is what earlier attempts left of it. -/
structure Attempt where
  listener : Listener
  timeouts : ForwardTimeouts
  streaming : Bool
  before : BodyState
  startedAt : Nat
  readBy : Nat
  whole : listener = .plaintext → streaming = false

def Attempt.uploadBy (a : Attempt) : Nat :=
  a.startedAt + a.timeouts.body

inductive FailureReason where
  | bodyLate
  | notSent
  | noResponse
  | unbuilt
deriving DecidableEq

inductive Verdict where
  | answered
  | failed (reason : FailureReason) (retry : Retryability)
deriving DecidableEq

/-- Whether an outcome says that the backend is unreachable. Nothing of the answer has
    reached the client in any of them. -/
def Verdict.backendIsDown : Verdict → Bool
  | answered => false
  | failed _ retry => retry ≠ .never

/-- What the client's stream has when the connection asks for a frame. Bytes are
    charged to the process budget, which may refuse them. -/
inductive Seen where
  | data (charged : Bool)
  | failed
  | ended
  | pending
deriving DecidableEq

inductive Reply where
  | waiting
  | answered
  | refused
  | lost
deriving DecidableEq

inductive Moment where
  | body (now : Nat) (seen : Seen)
  | poll (now : Nat) (reply : Reply)

def Moment.now : Moment → Nat
  | body now _ => now
  | poll now _ => now

/-- An attempt under way. `receivedAt` is when the backend had the whole body. -/
structure AttemptState where
  body : BodyState
  bodyFailed : Bool
  receivedAt : Option Nat
  answerAt : Nat
  answerArmed : Bool
  clock : Nat
  verdict : Option Verdict
deriving DecidableEq

def AttemptState.pollRequest (s : AttemptState) : Reply → Option (Except Bool Unit)
  | .answered => some (.ok ())
  | .refused => some (.error true)
  | .lost => some (.error false)
  | .waiting => if s.bodyFailed then some (.error false) else none

namespace Attempt

variable (a : Attempt)

def hasBeenSent (s : AttemptState) : Bool :=
  !a.streaming || s.body.sent

def didTimeOut (s : AttemptState) : Bool :=
  a.streaming && s.body.timedOut

/-- An attempt as it starts. The plaintext listener starts the clock of the answer at
    once and leaves it. -/
def init : AttemptState :=
  { body := a.before
    bodyFailed := false
    receivedAt := if !a.streaming || a.before.sent then some a.startedAt else none
    answerAt := if a.streaming then a.uploadBy + a.timeouts.response
      else a.startedAt + a.timeouts.response
    answerArmed := decide (a.listener = .plaintext)
    clock := a.startedAt
    verdict := none }

def pollFrame (s : AttemptState) (now : Nat) (seen : Seen) : AttemptState :=
  if a.readBy ≤ now then
    { s with body := { s.body with timedOut := true }, bodyFailed := true }
  else
    match seen with
    | .data charged => { s with body := { s.body with wasRead := true }, bodyFailed := !charged }
    | .failed => { s with bodyFailed := true }
    | .ended => { s with body := { s.body with sent := true }, receivedAt := some now }
    | .pending => s

def arm (s : AttemptState) (now : Nat) : AttemptState :=
  if !s.answerArmed && a.hasBeenSent s then
    { s with answerAt := now + a.timeouts.response, answerArmed := true }
  else s

def poll (s : AttemptState) (now : Nat) (reply : Reply) : AttemptState :=
  match s.pollRequest reply with
  | some (.ok ()) => { s with verdict := some .answered }
  | some (.error connect) =>
    if a.didTimeOut s then { s with verdict := some (.failed .bodyLate .ifIdempotent) }
    else
      { s with verdict := some (.failed .notSent (if connect then .always else .ifIdempotent)) }
  | none =>
    let s := a.arm s now
    -- Asked of every streamed body, whether it has been sent or not.
    if a.streaming && decide (a.uploadBy ≤ now) then
      { s with verdict := some (.failed .bodyLate .ifIdempotent) }
    else if s.answerAt ≤ now then
      { s with verdict := some (.failed .noResponse .ifIdempotent) }
    else s

def reading (s : AttemptState) : Bool :=
  a.streaming && !s.bodyFailed && s.receivedAt.isNone

end Attempt

/-- A moment of an attempt, up to its verdict. The frames that the body it lent is asked for later
    change nothing for it or its backend, and are in `Forwarding.late` and `Forwarding.stale`. -/
def stepAttempt (a : Attempt) (s : AttemptState) (m : Moment) : Option AttemptState :=
  if m.now < s.clock ∨ s.verdict ≠ none then none
  else
    match m with
    | .body now seen =>
      if a.reading s then some { a.pollFrame s now seen with clock := now } else none
    | .poll now reply => some { a.poll s now reply with clock := now }

/-! ### The circuit of a backend -/

/-- What a request comes to at one backend: its body could not be read whole and it is
    answered without asking, it could not be built, or it is an attempt. -/
inductive RequestEvent where
  | unread
  | unbuilt (now : Nat)
  | attempt (a : Attempt) (moments : List Moment)

def report (b : BackendState) (v : Verdict) (now : Nat) : BackendState :=
  match v with
  | .answered => b.circuitSucceeded
  | .failed reason retry =>
    if (Verdict.failed reason retry).backendIsDown then b.circuitFailed now else b

def stepCircuit (b : BackendState) : RequestEvent → Option BackendState
  | .unread => some b
  | .unbuilt now => some (report b (.failed .unbuilt .never) now)
  | .attempt a moments =>
    (Machine.run (stepAttempt a) a.init moments).bind fun s =>
      s.verdict.map fun v => report b v s.clock

/-- The backend accepts every connection, breaks none, and has answered a body it
    received when the response deadline is over. -/
def Prompt (a : Attempt) (s : AttemptState) : Moment → Prop
  | .body _ _ => True
  | .poll now reply =>
    reply ≠ .refused ∧ reply ≠ .lost ∧
      ∀ received ∈ s.receivedAt, received + a.timeouts.response ≤ now → reply = .answered

def Undisturbed (a : Attempt) : Moment → Prop
  | .body now seen => now < a.readBy ∧ seen ≠ .failed ∧ seen ≠ .data false
  | .poll now reply => a.streaming = true → now < a.uploadBy ∨ reply = .answered

instance (a : Attempt) (s : AttemptState) (m : Moment) : Decidable (Prompt a s m) :=
  match m with
  | .body _ _ => inferInstanceAs (Decidable True)
  | .poll now reply =>
    inferInstanceAs (Decidable (reply ≠ .refused ∧ reply ≠ .lost ∧
      ∀ received ∈ s.receivedAt, received + a.timeouts.response ≤ now → reply = .answered))

instance (a : Attempt) (m : Moment) : Decidable (Undisturbed a m) :=
  match m with
  | .body now seen =>
    inferInstanceAs (Decidable (now < a.readBy ∧ seen ≠ .failed ∧ seen ≠ .data false))
  | .poll now reply =>
    inferInstanceAs (Decidable (a.streaming = true → now < a.uploadBy ∨ reply = .answered))

/-! ### What an attempt comes to -/

section

variable {a : Attempt} {s s' : AttemptState} {m : Moment}

theorem stepAttempt_cases (hs : stepAttempt a s m = some s') :
    s.clock ≤ m.now ∧ s.verdict = none ∧
      ((∃ seen, m = .body m.now seen ∧ a.reading s = true ∧
          s' = { a.pollFrame s m.now seen with clock := m.now }) ∨
        ∃ reply, m = .poll m.now reply ∧ s' = { a.poll s m.now reply with clock := m.now }) := by
  revert hs
  fun_cases stepAttempt a s m with
  | case2 now seen hread hg =>
    rintro ⟨⟩
    rw [not_or, not_not] at hg
    exact ⟨by omega, hg.2, .inl ⟨seen, rfl, hread, rfl⟩⟩
  | case4 now reply hg =>
    rintro ⟨⟩
    rw [not_or, not_not] at hg
    exact ⟨by omega, hg.2, .inr ⟨reply, rfl, rfl⟩⟩
  | _ => rintro ⟨⟩

/-- An attempt nothing has gone wrong with. The answer's clock, once it runs, gives the
    backend its time from the receipt of the body; before that it gives the upload its
    time as well. -/
structure OnCourse (a : Attempt) (s : AttemptState) : Prop where
  body_ok : s.bodyFailed = false
  verdict_ok : s.verdict = none ∨ s.verdict = some .answered
  sent_iff : a.hasBeenSent s = s.receivedAt.isSome
  received_le : ∀ received ∈ s.receivedAt, received ≤ s.clock
  armed : s.answerArmed = true →
    ∃ received ∈ s.receivedAt, received + a.timeouts.response ≤ s.answerAt
  unarmed : s.answerArmed = false → a.streaming = true → a.uploadBy ≤ s.answerAt

open Attempt

theorem onCourse_init (a : Attempt) : OnCourse a a.init := by
  refine ⟨rfl, .inl rfl, ?_, ?_, ?_, ?_⟩
  · unfold hasBeenSent init
    by_cases hsent : (!a.streaming || a.before.sent) = true
    · simp only [hsent, if_true, isSome_some]
    · simp only [hsent, if_false, isSome_none, Bool.false_eq_true]
  · intro received hrec
    simp only [init] at hrec ⊢
    split at hrec
    · cases hrec
      exact Nat.le_refl _
    · cases hrec
  · intro harm
    have hwh := a.whole (by simpa [init] using harm)
    exact ⟨a.startedAt, by simp [init, hwh], by simp [init, hwh]⟩
  · intro _ hstr
    simp [init, hstr]

variable {now : Nat}

theorem OnCourse.pollFrame {seen : Seen} (h : OnCourse a s) (hcl : s.clock ≤ now)
    (hread : a.reading s = true) (hok : Undisturbed a (.body now seen)) :
    OnCourse a { a.pollFrame s now seen with clock := now } := by
  rcases hok with ⟨hin, hfa, hch⟩
  unfold Attempt.pollFrame
  rw [if_neg (by omega)]
  have hle : ∀ received ∈ s.receivedAt, received ≤ now :=
    fun received hrec => le_trans (h.received_le received hrec) hcl
  cases seen with
  | failed => exact absurd rfl hfa
  | pending => exact ⟨h.body_ok, h.verdict_ok, h.sent_iff, hle, h.armed, h.unarmed⟩
  | data charged =>
    have hpa : charged = true := by
      rcases charged with _ | _
      · exact absurd rfl hch
      · rfl
    exact ⟨by simp [hpa], h.verdict_ok, h.sent_iff, hle, h.armed, h.unarmed⟩
  | ended =>
    -- The clock of the answer is not running yet: the body has only now been sent.
    simp only [reading, Bool.and_eq_true, isNone_iff_eq_none] at hread
    have hno := hread.2
    refine ⟨h.body_ok, h.verdict_ok, by simp [hasBeenSent], ?_, ?_, h.unarmed⟩
    · intro received hrec
      cases hrec
      exact Nat.le_refl _
    · intro harm
      obtain ⟨received, hrec, -⟩ := h.armed harm
      rw [hno] at hrec
      cases hrec

theorem OnCourse.arm (h : OnCourse a s) (hcl : s.clock ≤ now) :
    OnCourse a (a.arm s now) ∧ (a.arm s now).receivedAt = s.receivedAt ∧
      (a.arm s now).clock = s.clock ∧ (a.arm s now).verdict = s.verdict ∧
      ((a.arm s now).answerArmed = false → s.receivedAt = none) := by
  fun_cases a.arm s now with
  | case1 hst =>
    rw [Bool.and_eq_true, h.sent_iff, isSome_iff_exists] at hst
    obtain ⟨-, received, hrec⟩ := hst
    have hle := h.received_le received hrec
    refine ⟨⟨h.body_ok, h.verdict_ok, h.sent_iff, h.received_le, ?_, ?_⟩, rfl, rfl, rfl, ?_⟩
    · intro _
      exact ⟨received, hrec, by simp only; omega⟩
    · intro hun
      cases hun
    · intro hun
      cases hun
  | case2 hst =>
    refine ⟨h, rfl, rfl, rfl, ?_⟩
    intro hun
    rw [h.sent_iff] at hst
    simpa [hun] using hst

theorem OnCourse.poll {reply : Reply} (h : OnCourse a s) (hcloc : s.clock ≤ now)
    (hprom : Prompt a s (.poll now reply)) (hok : Undisturbed a (.poll now reply)) :
    OnCourse a { a.poll s now reply with clock := now } := by
  rcases hprom with ⟨href, hlost, htime⟩
  cases reply with
  | refused => exact absurd rfl href
  | lost => exact absurd rfl hlost
  | answered =>
    refine ⟨h.body_ok, .inr rfl, h.sent_iff, ?_, h.armed, h.unarmed⟩
    intro received hrec
    exact le_trans (h.received_le received hrec) hcloc
  | waiting =>
    rcases h.arm hcloc with ⟨harm, hrec, harmc, -, hunr⟩
    -- Neither deadline has passed, so the attempt goes on with its clock armed.
    have hupl : (a.streaming && decide (a.uploadBy ≤ now)) = false := by
      by_cases hstr : a.streaming = true
      · have hbef := (hok hstr).resolve_right (by simp)
        simp [hstr, Nat.not_le.mpr hbef]
      · simp [hstr]
    have hans : ¬(a.arm s now).answerAt ≤ now := by
      by_cases harme : (a.arm s now).answerArmed = true
      · obtain ⟨received, hmem, hle⟩ := harm.armed harme
        rw [hrec] at hmem
        have hnot : ¬received + a.timeouts.response ≤ now := fun hlate => by
          cases htime received hmem hlate
        omega
      · rw [Bool.not_eq_true] at harme
        have hnone := hunr harme
        have hstr : a.streaming = true := by
          have hsent := h.sent_iff
          rw [hnone] at hsent
          by_contra hwh
          simp [hasBeenSent, hwh] at hsent
        have hle := harm.unarmed harme hstr
        have hbef := (hok hstr).resolve_right (by simp)
        omega
    have hpoll : a.poll s now .waiting = a.arm s now := by
      simp only [Attempt.poll, AttemptState.pollRequest, h.body_ok, Bool.false_eq_true, if_false,
        hupl, if_neg hans]
    rw [hpoll]
    refine ⟨harm.body_ok, harm.verdict_ok, harm.sent_iff, ?_, harm.armed, harm.unarmed⟩
    intro received hmem
    have hle := harm.received_le received hmem
    rw [harmc] at hle
    exact le_trans hle hcloc

theorem OnCourse.step (h : OnCourse a s) (hp : Prompt a s m) (hok : Undisturbed a m)
    (hs : stepAttempt a s m = some s') : OnCourse a s' := by
  rcases stepAttempt_cases hs with ⟨hc, -, ⟨seen, hm, hread, rfl⟩ | ⟨reply, hm, rfl⟩⟩
  · rw [hm] at hok
    exact h.pollFrame hc hread hok
  · rw [hm] at hp hok
    exact h.poll hc hp hok

theorem attempt_answered {moments : List Moment} {v : Verdict}
    (hpr : Machine.Along (stepAttempt a) (Prompt a) a.init moments)
    (hok : ∀ m ∈ moments, Undisturbed a m)
    (hrun : Machine.run (stepAttempt a) a.init moments = some s) (hver : s.verdict = some v) :
    v = .answered := by
  have hc : OnCourse a s := by
    refine Machine.invariant_along (OnCourse a) ?_ (onCourse_init a)
      (hpr.and_forall hok) hrun
    rintro s m s' h ⟨hm, hp⟩ hs
    exact h.step hp hm hs
  rcases hc.verdict_ok with hn | hans
  · simp [hn] at hver
  · rw [hans] at hver
    exact (some_inj.mp hver).symm

end

/-! ### The circuit stays closed -/

def RequestEvent.PromptBackend : RequestEvent → Prop
  | .attempt a moments => Machine.Along (stepAttempt a) (Prompt a) a.init moments
  | _ => True

def RequestEvent.Clean : RequestEvent → Prop
  | .attempt a moments => ∀ m ∈ moments, Undisturbed a m
  | _ => True

instance (e : RequestEvent) : Decidable e.PromptBackend :=
  match e with
  | .attempt a moments =>
    inferInstanceAs (Decidable (Machine.Along (stepAttempt a) (Prompt a) a.init moments))
  | .unread | .unbuilt _ => inferInstanceAs (Decidable True)

instance (e : RequestEvent) : Decidable e.Clean :=
  match e with
  | .attempt a moments => inferInstanceAs (Decidable (∀ m ∈ moments, Undisturbed a m))
  | .unread | .unbuilt _ => inferInstanceAs (Decidable True)

/-- The circuit of a backend that accepts every connection and answers in time stays
    closed through any number of requests, as long as no body fails and no answer is
    still out at the deadline of its upload. -/
theorem circuit_stays_closed (breaker : Option CircuitBreaker) (events : List RequestEvent)
    (b : BackendState) (hprompt : ∀ e ∈ events, e.PromptBackend) (hclean : ∀ e ∈ events, e.Clean)
    (hrun : Machine.run stepCircuit (.new breaker) events = some b) :
    b.circuit.phase = .closed := by
  have hall : ∀ e ∈ events, e.PromptBackend ∧ e.Clean := fun e he => ⟨hprompt e he, hclean e he⟩
  refine Machine.invariant_along (fun b : BackendState => b.circuit.phase = .closed) ?_ rfl
    ((Machine.along_true (BackendState.new breaker) events).and_forall hall) hrun
  rintro b e b' hcl ⟨⟨hp, hc⟩, -⟩ hst
  cases e with
  | unread | unbuilt =>
    cases hst
    exact hcl
  | attempt a moments =>
    obtain ⟨s, hs, hreport⟩ := bind_eq_some_iff.mp hst
    obtain ⟨v, hv, rfl⟩ := map_eq_some_iff.mp hreport
    rw [attempt_answered hp hc hs hv]
    rfl

def defaultBreaker : CircuitBreaker :=
  { enabled := true, failureThreshold := 5, reset := 30000000000 }

/-- A streamed upload under the default deadlines, five minutes for the body and thirty
    seconds for the answer. -/
def upload : Attempt :=
  { listener := .tunnel
    timeouts := { body := 300000000000, response := 30000000000 }
    streaming := true
    before := { wasRead := false, timedOut := false, sent := false }
    startedAt := 0
    readBy := 300000000000
    whole := by decide }

def promptUpload : RequestEvent :=
  .attempt upload
    [.poll 0 .waiting, .body 1000000000 (.data true), .body 2000000000 .ended,
      .poll 2000000000 .waiting, .poll 12000000000 .answered]

theorem circuit_stays_closed_uploads :
    ∃ b, Machine.run stepCircuit (.new (some defaultBreaker))
        [promptUpload, .unread, promptUpload] = some b ∧ b.circuit.phase = .closed := by
  have hrun : (Machine.run stepCircuit (.new (some defaultBreaker))
      [promptUpload, .unread, promptUpload]).isSome = true := by decide
  obtain ⟨b, hb⟩ := isSome_iff_exists.mp hrun
  exact ⟨b, hb, circuit_stays_closed _ _ b (by decide) (by decide) hb⟩

def stalledUpload : RequestEvent :=
  .attempt upload
    [.poll 0 .waiting, .body 1000000000 (.data true), .body 300000000000 .pending,
      .poll 300000000000 .waiting]

/-- A client that sends its body slowly, and a backend that takes its time but not too
    much of it. The answer would be in within the thirty seconds. -/
def slowUpload : RequestEvent :=
  .attempt upload
    [.poll 0 .waiting, .body 290000000000 .ended, .poll 300000000000 .waiting]

/-- Five stalled uploads, or five slow ones, open the circuit of a backend that accepts
    every connection and answers every body it receives in time. -/
theorem stalled_uploads_open_circuit :
    (stalledUpload.PromptBackend ∧ slowUpload.PromptBackend) ∧
      (Machine.run stepCircuit (.new (some defaultBreaker)) (List.replicate 5 stalledUpload)).map
        (fun b => b.circuit.phase) = some .opened ∧
      (Machine.run stepCircuit (.new (some defaultBreaker)) (List.replicate 5 slowUpload)).map
        (fun b => b.circuit.phase) = some .opened := by
  decide

end Nexapipe
