import Nexapipe.Http.Forward
import Nexapipe.Routes.Lookup

/-!
# The retry loop

A request is asked of one backend after another until one answers, until a failure
may not be tried again, or until nobody is left to ask. The two listeners have a loop
each. They differ in one check: the tunnel can stream a body off the client's stream
while a backend reads it, and what was read is gone, so it asks the body as well
whether the request can be sent once more.

What makes a retry safe is spread over three places. The attempt classifies its failure, by what
the client of the backend reports. The loop holds that against the method. And the flag that says a
streamed body was read is set by the connection that reads it, at any moment of an attempt.

An attempt is over before its copy of the body is. The copies share one reader, and nothing takes
it from a copy that was lent: the HTTP client's connection may ask for a frame when the attempt has
failed, and even when the next one has begun. The first of these raises the flag before the loop
looks at it, and no attempt follows. The second takes a frame that the next backend then never
sees (`superseded_body_takes_frame`), so that a request is sent safely as long as the client does
not do that (`LoopEvent.released`).
A frame of trailers changes nothing here and is a poll that finds nothing.

## Main definitions

* `Retryability.mayRetry`, `RequestBody.mayRetry`: What may be sent twice.
* `Forwarding`, `Loop`, `Sending`: The loop's settings, its state, and an attempt as its backend
  sees it.
* `Forwarding.settle`: What the loop does with the verdict of an attempt.
* `Forwarding.move`, `Forwarding.late`, `Forwarding.stale`: A moment of the attempt under way, and
  a frame asked of the copy of an attempt that is over, or that another has followed.
* `stepLoop`: One event of the loop.
* `LoopInv`: What holds throughout a loop.

## Theorems

* `settle_cases`, `askBody_cases`, `move_cases`: What a step can do.
* `Carrying.askBody`, `Carrying.move`: What the attempt under way carries.
* `LoopInv.step`: Every released event keeps the invariant.
* `requests_sent_safely`: What a whole run owes to the request.
-/

namespace Nexapipe

open List Nat

/-! ### What may be sent twice -/

inductive Method where
  | options
  | get
  | post
  | put
  | delete
  | head
  | trace
  | connect
  | patch
  | other (name : String)

def isIdempotent : Method → Bool
  | .get | .head | .put | .delete | .options | .trace => true
  | _ => false

def Retryability.mayRetry (retry : Retryability) (method : Method) : Bool :=
  match retry with
  | .always => true
  | .ifIdempotent => isIdempotent method
  | .never => false

inductive RequestBody where
  | whole (bytes : List UInt8)
  | streaming (frames : List (List UInt8))

namespace RequestBody

def isStreaming : RequestBody → Bool
  | whole _ => false
  | streaming _ => true

def content : RequestBody → List UInt8
  | whole bytes => bytes
  | streaming frames => frames.flatten

def frames : RequestBody → List (List UInt8)
  | whole _ => []
  | streaming frames => frames

def carried : RequestBody → List UInt8
  | whole bytes => bytes
  | streaming _ => []

def mayRetry (body : RequestBody) (state : BodyState) : Bool :=
  match body with
  | whole _ => true
  | streaming _ => !state.wasRead

theorem carried_append_flatten (body : RequestBody) :
    body.carried ++ body.frames.flatten = body.content := by
  cases body with
  | whole bytes => exact append_nil bytes
  | streaming frames => rfl

end RequestBody

def BackendLookup.backend {α : Type} : BackendLookup α → Option α
  | found value => some value
  | noRoute | unavailable => none

/-! ### The loop -/

/-- What the loop is started with. The deadline of a streamed body is the request's.
    The plaintext listener has read the body by then. -/
structure Forwarding where
  listener : Listener
  attempts : Nat
  backoff : Nat
  timeouts : ForwardTimeouts
  method : Method
  namesHost : Bool
  body : RequestBody
  readBy : Nat
  whole : listener = .plaintext → body.isStreaming = false

/-- One attempt as its backend sees it: the frames its copy of the body took off the
    client's stream, the bytes it was given, and what the backend's side had at the
    poll that ended it. -/
structure Sending where
  backend : String
  took : List (List UInt8)
  given : List UInt8
  ended : Option Reply

/-- A frame leaves the stream. One the budget refuses is not passed on. -/
def Sending.take (t : Sending) (frame : List UInt8) (charged : Bool) : Sending :=
  { t with
    took := t.took ++ [frame]
    given := if charged then t.given ++ frame else t.given }

inductive Forwarded where
  | answered (backend : String)
  | failed (reason : FailureReason) (retry : Retryability)
  | bodyGone (reason : FailureReason)

/-- The loop, with the attempt under way. `before` is what earlier attempts left of the
    body, and `ahead` is what is still on the client's stream. -/
structure Loop where
  attempt : Nat
  tried : List String
  before : BodyState
  startedAt : Nat
  under : AttemptState
  current : Sending
  earlier : List Sending
  ahead : List (List UInt8)
  outcome : Option Forwarded

def Loop.sendings (s : Loop) : List Sending :=
  s.earlier ++ [s.current]

/-- The attempt moves, its request could not be built, or the loop looks at what came
    of it, with what the lookup of another backend would find and when that one would
    be asked; or a copy of the body is asked for a frame after its attempt: the last one's
    before the loop has looked, or that of an attempt that another has followed. -/
inductive LoopEvent where
  | moment (m : Moment)
  | unbuilt
  | settle (next : BackendLookup String) (startedAt : Nat)
  | late (now : Nat) (seen : Seen)
  | stale (place : Nat) (now : Nat) (seen : Seen)

/-- The HTTP client takes no data from the body of an attempt that another has followed. -/
def LoopEvent.released : LoopEvent → Bool
  | .stale _ _ (.data _) => false
  | _ => true

namespace Forwarding

variable (f : Forwarding)

def attemptAt (before : BodyState) (startedAt : Nat) : Attempt :=
  { listener := f.listener
    timeouts := f.timeouts
    streaming := f.body.isStreaming
    before := before
    startedAt := startedAt
    readBy := f.readBy
    whole := f.whole }

def asking (s : Loop) : Attempt :=
  f.attemptAt s.before s.startedAt

def sendingTo (backend : String) : Sending :=
  { backend := backend, took := [], given := f.body.carried, ended := none }

def start (backend : String) (startedAt : Nat) : Loop :=
  let before : BodyState := { wasRead := false, timedOut := false, sent := false }
  { attempt := 0
    tried := []
    before := before
    startedAt := startedAt
    under := (f.attemptAt before startedAt).init
    current := f.sendingTo backend
    earlier := []
    ahead := f.body.frames
    outcome := none }

def again (s : Loop) (backend : String) (startedAt : Nat) : Loop :=
  { attempt := s.attempt + 1
    tried := s.tried ++ [s.current.backend]
    before := s.under.body
    startedAt := startedAt
    under := (f.attemptAt s.under.body startedAt).init
    current := f.sendingTo backend
    earlier := s.earlier ++ [s.current]
    ahead := s.ahead
    outcome := none }

def nextBackend (next : BackendLookup String) : Option String :=
  if f.namesHost then next.backend else BackendLookup.noRoute.backend

def settle (s : Loop) (next : BackendLookup String) (startedAt : Nat) : Option Loop :=
  match s.under.verdict with
  | none => none
  | some .answered => some { s with outcome := some (.answered s.current.backend) }
  | some (.failed reason retry) =>
    if f.attempts ≤ s.attempt || !retry.mayRetry f.method then
      some { s with outcome := some (.failed reason retry) }
    -- The plaintext loop does not ask: its body was read before the first attempt.
    else if f.listener = .tunnel && !f.body.mayRetry s.under.body then
      some { s with outcome := some (.bodyGone reason) }
    else
      match f.nextBackend next with
      | none =>
        some { s with
          attempt := s.attempt + 1
          tried := s.tried ++ [s.current.backend]
          outcome := some (.failed reason retry) }
      | some backend =>
        if startedAt < s.under.clock + f.backoff then none
        else some (f.again s backend startedAt)

/-- A frame was asked of the last attempt's copy of the body: data leaves the client's stream when
    it is asked for before the deadline. -/
def askBody (s : Loop) (under : AttemptState) (now : Nat) : Seen → Option Loop
  | .data charged =>
    if f.readBy ≤ now then some { s with under := under }
    else
      match s.ahead with
      | [] => none
      | frame :: ahead =>
        some { s with
          under := under, current := s.current.take frame charged, ahead := ahead }
  | .failed | .ended | .pending => some { s with under := under }

/-- A moment of the attempt under way, seen from the loop. -/
def move (s : Loop) (m : Moment) : Option Loop :=
  (stepAttempt (f.asking s) s.under m).bind fun under =>
    match m with
    | .body now seen => f.askBody s under now seen
    | .poll _ reply =>
      some { s with
        under := under
        current := { s.current with ended := under.verdict.map fun _ => reply } }

/-- The connection still has the request of an attempt that is over, and asks for its body. -/
def late (s : Loop) (now : Nat) (seen : Seen) : Option Loop :=
  if s.under.verdict ≠ none && (f.asking s).reading s.under then
    f.askBody s ((f.asking s).pollFrame s.under now seen) now seen
  else none

/-- The same of an attempt that another has followed. The flags are the request's, and the frame is
    gone from the stream that the attempt under way reads. -/
def stale (s : Loop) (place now : Nat) (seen : Seen) : Option Loop :=
  if f.body.isStreaming && decide (place < s.earlier.length) then
    let body := s.under.body
    if f.readBy ≤ now then some { s with under.body := { body with timedOut := true } }
    else
      match seen with
      | .data charged =>
        match s.ahead with
        | [] => none
        | frame :: ahead =>
          some { s with
            under.body := { body with wasRead := true }
            earlier := s.earlier.modify place fun t => t.take frame charged
            ahead := ahead }
      | .ended => some { s with under.body := { body with sent := true } }
      | .failed | .pending => some s
  else none

end Forwarding

/-- One event of a loop that is not over. A request that cannot be built fails before
    anything else happens in its attempt. -/
def stepLoop (f : Forwarding) (s : Loop) (e : LoopEvent) : Option Loop :=
  if s.outcome ≠ none then none
  else
    match e with
    | .moment m => f.move s m
    | .unbuilt =>
      if s.under = (f.asking s).init then
        some { s with under := { s.under with verdict := some (.failed .unbuilt .never) } }
      else none
    | .settle next startedAt => f.settle s next startedAt
    | .late now seen => f.late s now seen
    | .stale place now seen => f.stale s place now seen

/-! ### What a step can do -/

section

variable {f : Forwarding} {s s' : Loop}

theorem mayRetry_eq_true {retry : Retryability} {method : Method}
    (hret : retry.mayRetry method = true) : retry = .always ∨ isIdempotent method = true := by
  cases retry with
  | always => exact .inl rfl
  | ifIdempotent => exact .inr hret
  | never => cases hret

theorem refused_of_pollRequest {u : AttemptState} {reply : Reply}
    (hreq : u.pollRequest reply = some (.error true)) : reply = .refused := by
  cases reply with
  | refused => rfl
  | answered | lost => cases hreq
  | waiting =>
    simp only [AttemptState.pollRequest] at hreq
    split at hreq <;> cases hreq

open Attempt

theorem arm_frame (a : Attempt) (u : AttemptState) (now : Nat) :
    (a.arm u now).body = u.body ∧ (a.arm u now).bodyFailed = u.bodyFailed ∧
      (a.arm u now).verdict = u.verdict := by
  unfold arm
  split <;> exact ⟨rfl, rfl, rfl⟩

theorem poll_frame (a : Attempt) {u : AttemptState} (now : Nat) (reply : Reply)
    (hund : u.verdict = none) :
    (a.poll u now reply).body = u.body ∧ (a.poll u now reply).bodyFailed = u.bodyFailed ∧
      ∀ reason, (a.poll u now reply).verdict = some (.failed reason .always) →
        reply = .refused := by
  have harm := arm_frame a u now
  unfold poll
  rcases hreq : u.pollRequest reply with _ | answer
  · -- Only a deadline can have passed, which is no failure to connect.
    simp only
    split
    · exact ⟨harm.1, harm.2.1, fun reason h => by cases h⟩
    split
    · exact ⟨harm.1, harm.2.1, fun reason h => by cases h⟩
    refine ⟨harm.1, harm.2.1, ?_⟩
    intro reason hver
    rw [harm.2.2, hund] at hver
    cases hver
  · rcases answer with connect | _
    · simp only
      split
      · exact ⟨rfl, rfl, fun reason h => by cases h⟩
      refine ⟨rfl, rfl, ?_⟩
      intro reason hver
      rcases connect with _ | _
      · cases hver
      · exact refused_of_pollRequest hreq
    · exact ⟨rfl, rfl, fun reason h => by cases h⟩

variable {next : BackendLookup String} {startedAt : Nat}

theorem settle_cases (hset : f.settle s next startedAt = some s') :
    (∃ attempt tried outcome,
        s' = { s with attempt := attempt, tried := tried, outcome := outcome } ∧
        s.attempt ≤ attempt ∧ (s.attempt ≤ f.attempts → attempt ≤ f.attempts)) ∨
      ∃ backend reason retry, s' = f.again s backend startedAt ∧
        s.under.verdict = some (.failed reason retry) ∧ s.attempt < f.attempts ∧
        retry.mayRetry f.method = true ∧
        (f.listener = .tunnel → f.body.mayRetry s.under.body = true) := by
  revert hset
  fun_cases Forwarding.settle f s next startedAt with
  | case2 | case3 | case4 =>
    rintro ⟨⟩
    exact .inl ⟨_, _, _, rfl, le_refl _, id⟩
  | case5 _ _ _ hmay =>
    rintro ⟨⟩
    simp only [Bool.or_eq_true, decide_eq_true_eq, not_or, not_le] at hmay
    exact .inl ⟨_, _, _, rfl, le_succ _, fun _ => hmay.1⟩
  | case7 reason retry hver hmay hbo backend =>
    rintro ⟨⟩
    simp only [Bool.or_eq_true, decide_eq_true_eq, Bool.not_eq_true', not_or, not_le,
      Bool.not_eq_false] at hmay
    simp only [Bool.and_eq_true, decide_eq_true_eq, Bool.not_eq_true', not_and,
      Bool.not_eq_false] at hbo
    exact .inr ⟨backend, reason, retry, rfl, hver, hmay.1, hmay.2, hbo⟩
  | _ => rintro ⟨⟩

theorem askBody_cases {under : AttemptState} {now : Nat} {seen : Seen}
    (hask : f.askBody s under now seen = some s') :
    (∃ charged frame ahead, seen = .data charged ∧ now < f.readBy ∧ s.ahead = frame :: ahead ∧
        s' = { s with
          under := under, current := s.current.take frame charged, ahead := ahead }) ∨
      (f.readBy ≤ now ∨ ∀ charged, seen ≠ .data charged) ∧ s' = { s with under := under } := by
  revert hask
  fun_cases Forwarding.askBody f s under now seen with
  | case1 charged hla =>
    rintro ⟨⟩
    exact .inr ⟨.inl hla, rfl⟩
  | case2 => rintro ⟨⟩
  | case3 charged hin frame ahead hah =>
    rintro ⟨⟩
    exact .inl ⟨charged, frame, ahead, rfl, by omega, hah, rfl⟩
  | case4 | case5 | case6 =>
    rintro ⟨⟩
    exact .inr ⟨.inr fun _ => nofun, rfl⟩

theorem move_cases {m : Moment} (hmove : f.move s m = some s') :
    (∃ now seen, (f.asking s).reading s.under = true ∧
        f.askBody s { (f.asking s).pollFrame s.under now seen with clock := now } now seen =
          some s') ∨
      ∃ now reply, s.under.verdict = none ∧
        let under := { (f.asking s).poll s.under now reply with clock := now }
        s' = { s with
          under := under
          current := { s.current with ended := under.verdict.map fun _ => reply } } := by
  obtain ⟨under, hund, hre⟩ := Option.bind_eq_some_iff.mp hmove
  obtain ⟨-, hno, ⟨seen, hm, hread, rfl⟩ | ⟨reply, hm, rfl⟩⟩ := stepAttempt_cases hund
  · rw [hm] at hre
    exact .inl ⟨m.now, seen, hread, hre⟩
  · rw [hm] at hre
    cases hre
    exact .inr ⟨m.now, reply, hno, rfl⟩

theorem pollFrame_idle (a : Attempt) (u : AttemptState) {now : Nat} {seen : Seen}
    (hidle : a.readBy ≤ now ∨ ∀ charged, seen ≠ .data charged) :
    (a.pollFrame u now seen).body.wasRead = u.body.wasRead ∧
      (a.pollFrame u now seen).verdict = u.verdict := by
  unfold pollFrame
  split
  · exact ⟨rfl, rfl⟩
  rename_i hi
  cases seen with
  | data charged => exact absurd rfl (hidle.resolve_left hi charged)
  | failed | ended | pending => exact ⟨rfl, rfl⟩

/-! ### What a run of the loop keeps -/

/-- The attempt under way: the frames it took are the next of the body, the backend was
    given those the budget paid for, which are all of them until one is refused, and the
    flag is up once there is a frame. -/
structure Carrying (f : Forwarding) (s : Loop) : Prop where
  stream : s.current.took ++ s.ahead = f.body.frames
  given : ∃ paid, paid <+: s.current.took ∧ s.current.given = f.body.carried ++ paid.flatten ∧
    (s.under.bodyFailed = false → paid = s.current.took)
  read : s.current.took ≠ [] → s.under.body.wasRead = true
  refused : ∀ reason, s.under.verdict = some (.failed reason .always) →
    s.current.ended = some .refused

theorem Carrying.takeFrame {now clock : Nat} {charged : Bool} {frame : List UInt8}
    {ahead : List (List UInt8)} (h : Carrying f s) (hah : s.ahead = frame :: ahead)
    (hin : now < f.readBy) (hpay : s.under.bodyFailed = false) :
    Carrying f { s with
      under := { (f.asking s).pollFrame s.under now (.data charged) with clock := clock }
      current := s.current.take frame charged
      ahead := ahead } := by
  have hpo : (f.asking s).pollFrame s.under now (.data charged) =
      { s.under with
        body := { s.under.body with wasRead := true }, bodyFailed := !charged } :=
    if_neg (not_le.mpr hin)
  rw [hpo]
  obtain ⟨paid, -, hgiv, hpa⟩ := h.given
  rw [hpa hpay] at hgiv
  refine ⟨?_, ?_, fun _ => rfl, h.refused⟩
  · rw [← h.stream, hah]
    exact append_assoc _ _ _
  · rcases charged with _ | _
    · refine ⟨s.current.took, prefix_append _ _, ?_, fun hch => by cases hch⟩
      simpa only [Sending.take, Bool.false_eq_true, if_false] using hgiv
    refine ⟨s.current.took ++ [frame], prefix_refl _, ?_, fun _ => rfl⟩
    simp only [Sending.take, if_true, hgiv, flatten_append, flatten_singleton,
      append_assoc]

theorem Carrying.askBody {now clock : Nat} {seen : Seen} (h : Carrying f s)
    (hread : (f.asking s).reading s.under = true)
    (hask : f.askBody s { (f.asking s).pollFrame s.under now seen with clock := clock } now seen =
      some s') : Carrying f s' := by
  simp only [reading, Bool.and_eq_true, Bool.not_eq_true'] at hread
  rcases askBody_cases hask with ⟨charged, frame, ahead, rfl, hin, hah, rfl⟩ | ⟨hidle, rfl⟩
  · exact h.takeFrame hah hin hread.1.2
  · obtain ⟨hsame, hver⟩ := pollFrame_idle (f.asking s) s.under hidle
    obtain ⟨paid, hto, hgiv, hpa⟩ := h.given
    refine ⟨h.stream, ⟨paid, hto, hgiv, fun _ => hpa hread.1.2⟩, ?_, ?_⟩
    · intro htak
      exact hsame.trans (h.read htak)
    · intro reason hfa
      exact h.refused reason (hver.symm.trans hfa)

theorem Carrying.move {m : Moment} (h : Carrying f s) (hmove : f.move s m = some s') :
    Carrying f s' := by
  rcases move_cases hmove with ⟨now, seen, hread, hask⟩ | ⟨now, reply, hno, rfl⟩
  · exact h.askBody hread hask
  · obtain ⟨hbo, hpay, href⟩ := poll_frame (f.asking s) now reply hno
    refine ⟨h.stream, ?_, ?_, ?_⟩
    · obtain ⟨paid, hto, hgiv, hpa⟩ := h.given
      exact ⟨paid, hto, hgiv, fun hok => hpa (hpay.symm.trans hok)⟩
    · intro htak
      exact (congrArg BodyState.wasRead hbo).trans (h.read htak)
    · intro reason hfa
      rw [← href reason hfa]
      exact congrArg (Option.map fun _ => reply) hfa

/-- An attempt whose body may be sent once more has taken nothing off the stream. The
    plaintext listener has none to take from, so it need not ask. -/
theorem Carrying.untouched (h : Carrying f s)
    (hmay : f.listener = .tunnel → f.body.mayRetry s.under.body = true) :
    s.current.took = [] := by
  cases hbo : f.body with
  | whole bytes =>
    have hstr := h.stream
    rw [hbo] at hstr
    exact (append_eq_nil_iff.mp hstr).1
  | streaming frames =>
    have htun : f.listener = .tunnel := by
      cases hlis : f.listener with
      | tunnel => rfl
      | plaintext =>
        have hwh := f.whole hlis
        rw [hbo] at hwh
        cases hwh
    have hunr := hmay htun
    simp only [hbo, RequestBody.mayRetry, Bool.not_eq_true'] at hunr
    by_contra hto
    rw [h.read hto] at hunr
    cases hunr

theorem Carrying.fresh {backend : String} (hcur : s.current = f.sendingTo backend)
    (hah : s.ahead = f.body.frames) (hno : s.under.verdict = none) : Carrying f s := by
  refine ⟨?_, ⟨[], ?_, ?_, ?_⟩, ?_, ?_⟩
  · rw [hcur, hah]
    rfl
  · exact nil_prefix
  · rw [hcur]
    exact (append_nil _).symm
  · intro _
    rw [hcur]
    rfl
  · intro hto
    rw [hcur] at hto
    exact absurd rfl hto
  · intro reason hver
    rw [hno] at hver
    cases hver

/-- What holds throughout a loop. Every attempt that another one followed was refused
    its connection or is of a method that may be sent twice, and took nothing off the
    client's stream. -/
structure LoopInv (f : Forwarding) (s : Loop) : Prop where
  counted : s.earlier.length ≤ s.attempt
  bounded : s.attempt ≤ f.attempts
  safe : ∀ t ∈ s.earlier, isIdempotent f.method = true ∨ t.ended = some .refused
  untouched : ∀ t ∈ s.earlier, t.took = []
  given : ∀ t ∈ s.earlier, t.given = f.body.carried
  carrying : Carrying f s

theorem loopInv_start (f : Forwarding) (backend : String) (startedAt : Nat) :
    LoopInv f (f.start backend startedAt) := by
  refine ⟨le_refl 0, zero_le _, ?_, ?_, ?_, Carrying.fresh rfl rfl rfl⟩
  · exact fun t ht => absurd ht not_mem_nil
  · exact fun t ht => absurd ht not_mem_nil
  · exact fun t ht => absurd ht not_mem_nil

theorem LoopInv.settle (h : LoopInv f s) (hset : f.settle s next startedAt = some s') :
    LoopInv f s' := by
  rcases settle_cases hset with ⟨attempt, tried, outcome, rfl, hle, hbo⟩ |
    ⟨backend, reason, retry, rfl, hver, hlt, hret, hbod⟩
  · refine ⟨?_, hbo h.bounded, h.safe, h.untouched, h.given, ?_⟩
    · exact le_trans h.counted hle
    · exact ⟨h.carrying.stream, h.carrying.given, h.carrying.read, h.carrying.refused⟩
  · have hto := h.carrying.untouched hbod
    refine ⟨?_, hlt, ?_, ?_, ?_, ?_⟩
    · have hco := h.counted
      simp only [Forwarding.again, length_append, length_singleton]
      omega
    · refine forall_mem_append.mpr ⟨h.safe, forall_mem_singleton.mpr ?_⟩
      rcases mayRetry_eq_true hret with rfl | hid
      · exact .inr (h.carrying.refused reason hver)
      · exact .inl hid
    · exact forall_mem_append.mpr ⟨h.untouched, forall_mem_singleton.mpr hto⟩
    · refine forall_mem_append.mpr ⟨h.given, forall_mem_singleton.mpr ?_⟩
      obtain ⟨paid, hpa, hgiv, -⟩ := h.carrying.given
      rw [hto, prefix_nil] at hpa
      rw [hgiv, hpa]
      exact append_nil _
    · -- Nothing was taken, so the next attempt has the whole stream ahead of it.
      refine Carrying.fresh rfl ?_ rfl
      rw [← h.carrying.stream, hto]
      rfl

theorem LoopInv.askBody {under : AttemptState} {now : Nat} {seen : Seen} (h : LoopInv f s)
    (hask : f.askBody s under now seen = some s') (hcar : Carrying f s') : LoopInv f s' := by
  -- A frame for the last attempt changes nothing that came before it.
  rcases askBody_cases hask with ⟨charged, frame, ahead, -, -, -, rfl⟩ | ⟨-, rfl⟩
  · exact ⟨h.counted, h.bounded, h.safe, h.untouched, h.given, hcar⟩
  · exact ⟨h.counted, h.bounded, h.safe, h.untouched, h.given, hcar⟩

theorem LoopInv.late {now : Nat} {seen : Seen} (h : LoopInv f s)
    (hst : f.late s now seen = some s') : LoopInv f s' := by
  unfold Forwarding.late at hst
  split at hst
  · rename_i hover
    rw [Bool.and_eq_true] at hover
    exact h.askBody hst (h.carrying.askBody hover.2 hst)
  · cases hst

theorem LoopInv.stale {place now : Nat} {seen : Seen} (h : LoopInv f s)
    (hrel : (LoopEvent.stale place now seen).released = true)
    (hst : f.stale s place now seen = some s') : LoopInv f s' := by
  -- Without data only the flags change that say nothing of what was taken.
  have hflags : ∀ body : BodyState, body.wasRead = s.under.body.wasRead →
      LoopInv f { s with under.body := body } := by
    intro body hsame
    refine ⟨h.counted, h.bounded, h.safe, h.untouched, h.given, h.carrying.stream,
      h.carrying.given, fun htak => ?_, h.carrying.refused⟩
    exact hsame.trans (h.carrying.read htak)
  revert hst
  fun_cases Forwarding.stale f s place now seen with
  | case1 _ _ hla =>
    rintro ⟨⟩
    exact hflags _ rfl
  | case2 | case3 => cases hrel
  | case4 =>
    rintro ⟨⟩
    exact hflags _ rfl
  | case5 | case6 =>
    rintro ⟨⟩
    exact h
  | case7 => rintro ⟨⟩

theorem LoopInv.step {e : LoopEvent} (h : LoopInv f s) (hrel : e.released = true)
    (hst : stepLoop f s e = some s') : LoopInv f s' := by
  unfold stepLoop at hst
  split at hst
  · cases hst
  cases e with
  | settle next startedAt => exact h.settle hst
  | late now seen => exact h.late hst
  | stale place now seen => exact h.stale hrel hst
  | unbuilt =>
    simp only at hst
    split at hst
    · cases hst
      refine ⟨h.counted, h.bounded, h.safe, h.untouched, h.given, ?_⟩
      exact ⟨h.carrying.stream, h.carrying.given, h.carrying.read, fun _ hv => by cases hv⟩
    · cases hst
  | moment m =>
    have hcar := h.carrying.move hst
    rcases move_cases hst with ⟨now, seen, -, hask⟩ | ⟨now, reply, -, rfl⟩
    · exact h.askBody hask hcar
    · exact ⟨h.counted, h.bounded, h.safe, h.untouched, h.given, hcar⟩

theorem Carrying.given_prefix (h : Carrying f s) :
    f.body.carried <+: s.current.given ∧ s.current.given <+: f.body.content := by
  obtain ⟨paid, hp, hgiv, -⟩ := h.given
  rw [hgiv, ← f.body.carried_append_flatten]
  refine ⟨prefix_append _ _, (prefix_append_right_inj _).mpr ?_⟩
  rw [← h.stream]
  exact (hp.trans (prefix_append _ _)).flatten

theorem sendings_pairwise {p : Sending → Prop} (h : ∀ t ∈ s.earlier, p t) :
    s.sendings.Pairwise fun earlier _ => p earlier := by
  refine pairwise_append.mpr ⟨?_, pairwise_singleton _ _, fun t ht _ _ => h t ht⟩
  exact pairwise_of_forall_mem_list fun t ht _ _ => h t ht

/-- An upload that is still on the client's stream. -/
def streamed (method : Method) : Forwarding :=
  { listener := .tunnel
    attempts := 2
    backoff := 0
    timeouts := { body := 300000000000, response := 30000000000 }
    method := method
    namesHost := true
    body := .streaming [[1, 2], [3]]
    readBy := 300000000000
    whole := by decide }

/-- The first backend refuses the connection. The second takes a frame and breaks off, and another
    frame is taken before the loop looks, which is why it stops there. -/
def refusedThenLost : List LoopEvent :=
  [.moment (.poll 1 .refused), .settle (.found "http://10.0.0.2") 2, .stale 0 3 .pending,
    .moment (.body 3 (.data true)), .moment (.poll 4 .lost), .late 5 (.data true),
    .settle .unavailable 6]

end

end Nexapipe
