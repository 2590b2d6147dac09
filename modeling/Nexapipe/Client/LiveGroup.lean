import Mathlib.Algebra.GroupWithZero.Nat
import Nexapipe.Client.Group
import Nexapipe.Client.ConnectionPool

/-!
# A group at work

A request asks the pools of its name for a connection and opens a stream on it, three times at
most. The probe asks every backend in turn whether it answers, and so does the check at startup.
What each of them finds is written in the table of the backends' health, from which the pools that
may serve a request are chosen. A network change drops the connections of every pool, and closing
the group closes them.

Each of these is a job that calls into the pools and waits there, so the group is again a set of
tasks over something shared, which is now the pools. What the pools do by themselves, and what
others call them for, comes from outside.

When a probe was last answered is not in the model, and neither is a request's deadline: that it
has passed comes with the move.
-/

namespace Nexapipe.LiveGroup

open Client

/-! ### The table of the backends' health -/

structure NodeHealth where
  reachable : Bool
  consecutiveFailures : Nat
deriving DecidableEq

def recordOutcome (health : Entries BackendId NodeHealth) (backend : BackendId)
    (answered : Bool) : Entries BackendId NodeHealth :=
  let entry := (health.lookup backend).getD ⟨false, 0⟩
  if answered then health.set backend ⟨true, 0⟩
  else health.set backend ⟨false, min (entry.consecutiveFailures + 1) (2 ^ 32 - 1)⟩

def marksDown (health : Entries BackendId NodeHealth) (backend : BackendId) : Bool :=
  (health.lookup backend).any fun node => !node.reachable

variable (g : EndpointGroup)

def candidates (health : Entries BackendId NodeHealth)
    (pools : List PoolId) : List Bool :=
  pools.map fun pool => !(g.backends.lookup pool).any (marksDown health)

/-! ### What is shared -/

structure Group where
  pools : Entries PoolId ConnectionPool.World
  health : Entries BackendId NodeHealth
  probeStopped : Bool
deriving DecidableEq

def Group.new (ownsEndpoint : Bool) : Group :=
  ⟨g.backends.map fun entry => (entry.1, ⟨.new ownsEndpoint, []⟩), [], false⟩

def Group.inPool (s : Group) (pool : PoolId) (e : ConnectionPool.Event) : Option Group :=
  match s.pools.lookup pool with
  | none => none
  | some w => (ConnectionPool.step w e).map fun w' => { s with pools := s.pools.set pool w' }

def Group.call (s : Group) (pool : PoolId) (call : ConnectionPool.Call) : Option (Group × Nat) :=
  match s.pools.lookup pool with
  | none => none
  | some w => (s.inPool pool (.start call)).map fun s' => (s', w.tasks.length)

def Group.phase (s : Group) (pool : PoolId) (id : Nat) : Option ConnectionPool.Phase :=
  ((s.pools.lookup pool).bind fun w => w.tasks[id]?).map ConnectionPool.Task.phase

def Group.record (s : Group) (backend : BackendId) (answered : Bool) : Group :=
  { s with health := recordOutcome s.health backend answered }

/-! ### Jobs -/

def openAttempts : Nat := 3

/-- A request that is to open a stream: the name and the protocol it is for, whether it writes
    something at once, the attempts it has made, and the backends they were spent on. -/
structure Request where
  host : List Char
  protocol : ConnectionPool.Protocol
  initial : Bool
  attempts : Nat
  tried : List BackendId
deriving DecidableEq

structure Member where
  backend : BackendId
  pool : PoolId
  id : Nat
deriving DecidableEq

structure Report where
  reachable : List BackendId
  unreachable : List BackendId
  authRequired : List BackendId
deriving DecidableEq

inductive Job where
  /-- Calling pools one after the other. -/
  | each (call : ConnectionPool.Call) (todo : List PoolId) (current : Option (PoolId × Nat))
  /-- About to stop the probe and to close the pools. -/
  | stopping
  /-- About to see whether the probe has been stopped. -/
  | probe
  | probing (todo : List (BackendId × PoolId)) (running : List Member)
  | checking (todo : List (BackendId × PoolId)) (running : List Member) (report : Report)
  /-- About to read which servers demand a credential. -/
  | reading (todo : List (BackendId × PoolId)) (report : Report)
  | recording (todo : List (BackendId × Bool))
  /-- About to make an attempt, or out of them. -/
  | trying (r : Request)
  | asking (r : Request) (backend : BackendId) (pool : PoolId) (id : Nat)
  /-- A stream is being opened on the connection. -/
  | opening (r : Request) (backend : BackendId) (pool : PoolId) (conn : ConnectionPool.ConnId)
  | writing (r : Request) (backend : BackendId) (pool : PoolId) (conn : ConnectionPool.ConnId)
  /-- Waiting for the server's answer to a tunnel that was opened. -/
  | accepting (backend : BackendId) (pool : PoolId) (conn : ConnectionPool.ConnId)
  | finished
deriving DecidableEq

inductive Call where
  | dropConnections
  | closeAll
  | setTwoFactor (node : Option BackendId) (auth : Option ConnectionPool.TwoFactorAuth)
  | probeRound
  | preconnectReport
  | openStream (host : List Char) (protocol : ConnectionPool.Protocol) (initial : Bool)

def poolsOf (node : Option BackendId) : List PoolId :=
  g.allPools.filter fun pool => node.all fun backend => g.backends.lookup pool = some backend

def Call.start : Call → Job
  | .dropConnections => .each .dropConnections (g.uniquePools.map Prod.snd) none
  | .closeAll => .stopping
  | .setTwoFactor node auth => .each (.setCredential auth) (poolsOf g node) none
  | .probeRound => .probe
  | .preconnectReport => .checking g.uniquePools [] ⟨[], [], []⟩
  | .openStream host protocol initial => .trying ⟨host, protocol, initial, 0, []⟩

inductive Answer where
  | ok
  | tooManyFlows
  | refused
deriving DecidableEq

/-- What comes with a move: nothing, a member that has ended, that the time is up, the balancer's
    choice, a stream that failed, or the server's answer. -/
inductive Input where
  | go
  | ended (index : Nat)
  | late
  | pick (index : Nat)
  | failed
  | answer (answer : Answer)
  | cancel
deriving DecidableEq

def isOwn : ConnectionPool.ClientError → Bool
  | .invalidConfig _ | .poolFull _ | .credentialReplaced _ => true
  | _ => false

def Group.answered (s : Group) (m : Member) : Option Bool :=
  match s.phase m.pool m.id with
  | some (.done (.warm available)) => some available
  | _ => none

def Report.add (report : Report) (backend : BackendId) (answered : Bool) : Report :=
  if answered then { report with reachable := report.reachable ++ [backend] }
  else { report with unreachable := report.unreachable ++ [backend] }

def Report.complete (report : Report) (seen : List BackendId) : Report :=
  { report with unreachable := report.unreachable ++ seen.filter fun backend =>
      !(report.reachable ++ report.unreachable).contains backend }

def Report.outcomes (report : Report) : List (BackendId × Bool) :=
  (report.reachable ++ report.authRequired).map (fun backend => (backend, true)) ++
    (report.unreachable.filter fun backend => !report.authRequired.contains backend).map
      fun backend => (backend, false)

def recordRequestFailures (tried : List BackendId) : Job :=
  .recording (tried.eraseDups.map fun backend => (backend, false))

/-- Which pool serves the request: the balancer's choice where there is one to make, and the only
    pool there is whatever the table says of it. -/
def choose (health : Entries BackendId NodeHealth) (pools : List PoolId)
    (index : Nat) : Except ConnectionPool.ClientError (Option PoolId) :=
  if pools = [] then .error (.invalidConfig "No endpoint pools configured")
  else if (candidates g health pools).contains true then
    .ok (if (candidates g health pools)[index]? = some true then pools[index]? else none)
  else if pools.length = 1 then .ok pools.head?
  else .error (.connectionFailed ("no backend is answering: " ++ String.intercalate ", "
    ((pools.filterMap fun pool => g.backends.lookup pool).map toString)))

def attempt (s : Group) (r : Request) (index : Nat) : Option (Group × Job) :=
  match g.reached r.host with
  | none => some (s, recordRequestFailures r.tried)
  | some pools =>
    match choose g s.health pools index with
    | .error _ => some (s, recordRequestFailures r.tried)
    | .ok none => none
    | .ok (some pool) =>
      match g.backends.lookup pool, s.call pool (.getConnection r.protocol) with
      | some backend, some (s, id) => some (s, .asking r backend pool id)
      | _, _ => none

def opened (r : Request) (backend : BackendId) (pool : PoolId) (conn : ConnectionPool.ConnId) :
    Job :=
  if r.protocol = .l4 then .accepting backend pool conn else .finished

def retry (s : Group) (r : Request) (backend : BackendId) (pool : PoolId)
    (conn : ConnectionPool.ConnId) : Option (Group × Job) :=
  (s.inPool pool (.ambient (.close conn))).map fun s =>
    (s, .trying { r with attempts := r.attempts + 1, tried := r.tried ++ [backend] })

def advance (s : Group) : Job → Input → Option (Group × Job)
  | .finished, _ => none
  | _, .cancel => some (s, .finished)
  | .each call (pool :: todo) none, .go =>
    (s.call pool call).map fun r => (r.1, .each call todo (some (pool, r.2)))
  -- The next pool is called when the call on this one has returned.
  | .each call todo (some (pool, id)), .go =>
    if s.phase pool id = some (.done .returned) then some (s, .each call todo none) else none
  | .stopping, .go => some ({ s with probeStopped := true }, .each .closeAll g.allPools none)
  | .probe, .go =>
    if s.probeStopped then some (s, .finished) else some (s, .probing g.uniquePools [])
  | .probing ((backend, pool) :: todo) running, .go =>
    (s.call pool .preconnect).map fun r =>
      (r.1, .probing todo (running ++ [⟨backend, pool, r.2⟩]))
  -- The round may have been stopped while it was dialling, and then writes nothing more.
  | .probing [] running, .ended index =>
    (running[index]?).bind fun m => (s.answered m).map fun answered =>
      if s.probeStopped then (s, .finished)
      else (s.record m.backend answered, .probing [] (running.eraseIdx index))
  | .checking ((backend, pool) :: todo) running report, .go =>
    (s.call pool .preconnect).map fun r =>
      (r.1, .checking todo (running ++ [⟨backend, pool, r.2⟩]) report)
  | .checking [] running report, .ended index =>
    (running[index]?).bind fun m => (s.answered m).map fun answered =>
      (s, .checking [] (running.eraseIdx index) (report.add m.backend answered))
  | .checking [] [] report, .go => some (s, .reading g.uniquePools report)
  -- A member that the overall limit cuts off has not reported.
  | .checking [] _ report, .late =>
    some (s, .reading g.uniquePools (report.complete (g.uniquePools.map Prod.fst)))
  | .reading ((backend, pool) :: todo) report, .go =>
    (s.pools.lookup pool).bind fun w =>
      (s.inPool pool (.ambient .takeAuthRequired)).map fun s =>
        (s, .reading todo (if w.shared.authRequired.isSome then
          { report with authRequired := report.authRequired ++ [backend] } else report))
  | .reading [] report, .go => some (s, .recording report.outcomes)
  | .recording ((backend, answered) :: todo), .go =>
    some (s.record backend answered, .recording todo)
  | .recording [], .go => some (s, .finished)
  -- Out of time between two attempts: no further backend is dialled, or blamed.
  | .trying r, .late => some (s, recordRequestFailures r.tried)
  | .trying r, .go =>
    if r.attempts = openAttempts then some (s, recordRequestFailures r.tried) else none
  | .trying r, .pick index => if r.attempts = openAttempts then none else attempt g s r index
  | .asking r backend pool id, .go =>
    match s.phase pool id with
    | some (.done (.handed conn)) => some (s, .opening r backend pool conn)
    | some (.done (.refused error)) =>
      -- Only what the backend did is written in the table.
      some (if isOwn error then s else s.record backend false, recordRequestFailures r.tried)
    | _ => none
  | .opening r backend pool conn, .go =>
    some (s, if r.initial then .writing r backend pool conn else opened r backend pool conn)
  | .opening r backend pool conn, .failed => retry s r backend pool conn
  | .writing r backend pool conn, .go => some (s, opened r backend pool conn)
  | .writing r backend pool conn, .failed => retry s r backend pool conn
  -- A refusal is about the flow, and the connection that is full is not handed out again.
  | .accepting _ pool conn, .answer .tooManyFlows =>
    (s.inPool pool (.ambient (.saturate conn))).map fun s => (s, .finished)
  | .accepting _ _ _, .answer _ => some (s, .finished)
  -- Any failure to read the answer counts as silence of the server.
  | .accepting backend pool conn, .failed =>
    (s.inPool pool (.ambient (.close conn))).map fun s => (s, recordRequestFailures [backend])
  | _, _ => none

abbrev World : Type := Interleave.World Group Job

abbrev Event : Type := Interleave.Event Input (PoolId × ConnectionPool.Event) Call

def behaviour :
    Interleave.Behaviour Group Job Input (PoolId × ConnectionPool.Event) Call where
  start := Call.start g
  advance := advance g
  ambient s e := s.inPool e.1 e.2

def step (w : World) (e : Event) : Option World :=
  Interleave.step (behaviour g) w e

end Nexapipe.LiveGroup
