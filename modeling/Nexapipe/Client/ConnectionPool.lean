import Mathlib.Data.List.MinMax
import Nexapipe.Lib.Entries
import Nexapipe.Lib.Interleave

/-!
# The connection pool

The connections a client holds for one backend. A flow borrows a pooled connection that has room,
and where there is none it dials, or waits for the dial of another flow for the same protocol. A
dial connects, authenticates and puts the connection in the pool. Warming up does the same without
a flow.

Every one of these is asynchronous code that can be interrupted wherever it waits for a lock or for
the other side, so each is a task with a `Phase` for every such point, and any task may move
between two moves of another.

Some fields are not in the code: `identities` and `settled` of the pool, the identity of a `Conn`
and the generation of a `Pooled` entry record what the properties are about. A connection has the
number of its handshake, so of two connections of a pool the one with the smaller number is the
older one.
-/

namespace Nexapipe.ConnectionPool

/-! ### What is held -/

inductive Protocol where
  | http
  | l4
  | tls
  | legacy
deriving DecidableEq

abbrev Identity : Type := String × Option String

structure TwoFactorAuth where
  clientId : String
  deviceId : Option String
  secret : String
deriving DecidableEq

def TwoFactorAuth.identity (auth : TwoFactorAuth) : Identity :=
  (auth.clientId, auth.deviceId)

structure Enrollment where
  clientId : String
  token : String
  deviceId : Option String
deriving DecidableEq

inductive ClientError where
  | connectionError (message : String)
  | connectionFailed (message : String)
  | authenticationFailed (message : String)
  | parseError (message : String)
  | sendError (message : String)
  | receiveError (message : String)
  | timeoutError
  | invalidConfig (message : String)
  | poolFull (message : String)
  | credentialReplaced (message : String)
  | ioError (message : String)
  | other (message : String)
deriving DecidableEq

def identityChanged (before after : Option TwoFactorAuth) : Bool :=
  before.map TwoFactorAuth.identity ≠ after.map TwoFactorAuth.identity

abbrev ConnId : Type := Nat

/-- A connection: whether it is closed, and what the flows on it share with the pool. Whom it was
    authenticated as, once it was, is not in the code. -/
structure Conn where
  closed : Bool
  borrows : Nat
  saturated : Bool
  identity : Option (Option Identity)
deriving DecidableEq

/-- An entry of the pool. The generation it was authenticated under is not in the code. -/
structure Pooled where
  conn : ConnId
  protocol : Protocol
  generation : Nat
deriving DecidableEq

inductive Channel where
  | pending
  | sent (outcome : Except ClientError ConnId)
  | lost
deriving DecidableEq

/-- What the tasks of a pool share. `identities` are the identities of the generations, and
    `settled` is the last generation whose connections have been let go of. -/
structure Pool where
  connections : List Pooled
  dialing : Entries Protocol Nat
  channels : List Channel
  /-- Whether the endpoint has not been closed. -/
  ep : Bool
  ownsEndpoint : Bool
  twoFactor : Option TwoFactorAuth
  enrollment : Option Enrollment
  issued : Option TwoFactorAuth
  authRequired : Option String
  /-- Neither this nor the next reaches `2 ^ 64`. -/
  epoch : Nat
  credentialGeneration : Nat
  conns : List Conn
  identities : List (Option Identity)
  settled : Nat
deriving DecidableEq

def Pool.new (ownsEndpoint : Bool) : Pool :=
  { connections := [], dialing := [], channels := [], ep := true, ownsEndpoint, twoFactor := none,
    enrollment := none, issued := none, authRequired := none, epoch := 0,
    credentialGeneration := 0, conns := [], identities := [none], settled := 0 }

/-! ### The connections -/

def maxFlowsPerConnection : Nat := 200
def maxConnectionsPerProtocol : Nat := 10

def Pool.isOpen (p : Pool) (conn : ConnId) : Bool :=
  (p.conns[conn]?).any fun c => !c.closed

def Pool.edit (p : Pool) (f : ConnId → Conn → Conn) : Pool :=
  { p with conns := p.conns.mapIdx f }

def Pool.close (p : Pool) (named : ConnId → Bool) : Pool :=
  p.edit fun conn c => if named conn then { c with closed := true } else c

def Pool.authenticate (p : Pool) (conn : ConnId) (identity : Option Identity) : Pool :=
  p.edit fun k c => if k = conn then { c with identity := some identity } else c

def Conn.hasRoom (c : Conn) : Bool :=
  !c.saturated && c.borrows < maxFlowsPerConnection

def Pool.hasRoom (p : Pool) (conn : ConnId) : Bool :=
  (p.conns[conn]?).any Conn.hasRoom

def Pool.borrowCount (p : Pool) (conn : ConnId) : Nat :=
  (p.conns[conn]?).elim 0 Conn.borrows

def Pool.borrow (p : Pool) (conn : ConnId) : Pool :=
  p.edit fun k c => if k = conn then { c with borrows := c.borrows + 1 } else c

def Pool.release (p : Pool) (conn : ConnId) : Pool :=
  p.edit fun k c => if k = conn then { c with borrows := c.borrows - 1 } else c

def Pool.saturate (p : Pool) (conn : ConnId) : Pool :=
  p.edit fun k c => if k = conn then { c with saturated := true } else c

def Pool.isLive (p : Pool) (pathless : List ConnId) (e : Pooled) : Bool :=
  p.isOpen e.conn && !pathless.contains e.conn

/-- An entry to let go of: it cannot carry traffic, or it has been unused for long and nobody is
    riding it. -/
def Pool.stale (p : Pool) (idle pathless : List ConnId) (e : Pooled) : Bool :=
  !p.isLive pathless e || idle.contains e.conn && p.borrowCount e.conn == 0

def Pool.dropStale (p : Pool) (idle pathless : List ConnId) : Pool :=
  { p with connections := p.connections.filter fun e => !p.stale idle pathless e }.close
    fun conn => p.connections.any fun e => e.conn == conn && p.stale idle pathless e

def Pool.pick (p : Pool) (protocol : Protocol) : Option ConnId :=
  ((p.connections.filter fun e => e.protocol = protocol ∧ p.hasRoom e.conn).argmin
    fun e => p.borrowCount e.conn).map Pooled.conn

def Pool.mayPool (p : Pool) (protocol : Protocol) : Bool :=
  (p.connections.filter fun e => e.protocol = protocol).length < maxConnectionsPerProtocol

def Pool.sweep (p : Pool) : Pool :=
  { (p.close fun conn => p.connections.any fun e => e.conn == conn) with connections := [] }

def Pool.write (p : Pool) (auth : Option TwoFactorAuth) : Pool :=
  if identityChanged p.twoFactor auth then
    { p with
      twoFactor := auth
      credentialGeneration := p.credentialGeneration + 1
      identities := p.identities ++ [auth.map TwoFactorAuth.identity] }
  else { p with twoFactor := auth }

/-! ### Tasks -/

inductive Call where
  | getConnection (protocol : Protocol)
  | preconnect
  | setCredential (auth : Option TwoFactorAuth)
  | dropConnections
  | closeAll
deriving DecidableEq

def Call.protocol : Call → Protocol
  | .getConnection protocol => protocol
  | _ => .http

/-- What follows once the connections have been dropped: the rest of an enrollment, of a
    credential change, of a network change or of closing the pool. -/
inductive After where
  | enrolled (conn : ConnId) (issued : TwoFactorAuth) (generation : Nat)
  | written (generation : Nat)
  | dropped
  | closed
deriving DecidableEq

inductive Result where
  | handed (conn : ConnId)
  | refused (error : ClientError)
  | warm (available : Bool)
  | returned
  | gone
deriving DecidableEq

inductive Phase where
  /-- About to look for a pooled connection. -/
  | asking
  /-- About to look whether the pool is warm. -/
  | warming
  /-- About to take or to join the dial of its protocol. -/
  | choosing
  | waiting (channel : Nat)
  /-- About to take the endpoint. -/
  | dialing
  | connecting
  /-- About to look for an enrollment token. -/
  | connected (conn : ConnId)
  /-- About to send the token. -/
  | presenting (conn : ConnId) (enrollment : Enrollment)
  /-- The token is out. What the server has issued for it, once it has. -/
  | presented (conn : ConnId) (enrollment : Enrollment) (issued : Option TwoFactorAuth)
  /-- About to write the issued credential. -/
  | storing (conn : ConnId) (issued : TwoFactorAuth)
  /-- About to write a credential. -/
  | setting (auth : Option TwoFactorAuth)
  /-- About to close the connections of the pool. -/
  | sweeping (after : After)
  /-- About to move the epoch. -/
  | bumping (after : After)
  /-- About to clear the token. -/
  | spending (conn : ConnId) (issued : TwoFactorAuth) (generation : Nat)
  /-- About to keep the issued credential for whoever stores it. -/
  | keeping (conn : ConnId) (issued : TwoFactorAuth) (generation : Nat)
  /-- About to read the credential. -/
  | reading (conn : ConnId)
  | authenticating (conn : ConnId) (auth : TwoFactorAuth) (generation : Nat)
  /-- Warming up: about to see whether there is a credential. -/
  | warmed (conn : ConnId) (generation : Nat)
  /-- Warming up without one: waiting for the server to demand it. -/
  | observing (conn : ConnId) (generation : Nat)
  | authenticated (conn : ConnId) (generation : Nat)
  /-- About to put the connection in the pool. -/
  | pooling (conn : ConnId) (generation : Nat)
  /-- About to tell the waiters. -/
  | announcing (outcome : Except ClientError ConnId)
  /-- About to clear the slot of the dial. -/
  | leaving (channel : Nat) (outcome : Option (Except ClientError ConnId))
  /-- About to borrow the connection of the dial. -/
  | settling (conn : ConnId)
  | closing
  | done (result : Result)
deriving DecidableEq

structure Task where
  call : Call
  phase : Phase
  channel : Option Nat
deriving DecidableEq

def Task.to (t : Task) (phase : Phase) : Task :=
  { t with phase }

def Call.start : Call → Phase
  | .getConnection _ => .asking
  | .preconnect => .warming
  | .setCredential auth => .setting auth
  | .dropConnections => .sweeping .dropped
  | .closeAll => .sweeping .closed

def Task.start (call : Call) : Task :=
  ⟨call, call.start, none⟩

inductive ConnectFailure where
  | timedOut
  | notAllowed (reason : String)
  | failed (message : String)

def ConnectFailure.error : ConnectFailure → ClientError
  | .timedOut => .timeoutError
  | .notAllowed reason => .authenticationFailed reason
  | .failed message => .connectionFailed message

inductive PoolRefusal where
  | closed
  | full
  | replaced

def PoolRefusal.error : PoolRefusal → ClientError
  | .closed => .connectionFailed "the connection was closed as soon as it was established"
  | .full => .poolFull "the connection pool is full for this protocol"
  | .replaced =>
    .credentialReplaced "the credential was replaced while the connection was being made"

def Task.fail (t : Task) (error : ClientError) : Task :=
  match t.call with
  | .preconnect => t.to (.done (.warm false))
  | _ => t.to (.announcing (.error error))

def Task.authenticated (t : Task) (conn : ConnId) (generation : Nat) : Task :=
  match t.call with
  | .preconnect => t.to (.warmed conn generation)
  | _ => t.to (.authenticated conn generation)

def Task.pooled (t : Task) (conn : ConnId) : Task :=
  match t.call with
  | .preconnect => t.to (.done (.warm true))
  | _ => t.to (.announcing (.ok conn))

/-- What comes with a move: nothing, the state of idle and pathless connections and whether the
    seat that was seen is still free, a failure, what the server issues or demands, or that the
    task is dropped or out of time. -/
inductive Input where
  | go
  | look (idle pathless : List ConnId) (seat : Bool)
  | connectFailed (failure : ConnectFailure)
  | fail (error : ClientError)
  | issue (issued : TwoFactorAuth)
  | demand (reason : String)
  | cancel
  | expire

/-- Puts a connection in the pool, unless its credential has been replaced or the protocol has as
    many as it may. -/
def Pool.poolConnection (p : Pool) (t : Task) (conn : ConnId) (generation : Nat) : Pool × Task :=
  if p.credentialGeneration ≠ generation then
    (p.close (· == conn), t.fail PoolRefusal.replaced.error)
  else if p.mayPool t.call.protocol then
    ({ p with connections := p.connections ++ [⟨conn, t.call.protocol, generation⟩] },
      t.pooled conn)
  else (p.close (· == conn), t.fail PoolRefusal.full.error)

def Pool.takeSlot (p : Pool) (t : Task) : Pool × Task :=
  match p.dialing.lookup t.call.protocol with
  | some channel => (p, t.to (.waiting channel))
  | none =>
    ({ p with
        channels := p.channels ++ [.pending]
        dialing := p.dialing.set t.call.protocol p.channels.length },
      { t with phase := .dialing, channel := some p.channels.length })

def Pool.clearDialSlot (p : Pool) (protocol : Protocol) (channel : Nat) : Pool :=
  if p.dialing.lookup protocol = some channel then
    { p with dialing := p.dialing.remove protocol }
  else p

/-- The connections have been dropped and the epoch moved: the call that asked for it goes on. A
    credential change has settled its generation. -/
def Pool.afterDrop (p : Pool) (t : Task) : After → Pool × Task
  | .enrolled conn issued generation =>
    ({ p with settled := max p.settled generation }, t.to (.spending conn issued generation))
  | .written generation =>
    ({ p with settled := max p.settled generation }, t.to (.done .returned))
  | .dropped => (p, t.to (.done .returned))
  | .closed => if p.ownsEndpoint then (p, t.to .closing) else (p, t.to (.done .returned))

def Pool.go (p : Pool) (t : Task) : Option (Pool × Task) :=
  match t.phase with
  | .asking | .warming | .done _ => none
  | .choosing => some (p.takeSlot t)
  | .waiting channel =>
    -- The sender of a dial that is dropped is gone, and its waiters choose again.
    match p.channels[channel]? with
    | some (.sent outcome) => some (p, t.to (.leaving channel (some outcome)))
    | some .lost => some (p, t.to (.leaving channel none))
    | _ => none
  | .dialing =>
    if p.ep then some (p, t.to .connecting)
    else some (p, t.fail (.invalidConfig "Endpoint has been closed"))
  | .connecting =>
    some ({ p with conns := p.conns ++ [⟨false, 0, false, none⟩] },
      t.to (.connected p.conns.length))
  | .connected conn =>
    match p.enrollment with
    | some enrollment => some (p, t.to (.presenting conn enrollment))
    | none => some (p, t.to (.reading conn))
  | .presenting conn enrollment => some (p, t.to (.presented conn enrollment none))
  | .presented _ _ none => none
  | .presented conn enrollment (some issued) =>
    -- The answer has come, and the handshake on the same stream has run for it.
    if issued.clientId = enrollment.clientId then
      some (p.authenticate conn (some issued.identity), t.to (.storing conn issued))
    else
      some (p.close (· == conn), t.fail
        (.authenticationFailed "the server issued a credential for a different client id"))
  | .storing conn issued =>
    -- The generation comes from under the lock the credential is written under.
    let q := p.write (some issued)
    if identityChanged p.twoFactor (some issued) then
      some (q, t.to (.sweeping (.enrolled conn issued q.credentialGeneration)))
    else some (q, t.to (.spending conn issued q.credentialGeneration))
  | .setting auth =>
    let q := p.write auth
    if identityChanged p.twoFactor auth then
      some (q, t.to (.sweeping (.written q.credentialGeneration)))
    else some (q, t.to (.done .returned))
  -- The list and the epoch are under two locks.
  | .sweeping after => some (p.sweep, t.to (.bumping after))
  | .bumping after => some ({ p with epoch := p.epoch + 1 }.afterDrop t after)
  | .spending conn issued generation =>
    some ({ p with enrollment := none }, t.to (.keeping conn issued generation))
  | .keeping conn issued generation =>
    -- The exchange has authenticated the connection, so no credential is read.
    some ({ p with issued := some issued }, t.authenticated conn generation)
  | .reading conn =>
    match p.twoFactor with
    | some auth => some (p, t.to (.authenticating conn auth p.credentialGeneration))
    | none => some (p.authenticate conn none, t.authenticated conn p.credentialGeneration)
  | .authenticating conn auth generation =>
    some (p.authenticate conn (some auth.identity), t.authenticated conn generation)
  | .warmed conn generation =>
    if p.twoFactor.isSome then some (p, t.to (.authenticated conn generation))
    else some (p, t.to (.observing conn generation))
  | .observing conn generation => some (p, t.to (.authenticated conn generation))
  | .authenticated conn generation =>
    -- Looked at before the list is locked: it may be closed by the time it is pooled.
    if p.isOpen conn then some (p, t.to (.pooling conn generation))
    else some (p, t.fail PoolRefusal.closed.error)
  | .pooling conn generation => some (p.poolConnection t conn generation)
  | .announcing outcome =>
    match t.channel with
    | some channel =>
      some ({ p with channels := p.channels.set channel (.sent outcome) },
        t.to (.leaving channel (some outcome)))
    | none => none
  | .leaving channel outcome =>
    let p := p.clearDialSlot t.call.protocol channel
    -- An error is everybody's; a dial that is gone is nobody's.
    match outcome with
    | some (.ok conn) => some (p, t.to (.settling conn))
    | some (.error e) => some (p, t.to (.done (.refused e)))
    | none => some (p, t.to .choosing)
  | .settling conn =>
    -- Others may have taken the seats of a shared dial.
    if p.hasRoom conn then some (p.borrow conn, t.to (.done (.handed conn)))
    else some (p, t.to .asking)
  | .closing =>
    -- Whoever takes the endpoint closes it, and every connection with it.
    if p.ep then some ({ p with ep := false }.close fun _ => true, t.to (.done .returned))
    else some (p, t.to (.done .returned))

def Pool.borrowPooled (p : Pool) (t : Task) (idle pathless : List ConnId) (seat : Bool) :
    Pool × Task :=
  let p := p.dropStale idle pathless
  match p.pick t.call.protocol with
  | some conn =>
    if seat then (p.borrow conn, t.to (.done (.handed conn))) else (p, t.to .choosing)
  | none => (p, t.to .choosing)

def Pool.lookWarm (p : Pool) (t : Task) (pathless : List ConnId) : Pool × Task :=
  if p.connections.getLast?.any (p.isLive pathless) then (p, t.to (.done (.warm true)))
  else (p, t.to .dialing)

def Pool.lose (p : Pool) (t : Task) : Pool :=
  match t.channel with
  | some channel =>
    { p with channels := p.channels.modify channel fun c => if c = .pending then .lost else c }
  | none => p

def Task.isDone (t : Task) : Bool :=
  match t.phase with
  | .done _ => true
  | _ => false

def Pool.advance (p : Pool) (t : Task) : Input → Option (Pool × Task)
  | .go => p.go t
  | .look idle pathless seat =>
    match t.phase with
    | .asking => some (p.borrowPooled t idle pathless seat)
    | .warming => some (p.lookWarm t pathless)
    | _ => none
  | .connectFailed failure =>
    match t.phase with
    | .connecting => some (p, t.fail failure.error)
    | _ => none
  | .fail error =>
    match t.phase with
    | .presented conn _ _ => some (p.close (· == conn), t.fail error)
    | .authenticating conn _ _ => some (p.close (· == conn), t.fail error)
    | _ => none
  | .issue issued =>
    match t.phase with
    | .presented conn enrollment none =>
      some (p, t.to (.presented conn enrollment (some issued)))
    | _ => none
  | .demand reason =>
    match t.phase with
    | .observing _ _ => some ({ p with authRequired := some reason }, t.to (.done (.warm false)))
    | _ => none
  | .cancel => if t.isDone then none else some (p.lose t, t.to (.done .gone))
  | .expire =>
    if t.call = .preconnect ∧ t.isDone = false then some (p, t.to (.done (.warm false)))
    else none

/-- What happens to a pool besides its tasks: the cleanup, a connection that is closed by the
    other side, by the watcher of its paths or by whoever rides it, a flow that ends, one that is
    refused for there being too many, a token that is configured, and what the server said being
    read. -/
inductive Ambient where
  | cleanup (idle pathless : List ConnId)
  | close (conn : ConnId)
  | release (conn : ConnId)
  | saturate (conn : ConnId)
  | setEnrollment (enrollment : Option Enrollment)
  | takeIssued
  | takeAuthRequired

def Pool.ambient (p : Pool) : Ambient → Pool
  | .cleanup idle pathless => p.dropStale idle pathless
  | .close conn => p.close (· == conn)
  | .release conn => p.release conn
  | .saturate conn => p.saturate conn
  | .setEnrollment enrollment => { p with enrollment }
  | .takeIssued => { p with issued := none }
  | .takeAuthRequired => { p with authRequired := none }

abbrev World : Type := Interleave.World Pool Task

abbrev Event : Type := Interleave.Event Input Ambient Call

def behaviour : Interleave.Behaviour Pool Task Input Ambient Call where
  start := Task.start
  advance := Pool.advance
  ambient p change := some (p.ambient change)

def step (w : World) (e : Event) : Option World :=
  Interleave.step behaviour w e

/-! ### What edits do to a connection -/

def Pool.isClosed (p : Pool) (conn : ConnId) : Bool :=
  (p.conns[conn]?).any Conn.closed

def Pool.identityOf (p : Pool) (conn : ConnId) : Option (Option Identity) :=
  (p.conns[conn]?).bind Conn.identity

section Edits

variable (p : Pool) (f : ConnId → Conn → Conn) (conn : ConnId)

theorem Pool.getElem?_edit : (p.edit f).conns[conn]? = (p.conns[conn]?).map (f conn) :=
  List.getElem?_mapIdx

theorem Pool.length_edit : (p.edit f).conns.length = p.conns.length :=
  List.length_mapIdx

open Pool

theorem Pool.isClosed_edit (h : ∀ c, (f conn c).closed = c.closed) :
    (p.edit f).isClosed conn = p.isClosed conn := by
  unfold isClosed
  rw [getElem?_edit]
  rcases p.conns[conn]? with _ | c
  · rfl
  · exact h c

theorem Pool.identityOf_edit (h : ∀ c, (f conn c).identity = c.identity) :
    (p.edit f).identityOf conn = p.identityOf conn := by
  unfold identityOf
  rw [getElem?_edit]
  rcases p.conns[conn]? with _ | c
  · rfl
  · exact h c

theorem Pool.isClosed_eq_false (h : p.isOpen conn = true) : p.isClosed conn = false := by
  unfold isOpen at h
  unfold isClosed
  rcases hc : p.conns[conn]? with _ | c
  · rfl
  rw [hc, Option.any_some, Bool.not_eq_true'] at h
  exact h

variable (named : ConnId → Bool)

theorem Pool.isClosed_close :
    (p.close named).isClosed conn = (p.isClosed conn || named conn && (p.conns[conn]?).isSome) := by
  unfold close isClosed
  rw [getElem?_edit]
  rcases p.conns[conn]? with _ | c
  · simp
  · cases named conn <;> simp

theorem Pool.identityOf_close : (p.close named).identityOf conn = p.identityOf conn :=
  p.identityOf_edit _ conn fun c => by cases named conn <;> rfl

theorem Pool.isClosed_authenticate (k : ConnId) (identity : Option Identity) :
    (p.authenticate k identity).isClosed conn = p.isClosed conn :=
  p.isClosed_edit _ conn fun c => by by_cases h : conn = k <;> simp [h]

theorem Pool.identityOf_authenticate (k : ConnId) (identity : Option Identity) :
    (p.authenticate k identity).identityOf conn =
      if conn = k then (p.conns[conn]?).map fun _ => identity else p.identityOf conn := by
  unfold authenticate identityOf
  rw [getElem?_edit]
  by_cases h : conn = k
  · rw [if_pos h]
    cases p.conns[conn]? <;> simp [h]
  · rw [if_neg h]
    cases p.conns[conn]? <;> simp [h]

end Edits

theorem Pool.mem_dropStale {p : Pool} {idle pathless : List ConnId} {e : Pooled} :
    e ∈ (p.dropStale idle pathless).connections ↔
      e ∈ p.connections ∧ p.stale idle pathless e = false := by
  unfold dropStale close edit
  rw [List.mem_filter, Bool.not_eq_true']

theorem Pool.pick_mem {p : Pool} {protocol : Protocol} {conn : ConnId}
    (h : p.pick protocol = some conn) : ∃ e ∈ p.connections, e.conn = conn := by
  rcases Option.map_eq_some_iff.mp h with ⟨e, he, rfl⟩
  exact ⟨e, (List.mem_filter.mp (List.argmin_mem he)).1, rfl⟩

end Nexapipe.ConnectionPool
