import Nexapipe.Netstack.ByteRing

/-!
# One flow of the user-space stack

A connection that an application on the device opens is terminated here. smoltcp owns the socket,
`runner.rs` moves bytes between the socket and the flow's two queues, and the proxy reads and
writes the queues through a `TcpStream`.

Of smoltcp only the socket is modelled, as far as the runner can tell it apart: the state, the
buffers, the addresses, and what a segment does to them. That it delivers acknowledged bytes in
order, and that a reset or a timer can close a socket with unread bytes in its buffer, is what the
model takes from it.

A `Conn` has beside the data of the source the history its properties are about: what the socket
acknowledged, whether the peer's FIN came, and what the application has read.
-/

namespace Nexapipe.Netstack

open List

inductive TcpState where
  | closed
  | listen
  | synReceived
  | established
  | finWait1
  | finWait2
  | closeWait
  | closing
  | lastAck
  | timeWait
deriving DecidableEq

/-- What a segment asks of the socket it is for. Segments that change nothing here, such as one
    that repeats bytes, are left out. -/
inductive Segment where
  /-- Opens a connection. -/
  | syn
  /-- Acknowledges the answer to it. -/
  | ack
  /-- Bytes that come next in order. `wrap` is where the receive buffer's storage ends once they
      are in it: so many bytes can be taken out of it in one piece, and zero is all of them. -/
  | data (bytes : List UInt8) (wrap : Nat)
  /-- Acknowledges bytes that were sent, and says how the room they leave lies in the storage. -/
  | acked (count wrap : Nat)
  | fin
  | finAck
  | rst (hasAck : Bool)
deriving DecidableEq

def Segment.hasAck : Segment → Bool
  | .syn => false
  | .rst hasAck => hasAck
  | _ => true

/-- A frame that carries a TCP segment. `valid` says whether its checksum adds up. -/
structure Frame (A : Type) where
  src : A
  dst : A
  valid : Bool
  segment : Segment

structure Socket (A : Type) where
  state : TcpState
  endpoint : A
  remote : Option A
  rx : List UInt8
  rxCapacity : Nat
  rxWrap : Nat
  tx : List UInt8
  txCapacity : Nat
  txWrap : Nat

namespace Socket

variable {A : Type}

def accepts [DecidableEq A] (s : Socket A) (f : Frame A) : Bool :=
  if s.state = .closed then false
  else if s.state = .listen ∧ f.segment.hasAck = true then false
  else
    match s.remote with
    | some remote => decide (f.dst = s.endpoint ∧ f.src = remote)
    | none => decide (f.dst = s.endpoint)

def receives (s : Socket A) : Bool :=
  match s.state with
  | .synReceived | .established | .finWait1 | .finWait2 => true
  | _ => false

def admitted (s : Socket A) : Segment → List UInt8
  | .data bytes _ => if s.receives then bytes.take (s.rxCapacity - s.rx.length) else []
  | _ => []

def hearsFin (s : Socket A) (segment : Segment) : Bool :=
  decide (segment = .fin) && s.receives

def process (s : Socket A) (src : A) : Segment → Socket A
  | .syn => if s.state = .listen then { s with state := .synReceived, remote := some src } else s
  | .ack => if s.state = .synReceived then { s with state := .established } else s
  | .data bytes wrap =>
    if s.receives then
      { s with
        state := if s.state = .synReceived then .established else s.state
        rx := s.rx ++ s.admitted (.data bytes wrap)
        rxWrap := wrap }
    else s
  | .acked count wrap => { s with tx := s.tx.drop count, txWrap := wrap }
  | .fin =>
    match s.state with
    | .synReceived | .established => { s with state := .closeWait }
    | .finWait1 => { s with state := .closing }
    | .finWait2 => { s with state := .timeWait }
    | _ => s
  | .finAck =>
    match s.state with
    | .finWait1 => { s with state := .finWait2 }
    | .closing => { s with state := .timeWait }
    | .lastAck => { s with state := .closed, remote := none }
    | _ => s
  | .rst _ =>
    match s.state with
    | .listen | .closed => s
    | .synReceived => { s with state := .listen, remote := none }
    | _ => { s with state := .closed, remote := none }

/-- A timer of smoltcp's closes the socket: the end of the wait after a close, or a peer that has
    not answered for too long. -/
def expire (s : Socket A) : Socket A :=
  { s with state := .closed, remote := none }

def canRecv (s : Socket A) : Bool :=
  !s.rx.isEmpty

def mayRecv (s : Socket A) : Bool :=
  match s.state with
  | .established | .finWait1 | .finWait2 => true
  | _ => s.canRecv

def received (s : Socket A) : List UInt8 :=
  if s.rxWrap = 0 then s.rx else s.rx.take s.rxWrap

def consume (s : Socket A) (count : Nat) : Socket A :=
  { s with rx := s.rx.drop count, rxWrap := s.rxWrap - count }

def room (s : Socket A) : Nat :=
  let free := s.txCapacity - s.tx.length
  if s.txWrap = 0 then free else min free s.txWrap

def canSend (s : Socket A) : Bool :=
  match s.state with
  | .established | .closeWait => decide (s.tx.length < s.txCapacity)
  | _ => false

def fill (s : Socket A) (bytes : List UInt8) : Socket A :=
  { s with tx := s.tx ++ bytes, txWrap := s.txWrap - bytes.length }

def close (s : Socket A) : Socket A :=
  match s.state with
  | .listen => { s with state := .closed }
  | .synReceived | .established => { s with state := .finWait1 }
  | .closeWait => { s with state := .lastAck }
  | _ => s

def unfinished (s : Socket A) : Bool :=
  match s.state with
  | .listen | .synReceived | .established | .finWait1 | .finWait2 => true
  | _ => false

def opening (s : Socket A) : Bool :=
  decide (s.state = .listen ∨ s.state = .synReceived)

end Socket

/-- What a flow's two ends share. The wakers are left out. -/
structure FlowState where
  recv : ByteRing UInt8
  send : ByteRing UInt8
  recvClosed : Bool
  sendClosed : Bool
  finSent : Bool
  socketClosed : Bool

inductive PollRead where
  | pending
  /-- No error and no bytes, which is how a reader is told of the end of the stream. -/
  | endOfStream
  | bytes (read : List UInt8)

inductive PollWrite where
  | pending
  | brokenPipe
  | written (count : Nat)

namespace FlowState

def new (recvCapacity sendCapacity : Nat) : FlowState where
  recv := .new recvCapacity
  send := .new sendCapacity
  recvClosed := false
  sendClosed := false
  finSent := false
  socketClosed := false

def recvSpace (f : FlowState) : Nat :=
  f.recv.window

def copyIn (f : FlowState) (data : List UInt8) (limit : Nat) : Nat × FlowState :=
  let space := min limit f.recv.window
  if space = 0 then (0, f)
  else
    let (written, recv) := f.recv.enqueueSlice (data.take (min space data.length))
    (written, { f with recv := recv })

def copyOut (f : FlowState) (into : Nat) : List UInt8 × FlowState :=
  if f.send.isEmpty then ([], f)
  else
    let (written, send) := f.send.dequeueSlice into
    (written, { f with send := send })

def markRecvClosed (f : FlowState) : FlowState :=
  { f with recvClosed := true }

def markFinSent (f : FlowState) : FlowState :=
  { f with finSent := true }

def markSocketClosed (f : FlowState) : FlowState :=
  { f with socketClosed := true, recvClosed := true }

def pollRead (f : FlowState) (into : Nat) : PollRead × FlowState :=
  if f.recv.isEmpty then
    if f.recvClosed then (.endOfStream, f) else (.pending, f)
  else
    let (read, recv) := f.recv.dequeueSlice into
    (.bytes read, { f with recv := recv })

def pollWrite (f : FlowState) (data : List UInt8) : PollWrite × FlowState :=
  if f.sendClosed || f.socketClosed then (.brokenPipe, f)
  else if f.send.isFull then (.pending, f)
  else
    let (written, send) := f.send.enqueueSlice data
    (.written written, { f with send := send })

def pollShutdown (f : FlowState) : Bool × FlowState :=
  (f.finSent || f.socketClosed, { f with sendClosed := true })

end FlowState

def tcpHandshakeGrace : Nat := 10000

def tcpFinTimeout : Nat := 30000

structure StackConfig (A : Type) where
  tcpEnabled : Bool
  tcpRecvBufferSize : Nat
  tcpSendBufferSize : Nat
  /-- Whether a socket can listen on an address: smoltcp refuses one without a port. -/
  listenable : A → Bool

/-- A flow: the stream that was announced for it, what the runner keeps about it, its socket while
    the set holds it, and its history. -/
structure Conn (A : Type) where
  /-- The addresses the stream was announced with. -/
  src : A
  dst : A
  control : FlowState
  /-- Whether the stream still exists. Once it does not, the runner holds the only reference to
      the flow's state. -/
  held : Bool
  /-- Whether a task serves the stream, with one of the slots. -/
  serving : Bool
  socket : Option (Socket A)
  handshake : Option (A × A)
  openedAt : Nat
  closedAt : Option Nat
  /-- The connections on which bytes of the stream came in or went out. -/
  carried : List (A × A)
  /-- What the peer sent in order and the socket acknowledged. -/
  acknowledged : List UInt8
  /-- Whether the peer's FIN came, after all of it. -/
  fin : Bool
  /-- What the application has read. -/
  read : List UInt8
  /-- Whether the application was told that the stream is over. -/
  ended : Bool

variable {A : Type}

/-- The first copy loop of `pump`. Each turn moves a byte or is the last one, so the bytes in the
    socket's buffer are turns enough. -/
def moveIn : Nat → Socket A → FlowState → Socket A × FlowState
  | 0, s, f => (s, f)
  | turns + 1, s, f =>
    if s.canRecv then
      let space := f.recvSpace
      if space = 0 then (s, f)
      else
        let (moved, f) := f.copyIn s.received space
        if moved = 0 then (s, f) else moveIn turns (s.consume moved) f
    else (s, f)

def moveOut : Nat → Socket A → FlowState → Socket A × FlowState
  | 0, s, f => (s, f)
  | turns + 1, s, f =>
    if s.canSend then
      let (moved, f) := f.copyOut s.room
      if moved = [] then (s, f) else moveOut turns (s.fill moved) f
    else (s, f)

namespace Conn

def opened (config : StackConfig A) (src dst : A) (now : Nat) : Conn A where
  src := src
  dst := dst
  control := .new config.tcpRecvBufferSize config.tcpSendBufferSize
  held := true
  serving := false
  socket := some
    { state := .listen, endpoint := dst, remote := none
      rx := [], rxCapacity := config.tcpRecvBufferSize, rxWrap := 0
      tx := [], txCapacity := config.tcpSendBufferSize, txWrap := 0 }
  handshake := some (src, dst)
  openedAt := now
  closedAt := none
  carried := []
  acknowledged := []
  fin := false
  read := []
  ended := false

def accepts [DecidableEq A] (c : Conn A) (f : Frame A) : Bool :=
  c.socket.any fun s => s.accepts f

def process (c : Conn A) (s : Socket A) (f : Frame A) : Conn A :=
  { c with
    socket := some (s.process f.src f.segment)
    carried := if s.admitted f.segment = [] then c.carried else c.carried ++ [(f.src, f.dst)]
    acknowledged := c.acknowledged ++ s.admitted f.segment
    fin := c.fin || s.hearsFin f.segment }

def moveBytes (c : Conn A) (s : Socket A) : Socket A × Conn A :=
  let (s, f) := moveIn s.rx.length s c.control
  let (s', f') := moveOut f.send.len s f
  (s', { c with
    control := f'
    carried :=
      if f'.send.len = f.send.len then c.carried
      else c.carried ++ (s.remote.map fun remote => (remote, s.endpoint)).toList })

def hearPeer (s : Socket A) (c : Conn A) : Conn A :=
  if !s.mayRecv && !s.unfinished then { c with control := c.control.markRecvClosed } else c

def wantsFin (f : FlowState) : Bool :=
  f.sendClosed && f.send.isEmpty && !f.finSent

def sendFin (now : Nat) (s : Socket A) (c : Conn A) : Socket A × Conn A :=
  if wantsFin c.control then
    (s.close, { c with control := c.control.markFinSent, closedAt := some now })
  else (s, c)

def settle (s : Socket A) (c : Conn A) : Conn A :=
  if s.opening then c else { c with handshake := none }

def leave (c : Conn A) : Conn A :=
  { c with socket := none, handshake := none }

def conclude (now : Nat) (s : Socket A) (c : Conn A) : Conn A :=
  if s.state = .closed then { c with control := c.control.markSocketClosed }.leave
  else if s.state = .listen ∧ c.openedAt + tcpHandshakeGrace ≤ now then
    { c with control := c.control.markSocketClosed }.leave
  else if c.held = false ∧ c.control.finSent = false then c.leave
  else if c.held = false ∧ c.closedAt.any (fun closedAt => closedAt + tcpFinTimeout ≤ now) then
    c.leave
  else { c with socket := some s }

def pump (now : Nat) (c : Conn A) (s : Socket A) : Conn A :=
  let (s, c) := c.moveBytes s
  let c := hearPeer s c
  let (s, c) := sendFin now s c
  conclude now s (settle s c)

def pollRead (c : Conn A) (into : Nat) : Conn A :=
  let (answer, f) := c.control.pollRead into
  match answer with
  | .pending => { c with control := f }
  | .endOfStream => { c with control := f, ended := true }
  | .bytes read => { c with control := f, read := c.read ++ read }

end Conn

inductive FlowEvent (A : Type) where
  | segment (frame : Frame A)
  | expire
  | pump (now : Nat)
  | pollRead (into : Nat)
  | pollWrite (data : List UInt8)
  | pollShutdown
  /-- A task takes the stream, with a slot. -/
  | serve
  /-- The stream is dropped. -/
  | drop
  /-- The task that served it is over, and its slot goes back. -/
  | giveBack

def FlowEvent.elsewhere : FlowEvent A → Bool
  | .segment _ | .pump _ => false
  | _ => true

namespace Conn

/-- What an event does to a flow, where it can happen: the first three need the socket, the next
    three the stream. -/
def step [DecidableEq A] (c : Conn A) : FlowEvent A → Option (Conn A)
  | .segment f => c.socket.bind fun s => if s.accepts f then some (c.process s f) else none
  | .expire => c.socket.map fun s => { c with socket := some s.expire }
  | .pump now => c.socket.map fun s => c.pump now s
  | .pollRead into => if c.held then some (c.pollRead into) else none
  | .pollWrite data =>
    if c.held then some { c with control := (c.control.pollWrite data).2 } else none
  | .pollShutdown => if c.held then some { c with control := c.control.pollShutdown.2 } else none
  | .serve => if c.held && !c.serving then some { c with serving := true } else none
  | .drop => if c.held then some { c with held := false } else none
  | .giveBack => if !c.held && c.serving then some { c with serving := false } else none

end Conn

section Loops

variable {s : Socket A} {f : FlowState}

theorem Socket.length_received_pos (h : s.rx ≠ []) : 0 < s.received.length := by
  have hpos := length_pos_iff.mpr h
  by_cases hw : s.rxWrap = 0
  · rw [received, if_pos hw]
    exact hpos
  · rw [received, if_neg hw, length_take]
    omega

theorem Socket.take_received {count : Nat} (h : count ≤ s.received.length) :
    s.received.take count = s.rx.take count := by
  by_cases hw : s.rxWrap = 0
  · rw [received, if_pos hw]
  rw [received, if_neg hw] at h ⊢
  rw [length_take] at h
  rw [take_take, Nat.min_eq_left (by omega)]

theorem FlowState.copyIn_spec (h : f.recv.Sound) (data : List UInt8) (hroom : f.recv.window ≠ 0) :
    ∃ recv, f.copyIn data f.recv.window = (min f.recv.window data.length, { f with recv := recv })
      ∧ recv.Sound ∧ recv.limit = f.recv.limit
      ∧ recv.waiting = f.recv.waiting ++ data.take (min f.recv.window data.length) := by
  have ht : data.take (min f.recv.window data.length) = data.take f.recv.window :=
    take_eq_take_min.symm
  have hcount : (f.recv.enqueueSlice (data.take f.recv.window)).1
      = min f.recv.window data.length := by
    simp only [ByteRing.enqueueSlice, length_take]
    omega
  refine ⟨(f.recv.enqueueSlice (data.take f.recv.window)).2, ?_, h.enqueueSlice _,
    ByteRing.limit_enqueueSlice _ _, ?_⟩
  · simp only [copyIn, Nat.min_self, if_neg hroom, ht, hcount]
  · rw [h.waiting_enqueueSlice, hcount, take_take, Nat.min_eq_left (Nat.min_le_left ..)]

open Socket

/-- The copy loop moves all that fits, whatever pieces the socket hands out: it stops with the
    queue full or the socket's buffer empty. -/
theorem moveIn_spec {turns : Nat} (htur : s.rx.length ≤ turns) (h : f.recv.Sound) :
    ∃ wrap recv, moveIn turns s f
        = ({ s with rx := s.rx.drop (min f.recv.window s.rx.length), rxWrap := wrap },
            { f with recv := recv })
      ∧ recv.Sound
      ∧ recv.waiting = f.recv.waiting ++ s.rx.take (min f.recv.window s.rx.length) := by
  induction turns generalizing s f with
  | zero =>
    have hnone : min f.recv.window s.rx.length = 0 := by omega
    refine ⟨s.rxWrap, f.recv, ?_, h, ?_⟩
    · rw [hnone, drop_zero]
      rfl
    · rw [hnone, take_zero, append_nil]
  | succ turns ih =>
    by_cases hstop : s.rx = [] ∨ f.recv.window = 0
    · -- Nothing to give or no room: the loop ends here.
      have hnone : min f.recv.window s.rx.length = 0 := by
        rcases hstop with hrx | hroom
        · rw [hrx, length_nil]
          omega
        · omega
      refine ⟨s.rxWrap, f.recv, ?_, h, ?_⟩
      · rw [hnone, drop_zero, moveIn]
        rcases hstop with hrx | hroom
        · have hcan : s.canRecv = false := by simp [canRecv, hrx]
          simp only [hcan, Bool.false_eq_true, if_false]
        · simp only [FlowState.recvSpace, hroom, if_true, ite_self]
      · rw [hnone, take_zero, append_nil]
    · rw [not_or] at hstop
      obtain ⟨hrx, hroom⟩ := hstop
      obtain ⟨recv, hcopy, hsoun, hlim, hwait⟩ :=
        FlowState.copyIn_spec h s.received hroom
      have hpiec := length_received_pos hrx
      generalize hmov : min f.recv.window s.received.length = moved at hcopy hwait
      have hle : moved ≤ s.received.length := by omega
      have hwh : s.received.length ≤ s.rx.length := by
        unfold received
        split
        · exact Nat.le_refl _
        · exact length_take_le' _ _
      rw [take_received hle] at hwait
      have hwin : recv.window = f.recv.window - moved := by
        rw [ByteRing.window_eq, ByteRing.window_eq, hlim, hwait, length_append,
          length_take]
        omega
      -- The rest of the loop starts with what this turn left on both sides.
      obtain ⟨wrap, recv', hrest, hsoun', hwait'⟩ :=
        ih (s := s.consume moved) (f := { f with recv := recv })
          (by simp only [consume, length_drop]; omega) hsoun
      have hsum : moved + min (f.recv.window - moved) (s.rx.length - moved)
          = min f.recv.window s.rx.length := by omega
      simp only [hwin, consume, length_drop, drop_drop, hsum] at hrest
      simp only [hwin, consume, length_drop, hwait, append_assoc,
        ← take_add, hsum] at hwait'
      refine ⟨wrap, recv', ?_, hsoun', hwait'⟩
      have hcan : s.canRecv = true := by simp [canRecv, hrx]
      have hsome : ¬ moved = 0 := by omega
      simp only [moveIn, hcan, if_true, FlowState.recvSpace, if_neg hroom, hcopy, if_neg hsome]
      exact hrest

theorem moveOut_spec (turns : Nat) (s : Socket A) (f : FlowState) :
    ∃ tx wrap send, moveOut turns s f
        = ({ s with tx := tx, txWrap := wrap }, { f with send := send })
      ∧ (s.canSend = false → send = f.send) := by
  induction turns generalizing s f with
  | zero => exact ⟨s.tx, s.txWrap, f.send, rfl, fun _ => rfl⟩
  | succ turns ih =>
    by_cases hcan : s.canSend = true
    · have hco : ∃ send, (f.copyOut s.room).2 = { f with send := send } := by
        unfold FlowState.copyOut
        split
        · exact ⟨f.send, rfl⟩
        · exact ⟨_, rfl⟩
      obtain ⟨send, hco⟩ := hco
      simp only [moveOut, hcan, if_true, hco]
      split
      · exact ⟨s.tx, s.txWrap, send, rfl, fun hno => absurd hno (by decide)⟩
      obtain ⟨tx, wrap, send', hre, -⟩ :=
        ih (s.fill (f.copyOut s.room).1) { f with send := send }
      exact ⟨tx, wrap, send', hre, fun hno => absurd hno (by decide)⟩
    · rw [Bool.not_eq_true] at hcan
      simp only [moveOut, hcan, Bool.false_eq_true, if_false]
      exact ⟨s.tx, s.txWrap, f.send, rfl, fun _ => rfl⟩

end Loops

namespace Socket

variable {s : Socket A}

theorem state_close_congr {s' : Socket A} (h : s'.state = s.state) :
    s'.close.state = s.close.state := by
  unfold close
  rw [h]
  split
  all_goals first | rfl | exact h

theorem unfinished_congr {s' : Socket A} (h : s'.state = s.state) :
    s'.unfinished = s.unfinished := by
  unfold unfinished
  rw [h]

theorem close_keeps (s : Socket A) :
    s.close.rx = s.rx ∧ s.close.endpoint = s.endpoint ∧ s.close.remote = s.remote := by
  unfold close
  split
  all_goals exact ⟨rfl, rfl, rfl⟩

theorem state_of_close_closed (h : s.close.state = .closed) :
    s.state = .closed ∨ s.state = .listen := by
  unfold close at h
  cases hs : s.state
  all_goals simp [hs] at h ⊢

theorem state_of_close_listen (h : s.close.state = .listen) : s.state = .listen := by
  unfold close at h
  cases hs : s.state
  all_goals simp [hs] at h ⊢

end Socket

namespace Conn

section Pump

variable {c c' : Conn A} {s s' : Socket A} {now : Nat}

def movable (c : Conn A) (s : Socket A) : Nat :=
  min c.control.recv.window s.rx.length

def CarriedBy (c : Conn A) (s : Socket A) (carried : List (A × A)) : Prop :=
  carried = c.carried ∨ ∃ remote, s.remote = some remote
    ∧ carried = c.carried ++ [(remote, s.endpoint)]

theorem moveBytes_spec (c : Conn A) (s : Socket A) (h : c.control.recv.Sound) :
    ∃ recv send carried, ∃ s' : Socket A,
      c.moveBytes s
        = (s', { c with control := { c.control with recv := recv, send := send },
                        carried := carried })
      ∧ (s'.state = s.state ∧ s'.endpoint = s.endpoint ∧ s'.remote = s.remote
        ∧ s'.rx = s.rx.drop (c.movable s))
      ∧ recv.Sound ∧ recv.waiting = c.control.recv.waiting ++ s.rx.take (c.movable s)
      ∧ (s.canSend = false → send = c.control.send) ∧ CarriedBy c s carried := by
  obtain ⟨wrap, recv, hin, hso, hwa⟩ := moveIn_spec (Nat.le_refl s.rx.length) h
  obtain ⟨tx, wrap', send, hout, hse⟩ := moveOut_spec c.control.send.len
    { s with rx := s.rx.drop (min c.control.recv.window s.rx.length), rxWrap := wrap }
    { c.control with recv := recv }
  simp only [moveBytes, hin, hout]
  refine ⟨recv, send, _, _, rfl, ⟨rfl, rfl, rfl, rfl⟩, hso, hwa, hse, ?_⟩
  by_cases hsent : send.len = c.control.send.len
  · rw [if_pos hsent]
    exact .inl rfl
  rw [if_neg hsent]
  rcases hrem : s.remote with _ | remote
  · exact .inl (append_nil _)
  · exact .inr ⟨remote, hrem, rfl⟩

/-- Two states of a flow differ at most in how far its ending is: in the marks of its control, its
    socket and the times the runner keeps. -/
structure Alike (c c' : Conn A) : Prop where
  label : c'.src = c.src ∧ c'.dst = c.dst
  owner : c'.held = c.held ∧ c'.serving = c.serving
  history : c'.read = c.read ∧ c'.acknowledged = c.acknowledged ∧ c'.fin = c.fin
    ∧ c'.ended = c.ended
  recv : c'.control.recv = c.control.recv
  carried : c'.carried = c.carried
  openedAt : c'.openedAt = c.openedAt

theorem Alike.trans {c'' : Conn A} (h : Alike c c') (h' : Alike c' c'') : Alike c c'' where
  label := ⟨h'.label.1.trans h.label.1, h'.label.2.trans h.label.2⟩
  owner := ⟨h'.owner.1.trans h.owner.1, h'.owner.2.trans h.owner.2⟩
  history := by
    obtain ⟨hread, hack, hfin, hend⟩ := h'.history
    rw [hread, hack, hfin, hend]
    exact h.history
  recv := h'.recv.trans h.recv
  carried := h'.carried.trans h.carried
  openedAt := h'.openedAt.trans h.openedAt

theorem alike_with (c : Conn A) (control : FlowState) (h : control.recv = c.control.recv)
    (socket : Option (Socket A)) (handshake : Option (A × A)) (closedAt : Option Nat) :
    Alike c { c with
      control := control, socket := socket, handshake := handshake, closedAt := closedAt } where
  label := ⟨rfl, rfl⟩
  owner := ⟨rfl, rfl⟩
  history := ⟨rfl, rfl, rfl, rfl⟩
  recv := h
  carried := rfl
  openedAt := rfl

theorem hearPeer_spec (s : Socket A) (c : Conn A) :
    Alike c (hearPeer s c) ∧ wantsFin (hearPeer s c).control = wantsFin c.control
      ∧ ((hearPeer s c).control.recvClosed = true →
        c.control.recvClosed = true ∨ (s.rx = [] ∧ s.unfinished = false)) := by
  unfold hearPeer
  split
  · rename_i hover
    simp only [Bool.and_eq_true, Bool.not_eq_true'] at hover
    refine ⟨alike_with c c.control.markRecvClosed rfl _ _ _, rfl,
      fun _ => .inr ⟨?_, hover.2⟩⟩
    -- A socket that may not receive has nothing in its buffer, whatever its state.
    have hmay := hover.1
    unfold Socket.mayRecv at hmay
    split at hmay
    all_goals simp [Socket.canRecv] at hmay
    exact hmay
  · exact ⟨alike_with c c.control rfl _ _ _, rfl, .inl⟩

theorem sendFin_spec (now : Nat) (s : Socket A) (c : Conn A) :
    Alike c (sendFin now s c).2 ∧ (sendFin now s c).2.control.recvClosed = c.control.recvClosed
      ∧ (sendFin now s c).1 = if wantsFin c.control then s.close else s := by
  unfold sendFin
  split
  · exact ⟨alike_with c c.control.markFinSent rfl _ _ _, rfl, rfl⟩
  · exact ⟨alike_with c c.control rfl _ _ _, rfl, rfl⟩

theorem settle_spec (s : Socket A) (c : Conn A) :
    Alike c (settle s c) ∧ (settle s c).control = c.control := by
  unfold settle
  split
  all_goals exact ⟨alike_with c c.control rfl _ _ _, rfl⟩

theorem conclude_spec (now : Nat) (s : Socket A) (c : Conn A) :
    Alike c (conclude now s c) ∧ (∀ s' ∈ (conclude now s c).socket, s' = s)
      ∧ ((conclude now s c).control.recvClosed = true → c.control.recvClosed = true
        ∨ s.state = .closed ∨ (s.state = .listen ∧ c.openedAt + tcpHandshakeGrace ≤ now)) := by
  unfold conclude leave
  split
  · rename_i hcl
    exact ⟨alike_with c c.control.markSocketClosed rfl _ _ _, fun _ h => absurd h (by simp),
      fun _ => .inr (.inl hcl)⟩
  split
  · rename_i hla
    exact ⟨alike_with c c.control.markSocketClosed rfl _ _ _, fun _ h => absurd h (by simp),
      fun _ => .inr (.inr hla)⟩
  split
  · exact ⟨alike_with c c.control rfl _ _ _, fun _ h => absurd h (by simp), .inl⟩
  split
  · exact ⟨alike_with c c.control rfl _ _ _, fun _ h => absurd h (by simp),
      .inl⟩
  refine ⟨alike_with c c.control rfl _ _ _, ?_, .inl⟩
  rintro s' ⟨⟩
  rfl

structure Pumped (now : Nat) (c : Conn A) (s : Socket A) (c' : Conn A) : Prop where
  label : c'.src = c.src ∧ c'.dst = c.dst
  owner : c'.held = c.held ∧ c'.serving = c.serving
  history : c'.read = c.read ∧ c'.acknowledged = c.acknowledged ∧ c'.fin = c.fin
    ∧ c'.ended = c.ended
  sound : c'.control.recv.Sound
  waiting : c'.control.recv.waiting = c.control.recv.waiting ++ s.rx.take (c.movable s)
  carried : CarriedBy c s c'.carried
  socket : ∀ s' ∈ c'.socket, s'.rx = s.rx.drop (c.movable s) ∧ s'.endpoint = s.endpoint
    ∧ s'.remote = s.remote ∧ (s'.state = s.state ∨ s'.state = s.close.state)
  -- The reader is told of the end if it was before, if the peer is done and nothing is left, or
  -- if the socket is given up.
  closed : c'.control.recvClosed = true → c.control.recvClosed = true
    ∨ (s.rx.drop (c.movable s) = [] ∧ s.unfinished = false) ∨ s.state = .closed
    ∨ (s.state = .listen ∧ (wantsFin c.control = true ∨ c.openedAt + tcpHandshakeGrace ≤ now))

open Socket

theorem pumped (now : Nat) (h : c.control.recv.Sound) : Pumped now c s (c.pump now s) := by
  obtain ⟨recv, send, carried, s₁, hmove, ⟨hst, hend, hrem, hrx⟩, hsoun, hwait,
    hsend, hcar⟩ := moveBytes_spec c s h
  generalize hc₁ : { c with
    control := { c.control with recv := recv, send := send }, carried := carried } = c₁ at hmove
  obtain ⟨halike₂, hwan, hcl₂⟩ := hearPeer_spec s₁ c₁
  obtain ⟨halike₃, hcl₃, hs₂⟩ := sendFin_spec now s₁ (hearPeer s₁ c₁)
  have hpump : c.pump now s = conclude now (sendFin now s₁ (hearPeer s₁ c₁)).1
      (settle (sendFin now s₁ (hearPeer s₁ c₁)).1 (sendFin now s₁ (hearPeer s₁ c₁)).2) := by
    simp only [pump, hmove]
  generalize sendFin now s₁ (hearPeer s₁ c₁) = sent at halike₃ hcl₃ hs₂ hpump
  obtain ⟨s₂, c₃⟩ := sent
  obtain ⟨halike₄, hcon₄⟩ := settle_spec s₂ c₃
  obtain ⟨halike₅, hsoc, hcl₅⟩ := conclude_spec now s₂ (settle s₂ c₃)
  have hup := (halike₂.trans halike₃).trans halike₄
  have halike := hup.trans halike₅
  rw [← hpump] at halike hsoc hcl₅
  simp only at hs₂ hcl₃
  -- The socket the round ends with: as it was, or closed by the application.
  have hs₂' : s₂ = s₁ ∨ (s₂ = s₁.close ∧ wantsFin c₁.control = true) := by
    rw [hs₂, hwan]
    split
    · rename_i hfin
      exact .inr ⟨rfl, hfin⟩
    · exact .inl rfl
  refine ⟨?_, ?_, ?_, ?_, ?_, ?_, ?_, ?_⟩
  · rw [halike.label.1, halike.label.2, ← hc₁]
    exact ⟨rfl, rfl⟩
  · rw [halike.owner.1, halike.owner.2, ← hc₁]
    exact ⟨rfl, rfl⟩
  · obtain ⟨hread, hack, hfin, hende⟩ := halike.history
    rw [hread, hack, hfin, hende, ← hc₁]
    exact ⟨rfl, rfl, rfl, rfl⟩
  · rw [halike.recv, ← hc₁]
    exact hsoun
  · rw [halike.recv, ← hc₁]
    exact hwait
  · rw [halike.carried, ← hc₁]
    exact hcar
  · intro s' hs'
    rw [hsoc s' hs', ← hrx, ← hend, ← hrem]
    rcases hs₂' with rfl | ⟨rfl, -⟩
    · exact ⟨rfl, rfl, rfl, .inl hst⟩
    · obtain ⟨hrx', hend', hrem'⟩ := close_keeps s₁
      exact ⟨hrx', hend', hrem', .inr (state_close_congr hst)⟩
  · intro hcl
    rcases hcl₅ hcl with hold | hgone | ⟨hlis, hlate⟩
    · rw [hcon₄, hcl₃] at hold
      rcases hcl₂ hold with hold | ⟨hnil, hover⟩
      · rw [← hc₁] at hold
        exact .inl hold
      rw [hrx] at hnil
      rw [unfinished_congr hst] at hover
      exact .inr (.inl ⟨hnil, hover⟩)
    · rcases hs₂' with rfl | ⟨rfl, hfin⟩
      · exact .inr (.inr (.inl (hst ▸ hgone)))
      rw [state_close_congr hst] at hgone
      rcases state_of_close_closed hgone with hgone | hlis
      · exact .inr (.inr (.inl hgone))
      -- A listening socket sends nothing, so what the application wrote is still unsent.
      have hcan : s.canSend = false := by
        unfold canSend
        rw [hlis]
      rw [← hc₁, hsend hcan] at hfin
      exact .inr (.inr (.inr ⟨hlis, .inl hfin⟩))
    · rw [hup.openedAt, ← hc₁] at hlate
      refine .inr (.inr (.inr ⟨?_, .inr hlate⟩))
      rcases hs₂' with rfl | ⟨rfl, -⟩
      · exact hst ▸ hlis
      · exact state_of_close_listen (state_close_congr hst ▸ hlis)

theorem serving_pump (now : Nat) (c : Conn A) (s : Socket A) :
    (c.pump now s).serving = c.serving := by
  simp only [pump]
  rw [(conclude_spec _ _ _).1.owner.2, (settle_spec _ _).1.owner.2, (sendFin_spec _ _ _).1.owner.2,
    (hearPeer_spec _ _).1.owner.2]
  rfl

end Pump

end Conn

namespace Socket

variable {s : Socket A} {src : A} {segment : Segment}

theorem rx_process (s : Socket A) (src : A) (segment : Segment) :
    (s.process src segment).rx = s.rx ++ s.admitted segment := by
  cases segment with
  | data bytes wrap =>
    simp only [process, admitted]
    split
    · rfl
    · exact (append_nil _).symm
  | syn | ack =>
    simp only [process, admitted, append_nil]
    split
    all_goals rfl
  | acked | fin | finAck | rst =>
    simp only [process, admitted, append_nil]
    try split
    all_goals rfl

theorem admitted_eq_nil (h : s.receives = false) (segment : Segment) : s.admitted segment = [] := by
  cases segment
  all_goals simp [admitted, h]

theorem unfinished_process (h : (s.process src segment).state ≠ .closed) :
    (s.process src segment).unfinished = (s.unfinished && !s.hearsFin segment) := by
  revert h
  cases segment
  all_goals
    cases hs : s.state
    all_goals simp [process, unfinished, hearsFin, receives, hs]

theorem endpoint_process (s : Socket A) (src : A) (segment : Segment) :
    (s.process src segment).endpoint = s.endpoint := by
  cases segment
  all_goals
    simp only [process]
    try split
    all_goals rfl

theorem remote_process (s : Socket A) (src : A) (segment : Segment) :
    ((s.process src segment).remote = s.remote
      ∧ ((s.process src segment).state = s.state ∨ (s.state ≠ .listen ∧ s.state ≠ .closed)))
    ∨ ((s.process src segment).remote = none
      ∧ ((s.process src segment).state = .listen ∨ (s.process src segment).state = .closed))
    ∨ (segment = .syn ∧ (s.process src segment).remote = some src) := by
  cases segment
  all_goals
    cases hs : s.state
    all_goals simp [process, receives, hs]

theorem unfinished_close (h : s.close.state ≠ .closed) : s.close.unfinished = s.unfinished := by
  revert h
  cases hs : s.state
  all_goals simp [close, unfinished, hs]

theorem src_of_accepts [DecidableEq A] {f : Frame A} (h : s.accepts f = true) {remote : A}
    (hrem : s.remote = some remote) : f.dst = s.endpoint ∧ f.src = remote := by
  simp only [accepts, hrem] at h
  split at h
  · exact absurd h (by simp)
  split at h
  · exact absurd h (by simp)
  · exact of_decide_eq_true h

theorem receives_of_not_unfinished (h : s.unfinished = false) : s.receives = false := by
  revert h
  cases hs : s.state
  all_goals simp [receives, unfinished, hs]

end Socket

namespace Conn

variable {c c' : Conn A} {e : FlowEvent A}

theorem pollRead_cases (h : c.control.recv.Sound) (into : Nat) :
    c.pollRead into = c
    ∨ (c.control.recv.waiting = [] ∧ c.control.recvClosed = true
      ∧ c.pollRead into = { c with ended := true })
    ∨ ∃ recv : ByteRing UInt8, recv.Sound
      ∧ recv.waiting = c.control.recv.waiting.drop into
      ∧ c.pollRead into = { c with
        control := { c.control with recv := recv }
        read := c.read ++ c.control.recv.waiting.take into } := by
  by_cases hnil : c.control.recv.isEmpty = true
  · by_cases hcl : c.control.recvClosed = true
    · refine .inr (.inl ⟨(ByteRing.isEmpty_iff _).mp hnil, hcl, ?_⟩)
      simp only [pollRead, FlowState.pollRead, hnil, hcl, if_true]
    refine .inl ?_
    simp only [pollRead, FlowState.pollRead, hnil, hcl, if_true, Bool.false_eq_true,
      if_false]
  · rw [Bool.not_eq_true] at hnil
    refine .inr (.inr ⟨_, h.dequeueSlice into, h.waiting_dequeueSlice into, ?_⟩)
    simp only [pollRead, FlowState.pollRead, hnil, Bool.false_eq_true, if_false]
    rw [h.taken_dequeueSlice]

theorem serving_pollRead (c : Conn A) (into : Nat) : (c.pollRead into).serving = c.serving := by
  unfold pollRead
  generalize c.control.pollRead into = polled
  obtain ⟨answer, f⟩ := polled
  cases answer
  all_goals rfl

theorem serving_step [DecidableEq A] (h : c.step e = some c') :
    (e = .serve ∧ c.serving = false ∧ c'.serving = true)
    ∨ (e = .giveBack ∧ c.serving = true ∧ c'.serving = false)
    ∨ (e ≠ .serve ∧ e ≠ .giveBack ∧ c'.serving = c.serving) := by
  revert h
  fun_cases Conn.step c e with
  | case1 =>
    intro h
    obtain ⟨s, -, h⟩ := Option.bind_eq_some_iff.mp h
    split at h
    · cases h
      exact .inr (.inr ⟨nofun, nofun, rfl⟩)
    · cases h
  | case2 =>
    intro h
    obtain ⟨s, -, rfl⟩ := Option.map_eq_some_iff.mp h
    exact .inr (.inr ⟨nofun, nofun, rfl⟩)
  | case3 now =>
    intro h
    obtain ⟨s, -, rfl⟩ := Option.map_eq_some_iff.mp h
    exact .inr (.inr ⟨nofun, nofun, serving_pump now c s⟩)
  | case4 into =>
    rintro ⟨⟩
    exact .inr (.inr ⟨nofun, nofun, serving_pollRead c into⟩)
  | case10 hfr =>
    rintro ⟨⟩
    simp only [Bool.and_eq_true, Bool.not_eq_true'] at hfr
    exact .inl ⟨rfl, hfr.2, rfl⟩
  | case14 hhe =>
    rintro ⟨⟩
    simp only [Bool.and_eq_true, Bool.not_eq_true'] at hhe
    exact .inr (.inl ⟨rfl, hhe.2, rfl⟩)
  | case6 | case8 | case12 =>
    rintro ⟨⟩
    exact .inr (.inr ⟨nofun, nofun, rfl⟩)
  | _ => rintro ⟨⟩

theorem pollRead_keeps (c : Conn A) (into : Nat) :
    ((c.pollRead into).src = c.src ∧ (c.pollRead into).dst = c.dst)
      ∧ (c.pollRead into).socket = c.socket ∧ (c.pollRead into).carried = c.carried := by
  unfold pollRead
  generalize c.control.pollRead into = polled
  obtain ⟨answer, f⟩ := polled
  cases answer
  all_goals exact ⟨⟨rfl, rfl⟩, rfl, rfl⟩

end Conn

end Nexapipe.Netstack
