import Nexapipe.Netstack.Stack

/-!
# The end of a stream

What the application reads from a `TcpStream` is what the peer sent, in order, and that much holds
in every schedule. That the end of the stream is the peer's own is another matter: `recv_closed` is
set by `mark_socket_closed` as well, so a reader is told of a clean end when the connection was
reset, when a timer closed the socket, and when a socket that never connected was given up.

`Conn.Clean` says what a pump round has to find for none of this to happen.
-/

namespace Nexapipe.Netstack

open List Option

variable {A : Type}

namespace Conn

variable {c c' : Conn A} {e : FlowEvent A}

/-- Bytes are kept in order: what was read, what waits and what is in the socket are what the
    socket acknowledged. Once the socket is gone the end of it may be missing. -/
structure Ordered (c : Conn A) : Prop where
  sound : c.control.recv.Sound
  order : c.read ++ c.control.recv.waiting <+: c.acknowledged
  whole : ∀ s ∈ c.socket, c.read ++ c.control.recv.waiting ++ s.rx = c.acknowledged

theorem ordered_opened (config : StackConfig A) (src dst : A) (now : Nat) :
    Ordered (opened config src dst now) where
  sound := ByteRing.sound_new _
  order := nil_prefix
  whole := by
    rintro s ⟨⟩
    rfl

theorem Ordered.of_same (h : Ordered c) (hr : c'.control.recv = c.control.recv)
    (hread : c'.read = c.read) (hack : c'.acknowledged = c.acknowledged)
    (hsoc : ∀ s' ∈ c'.socket, ∃ s ∈ c.socket, s'.rx = s.rx) : Ordered c' where
  sound := by
    rw [hr]
    exact h.sound
  order := by
    rw [hr, hread, hack]
    exact h.order
  whole := by
    intro s' hs'
    obtain ⟨s, hs, hrx⟩ := hsoc s' hs'
    rw [hr, hread, hack, hrx]
    exact h.whole s hs

variable [DecidableEq A]

theorem Ordered.step (h : Ordered c) (hstep : c.step e = some c') : Ordered c' := by
  revert hstep
  fun_cases Conn.step c e with
  | case1 f =>
    intro hstep
    obtain ⟨s, hs, hstep⟩ := bind_eq_some_iff.mp hstep
    split at hstep
    · cases hstep
      have hwh := h.whole s hs
      refine ⟨h.sound, ?_, ?_⟩
      · exact h.order.trans (prefix_append _ _)
      · rintro s' ⟨⟩
        simp only [process, Socket.rx_process, ← append_assoc, hwh]
    · cases hstep
  | case2 =>
    intro hstep
    obtain ⟨s, hs, rfl⟩ := map_eq_some_iff.mp hstep
    exact h.of_same rfl rfl rfl (by rintro s' ⟨⟩; exact ⟨s, hs, rfl⟩)
  | case3 now =>
    intro hstep
    obtain ⟨s, hs, rfl⟩ := map_eq_some_iff.mp hstep
    have hpump := pumped (c := c) (s := s) now h.sound
    have hwh := h.whole s hs
    -- What moved out of the socket is what the queue grew by.
    have hsp : c.read ++ (c.control.recv.waiting ++ s.rx.take (c.movable s))
        ++ s.rx.drop (c.movable s) = c.acknowledged := by
      rw [← hwh, append_assoc, append_assoc, append_assoc,
        take_append_drop]
    refine ⟨hpump.sound, ?_, ?_⟩
    · rw [hpump.history.1, hpump.history.2.1, hpump.waiting]
      exact ⟨_, hsp⟩
    · intro s' hs'
      rw [hpump.history.1, hpump.history.2.1, hpump.waiting, (hpump.socket s' hs').1]
      exact hsp
  | case4 into =>
    rintro ⟨⟩
    rcases pollRead_cases h.sound into with
      hsame | ⟨-, -, hend⟩ | ⟨recv, hsoun, hwait, hread⟩
    · rw [hsame]
      exact h
    · rw [hend]
      exact ⟨h.sound, h.order, h.whole⟩
    · have hsame : c.read ++ c.control.recv.waiting.take into ++ recv.waiting
          = c.read ++ c.control.recv.waiting := by
        rw [hwait, append_assoc, take_append_drop]
      rw [hread]
      refine ⟨hsoun, ?_, ?_⟩
      · rw [hsame]
        exact h.order
      · intro s hs
        rw [hsame]
        exact h.whole s hs
  | case6 data =>
    rintro ⟨⟩
    refine h.of_same ?_ rfl rfl fun s hs => ⟨s, hs, rfl⟩
    fun_cases FlowState.pollWrite c.control data <;> rfl
  | case8 | case10 | case12 | case14 =>
    rintro ⟨⟩
    exact h.of_same rfl rfl rfl fun s hs => ⟨s, hs, rfl⟩
  | _ => rintro ⟨⟩

end Conn

namespace Conn

variable {c c' : Conn A} {e : FlowEvent A}

/-- A pump round that does not end a stream its peer has not ended. It finds no socket closed
    before the peer's FIN or with more unread bytes than the queue has room for, and it gives up
    no socket that still listens. Nobody is left to be misled once the stream is dropped. -/
def Clean (now : Nat) (c : Conn A) : Prop :=
  c.held = true → ∀ s ∈ c.socket,
    (s.state = .closed → c.fin = true ∧ s.rx.length ≤ c.control.recv.window)
    ∧ (s.state = .listen → wantsFin c.control = false ∧ now < c.openedAt + tcpHandshakeGrace)

instance (now : Nat) (c : Conn A) : Decidable (Clean now c) :=
  inferInstanceAs (Decidable (c.held = true → ∀ s ∈ c.socket,
    (s.state = .closed → c.fin = true ∧ s.rx.length ≤ c.control.recv.window)
    ∧ (s.state = .listen → wantsFin c.control = false ∧ now < c.openedAt + tcpHandshakeGrace)))

structure Honest (c : Conn A) : Prop where
  heard : ∀ s ∈ c.socket, s.state ≠ .closed → c.fin = !s.unfinished
  -- `recv_closed` is what the next poll of an empty queue answers with.
  marked : c.held = true → c.control.recvClosed = true →
    c.fin = true ∧ c.read ++ c.control.recv.waiting = c.acknowledged
  ended : c.ended = true → c.fin = true ∧ c.read = c.acknowledged

theorem honest_opened (config : StackConfig A) (src dst : A) (now : Nat) :
    Honest (opened config src dst now) where
  heard := by
    rintro s ⟨⟩ -
    rfl
  marked _ hcl := absurd hcl (by simp [opened, FlowState.new])
  ended hend := absurd hend (by simp [opened])

variable {s : Socket A}

open Socket

theorem Honest.silent (h : Honest c) (hfin : c.fin = true) (hs : s ∈ c.socket) :
    s.receives = false := by
  by_cases hcl : s.state = .closed
  · simp [receives, hcl]
  have hh := h.heard s hs hcl
  rw [hfin, eq_comm, Bool.not_eq_true'] at hh
  exact receives_of_not_unfinished hh

theorem Honest.process (h : Honest c) (hs : s ∈ c.socket) (f : Frame A) :
    Honest (c.process s f) := by
  have hmo : c.fin = true →
      (c.process s f).fin = true ∧ (c.process s f).acknowledged = c.acknowledged := by
    intro hfin
    have hno := admitted_eq_nil (h.silent hfin hs) f.segment
    simp only [Conn.process, hfin, hno, append_nil, Bool.true_or, and_self]
  refine ⟨?_, ?_, ?_⟩
  · rintro s' ⟨⟩ hop
    -- The socket was not closed before, or it would be closed now.
    have hwas : s.state ≠ .closed := by
      intro hcl
      refine hop ?_
      cases f.segment
      all_goals simp [Socket.process, Socket.receives, hcl]
    simp only [Conn.process, unfinished_process hop, h.heard s hs hwas]
    cases s.unfinished
    all_goals cases s.hearsFin f.segment
    all_goals rfl
  · intro hhe hcl
    obtain ⟨hfin, hall⟩ := h.marked hhe hcl
    rw [(hmo hfin).2]
    exact ⟨(hmo hfin).1, hall⟩
  · intro hend
    obtain ⟨hfin, hall⟩ := h.ended hend
    rw [(hmo hfin).2]
    exact ⟨(hmo hfin).1, hall⟩

theorem Honest.of_pumped (h : Honest c) (ho : Ordered c) (hs : s ∈ c.socket) {now : Nat}
    (hclea : Clean now c) (hp : Pumped now c s c') : Honest c' := by
  obtain ⟨hread, hack, hfin, hend⟩ := hp.history
  have hwh := ho.whole s hs
  refine ⟨?_, ?_, ?_⟩
  · intro s' hs' hopen
    obtain ⟨-, -, -, hst⟩ := hp.socket s' hs'
    rw [hfin]
    rcases hst with hst | hst
    · rw [unfinished_congr hst]
      exact h.heard s hs (hst ▸ hopen)
    have hopen' : s.close.state ≠ .closed := hst ▸ hopen
    rw [unfinished_congr hst, unfinished_close hopen']
    refine h.heard s hs fun hcl => hopen' ?_
    simp [close, hcl]
  · intro hheld hcl
    rw [hp.owner.1] at hheld
    obtain ⟨hwhen, hwhenListening⟩ := hclea hheld s hs
    -- In every case the FIN has come and the round has emptied the socket.
    have hdone : c.fin = true ∧ s.rx.drop (c.movable s) = [] := by
      rcases hp.closed hcl with hbef | ⟨hnil, hover⟩ | hst | ⟨hlis, hgiv⟩
      · obtain ⟨hfin', hall⟩ := h.marked hheld hbef
        rw [← hall] at hwh
        have hrx : s.rx = [] := append_right_eq_self.mp hwh
        exact ⟨hfin', by rw [hrx, drop_nil]⟩
      · refine ⟨?_, hnil⟩
        by_cases hst : s.state = .closed
        · exact (hwhen hst).1
        · rw [h.heard s hs hst, hover]
          rfl
      · obtain ⟨hfin', hfits⟩ := hwhen hst
        refine ⟨hfin', drop_eq_nil_of_le ?_⟩
        unfold movable
        omega
      · obtain ⟨hwan, hsoon⟩ := hwhenListening hlis
        rcases hgiv with hgiv | hgiv
        · simp [hwan] at hgiv
        · omega
    have htake : s.rx.take (c.movable s) = s.rx := by
      have hsp := take_append_drop (c.movable s) s.rx
      rw [hdone.2, append_nil] at hsp
      exact hsp
    rw [hfin, hread, hack, hp.waiting, htake, ← append_assoc]
    exact ⟨hdone.1, hwh⟩
  · intro hend'
    rw [hend] at hend'
    rw [hfin, hread, hack]
    exact h.ended hend'

theorem Honest.of_same (h : Honest c) (hsoc : c'.socket = c.socket)
    (hr : c'.control.recv = c.control.recv)
    (hcl : c'.control.recvClosed = c.control.recvClosed)
    (hh : c'.held = true → c.held = true)
    (hhis : c'.read = c.read ∧ c'.acknowledged = c.acknowledged ∧ c'.fin = c.fin
      ∧ c'.ended = c.ended) : Honest c' := by
  obtain ⟨hread, hack, hfin, hend⟩ := hhis
  refine ⟨?_, ?_, ?_⟩
  · rw [hsoc, hfin]
    exact h.heard
  · rw [hcl, hfin, hread, hack, hr]
    exact fun hh' => h.marked (hh hh')
  · rw [hend, hfin, hread, hack]
    exact h.ended

theorem Honest.pollRead (h : Honest c) (ho : Ordered c) (hhe : c.held = true) (into : Nat) :
    Honest (c.pollRead into) := by
  rcases pollRead_cases ho.sound into with
    hsame | ⟨hnil, hcl, hend⟩ | ⟨recv, -, hwa, hread⟩
  · rw [hsame]
    exact h
  · obtain ⟨hfin, hall⟩ := h.marked hhe hcl
    rw [hend]
    refine ⟨h.heard, h.marked, fun _ => ⟨hfin, ?_⟩⟩
    rw [hnil, append_nil] at hall
    exact hall
  · rw [hread]
    refine ⟨h.heard, ?_, ?_⟩
    · intro _ hcl
      obtain ⟨hfin, hall⟩ := h.marked hhe hcl
      refine ⟨hfin, ?_⟩
      rw [hwa, append_assoc, take_append_drop]
      exact hall
    · intro hend
      obtain ⟨hfin, hall⟩ := h.ended hend
      -- Everything was read before, so nothing can wait.
      have hno : c.control.recv.waiting = [] := by
        have hord := ho.order
        rw [← hall] at hord
        exact append_right_eq_self.mp
          (hord.eq_of_length_le (by rw [length_append]; omega))
      refine ⟨hfin, ?_⟩
      rw [hno, take_nil, append_nil]
      exact hall

variable [DecidableEq A]

theorem Honest.step (h : Honest c) (ho : Ordered c)
    (hcl : ∀ now, e = .pump now → Clean now c) (hst : c.step e = some c') : Honest c' := by
  revert hst
  fun_cases Conn.step c e with
  | case1 f =>
    intro hst
    obtain ⟨s, hs, hst⟩ := bind_eq_some_iff.mp hst
    split at hst
    · cases hst
      exact h.process hs f
    · cases hst
  | case2 =>
    intro hst
    obtain ⟨s, hs, rfl⟩ := map_eq_some_iff.mp hst
    refine ⟨?_, h.marked, h.ended⟩
    rintro s' ⟨⟩ hop
    exact absurd rfl hop
  | case3 now =>
    intro hst
    obtain ⟨s, hs, rfl⟩ := map_eq_some_iff.mp hst
    exact h.of_pumped ho hs (hcl now rfl) (pumped now ho.sound)
  | case4 into hhe =>
    rintro ⟨⟩
    exact h.pollRead ho hhe into
  | case6 data =>
    rintro ⟨⟩
    refine h.of_same rfl ?_ ?_ id ⟨rfl, rfl, rfl, rfl⟩
    all_goals fun_cases FlowState.pollWrite c.control data <;> rfl
  | case8 | case10 | case14 =>
    rintro ⟨⟩
    exact h.of_same rfl rfl rfl id ⟨rfl, rfl, rfl, rfl⟩
  | case12 =>
    rintro ⟨⟩
    exact h.of_same rfl rfl rfl (fun hhe => absurd hhe (by simp)) ⟨rfl, rfl, rfl, rfl⟩
  | _ => rintro ⟨⟩

end Conn

namespace Stack

variable [DecidableEq A] {config : StackConfig A} {s s' : Stack A} {event : StackEvent A}

def CleanRound (s : Stack A) : StackEvent A → Prop
  | .pump now => ∀ c ∈ s.conns, Conn.Clean now c
  | _ => True

instance (s : Stack A) (event : StackEvent A) : Decidable (CleanRound s event) :=
  match event with
  | .pump now => inferInstanceAs (Decidable (∀ c ∈ s.conns, Conn.Clean now c))
  | .frame _ _ | .poll | .expire _ | .look _ | .stop | .pollRead _ _ | .pollWrite _ _
  | .pollShutdown _ | .drop _ | .giveBack _ => inferInstanceAs (Decidable True)

/-- In every run whose pump rounds are clean, what the application reads from a stream is a prefix
    of what the peer sent in order, and it is told of the end only after the peer's FIN, with
    every byte the socket acknowledged read. -/
theorem stream_ends_at_fin (config : StackConfig A) (events : List (StackEvent A))
    (hclean : Machine.Along (step config) CleanRound start events)
    (hrun : Machine.run (step config) start events = some s) :
    ∀ c ∈ s.conns, c.read <+: c.acknowledged
      ∧ (c.ended = true → c.fin = true ∧ c.read = c.acknowledged) := by
  have hinv : ∀ c ∈ s.conns, c.Ordered ∧ c.Honest := by
    refine forall_conns_of_run ?_ ?_ ?_ hclean hrun
    · exact fun src dst now =>
        ⟨Conn.ordered_opened config src dst now, Conn.honest_opened config src dst now⟩
    · exact fun ⟨ho, hh⟩ he => ⟨ho.step he, hh.step ho (by rintro now ⟨⟩) he⟩
    · intro s event flow c e c' hclean hc hall ⟨ho, hh⟩ he
      refine ⟨ho.step he, hh.step ho (fun now hpu => ?_) he⟩
      have hev := hall.pump now hpu
      subst hev
      exact hclean c (mem_of_getElem? hc)
  intro c hc
  obtain ⟨hord, hhon⟩ := hinv c hc
  exact ⟨(prefix_append _ _).trans hord.order, hhon.ended⟩

def narrow : StackConfig Nat where
  tcpEnabled := true
  tcpRecvBufferSize := 2
  tcpSendBufferSize := 2
  listenable := fun _ => true

def oneToNine (segment : Segment) : StackEvent Nat :=
  .frame { src := 1, dst := 9, valid := true, segment := segment } 0

def opensOne : List (StackEvent Nat) :=
  [oneToNine .syn, .poll, .look true, oneToNine .ack, .poll]

def endsCleanly : List (StackEvent Nat) :=
  opensOne ++ [oneToNine (.data [1, 2] 0), .poll, .pump 1, .pollRead 0 1,
    oneToNine (.data [3] 0), oneToNine .fin, .poll, .poll, .pump 2,
    .pollRead 0 8, .pump 3, .pollRead 0 8]

def isReset : List (StackEvent Nat) :=
  opensOne ++ [oneToNine (.data [1, 2] 0), .poll, .pump 1,
    oneToNine (.data [3] 0), oneToNine (.rst true), .poll, .poll, .pump 2,
    .pollRead 0 8, .pollRead 0 8]

theorem stream_ends_at_fin_narrow :
    ∃ s, Machine.run (step narrow) start endsCleanly = some s
      ∧ (s.conns.map fun c => (c.read, c.ended)) = [([1, 2, 3], true)]
      ∧ ∀ c ∈ s.conns, c.read <+: c.acknowledged
        ∧ (c.ended = true → c.fin = true ∧ c.read = c.acknowledged) := by
  have he : (Machine.run (step narrow) start endsCleanly).map
      (fun s => s.conns.map fun c => (c.read, c.ended)) = some [([1, 2, 3], true)] := by
    decide +kernel
  obtain ⟨s, hrun, hread⟩ := map_eq_some_iff.mp he
  exact ⟨s, hrun, hread, stream_ends_at_fin narrow endsCleanly (by decide +kernel) hrun⟩

/-- A connection that was reset, with a byte the socket had acknowledged: the application reads
    the two bytes that fitted into its queue and is then told that the stream is over, though the
    peer has not ended it. -/
theorem reset_reads_as_end :
    (Machine.run (step narrow) start isReset).map
      (fun s => s.conns.map fun c => (c.acknowledged, c.fin, c.read, c.ended))
    = some [([1, 2, 3], false, [1, 2], true)] := by
  decide +kernel

end Stack

end Nexapipe.Netstack
