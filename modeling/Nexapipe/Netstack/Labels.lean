import Nexapipe.Netstack.Endings

/-!
# The connection behind a stream

A stream is announced with the addresses of the segment that opened it, before the stack has seen
the segment. The socket that was opened with it listens on the destination, and the stack gives
the segment to the first socket that does. Where that is another one, opened for a segment the
stack dropped or for one that was sent twice, the stream of the first source carries the bytes of
the second.
-/

namespace Nexapipe.Netstack

open List Option

variable {A : Type}

namespace Conn

variable {c c' : Conn A} {e : FlowEvent A}

structure Labelled (c : Conn A) : Prop where
  endpoint : ∀ s ∈ c.socket, s.endpoint = c.dst
  remote : ∀ s ∈ c.socket, ∀ remote ∈ s.remote, remote = c.src
  idle : ∀ s ∈ c.socket, s.remote = none → s.state = .listen ∨ s.state = .closed
  carried : ∀ conn ∈ c.carried, conn = (c.src, c.dst)

theorem labelled_opened (config : StackConfig A) (src dst : A) (now : Nat) :
    Labelled (opened config src dst now) where
  endpoint := by
    rintro s ⟨⟩
    rfl
  remote := by
    rintro s ⟨⟩ remote ⟨⟩
  idle := by
    rintro s ⟨⟩ -
    exact .inl rfl
  carried := by
    rintro conn ⟨⟩

open Socket

theorem Labelled.of_pumped (h : Labelled c) {s : Socket A} (hs : s ∈ c.socket) {now : Nat}
    (hp : Pumped now c s c') : Labelled c' := by
  obtain ⟨hsrc, hdst⟩ := hp.label
  refine ⟨?_, ?_, ?_, ?_⟩
  · intro s' hs'
    rw [(hp.socket s' hs').2.1, hdst]
    exact h.endpoint s hs
  · intro s' hs'
    rw [(hp.socket s' hs').2.2.1, hsrc]
    exact h.remote s hs
  · intro s' hs' hrem
    obtain ⟨-, -, hsame, hst⟩ := hp.socket s' hs'
    rw [hsame] at hrem
    have hidle := h.idle s hs hrem
    rcases hst with hst | hst
    · rw [hst]
      exact hidle
    rw [hst]
    right
    rcases hidle with hidle | hidle
    · simp [close, hidle]
    · simp [close, hidle]
  · intro conn hco
    rw [hsrc, hdst]
    rcases hp.carried with hsame | ⟨remote, hrem, hmo⟩
    · rw [hsame] at hco
      exact h.carried conn hco
    rw [hmo] at hco
    rcases mem_append.mp hco with hco | hco
    · exact h.carried conn hco
    · rw [mem_singleton.mp hco, h.endpoint s hs, h.remote s hs remote hrem]

theorem Labelled.of_same (h : Labelled c) (hlab : c'.src = c.src ∧ c'.dst = c.dst)
    (hsoc : c'.socket = c.socket) (hcar : c'.carried = c.carried) : Labelled c' := by
  refine ⟨?_, ?_, ?_, ?_⟩
  · rw [hsoc, hlab.2]
    exact h.endpoint
  · rw [hsoc, hlab.1]
    exact h.remote
  · rw [hsoc]
    exact h.idle
  · rw [hcar, hlab.1, hlab.2]
    exact h.carried

variable [DecidableEq A]

theorem Labelled.process (h : Labelled c) {s : Socket A} (hs : s ∈ c.socket) {f : Frame A}
    (hacc : s.accepts f = true) (hsyn : f.segment = .syn → f.src = c.src) :
    Labelled (c.process s f) := by
  refine ⟨?_, ?_, ?_, ?_⟩
  · rintro s' ⟨⟩
    rw [endpoint_process]
    exact h.endpoint s hs
  · rintro s' ⟨⟩ remote hrem
    rcases remote_process s f.src f.segment with ⟨hsame, -⟩ | ⟨hnone, -⟩ | ⟨hopen, hnam⟩
    · rw [hsame] at hrem
      exact h.remote s hs remote hrem
    · simp [hnone] at hrem
    · rw [hnam, mem_some] at hrem
      rw [← hrem]
      exact hsyn hopen
  · rintro s' ⟨⟩ hrem
    rcases remote_process s f.src f.segment with ⟨hsame, hst⟩ | ⟨-, hst⟩ | ⟨-, hnam⟩
    · rw [hsame] at hrem
      have hidle := h.idle s hs hrem
      rcases hst with hst | ⟨hlis, hcl⟩
      · rw [hst]
        exact hidle
      rcases hidle with hidle | hidle
      · exact absurd hidle hlis
      · exact absurd hidle hcl
    · exact hst
    · simp [hnam] at hrem
  · intro conn hconn
    simp only [Conn.process] at hconn
    split at hconn
    · exact h.carried conn hconn
    rename_i hbyt
    rcases mem_append.mp hconn with hconn | hconn
    · exact h.carried conn hconn
    -- A socket that takes bytes has a peer, and the bytes are that peer's.
    rcases hrem : s.remote with _ | remote
    · refine absurd (admitted_eq_nil ?_ f.segment) hbyt
      rcases h.idle s hs hrem with hst | hst
      · simp [receives, hst]
      · simp [receives, hst]
    · obtain ⟨hdst, hsrc⟩ := src_of_accepts hacc hrem
      rw [mem_singleton] at hconn
      rw [hconn, hdst, hsrc, h.endpoint s hs, h.remote s hs remote hrem]
      rfl

theorem Labelled.step (h : Labelled c) (ho : Ordered c)
    (hsyn : ∀ f, e = .segment f → f.segment = .syn → f.src = c.src)
    (hst : c.step e = some c') : Labelled c' := by
  revert hst
  fun_cases Conn.step c e with
  | case1 f =>
    intro hst
    obtain ⟨s, hs, hst⟩ := bind_eq_some_iff.mp hst
    split at hst
    · rename_i hacc
      cases hst
      exact h.process hs hacc (hsyn f rfl)
    · cases hst
  | case2 =>
    intro hst
    obtain ⟨s, hs, rfl⟩ := map_eq_some_iff.mp hst
    refine ⟨?_, ?_, ?_, h.carried⟩
    · rintro s' ⟨⟩
      exact h.endpoint s hs
    · rintro s' ⟨⟩ remote ⟨⟩
    · rintro s' ⟨⟩ -
      exact .inr rfl
  | case3 now =>
    intro hst
    obtain ⟨s, hs, rfl⟩ := map_eq_some_iff.mp hst
    exact h.of_pumped hs (pumped now ho.sound)
  | case4 into =>
    rintro ⟨⟩
    obtain ⟨hlab, hsoc, hcar⟩ := pollRead_keeps c into
    exact h.of_same hlab hsoc hcar
  | case6 | case8 | case10 | case12 | case14 =>
    rintro ⟨⟩
    exact h.of_same ⟨rfl, rfl⟩ rfl rfl
  | _ => rintro ⟨⟩

end Conn

namespace Stack

variable [DecidableEq A] {config : StackConfig A} {s s' : Stack A} {event : StackEvent A}

def RightSocket (s : Stack A) : StackEvent A → Prop
  | .poll => ∀ f ∈ s.device.head?, f.valid = true → f.segment = .syn →
      ∀ flow ∈ s.firstAccepting f, ∀ c ∈ s.conns[flow]?, c.src = f.src
  | _ => True

instance (s : Stack A) (event : StackEvent A) : Decidable (RightSocket s event) :=
  match event with
  | .poll => inferInstanceAs (Decidable (∀ f ∈ s.device.head?, f.valid = true → f.segment = .syn →
      ∀ flow ∈ s.firstAccepting f, ∀ c ∈ s.conns[flow]?, c.src = f.src))
  | .frame _ _ | .pump _ | .expire _ | .look _ | .stop | .pollRead _ _ | .pollWrite _ _
  | .pollShutdown _ | .drop _ | .giveBack _ => inferInstanceAs (Decidable True)

/-- In every run in which each segment that opens a connection is taken by a socket opened for its
    source, a stream announced for a source and a destination carries only bytes of the connection
    between the two. -/
theorem stream_carries_its_connection (config : StackConfig A) (events : List (StackEvent A))
    (hright : Machine.Along (step config) RightSocket start events)
    (hrun : Machine.run (step config) start events = some s) :
    ∀ c ∈ s.conns, ∀ conn ∈ c.carried, conn = (c.src, c.dst) := by
  have hinv : ∀ c ∈ s.conns, c.Ordered ∧ c.Labelled := by
    refine forall_conns_of_run ?_ ?_ ?_ hright hrun
    · exact fun src dst now =>
        ⟨Conn.ordered_opened config src dst now, Conn.labelled_opened config src dst now⟩
    · exact fun ⟨ho, hl⟩ he => ⟨ho.step he, hl.step ho (by rintro f ⟨⟩) he⟩
    · intro s event flow c e c' hright hc hall ⟨ho, hl⟩ he
      refine ⟨ho.step he, hl.step ho (fun f hseg hsyn => ?_) he⟩
      obtain ⟨hev, hh, hval, hfst⟩ := hall.segment f hseg
      subst hev
      exact (hright f hh hval hsyn flow hfst c hc).symm
  intro c hc
  exact (hinv c hc).2.carried

def toNine (src : Nat) (valid : Bool) (segment : Segment) : StackEvent Nat :=
  .frame { src := src, dst := 9, valid := valid, segment := segment } 0

def bothConnect (first : Bool) : List (StackEvent Nat) :=
  [toNine 1 first .syn, toNine 2 true .syn, .poll, .poll, toNine 2 true .ack, .poll,
    toNine 2 true (.data [7] 0), .poll, .pump 1]

theorem stream_carries_its_connection_both :
    ∃ s, Machine.run (step narrow) start (bothConnect true) = some s
      ∧ (s.conns.map fun c => (c.src, c.carried)) = [(1, []), (2, [(2, 9)])]
      ∧ ∀ c ∈ s.conns, ∀ conn ∈ c.carried, conn = (c.src, c.dst) := by
  have hb : (Machine.run (step narrow) start (bothConnect true)).map
      (fun s => s.conns.map fun c => (c.src, c.carried)) = some [(1, []), (2, [(2, 9)])] := by
    decide +kernel
  obtain ⟨s, hrun, hcar⟩ := map_eq_some_iff.mp hb
  exact ⟨s, hrun, hcar,
    stream_carries_its_connection narrow (bothConnect true) (by decide +kernel) hrun⟩

/-- The first segment's checksum does not add up. The socket opened for it keeps listening and
    takes the second application's segment, so the stream announced for 1 carries the bytes of
    2. -/
theorem dropped_segment_mislabels :
    (Machine.run (step narrow) start (bothConnect false)).map
      (fun s => s.conns.map fun c => (c.src, c.carried)) = some [(1, [(2, 9)]), (2, [])] := by
  decide +kernel

end Stack

end Nexapipe.Netstack
