import Nexapipe.Lib.Best
import Nexapipe.Lib.Entries
import Nexapipe.Lib.Run
import Nexapipe.Netstack.Flow

/-!
# The user-space stack

The runner of `netstack/runner.rs` with the flows it drives, and the acceptor of `tun_proxy/tcp.rs`
that takes the streams it announces. A frame is looked at before the stack sees it: one that opens
a connection gets a socket of its own, which listens on the address the frame is sent to.
-/

namespace Nexapipe.Netstack

open Option

def maxTcpFlows : Nat := 64

/-- The runner and the acceptor. Flows are numbered in the order in which they were opened, and
    `slots` is the socket set: at each handle the flow whose socket is there. The table of flows
    has the same handles, since flows and sockets come and go together. -/
structure Stack (A : Type) where
  device : List (Frame A)
  slots : List (Option Nat)
  conns : List (Conn A)
  handshaking : Entries (A × A) Nat
  /-- The streams the acceptor has not looked at yet. -/
  accept : List Nat
  /-- Whether the acceptor is still there. -/
  accepting : Bool
  /-- The permits of `tcp_flow_slots` that are not taken. -/
  free : Nat

inductive StackEvent (A : Type) where
  /-- A frame arrives from the device. -/
  | frame (frame : Frame A) (now : Nat)
  /-- The stack takes the first frame of the device's queue. -/
  | poll
  /-- A timer of the stack's closes a socket. -/
  | expire (flow : Nat)
  | pump (now : Nat)
  /-- The acceptor takes the next stream. `mapped` says whether a domain has its address. -/
  | look (mapped : Bool)
  /-- The acceptor stops. -/
  | stop
  | pollRead (flow into : Nat)
  | pollWrite (flow : Nat) (data : List UInt8)
  | pollShutdown (flow : Nat)
  /-- A task drops the stream it served. -/
  | drop (flow : Nat)
  /-- A task ends, and its slot is free again. -/
  | giveBack (flow : Nat)

namespace Stack

variable {A : Type}

def start : Stack A where
  device := []
  slots := []
  conns := []
  handshaking := []
  accept := []
  accepting := true
  free := maxTcpFlows

def addSlot (flow : Nat) : List (Option Nat) → List (Option Nat)
  | [] => [some flow]
  | none :: rest => some flow :: rest
  | some other :: rest => some other :: addSlot flow rest

variable [DecidableEq A]

def openFlow (config : StackConfig A) (s : Stack A) (src dst : A) (now : Nat) : Stack A :=
  if (s.handshaking.lookup (src, dst)).isSome then s
  else if config.listenable dst = false then s
  else
    { s with
      slots := addSlot s.conns.length s.slots
      -- A stream nobody takes any more is dropped with the send that failed.
      conns := s.conns ++ [{ Conn.opened config src dst now with held := s.accepting }]
      handshaking := s.handshaking.set (src, dst) (s.slots.idxOf none)
      accept := if s.accepting then s.accept ++ [s.conns.length] else s.accept }

def takeFrame (config : StackConfig A) (s : Stack A) (f : Frame A) (now : Nat) : Stack A :=
  let s :=
    if config.tcpEnabled && decide (f.segment = .syn) then s.openFlow config f.src f.dst now else s
  { s with device := s.device ++ [f] }

def onFlow (s : Stack A) (flow : Nat) (e : FlowEvent A) : Option (Stack A) :=
  (s.conns[flow]?).bind fun c => (c.step e).map fun c' => { s with conns := s.conns.set flow c' }

def firstAccepting (s : Stack A) (f : Frame A) : Option Nat :=
  (s.slots.filterMap id).find? fun flow => (s.conns[flow]?).any fun c => c.accepts f

/-- The stack takes a frame. One whose checksum does not add up is dropped, and so is one that no
    socket takes. -/
def dispatch (s : Stack A) (f : Frame A) : Option (Stack A) :=
  if f.valid then
    match s.firstAccepting f with
    | some flow => s.onFlow flow (.segment f)
    | none => some s
  else some s

def turn (now : Nat) (c : Conn A) : Conn A :=
  (c.step (.pump now)).getD c

def released (now : Nat) (c : Conn A) : Option (A × A) :=
  if (turn now c).handshake = none then c.handshake else none

def pumpAll (s : Stack A) (now : Nat) : Stack A :=
  let conns := s.conns.map (turn now)
  let keys := s.conns.filterMap (released now)
  { s with
    conns := conns
    slots := s.slots.map fun slot =>
      slot.filter fun flow => (conns[flow]?).any fun c => c.socket.isSome
    handshaking := s.handshaking.filter fun entry => !decide (entry.1 ∈ keys) }

def look (s : Stack A) (mapped : Bool) : Option (Stack A) :=
  match s.accept with
  | [] => none
  | flow :: rest =>
    let s := { s with accept := rest }
    if mapped && decide (0 < s.free) then
      ({ s with free := s.free - 1 }).onFlow flow .serve
    else s.onFlow flow .drop

def stopAccepting (s : Stack A) : Stack A :=
  { s with
    accepting := false
    accept := []
    conns := s.conns.mapIdx fun flow c => if flow ∈ s.accept then (c.step .drop).getD c else c }

def served (s : Stack A) (flow : Nat) (e : FlowEvent A) : Option (Stack A) :=
  if (s.conns[flow]?).any Conn.serving then s.onFlow flow e else none

def step (config : StackConfig A) (s : Stack A) : StackEvent A → Option (Stack A)
  | .frame f now => some (s.takeFrame config f now)
  | .poll =>
    match s.device with
    | [] => none
    | f :: rest => { s with device := rest }.dispatch f
  | .expire flow => s.onFlow flow .expire
  | .pump now => some (s.pumpAll now)
  | .look mapped => if s.accepting then s.look mapped else none
  | .stop => if s.accepting then some s.stopAccepting else none
  | .pollRead flow into => s.served flow (.pollRead into)
  | .pollWrite flow data => s.served flow (.pollWrite data)
  | .pollShutdown flow => s.served flow .pollShutdown
  | .drop flow => s.served flow .drop
  | .giveBack flow => (s.served flow .giveBack).map fun s => { s with free := s.free + 1 }

section

variable {config : StackConfig A} {s s' : Stack A} {event : StackEvent A} {flow : Nat}
  {c' : Conn A}

structure Allows (s : Stack A) (event : StackEvent A) (flow : Nat) (e : FlowEvent A) : Prop where
  pump : ∀ now, e = .pump now → event = .pump now
  segment : ∀ f, e = .segment f → event = .poll ∧ s.device.head? = some f ∧ f.valid = true
    ∧ s.firstAccepting f = some flow

def FromStep (config : StackConfig A) (s : Stack A) (event : StackEvent A) (flow : Nat)
    (c' : Conn A) : Prop :=
  (∃ c, s.conns[flow]? = some c
    ∧ (c' = c ∨ ∃ e, c.step e = some c' ∧ Allows s event flow e))
  ∨ ∃ src dst now, c' = Conn.opened config src dst now
    ∨ (Conn.opened config src dst now).step .drop = some c'

variable {e : FlowEvent A}

theorem onFlow_eq_some (h : s.onFlow flow e = some s') :
    ∃ c c', s.conns[flow]? = some c ∧ c.step e = some c'
      ∧ s' = { s with conns := s.conns.set flow c' } := by
  obtain ⟨c, hc, hs⟩ := bind_eq_some_iff.mp h
  obtain ⟨c', hc', rfl⟩ := map_eq_some_iff.mp hs
  exact ⟨c, c', hc, hc', rfl⟩

theorem conn_of_onFlow {s₀ : Stack A} {other : Nat} (h : s.onFlow other e = some s')
    (hsame : s.conns = s₀.conns) (hall : Allows s₀ event other e)
    (hc : s'.conns[flow]? = some c') : FromStep config s₀ event flow c' := by
  obtain ⟨c, c₁, hc₁, hs, rfl⟩ := onFlow_eq_some h
  rw [hsame] at hc₁ hc
  rw [List.getElem?_set] at hc
  split at hc
  · rename_i heq
    subst heq
    split at hc
    · cases hc
      exact .inl ⟨c, hc₁, .inr ⟨e, hs, hall⟩⟩
    · exact absurd hc (by simp)
  · exact .inl ⟨c', hc, .inl rfl⟩

theorem conn_of_openFlow {src dst : A} {now : Nat}
    (hc : (s.openFlow config src dst now).conns[flow]? = some c') :
    FromStep config s event flow c' := by
  revert hc
  fun_cases openFlow config s src dst now with
  | case3 =>
    intro hc
    rcases Best.getElem?_append_singleton.mp hc with hold | ⟨-, rfl⟩
    · exact .inl ⟨c', hold, .inl rfl⟩
    refine .inr ⟨src, dst, now, ?_⟩
    cases s.accepting
    · exact .inr rfl
    · exact .inl rfl
  | _ => exact fun hc => .inl ⟨c', hc, .inl rfl⟩

theorem allows_of_elsewhere (he : e.elsewhere = true) :
    Allows s event flow e where
  pump now h := by
    rw [h] at he
    exact absurd he (by simp [FlowEvent.elsewhere])
  segment f h := by
    rw [h] at he
    exact absurd he (by simp [FlowEvent.elsewhere])

theorem conn_of_served {other : Nat} (he : e.elsewhere = true) (h : s.served other e = some s')
    (hc : s'.conns[flow]? = some c') : FromStep config s event flow c' := by
  unfold served at h
  split at h
  · exact conn_of_onFlow h rfl (allows_of_elsewhere he) hc
  · exact absurd h (by simp)

theorem conn_of_step (h : step config s event = some s') (hc : s'.conns[flow]? = some c') :
    FromStep config s event flow c' := by
  revert h
  fun_cases step config s event with
  | case1 f now =>
    rintro ⟨⟩
    simp only [takeFrame] at hc
    split at hc
    · exact conn_of_openFlow hc
    · exact .inl ⟨c', hc, .inl rfl⟩
  | case3 f rest hdev =>
    intro h
    unfold dispatch at h
    split at h
    · rename_i hval
      split at h
      · rename_i first hfst
        refine conn_of_onFlow (s := { s with device := rest }) h rfl ⟨?_, ?_⟩ hc
        · rintro now ⟨⟩
        · rintro f' ⟨⟩
          rw [hdev]
          exact ⟨rfl, rfl, hval, hfst⟩
      · cases h
        exact .inl ⟨c', hc, .inl rfl⟩
    · cases h
      exact .inl ⟨c', hc, .inl rfl⟩
  | case4 => exact fun h => conn_of_onFlow h rfl (allows_of_elsewhere rfl) hc
  | case5 now =>
    rintro ⟨⟩
    simp only [pumpAll, List.getElem?_map, map_eq_some_iff] at hc
    obtain ⟨c, hc, rfl⟩ := hc
    refine .inl ⟨c, hc, ?_⟩
    unfold turn
    cases hturn : c.step (.pump now) with
    | none => exact .inl rfl
    | some c' =>
      refine .inr ⟨.pump now, hturn, ?_, ?_⟩
      · rintro now' ⟨⟩
        rfl
      · rintro f ⟨⟩
  | case6 mapped =>
    fun_cases look s mapped with
    | case1 => rintro ⟨⟩
    | _ => exact fun h => conn_of_onFlow h rfl (allows_of_elsewhere rfl) hc
  | case8 =>
    rintro ⟨⟩
    simp only [stopAccepting, List.getElem?_mapIdx, map_eq_some_iff] at hc
    obtain ⟨c, hc, rfl⟩ := hc
    refine .inl ⟨c, hc, ?_⟩
    split
    · cases hdrop : c.step .drop with
      | none => exact .inl rfl
      | some c' => exact .inr ⟨.drop, hdrop, allows_of_elsewhere rfl⟩
    · exact .inl rfl
  | case10 | case11 | case12 | case13 => exact fun h => conn_of_served rfl h hc
  | case14 other =>
    intro h
    obtain ⟨s₁, hser, rfl⟩ := map_eq_some_iff.mp h
    exact conn_of_served rfl hser hc
  | _ => rintro ⟨⟩

/-- What a flow has when it is opened, and no event it takes part in takes from it, every flow of a
    run has. -/
theorem forall_conns_of_run {P : Conn A → Prop} {ok : Stack A → StackEvent A → Prop}
    (ho : ∀ src dst now, P (.opened config src dst now))
    (hdr : ∀ {c c'}, P c → c.step .drop = some c' → P c')
    (hk : ∀ {s event flow c e c'}, ok s event → s.conns[flow]? = some c →
      Allows s event flow e → P c → c.step e = some c' → P c')
    {events : List (StackEvent A)} (hok : Machine.Along (step config) ok start events)
    (hrun : Machine.run (step config) start events = some s) : ∀ c ∈ s.conns, P c := by
  refine Machine.invariant_along (fun s => ∀ c ∈ s.conns, P c) ?_ (by simp [start]) hok hrun
  intro s event s' h hok hs c' hc'
  obtain ⟨flow, hf⟩ := List.mem_iff_getElem?.mp hc'
  rcases conn_of_step hs hf with ⟨c, hc, rfl | ⟨e, he, hall⟩⟩ |
    ⟨src, dst, now, rfl | hd⟩
  · exact h c' (List.mem_of_getElem? hc)
  · exact hk hok hc hall (h c (List.mem_of_getElem? hc)) he
  · exact ho src dst now
  · exact hdr (ho src dst now) hd

end

end Stack

end Nexapipe.Netstack
