import Nexapipe.Lib.Census
import Nexapipe.Netstack.Stack

/-!
# Sockets and slots

A flow takes one of `MAX_TCP_FLOWS` slots when the acceptor hands its stream to a task, and the
task gives the slot back when it ends. The socket stays in the set for longer than that: until the
next pump round at the least, and up to `TCP_FIN_TIMEOUT` where the peer does not answer the FIN. A
stream the acceptor turns away has a socket without a slot as well.
-/

namespace Nexapipe.Netstack

open List Bool

namespace Stack

variable {A : Type}

def sockets (s : Stack A) : List Nat :=
  s.slots.filterMap id

def servings (s : Stack A) : List Bool :=
  s.conns.map Conn.serving

/-- The flows with a socket that the acceptor has looked at. -/
def lookedAt (s : Stack A) : List Nat :=
  s.sockets.filter fun flow => !decide (flow ∈ s.accept)

/-- Those of them that hold no slot. -/
def leftBehind (s : Stack A) : List Nat :=
  s.lookedAt.filter fun flow => !(s.servings[flow]?).any id

/-- The flows with a socket and no slot. -/
def unserved (s : Stack A) : List Nat :=
  s.sockets.filter fun flow => !(s.servings[flow]?).any id

/-- There are free slots enough for the sockets that have none. -/
def Covered (s : Stack A) : StackEvent A → Prop
  | .look _ => s.leftBehind.length < s.free
  | .stop => s.unserved.length ≤ s.free
  | .frame _ _ => s.accepting = false → s.leftBehind.length < s.free
  | _ => True

instance (s : Stack A) (event : StackEvent A) : Decidable (Covered s event) :=
  match event with
  | .look _ => inferInstanceAs (Decidable (s.leftBehind.length < s.free))
  | .stop => inferInstanceAs (Decidable (s.unserved.length ≤ s.free))
  | .frame _ _ =>
    inferInstanceAs (Decidable (s.accepting = false → s.leftBehind.length < s.free))
  | .poll | .pump _ | .expire _ | .pollRead _ _ | .pollWrite _ _
  | .pollShutdown _ | .drop _ | .giveBack _ => inferInstanceAs (Decidable True)

/-- Every socket has a flow of its own, every permit is free or held, and there are slots enough
    for the sockets of the streams that were looked at. -/
structure Counted (s : Stack A) : Prop where
  nodup : s.sockets.Nodup
  bound : ∀ flow ∈ s.sockets, flow < s.servings.length
  permits : s.free + s.servings.count true = maxTcpFlows
  looked : s.lookedAt.length ≤ maxTcpFlows

section Counting

variable {s s' : Stack A}

theorem length_served_le {l : List Nat} (hl : l.Nodup) :
    (l.filter fun flow => (s.servings[flow]?).any id).length ≤ s.servings.count true := by
  refine Census.length_le_countP (hl.filter _) fun flow hf => ?_
  obtain ⟨-, hser⟩ := mem_filter.mp hf
  rcases hat : s.servings[flow]? with _ | served
  · simp [hat] at hser
  · rw [hat] at hser
    exact ⟨served, rfl, by simpa using hser⟩

theorem Counted.length_lookedAt_le (h : Counted s) :
    s.lookedAt.length ≤ s.leftBehind.length + s.servings.count true := by
  have hsp := length_eq_length_filter_add (l := s.lookedAt)
    fun flow => (s.servings[flow]?).any id
  have hser := length_served_le (s := s) (h.nodup.filter fun flow => !decide (flow ∈ s.accept))
  unfold leftBehind
  unfold lookedAt at hsp ⊢
  omega

theorem Counted.length_sockets_le_unserved (h : Counted s) :
    s.sockets.length ≤ s.unserved.length + s.servings.count true := by
  have hsp := length_eq_length_filter_add (l := s.sockets)
    fun flow => (s.servings[flow]?).any id
  have hser := length_served_le (s := s) h.nodup
  unfold unserved
  omega

theorem Counted.length_sockets_le (h : Counted s) :
    s.sockets.length ≤ maxTcpFlows + s.accept.length := by
  have hsp := length_eq_length_filter_add (l := s.sockets)
    fun flow => decide (flow ∈ s.accept)
  have hw : (s.sockets.filter fun flow => decide (flow ∈ s.accept)).length
      ≤ s.accept.length := by
    refine Census.length_le_of_subset (h.nodup.filter _) fun flow hf => ?_
    simpa using (mem_filter.mp hf).2
  have hl := h.looked
  unfold lookedAt at hl
  omega

theorem length_filter_not_mem_le {l : List Nat} (hl : l.Nodup) (rest : List Nat) (next : Nat) :
    (l.filter fun flow => !decide (flow ∈ rest)).length
      ≤ (l.filter fun flow => !decide (flow ∈ next :: rest)).length + 1 := by
  have hsub : ∀ flow ∈ l.filter fun flow => !decide (flow ∈ rest),
      flow ∈ next :: l.filter fun flow => !decide (flow ∈ next :: rest) := by
    intro flow hf
    obtain ⟨hmem, hr⟩ := mem_filter.mp hf
    by_cases hn : flow = next
    · exact hn ▸ mem_cons_self ..
    · exact mem_cons_of_mem _ (mem_filter.mpr ⟨hmem, by simpa [hn] using hr⟩)
  simpa using Census.length_le_of_subset (hl.filter _) hsub

theorem filterMap_addSlot_perm (flow : Nat) (slots : List (Option Nat)) :
    ((addSlot flow slots).filterMap id).Perm (flow :: slots.filterMap id) := by
  induction slots with
  | nil => rfl
  | cons slot rest ih =>
    rcases slot with _ | other
    · rfl
    · simp only [addSlot, filterMap_cons, id]
      exact (ih.cons other).trans (.swap ..)

theorem filterMap_filter (p : Nat → Bool) (slots : List (Option Nat)) :
    (slots.map fun slot => slot.filter p).filterMap id = (slots.filterMap id).filter p := by
  rw [filterMap_map, filter_filterMap]
  rfl

theorem map_serving_set {conns : List (Conn A)} {flow : Nat} {c c' : Conn A}
    (hc : conns[flow]? = some c) (hser : c'.serving = c.serving) :
    (conns.set flow c').map Conn.serving = conns.map Conn.serving := by
  rw [map_set, hser]
  refine ext_getElem? fun i => ?_
  rw [getElem?_set]
  split
  · rename_i heq
    subst heq
    obtain ⟨hlt, hget⟩ := List.getElem?_eq_some_iff.mp hc
    simp [hlt, hget]
  · rfl

theorem Counted.of_same (h : Counted s) (hsl : s'.slots = s.slots)
    (hacc : s'.accept = s.accept) (hfr : s'.free = s.free)
    (hser : s'.servings = s.servings) : Counted s' where
  nodup := by
    unfold sockets
    rw [hsl]
    exact h.nodup
  bound := by
    unfold sockets
    rw [hsl, hser]
    exact h.bound
  permits := by
    rw [hfr, hser]
    exact h.permits
  looked := by
    unfold lookedAt sockets
    rw [hsl, hacc]
    exact h.looked

theorem Counted.of_filter (h : Counted s) (p : Nat → Bool)
    (hsoc : s'.sockets = s.sockets.filter p) (hacc : s'.accept = s.accept)
    (hfr : s'.free = s.free) (hser : s'.servings = s.servings) : Counted s' where
  nodup := by
    rw [hsoc]
    exact h.nodup.filter _
  bound := by
    rw [hsoc, hser]
    intro flow hfl
    exact h.bound flow (mem_of_mem_filter hfl)
  permits := by
    rw [hfr, hser]
    exact h.permits
  looked := by
    unfold lookedAt
    rw [hsoc, hacc, filter_filter]
    refine Nat.le_trans (List.Sublist.length_le ?_) h.looked
    exact monotone_filter_right _ fun flow hfl => by
      simp only [and_eq_true] at hfl
      exact hfl.1

theorem Counted.of_look (h : Counted s) {next : Nat} {rest : List Nat}
    (hacc : s.accept = next :: rest) (hroom : s.leftBehind.length < s.free)
    (hsl : s'.slots = s.slots) (hacc' : s'.accept = rest)
    (hlen : s'.servings.length = s.servings.length)
    (hper : s'.free + s'.servings.count true = s.free + s.servings.count true) :
    Counted s' where
  nodup := by
    unfold sockets
    rw [hsl]
    exact h.nodup
  bound := by
    unfold sockets
    rw [hsl, hlen]
    exact h.bound
  permits := hper.trans h.permits
  looked := by
    have hmo := length_filter_not_mem_le h.nodup rest next
    have hbef := h.length_lookedAt_le
    have hper := h.permits
    unfold lookedAt at hbef
    rw [hacc] at hbef
    unfold lookedAt
    rw [hacc']
    unfold sockets at hbef hmo ⊢
    rw [hsl]
    omega

end Counting

theorem counted_start : Counted (start : Stack A) where
  nodup := nodup_nil
  bound := by
    intro flow hf
    exact absurd hf (by simp [sockets, start])
  permits := rfl
  looked := Nat.zero_le _

section Run

variable [DecidableEq A] {config : StackConfig A} {s s' : Stack A}

variable {flow : Nat}

open Conn

theorem Counted.onFlow (h : Counted s) {e : FlowEvent A} (hser : e ≠ .serve)
    (hb : e ≠ .giveBack) (hon : s.onFlow flow e = some s') : Counted s' := by
  obtain ⟨c, c', hc, hs, rfl⟩ := onFlow_eq_some hon
  obtain ⟨hes, -⟩ | ⟨heb, -⟩ | ⟨-, -, hsame⟩ := serving_step hs
  · exact absurd hes hser
  · exact absurd heb hb
  · exact h.of_same rfl rfl rfl (map_serving_set hc hsame)

theorem Counted.served (h : Counted s) {e : FlowEvent A} (hs : e ≠ .serve)
    (hb : e ≠ .giveBack) (hser : s.served flow e = some s') : Counted s' := by
  unfold Stack.served at hser
  split at hser
  · exact h.onFlow hs hb hser
  · exact absurd hser (by simp)

theorem Counted.openFlow (h : Counted s) {src dst : A} {now : Nat}
    (hroom : s.accepting = false → s.leftBehind.length < s.free) :
    Counted (s.openFlow config src dst now) := by
  unfold Stack.openFlow
  split
  · exact h
  split
  · exact h
  have hperm := filterMap_addSlot_perm s.conns.length s.slots
  have hboun : ∀ flow ∈ s.slots.filterMap id, flow < s.conns.length := by
    have hboun := h.bound
    unfold servings at hboun
    rwa [length_map] at hboun
  refine ⟨?_, ?_, ?_, ?_⟩
  · refine hperm.nodup_iff.mpr (nodup_cons.mpr ⟨fun hmem => ?_, h.nodup⟩)
    exact Nat.lt_irrefl _ (hboun _ hmem)
  · intro flow hflow
    have hlen : ((s.conns ++ [{ opened config src dst now with
        held := s.accepting }]).map serving).length = s.conns.length + 1 := by simp
    unfold servings
    rw [hlen]
    rcases mem_cons.mp (hperm.mem_iff.mp hflow) with rfl | hflow
    · omega
    · exact Nat.lt_succ_of_lt (hboun flow hflow)
  · -- A flow that was just opened holds no slot.
    have hper := h.permits
    unfold servings at hper ⊢
    simpa [opened] using hper
  · unfold lookedAt sockets
    rw [(hperm.filter _).length_eq]
    have hlook := h.looked
    have hbef := h.length_lookedAt_le
    have hper := h.permits
    unfold lookedAt sockets at hlook hbef
    by_cases hacc : s.accepting = true
    · -- The new socket's stream waits, and no other socket has its number.
      simp only [hacc, if_true]
      rw [filter_cons_of_neg (by simp)]
      refine Nat.le_trans (List.Sublist.length_le ?_) hlook
      exact monotone_filter_right _ fun flow hflow => by
        simp only [mem_append, not_eq_true', decide_eq_false_iff_not] at hflow ⊢
        exact fun hmem => hflow (.inl hmem)
    · have hroom := hroom (by simpa using hacc)
      simp only [hacc, false_eq_true, if_false]
      have hcons := List.Sublist.length_le (filter_sublist
        (p := fun flow => !decide (flow ∈ s.accept)) (l := [s.conns.length]))
      rw [← singleton_append, filter_append, length_append]
      simp only [length_singleton] at hcons
      omega

theorem Counted.stopAccepting (h : Counted s) (hroom : s.unserved.length ≤ s.free) :
    Counted s.stopAccepting := by
  have hser : s.stopAccepting.servings = s.servings := by
    unfold servings Stack.stopAccepting
    refine ext_getElem? fun i => ?_
    simp only [getElem?_map, getElem?_mapIdx, Option.map_map]
    congr 1
    funext c
    simp only [Function.comp]
    split
    · cases hdr : c.step .drop with
      | none => rfl
      | some c' =>
        obtain ⟨he, -⟩ | ⟨he, -⟩ | ⟨-, -, hsame⟩ := serving_step hdr
        · exact absurd he (by simp)
        · exact absurd he (by simp)
        · exact hsame
    · rfl
  refine ⟨h.nodup, ?_, ?_, ?_⟩
  · rw [hser]
    exact h.bound
  · rw [hser]
    exact h.permits
  · -- Every socket has now been looked at.
    have hall := h.length_sockets_le_unserved
    have hper := h.permits
    refine Nat.le_trans (length_filter_le ..) ?_
    change s.sockets.length ≤ _
    omega

theorem Counted.pumpAll (h : Counted s) (now : Nat) : Counted (s.pumpAll now) := by
  have hsoc : (s.pumpAll now).sockets = s.sockets.filter fun flow =>
      ((s.conns.map (turn now))[flow]?).any fun c => c.socket.isSome := filterMap_filter ..
  refine h.of_filter _ hsoc rfl rfl ?_
  unfold servings Stack.pumpAll
  rw [map_map]
  congr 1
  funext c
  simp only [Function.comp, turn]
  cases hp : c.step (.pump now) with
  | none => rfl
  | some c' =>
    obtain ⟨he, -⟩ | ⟨he, -⟩ | ⟨-, -, hsame⟩ := serving_step hp
    · exact absurd he (by simp)
    · exact absurd he (by simp)
    · exact hsame

theorem count_set_true {l : List Bool} {i : Nat} (h : l[i]? = some false) :
    (l.set i true).count true = l.count true + 1 := by
  obtain ⟨hlt, hget⟩ := List.getElem?_eq_some_iff.mp h
  rw [count_set hlt, hget]
  rfl

theorem count_set_false {l : List Bool} {i : Nat} (h : l[i]? = some true) :
    (l.set i false).count true + 1 = l.count true := by
  obtain ⟨hlt, hget⟩ := List.getElem?_eq_some_iff.mp h
  have hpos : 0 < l.count true := count_pos_iff.mpr (hget ▸ getElem_mem hlt)
  rw [count_set hlt, hget]
  simp only [beq_self_eq_true, if_true]
  have hfal : ((false : Bool) == true) = false := rfl
  rw [hfal]
  simp only [false_eq_true, if_false]
  omega

theorem Counted.look (h : Counted s) {mapped : Bool} (hroom : s.leftBehind.length < s.free)
    (hlo : s.look mapped = some s') : Counted s' := by
  unfold Stack.look at hlo
  split at hlo
  · exact absurd hlo (by simp)
  rename_i next rest hacc
  simp only at hlo
  split at hlo
  · rename_i htak
    obtain ⟨c, c', hc, hst, rfl⟩ := onFlow_eq_some hlo
    obtain ⟨-, hbef, haft⟩ | ⟨he, -⟩ | ⟨he, -⟩ := serving_step hst
    · refine h.of_look hacc hroom rfl rfl ?_ ?_
      · simp [servings]
      · have hat : (s.conns.map serving)[next]? = some false := by
          rw [getElem?_map, show s.conns[next]? = some c from hc]
          exact congrArg some hbef
        unfold servings
        rw [map_set, haft, count_set_true hat]
        change s.free - 1 + _ = _
        omega
    · exact absurd he (by simp)
    · exact absurd rfl he
  · obtain ⟨c, c', hc, hst, rfl⟩ := onFlow_eq_some hlo
    obtain ⟨he, -⟩ | ⟨he, -⟩ | ⟨-, -, hsame⟩ := serving_step hst
    · exact absurd he (by simp)
    · exact absurd he (by simp)
    · have hc : s.conns[next]? = some c := hc
      have hser := map_serving_set hc hsame
      exact h.of_look hacc hroom rfl rfl (congrArg length hser)
        (congrArg (s.free + count true ·) hser)

theorem Counted.giveBack (h : Counted s) {s₁ : Stack A}
    (hser : s.served flow .giveBack = some s₁) : Counted { s₁ with free := s₁.free + 1 } := by
  unfold Stack.served at hser
  split at hser
  · obtain ⟨c, c', hc, hst, rfl⟩ := onFlow_eq_some hser
    obtain ⟨he, -⟩ | ⟨-, hbef, haft⟩ | ⟨-, he, -⟩ := serving_step hst
    · exact absurd he (by simp)
    · have hat : (s.conns.map serving)[flow]? = some true := by
        rw [getElem?_map, hc]
        exact congrArg some hbef
      have hcount := count_set_false hat
      refine ⟨h.nodup, ?_, ?_, h.looked⟩
      · intro other hoth
        have hbo := h.bound other hoth
        simpa [servings] using hbo
      · have hper := h.permits
        unfold servings at hper ⊢
        rw [map_set, haft]
        simp only
        omega
    · exact absurd rfl he
  · exact absurd hser (by simp)

theorem Counted.step (h : Counted s) {event : StackEvent A} (hcov : Covered s event)
    (hst : step config s event = some s') : Counted s' := by
  revert hst
  fun_cases Stack.step config s event with
  | case1 f now =>
    rintro ⟨⟩
    simp only [takeFrame]
    split
    · exact (h.openFlow hcov).of_same rfl rfl rfl rfl
    · exact h.of_same rfl rfl rfl rfl
  | case3 f rest =>
    have hre : Counted { s with device := rest } := h.of_same rfl rfl rfl rfl
    unfold dispatch
    split
    · split
      · exact hre.onFlow (by simp) (by simp)
      · rintro ⟨⟩
        exact hre
    · rintro ⟨⟩
      exact hre
  | case4 => exact h.onFlow (by simp) (by simp)
  | case5 now =>
    rintro ⟨⟩
    exact h.pumpAll now
  | case6 => exact h.look hcov
  | case8 =>
    rintro ⟨⟩
    exact h.stopAccepting hcov
  | case10 | case11 | case12 | case13 => exact h.served (by simp) (by simp)
  | case14 =>
    intro hst
    obtain ⟨s₁, hser, rfl⟩ := Option.map_eq_some_iff.mp hst
    exact h.giveBack hser
  | _ => rintro ⟨⟩

end Run

/-- In a run in which the sockets left behind fit into the free slots whenever a stream leaves the
    acceptor's queue, the stack never holds more sockets than there are slots and streams that
    wait. -/
theorem sockets_covered_by_slots [DecidableEq A] {config : StackConfig A}
    {events : List (StackEvent A)} {s : Stack A}
    (hcovered : Machine.Along (step config) Covered start events)
    (hrun : Machine.run (step config) start events = some s) :
    s.sockets.length ≤ maxTcpFlows + s.accept.length := by
  have hc : Counted s := Machine.invariant_along Counted
    (fun _ _ _ h hok hs => h.step hok hs) counted_start hcovered hrun
  exact hc.length_sockets_le

def fourByteStack : StackConfig Nat where
  tcpEnabled := true
  tcpRecvBufferSize := 4
  tcpSendBufferSize := 4
  listenable _ := true

def connects (src : Nat) : List (StackEvent Nat) :=
  [.frame ⟨src, 9, true, .syn⟩ 0, .poll, .look true]

theorem sockets_covered_by_slots_two :
    ∃ s, Machine.run (step fourByteStack) start (connects 1 ++ connects 2 ++ [.pump 0]) = some s
      ∧ s.sockets.length = 2 ∧ s.sockets.length ≤ maxTcpFlows + s.accept.length := by
  have h : (Machine.run (step fourByteStack) start (connects 1 ++ connects 2 ++ [.pump 0])).map
      (fun s => s.sockets.length) = some 2 := by decide +kernel
  obtain ⟨s, hrun, hlen⟩ := Option.map_eq_some_iff.mp h
  exact ⟨s, hrun, hlen, sockets_covered_by_slots (by decide +kernel) hrun⟩

/-- With every slot taken, one flow ends: its FIN is out, its task is gone and has given its slot
    back. Its socket waits for the peer, so the next connection is the 65th socket, and no stream
    waits for the acceptor. -/
theorem slot_freed_before_socket :
    (Machine.run (step fourByteStack) start
        ((List.range maxTcpFlows).flatMap connects
          ++ [.pollShutdown 0, .pump 0, .drop 0, .giveBack 0]
          ++ connects maxTcpFlows ++ [.pump 0])).map
      (fun s => (s.sockets.length, s.accept.length)) = some (maxTcpFlows + 1, 0) := by
  decide +kernel

end Stack

end Nexapipe.Netstack
