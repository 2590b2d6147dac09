import Nexapipe.Lib.Ledger
import Nexapipe.Lib.Run
import Nexapipe.Lib.Usize

/-!
# The bytes the process may hold at once

One budget covers the request bodies and the buffers of the copied streams. What
holds bytes is a reservation; it grows as a body arrives, shrinks as chunks decode,
and gives back what it still holds when it is dropped. The counter of the budget is
one machine word that every task updates in a single step, so an interleaving is a
list of such updates.

A reservation is made only if the new total is within the ceiling, and that total
is added up with saturation. A ceiling below the largest machine value refuses
every sum that would saturate. The largest value itself does not: at that ceiling a
sum that saturates is granted, the counter stops short of what is held, and the
releases that follow bring it further down than they should. The counter is right
in every run without such a sum.
-/

namespace Nexapipe

open Option Ledger

/-! ### The budget -/

structure ByteBudget where
  held : Nat
  max : Nat
  max_le : max ≤ Usize.max

def ByteBudget.new (max : Nat) (h : max ≤ Usize.max) : ByteBudget :=
  { held := 0, max := max, max_le := h }

/-- Adds to the total, or returns the total as it was before the attempt. -/
def ByteBudget.tryReserve (budget : ByteBudget) (bytes : Nat) : ByteBudget × Except Nat Unit :=
  let next := Usize.saturatingAdd budget.held bytes
  if next ≤ budget.max then ({ budget with held := next }, .ok ()) else (budget, .error budget.held)

def ByteBudget.release (budget : ByteBudget) (bytes : Nat) : ByteBudget :=
  { budget with held := budget.held - bytes }

/-! ### Reservations -/

structure ByteReservation where
  bytes : Nat

namespace ByteReservation

def bodyMessage (held max bytes : Nat) : String :=
  s!"the server is holding {held} of {max} bytes of request bodies, so this {bytes} byte " ++
    "body does not fit"

def bufferMessage (held max bytes : Nat) : String :=
  s!"the server is holding {held} of {max} bytes, so this {bytes} byte copy buffer does not fit"

def takeWith (message : Nat → Nat → Nat → String) (budget : ByteBudget) (bytes : Nat) :
    ByteBudget × Except String ByteReservation :=
  match budget.tryReserve bytes with
  | (budget, .ok ()) => (budget, .ok { bytes := bytes })
  | (budget, .error held) => (budget, .error (message held budget.max bytes))

def takeFrom (budget : ByteBudget) (bytes : Nat) : ByteBudget × Except String ByteReservation :=
  takeWith bodyMessage budget bytes

def takeBuffers (budget : ByteBudget) (bytes : Nat) : ByteBudget × Except String ByteReservation :=
  takeWith bufferMessage budget bytes

def grow (r : ByteReservation) (budget : ByteBudget) (bytes : Nat) :
    ByteBudget × ByteReservation × Except String Unit :=
  match budget.tryReserve bytes with
  | (budget, .ok ()) => (budget, { bytes := Usize.add r.bytes bytes }, .ok ())
  | (budget, .error held) => (budget, r, .error (bodyMessage held budget.max bytes))

def shrink (r : ByteReservation) (budget : ByteBudget) (bytes : Nat) :
    ByteBudget × ByteReservation :=
  let released := min bytes r.bytes
  (budget.release released, { bytes := r.bytes - released })

def drop (r : ByteReservation) (budget : ByteBudget) : ByteBudget :=
  if 0 < r.bytes then budget.release r.bytes else budget

end ByteReservation

/-! ### The flows that hold buffers -/

def copyBufSize : Nat := 16 * 1024

def frameHeaderLen : Nat := 2

def maxUdpPayload : Nat := 65507

/-- What one datagram flow holds: what it receives into, what it reads into, the
    frame it writes, and the frame that has not arrived whole. -/
def udpFlowBufferBytes : Nat :=
  64 * 1024 + 4 * 1024 + (frameHeaderLen + maxUdpPayload) + (frameHeaderLen + 65535 + 4 * 1024)

structure Held where
  flow : Option Nat
  reservation : ByteReservation

def Held.bytes (h : Held) : Nat :=
  h.reservation.bytes

structure BudgetState where
  budget : ByteBudget
  held : List Held

def BudgetState.start (max : Nat) (h : max ≤ Usize.max) : BudgetState :=
  { budget := .new max h, held := [] }

/-- What the flows do to the budget. Reservations are addressed by their place
    among those alive. A copied stream takes its two buffers one after the other,
    and may end between the two. -/
inductive BudgetEvent where
  | takeFrom (bytes : Nat)
  | takeBuffers (bytes : Nat)
  | copyFirst (flow : Nat)
  | copySecond (flow : Nat)
  | udpTake (flow : Nat)
  | grow (i bytes : Nat)
  | shrink (i bytes : Nat)
  | drop (i : Nat)
  | endFlow (flow : Nat)

namespace BudgetState

def took (s : BudgetState) (flow : Option Nat)
    (answer : ByteBudget × Except String ByteReservation) : BudgetState :=
  match answer with
  | (budget, .ok r) => { budget := budget, held := { flow := flow, reservation := r } :: s.held }
  | (budget, .error _) => { s with budget := budget }

def flowBytes (s : BudgetState) (flow : Nat) : Nat :=
  Ledger.total Held.bytes (s.held.filter fun h => h.flow = some flow)

def endFlow (s : BudgetState) (flow : Nat) : BudgetState :=
  { budget := (s.held.filter fun h => h.flow = some flow).foldl
      (fun budget h => h.reservation.drop budget) s.budget
    held := s.held.filter fun h => !(h.flow = some flow) }

def copySecond (s : BudgetState) (flow : Nat) : BudgetState :=
  match ByteReservation.takeBuffers s.budget copyBufSize with
  | (budget, .ok r) => s.took (some flow) (budget, .ok r)
  | (budget, .error e) => (s.took (some flow) (budget, .error e)).endFlow flow

def step (s : BudgetState) : BudgetEvent → Option BudgetState
  | .takeFrom bytes => some (s.took none (ByteReservation.takeFrom s.budget bytes))
  | .takeBuffers bytes => some (s.took none (ByteReservation.takeBuffers s.budget bytes))
  | .copyFirst flow => some (s.took (some flow) (ByteReservation.takeBuffers s.budget copyBufSize))
  | .copySecond flow => some (s.copySecond flow)
  | .udpTake flow =>
    some (s.took (some flow) (ByteReservation.takeBuffers s.budget udpFlowBufferBytes))
  | .grow i bytes => s.held[i]?.map fun h =>
    let answer := h.reservation.grow s.budget bytes
    { budget := answer.1, held := s.held.set i { h with reservation := answer.2.1 } }
  | .shrink i bytes => s.held[i]?.map fun h =>
    let answer := h.reservation.shrink s.budget bytes
    { budget := answer.1, held := s.held.set i { h with reservation := answer.2 } }
  | .drop i => s.held[i]?.map fun h =>
    { budget := h.reservation.drop s.budget, held := s.held.eraseIdx i }
  | .endFlow flow => some (s.endFlow flow)

end BudgetState

def BudgetEvent.asks : BudgetEvent → Nat
  | .takeFrom bytes => bytes
  | .takeBuffers bytes => bytes
  | .copyFirst _ => copyBufSize
  | .copySecond _ => copyBufSize
  | .udpTake _ => udpFlowBufferBytes
  | .grow _ bytes => bytes
  | _ => 0

/-- The sum a step asks for is a machine value, or the ceiling is below the largest
    one and refuses it anyway. -/
def Unsaturated (s : BudgetState) (e : BudgetEvent) : Prop :=
  s.budget.max < Usize.max ∨ s.budget.held + e.asks ≤ Usize.max

instance (s : BudgetState) (e : BudgetEvent) : Decidable (Unsaturated s e) :=
  inferInstanceAs (Decidable (_ ∨ _))

/-- The counter is what the reservations hold, within the ceiling; a refusal moves
    nothing; and a flow that is over has given back what it held. -/
structure Conserved (ceiling : Nat) (s : BudgetState) : Prop where
  held_eq : s.budget.held = Ledger.total Held.bytes s.held
  held_le : s.budget.held ≤ ceiling
  take_refused : ∀ bytes e, (ByteReservation.takeFrom s.budget bytes).2 = .error e →
    (ByteReservation.takeFrom s.budget bytes).1 = s.budget
  buffers_refused : ∀ bytes e, (ByteReservation.takeBuffers s.budget bytes).2 = .error e →
    (ByteReservation.takeBuffers s.budget bytes).1 = s.budget
  grow_refused : ∀ (r : ByteReservation) bytes e, (r.grow s.budget bytes).2.2 = .error e →
    (r.grow s.budget bytes).1 = s.budget ∧ (r.grow s.budget bytes).2.1 = r
  all_dropped : s.held = [] → s.budget.held = 0
  flow_over : ∀ flow, (s.endFlow flow).budget.held + s.flowBytes flow = s.budget.held ∧
    (s.endFlow flow).flowBytes flow = 0

/-! ### What one update does -/

open Usize

theorem ByteBudget.tryReserve_cases (budget : ByteBudget) (bytes : Nat)
    (h : budget.max < Usize.max ∨ budget.held + bytes ≤ Usize.max) :
    budget.held + bytes ≤ budget.max ∧
        budget.tryReserve bytes = ({ budget with held := budget.held + bytes }, .ok ()) ∨
      budget.tryReserve bytes = (budget, .error budget.held) := by
  unfold ByteBudget.tryReserve
  by_cases hf : saturatingAdd budget.held bytes ≤ budget.max
  · have hsum : saturatingAdd budget.held bytes = budget.held + bytes := by
      rcases h with hmax | hsum
      · exact saturatingAdd_of_lt (by omega)
      · exact saturatingAdd_of_le hsum
    left
    rw [if_pos hf, hsum]
    exact ⟨hsum ▸ hf, rfl⟩
  · right
    rw [if_neg hf]

namespace ByteReservation

theorem takeWith_cases (message : Nat → Nat → Nat → String) (budget : ByteBudget) (bytes : Nat)
    (h : budget.max < Usize.max ∨ budget.held + bytes ≤ Usize.max) :
    budget.held + bytes ≤ budget.max ∧ takeWith message budget bytes =
        ({ budget with held := budget.held + bytes }, .ok { bytes := bytes }) ∨
      takeWith message budget bytes = (budget, .error (message budget.held budget.max bytes)) := by
  unfold takeWith
  rcases budget.tryReserve_cases bytes h with ⟨hf, hg⟩ | href
  · left
    rw [hg]
    exact ⟨hf, rfl⟩
  · right
    rw [href]

variable {budget : ByteBudget}

theorem takeWith_refused {message : Nat → Nat → Nat → String} {bytes : Nat} {e : String}
    (h : (takeWith message budget bytes).2 = .error e) :
    (takeWith message budget bytes).1 = budget := by
  unfold takeWith ByteBudget.tryReserve at h ⊢
  by_cases hf : saturatingAdd budget.held bytes ≤ budget.max
  · simp [if_pos hf] at h
  · simp only [if_neg hf]

theorem grow_refused {r : ByteReservation} {bytes : Nat} {e : String}
    (h : (r.grow budget bytes).2.2 = .error e) :
    (r.grow budget bytes).1 = budget ∧ (r.grow budget bytes).2.1 = r := by
  unfold grow ByteBudget.tryReserve at h ⊢
  by_cases hf : saturatingAdd budget.held bytes ≤ budget.max
  · simp [if_pos hf] at h
  · simp [if_neg hf]

theorem drop_eq (r : ByteReservation) (budget : ByteBudget) :
    r.drop budget = budget.release r.bytes := by
  unfold drop
  by_cases hpos : 0 < r.bytes
  · rw [if_pos hpos]
  have hz : r.bytes = 0 := by omega
  simp [ByteBudget.release, hz]

end ByteReservation

theorem foldl_drop (held : List Held) (budget : ByteBudget) :
    held.foldl (fun budget h => h.reservation.drop budget) budget =
      budget.release (Ledger.total Held.bytes held) := by
  induction held generalizing budget with
  | nil => rfl
  | cons h rest ih =>
    have hs : h.reservation.drop budget = budget.release h.bytes :=
      h.reservation.drop_eq budget
    rw [List.foldl_cons, ih, hs, total_cons]
    simp only [ByteBudget.release, Nat.sub_sub]

/-! ### The counter follows the reservations -/

structure Balanced (ceiling : Nat) (s : BudgetState) : Prop where
  held_eq : s.budget.held = Ledger.total Held.bytes s.held
  held_le : s.budget.held ≤ ceiling
  max_eq : s.budget.max = ceiling

section

variable {ceiling : Nat} {s : BudgetState}

open ByteReservation

theorem Balanced.took (h : Balanced ceiling s) (flow : Option Nat)
    {message : Nat → Nat → Nat → String} {bytes : Nat}
    (hsum : s.budget.max < Usize.max ∨ s.budget.held + bytes ≤ Usize.max) :
    Balanced ceiling (s.took flow (ByteReservation.takeWith message s.budget bytes)) := by
  rcases takeWith_cases message s.budget bytes hsum with
    ⟨hf, hg⟩ | href
  · rw [hg]
    refine ⟨?_, ?_, h.max_eq⟩
    · have hh := h.held_eq
      simp only [BudgetState.took, total_cons, Held.bytes]
      omega
    · have hmax := h.max_eq
      simp only [BudgetState.took]
      omega
  · rw [href]
    exact ⟨h.held_eq, h.held_le, h.max_eq⟩

theorem BudgetState.flowBytes_add (s : BudgetState) (flow : Nat) :
    Ledger.total Held.bytes (s.endFlow flow).held + s.flowBytes flow =
      Ledger.total Held.bytes s.held :=
  total_filter_not Held.bytes (fun h => decide (h.flow = some flow)) s.held

theorem Balanced.endFlow_held (h : Balanced ceiling s) (flow : Nat) :
    (s.endFlow flow).budget.held + s.flowBytes flow = s.budget.held := by
  have hsp := s.flowBytes_add flow
  have hh := h.held_eq
  have hbud : (s.endFlow flow).budget.held = s.budget.held - s.flowBytes flow := by
    simp only [BudgetState.endFlow, foldl_drop]
    rfl
  omega

theorem Balanced.endFlow (h : Balanced ceiling s) (flow : Nat) :
    Balanced ceiling (s.endFlow flow) := by
  have hsp := s.flowBytes_add flow
  have hbud := h.endFlow_held flow
  have hh := h.held_eq
  have hle := h.held_le
  refine ⟨by omega, by omega, ?_⟩
  simp only [BudgetState.endFlow, foldl_drop]
  exact h.max_eq

theorem Balanced.copySecond (h : Balanced ceiling s) (flow : Nat)
    (hsum : s.budget.max < Usize.max ∨ s.budget.held + copyBufSize ≤ Usize.max) :
    Balanced ceiling (s.copySecond flow) := by
  have ht : Balanced ceiling
      (s.took (some flow) (takeBuffers s.budget copyBufSize)) :=
    h.took (some flow) hsum
  unfold BudgetState.copySecond
  cases hans : takeBuffers s.budget copyBufSize with
  | mk budget answer =>
    rw [hans] at ht
    rcases answer with e | r
    · -- The second buffer does not fit, so the stream is over before it began.
      exact ht.endFlow flow
    · exact ht

variable {x : Held}

theorem Balanced.grow (h : Balanced ceiling s) {i bytes : Nat} (hx : s.held[i]? = some x)
    (hsum : s.budget.max < Usize.max ∨ s.budget.held + bytes ≤ Usize.max) :
    Balanced ceiling
      { budget := (x.reservation.grow s.budget bytes).1
        held := s.held.set i
          { x with reservation := (x.reservation.grow s.budget bytes).2.1 } } := by
  have hhe := h.held_eq
  have hmax := h.max_eq
  have hle : x.bytes ≤ Ledger.total Held.bytes s.held := le_total Held.bytes hx
  unfold ByteReservation.grow
  rcases s.budget.tryReserve_cases bytes hsum with ⟨hfi, hgr⟩ | href
  · rw [hgr]
    have hadd : add x.reservation.bytes bytes = x.bytes + bytes :=
      add_of_le (by simp only [Held.bytes] at hle; omega)
    have hset := total_set Held.bytes
      { x with reservation := { bytes := add x.reservation.bytes bytes } } hx
    have hnew : Held.bytes { x with reservation :=
        { bytes := add x.reservation.bytes bytes } } = x.bytes + bytes := hadd
    refine ⟨?_, ?_, hmax⟩
    · simp only
      omega
    · simp only
      omega
  · rw [href]
    have hset : total Held.bytes (s.held.set i x) + x.bytes = _ :=
      total_set Held.bytes x hx
    refine ⟨?_, h.held_le, hmax⟩
    change s.budget.held = total Held.bytes (s.held.set i x)
    omega

theorem Balanced.shrink (h : Balanced ceiling s) {i : Nat} (bytes : Nat)
    (hx : s.held[i]? = some x) :
    Balanced ceiling
      { budget := (x.reservation.shrink s.budget bytes).1
        held := s.held.set i
          { x with reservation := (x.reservation.shrink s.budget bytes).2 } } := by
  have hhe := h.held_eq
  have hce := h.held_le
  have hset := total_set Held.bytes
    { x with reservation := (x.reservation.shrink s.budget bytes).2 } hx
  have hnew : Held.bytes { x with reservation := (x.reservation.shrink s.budget bytes).2 } =
      x.bytes - min bytes x.bytes := rfl
  have hbud : (x.reservation.shrink s.budget bytes).1.held =
      s.budget.held - min bytes x.bytes := rfl
  refine ⟨?_, ?_, h.max_eq⟩
  · simp only
    omega
  · simp only
    omega

theorem Balanced.drop (h : Balanced ceiling s) {i : Nat} (hx : s.held[i]? = some x) :
    Balanced ceiling
      { budget := x.reservation.drop s.budget, held := s.held.eraseIdx i } := by
  have hh := h.held_eq
  have hc := h.held_le
  have he := total_eraseIdx Held.bytes hx
  have hbud : (x.reservation.drop s.budget).held = s.budget.held - x.bytes := by
    rw [drop_eq]
    rfl
  refine ⟨?_, ?_, ?_⟩
  · simp only
    omega
  · simp only
    omega
  · rw [drop_eq]
    exact h.max_eq

theorem Balanced.step {s' : BudgetState} {e : BudgetEvent} (h : Balanced ceiling s)
    (hsum : Unsaturated s e) (hst : s.step e = some s') : Balanced ceiling s' := by
  cases e with
  | takeFrom | takeBuffers =>
    cases hst
    exact h.took none hsum
  | copyFirst flow =>
    rw [← some_inj.mp hst]
    have hask : s.budget.max < max ∨ s.budget.held + copyBufSize ≤ max := hsum
    exact h.took (some flow) hask
  | copySecond flow =>
    rw [← some_inj.mp hst]
    have hask : s.budget.max < max ∨ s.budget.held + copyBufSize ≤ max := hsum
    exact h.copySecond flow hask
  | udpTake flow =>
    rw [← some_inj.mp hst]
    have hask : s.budget.max < max ∨ s.budget.held + udpFlowBufferBytes ≤ max := hsum
    exact h.took (some flow) hask
  | grow i bytes =>
    rcases map_eq_some_iff.mp hst with ⟨x, hx, rfl⟩
    exact h.grow hx hsum
  | shrink i bytes =>
    rcases map_eq_some_iff.mp hst with ⟨x, hx, rfl⟩
    exact h.shrink bytes hx
  | drop i =>
    rcases map_eq_some_iff.mp hst with ⟨x, hx, rfl⟩
    exact h.drop hx
  | endFlow flow =>
    cases hst
    exact h.endFlow flow

theorem Balanced.conserved (h : Balanced ceiling s) : Conserved ceiling s := by
  refine
    { held_eq := h.held_eq
      held_le := h.held_le
      take_refused := fun _ _ => takeWith_refused
      buffers_refused := fun _ _ => takeWith_refused
      grow_refused := fun _ _ _ => grow_refused
      all_dropped := ?_
      flow_over := ?_ }
  · intro hno
    rw [h.held_eq, hno]
    rfl
  · intro flow
    refine ⟨h.endFlow_held flow, ?_⟩
    -- What is left is what the flow does not own.
    have hno : (s.endFlow flow).held.filter (fun x => x.flow = some flow) = [] := by
      simp [BudgetState.endFlow]
    unfold BudgetState.flowBytes
    rw [hno]
    rfl

/-- However reservations are taken, grown, shrunk and dropped, a budget none of
    whose sums saturates holds exactly the bytes of the reservations that are
    alive. -/
theorem byte_budget_conserved {hmax : ceiling ≤ Usize.max} {events : List BudgetEvent}
    (hsums : Machine.Along BudgetState.step Unsaturated (.start ceiling hmax) events)
    (hrun : Machine.run BudgetState.step (.start ceiling hmax) events = some s) :
    Conserved ceiling s :=
  (Machine.invariant_along (Balanced ceiling) (fun _ _ _ h hsum hstep => h.step hsum hstep)
    { held_eq := rfl, held_le := Nat.zero_le _, max_eq := rfl } hsums hrun).conserved

end

/-- A body grows and shrinks, a stream takes both its buffers, another is refused
    its second one, a datagram flow is refused, and the first stream is cut. -/
def mixedLoad : List BudgetEvent :=
  [.takeFrom 0, .grow 0 20000, .shrink 0 5000, .copyFirst 1, .copySecond 1, .copyFirst 2,
    .copySecond 2, .udpTake 3, .endFlow 1]

theorem byte_budget_conserved_mixed :
    ∃ s, Machine.run BudgetState.step (.start 70000 (by decide)) mixedLoad = some s ∧
      s.budget.held = 15000 ∧ Conserved 70000 s := by
  have hv : (Machine.run BudgetState.step (.start 70000 (by decide)) mixedLoad).map
      (fun s => s.budget.held) = some 15000 := by decide
  rcases map_eq_some_iff.mp hv with ⟨s, hrun, hh⟩
  exact ⟨s, hrun, hh, byte_budget_conserved (by decide) hrun⟩

/-- At the largest ceiling a body of that size and one more byte both fit, and the
    counter stays where the first one left it. -/
theorem saturated_budget :
    ∃ s, Machine.run BudgetState.step (.start Usize.max (Nat.le_refl _))
        [.takeFrom Usize.max, .takeFrom 1] = some s ∧
      s.budget.held = Usize.max ∧ Ledger.total Held.bytes s.held = Usize.max + 1 ∧
      ¬Conserved Usize.max s := by
  have hv : (Machine.run BudgetState.step (.start max (Nat.le_refl _))
      [.takeFrom max, .takeFrom 1]).map
      (fun s => (s.budget.held, total Held.bytes s.held)) =
      some (max, max + 1) := by decide
  rcases map_eq_some_iff.mp hv with ⟨s, hrun, hp⟩
  rcases Prod.mk.inj hp with ⟨hh, htot⟩
  refine ⟨s, hrun, hh, htot, ?_⟩
  intro h
  have heq := h.held_eq
  omega

end Nexapipe
