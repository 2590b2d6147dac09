import Nexapipe.Client.ConnectionPool

/-!
# Borrows

Flows ride the connections of a pool, and each holds a guard that gives its borrow back. A flow
that finds a pooled connection borrows it under the lock of the pool. One that shared a dial is
given the connection by that dial and borrows it without the lock, however much later: it looks
whether the connection is saturated, and then raises the count if there is room.

A cleanup holds the lock. It takes the connections that are idle and not borrowed off the list, and
closes them afterwards. `guards` are the borrows that are alive, and `late` those of them that were
taken in between; neither is in the code.
-/

namespace Nexapipe.Borrows

open List ConnectionPool

/-- A connection, with the callers of a shared dial that have seen that it is not saturated. It
    is `doomed` when it was found idle and is not closed yet. -/
structure Lent where
  protocol : Protocol
  pooled : Bool
  borrows : Nat
  saturated : Bool
  closed : Bool
  doomed : Bool
  entering : Nat
  guards : Nat
  late : Nat

def Lent.new (protocol : Protocol) : Lent :=
  ⟨protocol, true, 0, false, false, false, 0, 0, 0⟩

def Lent.lend (c : Lent) : Lent :=
  if maxFlowsPerConnection ≤ c.borrows then c
  else { c with borrows := c.borrows + 1, guards := c.guards + 1 }

def Lent.tryBorrow (c : Lent) : Lent :=
  if c.saturated then c else c.lend

def Lent.enter (c : Lent) : Lent :=
  if c.saturated then c else { c with entering := c.entering + 1 }

def Lent.borrow (c : Lent) : Lent :=
  { c.lend with entering := c.entering - 1, late := c.late + (c.lend.guards - c.guards) }

def Lent.release (c : Lent) : Lent :=
  { c with borrows := c.borrows - 1, guards := c.guards - 1, late := c.late - 1 }

def Lent.check (live idle : Bool) (c : Lent) : Lent :=
  if !live then { c with pooled := false, closed := true }
  else if idle ∧ c.borrows = 0 then { c with pooled := false, doomed := true, late := 0 }
  else c

inductive Event where
  | dialled (protocol : Protocol)
  | borrowPooled (i : ConnId)
  | enter (i : ConnId)
  | borrow (i : ConnId)
  | release (i : ConnId)
  | saturate (i : ConnId)
  | check (i : ConnId) (live idle : Bool)
  | close (i : ConnId)

def on (s : List Lent) (i : ConnId) (ready : Lent → Bool) (f : Lent → Lent) :
    Option (List Lent) :=
  if (s[i]?).any ready then some (s.modify i f) else none

def connectionsFor (protocol : Protocol) (s : List Lent) : Nat :=
  s.countP fun c => c.pooled && c.protocol = protocol

def step (s : List Lent) : Event → Option (List Lent)
  | .dialled protocol =>
    -- The lock is the cleanup's until it has closed what it found.
    if s.any Lent.doomed then none
    else if connectionsFor protocol s < maxConnectionsPerProtocol then some (s ++ [.new protocol])
    else some s
  | .borrowPooled i =>
    if s.any Lent.doomed then none else on s i Lent.pooled Lent.tryBorrow
  | .enter i => on s i (fun _ => true) Lent.enter
  | .borrow i => on s i (fun c => 0 < c.entering) Lent.borrow
  | .release i => on s i (fun c => 0 < c.guards) Lent.release
  | .saturate i => on s i (fun c => 0 < c.guards) fun c => { c with saturated := true }
  | .check i live idle => on s i Lent.pooled (Lent.check live idle)
  | .close i => on s i Lent.doomed fun c => { c with closed := true, doomed := false }

def Lent.Sound (c : Lent) : Prop :=
  c.borrows = c.guards ∧ c.borrows ≤ maxFlowsPerConnection ∧
    (c.doomed = true → c.pooled = false ∧ c.guards = c.late)

structure Lent.Keeps (c d : Lent) : Prop where
  sound : c.Sound → d.Sound
  pooled : d.pooled = true → c.pooled = true
  protocol : d.protocol = c.protocol
  saturated : c.saturated = true → d.saturated = true

namespace Lent

theorem keeps_self (c : Lent) : c.Keeps c := ⟨id, id, rfl, id⟩

theorem keeps_tryBorrow (c : Lent) (hp : c.pooled = true) : c.Keeps c.tryBorrow := by
  unfold tryBorrow lend
  split
  · exact c.keeps_self
  split
  · exact c.keeps_self
  · rename_i hroom
    refine ⟨?_, id, rfl, id⟩
    rintro ⟨heq, -, hdoom⟩
    refine ⟨congrArg (· + 1) heq, Nat.lt_of_not_le hroom, fun hd => ?_⟩
    -- What is pooled is not doomed.
    rw [(hdoom hd).1] at hp
    cases hp

theorem keeps_borrow (c : Lent) : c.Keeps c.borrow := by
  unfold borrow lend
  split
  · refine ⟨?_, id, rfl, id⟩
    rw [Nat.sub_self, Nat.add_zero]
    exact id
  · rename_i hroom
    refine ⟨?_, id, rfl, id⟩
    rintro ⟨heq, -, hdoom⟩
    refine ⟨congrArg (· + 1) heq, Nat.lt_of_not_le hroom, fun hd => ⟨(hdoom hd).1, ?_⟩⟩
    have hlate := (hdoom hd).2
    dsimp only
    omega

theorem keeps_release (c : Lent) : c.Keeps c.release := by
  refine ⟨?_, id, rfl, id⟩
  rintro ⟨heq, hle, hdoom⟩
  exact ⟨congrArg (· - 1) heq, (Nat.sub_le _ _).trans hle,
    fun hd => ⟨(hdoom hd).1, congrArg (· - 1) (hdoom hd).2⟩⟩

theorem keeps_check (c : Lent) (live idle : Bool) : c.Keeps (c.check live idle) := by
  unfold check
  split
  · exact ⟨fun h => ⟨h.1, h.2.1, fun hd => ⟨rfl, (h.2.2 hd).2⟩⟩, nofun, rfl, id⟩
  split
  · rename_i hidle
    exact ⟨fun h => ⟨h.1, h.2.1, fun _ => ⟨rfl, h.1.symm.trans hidle.2⟩⟩, nofun, rfl, id⟩
  · exact c.keeps_self

theorem keeps_enter (c : Lent) : c.Keeps c.enter := by
  unfold enter
  split <;> exact ⟨id, id, rfl, id⟩

end Lent

variable {s s' : List Lent} {e : Event} {i : ConnId} {ready : Lent → Bool} {f : Lent → Lent}

theorem of_on (h : on s i ready f = some s') (hf : ∀ c, ready c = true → c.Keeps (f c)) :
    ∃ i f, s' = s.modify i f ∧ ∀ c, s[i]? = some c → c.Keeps (f c) := by
  unfold on at h
  split at h
  next hread =>
    cases h
    refine ⟨i, f, rfl, fun c hc => hf c ?_⟩
    simpa [hc] using hread
  · cases h

theorem getElem?_of_on (h : on s i ready f = some s') : s'[i]? = (s[i]?).map f := by
  unfold on at h
  split at h
  · cases h
    simp
  · cases h

theorem of_step (h : step s e = some s') :
    (∃ protocol, s' = s ++ [.new protocol] ∧
      connectionsFor protocol s < maxConnectionsPerProtocol) ∨
    ∃ i f, s' = s.modify i f ∧ ∀ c, s[i]? = some c → c.Keeps (f c) := by
  revert h
  fun_cases step s e with
  | case1 | case4 => rintro ⟨⟩
  | case2 protocol _ hroom =>
    rintro ⟨⟩
    exact .inl ⟨protocol, rfl, hroom⟩
  | case3 =>
    rintro ⟨⟩
    exact .inr ⟨s.length, id, by simp, fun c _ => c.keeps_self⟩
  | case5 => exact fun h => .inr (of_on h Lent.keeps_tryBorrow)
  | case7 => exact fun h => .inr (of_on h fun c _ => c.keeps_borrow)
  | case8 => exact fun h => .inr (of_on h fun c _ => c.keeps_release)
  | case10 => exact fun h => .inr (of_on h fun c _ => c.keeps_check _ _)
  | case6 => exact fun h => .inr (of_on h fun c _ => c.keeps_enter)
  | case9 => exact fun h => .inr (of_on h fun c _ => ⟨id, id, rfl, fun _ => rfl⟩)
  | case11 =>
    exact fun h => .inr (of_on h fun c _ => ⟨fun hc => ⟨hc.1, hc.2.1, nofun⟩, id, rfl, id⟩)

structure Sound (s : List Lent) : Prop where
  conns : ∀ c ∈ s, c.Sound
  few : ∀ protocol, connectionsFor protocol s ≤ maxConnectionsPerProtocol

theorem connectionsFor_modify (protocol : Protocol) (hf : ∀ c, s[i]? = some c → c.Keeps (f c)) :
    connectionsFor protocol (s.modify i f) ≤ connectionsFor protocol s := by
  unfold connectionsFor
  induction s generalizing i with
  | nil => simp
  | cons c s ih =>
    cases i with
    | zero =>
      have hc := hf c rfl
      have hp := hc.pooled
      rw [modify_zero_cons, countP_cons, countP_cons, hc.protocol]
      grind
    | succ i =>
      rw [modify_succ_cons, countP_cons, countP_cons]
      exact Nat.add_le_add_right (ih hf) _

theorem Sound.step (h : Sound s) (hst : step s e = some s') : Sound s' := by
  rcases of_step hst with ⟨protocol, rfl, hroom⟩ | ⟨i, f, rfl, hf⟩
  · refine ⟨?_, fun other => ?_⟩
    · simp only [mem_append, mem_singleton]
      rintro c (hc | rfl)
      · exact h.conns c hc
      · exact ⟨rfl, Nat.zero_le _, nofun⟩
    · have hfew := h.few other
      unfold connectionsFor at *
      rw [countP_append, countP_singleton]
      by_cases hoth : protocol = other
      · subst hoth
        split
        · exact hroom
        · exact hfew
      · simpa [Lent.new, hoth] using hfew
  · refine ⟨fun d hd => ?_, fun other => (connectionsFor_modify other hf).trans (h.few other)⟩
    rcases getElem?_of_mem hd with ⟨k, hk⟩
    rw [getElem?_modify] at hk
    rcases Option.map_eq_some_iff.mp hk with ⟨c, hc, rfl⟩
    have hso := h.conns c (mem_of_getElem? hc)
    split
    next hik =>
      subst hik
      exact (hf c hc).sound hso
    · exact hso

def hit (alive : Lent → Nat) (s : List Lent) : Event → Nat
  | .close i => (s[i]?).elim 0 fun c => if c.doomed then alive c else 0
  | _ => 0

theorem Sound.hit_eq (h : Sound s) (e : Event) : hit Lent.guards s e = hit Lent.late s e := by
  fun_cases hit Lent.guards s e with
  | case1 i =>
    rcases hc : s[i]? with _ | c
    · simp [hit, hc]
    · have hs := h.conns c (mem_of_getElem? hc)
      have hl := hs.2.2
      grind [hit]
  | case2 => grind [hit]

/-- What holds of a pool after any run: the count is that of the guards and has its ceiling, the
    list has its own, and a saturated connection stays so and gives nothing to a borrow that
    starts. -/
structure Accounted (s : List Lent) : Prop where
  counted : ∀ c ∈ s, c.borrows = c.guards ∧ c.borrows ≤ maxFlowsPerConnection
  few : ∀ protocol, connectionsFor protocol s ≤ maxConnectionsPerProtocol
  saturated : ∀ (i : ConnId) c, s[i]? = some c → c.saturated = true → ∀ e s', step s e = some s' →
    ∃ d, s'[i]? = some d ∧ d.saturated = true ∧ (e = .enter i ∨ e = .borrowPooled i → d = c)

theorem Sound.accounted (h : Sound s) : Accounted s where
  counted c hc := ⟨(h.conns c hc).1, (h.conns c hc).2.1⟩
  few := h.few
  saturated i c hc hsat e s' hst := by
    have hke : ∃ d, s'[i]? = some d ∧ d.saturated = true := by
      rcases of_step hst with ⟨protocol, rfl, -⟩ | ⟨k, f, rfl, hf⟩
      · exact ⟨c, by rw [getElem?_append_left (List.getElem?_eq_some_iff.mp hc).1, hc], hsat⟩
      · rw [getElem?_modify, hc]
        by_cases hk : k = i
        · subst hk
          exact ⟨f c, by simp, (hf c hc).saturated hsat⟩
        · exact ⟨c, by simp [hk], hsat⟩
    rcases hke with ⟨d, hd, hsa⟩
    refine ⟨d, hd, hsa, ?_⟩
    -- A borrow that starts reads the flag first.
    rintro (rfl | rfl)
    · have hent := getElem?_of_on hst
      rw [hd, hc, Option.map_some, Lent.enter, if_pos hsat] at hent
      exact Option.some.inj hent
    · simp only [Borrows.step] at hst
      split at hst
      · cases hst
      · have htr := getElem?_of_on hst
        rw [hd, hc, Option.map_some, Lent.tryBorrow, if_pos hsat] at htr
        exact Option.some.inj htr

/-- In every run the borrows are accounted for, and a cleanup closes no connection as idle under a
    borrow that is alive exactly when none of those that are alive was taken by a caller of a
    shared dial after the connection had been found idle. -/
theorem borrows_accounted_iff (events : List Event) :
    ((∀ s, Machine.run step [] events = some s → Accounted s) ∧
      Machine.Along step (fun s e => hit Lent.guards s e = 0) [] events) ↔
    Machine.Along step (fun s e => hit Lent.late s e = 0) [] events := by
  have hst : Sound [] := ⟨nofun, fun _ => Nat.zero_le _⟩
  have hsame : Machine.Along step (fun s e => hit Lent.guards s e = 0) [] events ↔
      Machine.Along step (fun s e => hit Lent.late s e = 0) [] events :=
    Machine.along_congr Sound (fun _ _ _ => Sound.step) (fun s e h => by rw [h.hit_eq e]) hst
  rw [hsame]
  refine ⟨And.right, fun h => ⟨fun s hrun => ?_, h⟩⟩
  exact (Machine.invariant Sound (fun _ _ _ => Sound.step) hst hrun).accounted

/-- A caller of a shared dial borrows the connection between the two halves of a cleanup. -/
theorem late_borrow_closed :
    ∃ s s', Machine.run step [] [.dialled .http, .check 0 true true, .enter 0, .borrow 0] = some s ∧
      step s (.close 0) = some s' ∧ hit Lent.guards s (.close 0) = 1 ∧
      s'.map (fun c => (c.closed, c.guards)) = [(true, 1)] :=
  ⟨_, _, rfl, rfl, rfl, rfl⟩

end Nexapipe.Borrows
