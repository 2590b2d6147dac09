import Nexapipe.Dns.Forward

/-!
# The queries of one resolver

All queries of a resolver share its socket. Each is given an id that no waiting query has, and a
number, and has a guard that takes its entry off the list when it ends, whatever ends it: an
answer, the timeout, a send that fails, or the caller going away. Between an answer and the end of
its query the id is free, and a later query may have it; the number is what tells the two apart.
Numbers are counted modulo `2 ^ 64`.
-/

namespace Nexapipe.Demux

open List Entries Dns Dns.Resolver

deriving instance DecidableEq for Resolver

structure Caller where
  query : List UInt8
  id : Nat
  token : Nat
  reply : Option (List UInt8)
deriving DecidableEq

def Caller.pending (n : Nat) (c : Caller) : Pending :=
  ⟨c.query.take 2, c.query, c.token, n⟩

structure Traffic (Addr : Type) where
  resolver : Resolver
  callers : Entries Nat Caller
  count : Nat
  heard : List (Addr × List UInt8)
deriving DecidableEq

inductive Event (Addr : Type) where
  | query (query : List UInt8)
  | datagram (source : Addr) (answer : List UInt8)
  | finish (caller : Nat)

variable {Addr : Type}

def start : Traffic Addr := ⟨⟨[], 0, 0⟩, [], 0, []⟩

def step [DecidableEq Addr] (server : Addr) (s : Traffic Addr) : Event Addr → Option (Traffic Addr)
  | .query query =>
    if query.length < 12 then some s
    else match s.resolver.register query s.count with
      | none => none
      | some (id, token, resolver) => some { s with
          resolver := resolver
          callers := s.callers.set s.count ⟨query, id, token, none⟩
          count := s.count + 1 }
  | .datagram source answer =>
    let heard := s.heard ++ [(source, answer)]
    if source ≠ server then some { s with heard := heard }
    else match s.resolver.deliver answer with
      | none => some { s with heard := heard }
      | some (caller, answer, resolver) =>
        some ⟨resolver, s.callers.modify caller fun c => { c with reply := some answer },
          s.count, heard⟩
  -- The guard of the query is dropped.
  | .finish caller =>
    match s.callers.lookup caller with
    | none => none
    | some c => some { s with
        resolver := s.resolver.release c.id c.token
        callers := s.callers.remove caller }

def Answers (server : Addr) (s : Traffic Addr) (query answer : List UInt8) : Prop :=
  ∃ datagram, (server, datagram) ∈ s.heard ∧ answersTheQuestion datagram query = true ∧
    answer = Slice.overwrite datagram 0 (query.take 2)

structure Sound (server : Addr) (s : Traffic Addr) : Prop where
  waits : ∀ id p, s.resolver.waiting.lookup id = some p →
    ∃ c, s.callers.lookup p.reply = some c ∧ c.reply = none ∧ c.id = id ∧ p = c.pending p.reply
  asks : ∀ n c, s.callers.lookup n = some c →
    n < s.count ∧ c.token = n % 2 ^ 64 ∧ 12 ≤ c.query.length
  replies : ∀ n c answer, s.callers.lookup n = some c → c.reply = some answer →
    Answers server s c.query answer
  token : s.resolver.nextToken = s.count % 2 ^ 64

variable {server : Addr} {s s' : Traffic Addr}

theorem Sound.lookup_release (h : Sound server s) {n : Nat} {c : Caller}
    (hc : s.callers.lookup n = some c) {id : Nat} {p : Pending}
    (hp : (s.resolver.release c.id c.token).waiting.lookup id = some p) :
    s.resolver.waiting.lookup id = some p ∧ p.reply ≠ n := by
  rcases (Resolver.lookup_release ..).mp hp with ⟨hw, hoth⟩
  refine ⟨hw, ?_⟩
  rintro rfl
  rcases h.waits id p hw with ⟨c', hc', -, hid, heq⟩
  rw [hc] at hc'
  cases hc'
  exact hoth ⟨hid.symm, by rw [heq]; rfl⟩

theorem Sound.query (h : Sound server s) {query : List UInt8} (hlo : 12 ≤ query.length)
    {id token : Nat} {r : Resolver}
    (hreg : s.resolver.register query s.count = some (id, token, r)) :
    Sound server { s with
      resolver := r
      callers := s.callers.set s.count ⟨query, id, token, none⟩
      count := s.count + 1 } := by
  revert hreg
  fun_cases register s.resolver query s.count with
  | case1 => rintro ⟨⟩
  | case2 =>
    rintro ⟨⟩
    refine ⟨?_, ?_, ?_, ?_⟩
    · intro i p hp
      rcases of_lookup_set hp with ⟨rfl, rfl⟩ | hp
      · exact ⟨⟨query, _, _, none⟩, by rw [lookup_set, if_pos rfl], rfl, rfl, rfl⟩
      · rcases h.waits i p hp with ⟨c, hc, hre⟩
        have hold := (h.asks _ c hc).1
        exact ⟨c, by rw [lookup_set, if_neg (by omega)]; exact hc, hre⟩
    · intro n c hc
      rcases of_lookup_set hc with ⟨rfl, rfl⟩ | hc
      · exact ⟨Nat.lt_succ_self _, h.token, hlo⟩
      · have has := h.asks n c hc
        exact ⟨Nat.lt_succ_of_lt has.1, has.2⟩
    · intro n c answer hc hrep
      rcases of_lookup_set hc with ⟨-, rfl⟩ | hc
      · cases hrep
      · exact h.replies n c answer hc hrep
    · simp only [h.token]
      omega

theorem Sound.hear (h : Sound server s) (received : Addr × List UInt8) :
    Sound server { s with heard := s.heard ++ [received] } where
  waits := h.waits
  asks := h.asks
  replies n c answer hc hrep := by
    rcases h.replies n c answer hc hrep with ⟨datagram, hh, hr⟩
    exact ⟨datagram, mem_append_left _ hh, hr⟩
  token := h.token

theorem Sound.deliver (h : Sound server s) {datagram answer : List UInt8} {n : Nat} {r : Resolver}
    (hdel : s.resolver.deliver datagram = some (n, answer, r))
    (hhe : (server, datagram) ∈ s.heard) :
    Sound server { s with
      resolver := r
      callers := s.callers.modify n fun c => { c with reply := some answer } } := by
  rcases deliver_eq_some hdel with ⟨id, p, hp, hans, rfl, rfl, rfl⟩
  rcases h.waits id p hp with ⟨c, hc, hno, hid, heq⟩
  refine ⟨?_, ?_, ?_, h.token⟩
  · intro i p' hp'
    rcases of_lookup_remove hp' with ⟨hoth, hp'⟩
    rcases h.waits i p' hp' with ⟨c', hc', hno', hid', heq'⟩
    have hne : p'.reply ≠ p.reply := by
      intro hrep
      rw [hrep, hc] at hc'
      cases hc'
      exact hoth (hid'.symm.trans hid)
    exact ⟨c', by rw [lookup_modify, if_neg hne]; exact hc', hno', hid', heq'⟩
  · intro k c' hc'
    rw [lookup_modify] at hc'
    split at hc'
    · rcases Option.map_eq_some_iff.mp hc' with ⟨old, hold, rfl⟩
      exact h.asks k old hold
    · exact h.asks k c' hc'
  · intro k c' answer hc' hrep
    rw [lookup_modify] at hc'
    split at hc'
    next hk =>
      subst hk
      rw [hc] at hc'
      cases hc'
      cases hrep
      rw [heq] at hans ⊢
      exact ⟨datagram, hhe, hans, rfl⟩
    · exact h.replies k c' answer hc' hrep

theorem Sound.finish (h : Sound server s) {n : Nat} {c : Caller}
    (hc : s.callers.lookup n = some c) :
    Sound server { s with
      resolver := s.resolver.release c.id c.token
      callers := s.callers.remove n } := by
  refine ⟨?_, fun k c' hk => h.asks k c' (of_lookup_remove hk).2,
    fun k c' answer hk => h.replies k c' answer (of_lookup_remove hk).2, ?_⟩
  · intro id p hp
    rcases h.lookup_release hc hp with ⟨hw, hne⟩
    rcases h.waits id p hw with ⟨c', hc', hr⟩
    exact ⟨c', by rw [lookup_remove, if_neg hne]; exact hc', hr⟩
  · rw [← h.token]
    fun_cases release s.resolver c.id c.token <;> rfl

theorem Sound.step [DecidableEq Addr] {event : Event Addr} (h : Sound server s)
    (hst : step server s event = some s') : Sound server s' := by
  revert hst
  fun_cases Demux.step server s event with
  | case1 =>
    rintro ⟨⟩
    exact h
  | case3 query hlo id token r hreg =>
    rintro ⟨⟩
    exact h.query (Nat.le_of_not_lt hlo) hreg
  | case4 | case5 =>
    rintro ⟨⟩
    exact h.hear _
  | case6 source answer heard hser n reply r hdel =>
    rintro ⟨⟩
    have hhe : (server, answer) ∈ s.heard ++ [(source, answer)] := by
      simp [not_not.mp hser]
    exact (h.hear (source, answer)).deliver hdel hhe
  | case8 n c hc =>
    rintro ⟨⟩
    exact h.finish hc
  | case2 | case7 => rintro ⟨⟩

/-- In every interleaving of at most `2 ^ 64` queries, an answer a query has is a datagram of the
    resolver's address that answers its question, with its id; a query that has an answer is given
    no other; and the end of a query takes exactly its own entry off the list. -/
theorem answers_demultiplexed [DecidableEq Addr] (server : Addr) (events : List (Event Addr))
    (s : Traffic Addr)
    (hrun : Machine.run (step server) start events = some s) (hcount : s.count ≤ 2 ^ 64) :
    (∀ n c answer, s.callers.lookup n = some c → c.reply = some answer →
      Answers server s c.query answer ∧ Matches c.query answer) ∧
    (∀ source datagram s', step server s (.datagram source datagram) = some s' →
      ∀ n c answer, s.callers.lookup n = some c → c.reply = some answer →
        s'.callers.lookup n = some c) ∧
    ∀ n s', step server s (.finish n) = some s' → ∀ id p,
      s'.resolver.waiting.lookup id = some p ↔
        s.resolver.waiting.lookup id = some p ∧ p.reply ≠ n := by
  have h : Sound server s := by
    refine Machine.invariant (Sound server) (fun s e s' => Sound.step) ?_ hrun
    exact ⟨by simp [start], by simp [start], by simp [start], rfl⟩
  refine ⟨?_, ?_, ?_⟩
  · intro n c answer hc hrep
    have hans := h.replies n c answer hc hrep
    refine ⟨hans, ?_⟩
    rcases hans with ⟨datagram, -, hans, rfl⟩
    exact matches_overwrite hans (by have := (h.asks n c hc).2.2; omega)
  · intro source datagram s' hstep n c answer hc hrep
    simp only [step] at hstep
    split at hstep
    · cases hstep
      exact hc
    split at hstep
    · cases hstep
      exact hc
    next m payload r hdel =>
      cases hstep
      rcases deliver_eq_some hdel with ⟨id, p, hp, -, rfl, -, -⟩
      rcases h.waits id p hp with ⟨c', hc', hnone, -⟩
      rw [lookup_modify, if_neg, hc]
      rintro rfl
      rw [hc] at hc'
      cases hc'
      rw [hrep] at hnone
      cases hnone
  · intro n s' hstep id p
    simp only [step] at hstep
    split at hstep
    · cases hstep
    next c hc =>
      cases hstep
      refine ⟨h.lookup_release hc, fun ⟨hwait, hne⟩ => ?_⟩
      refine (Resolver.lookup_release ..).mpr ⟨hwait, fun ⟨_, htoken⟩ => hne ?_⟩
      -- Two queries under way with one number would be `2 ^ 64` apart.
      rcases h.waits id p hwait with ⟨c', hc', -, -, heq⟩
      have hown := h.asks n c hc
      have hoth := h.asks _ c' hc'
      have hsame : c'.token = c.token := by rw [← htoken, heq]; rfl
      omega

def answeredFirst : List (Event Nat) :=
  [.query twoLabelQuery, .query twoLabelQuery, .datagram 53 twoLabelAnswer]

theorem answers_demultiplexed_first :
    ∃ s, Machine.run (step 53) start answeredFirst = some s ∧ s.count ≤ 2 ^ 64 ∧
      ∀ s', step 53 s (.finish 0) = some s' → ∀ id p,
        s'.resolver.waiting.lookup id = some p ↔
          s.resolver.waiting.lookup id = some p ∧ p.reply ≠ 0 := by
  have hcount : (Machine.run (step 53) start answeredFirst).map Traffic.count = some 2 := by
    decide +kernel
  rcases Option.map_eq_some_iff.mp hcount with ⟨s, hrun, hs⟩
  have hfew : s.count ≤ 2 ^ 64 := by
    rw [hs]
    decide
  exact ⟨s, hrun, hfew, (answers_demultiplexed 53 _ s hrun hfew).2.2 0⟩

def oneLeft (m : Nat) : Traffic Nat :=
  ⟨⟨[], m % 2 ^ 16, m % 2 ^ 64⟩,
    [(0, ⟨twoLabelQuery, 0, 0, some (Slice.overwrite twoLabelAnswer 0 (twoLabelQuery.take 2))⟩)], m,
    [(53, twoLabelAnswer)]⟩

def oneMore (m : Nat) : Traffic Nat :=
  ⟨⟨[(m % 2 ^ 16, ⟨twoLabelQuery.take 2, twoLabelQuery, m % 2 ^ 64, m⟩)], (m + 1) % 2 ^ 16,
    (m + 1) % 2 ^ 64⟩,
    (oneLeft m).callers.set m ⟨twoLabelQuery, m % 2 ^ 16, m % 2 ^ 64, none⟩, m + 1,
    (oneLeft m).heard⟩

theorem step_oneLeft (m : Nat) :
    step 53 (oneLeft m) (.query twoLabelQuery) = some (oneMore m) := by
  have hreg : (oneLeft m).resolver.register twoLabelQuery m =
      some (m % 2 ^ 16, m % 2 ^ 64, (oneMore m).resolver) := by
    simp [register, freeId, oneLeft, oneMore, Entries.set]
  rw [step, if_neg (by decide)]
  have hcount : (oneLeft m).count = m := rfl
  rw [hcount, hreg]
  rfl

theorem step_oneMore {m : Nat} (hm : m ≠ 0) :
    step 53 (oneMore m) (.finish m) = some (oneLeft (m + 1)) := by
  have hcall : (oneMore m).callers.lookup m =
      some ⟨twoLabelQuery, m % 2 ^ 16, m % 2 ^ 64, none⟩ := by
    rw [oneMore, lookup_set, if_pos rfl]
  have hcal : (oneMore m).callers.remove m = (oneLeft (m + 1)).callers := by
    rw [oneMore, remove_set]
    simp [oneLeft, Entries.remove, hm.symm]
  rw [step, hcall]
  simp only [hcal]
  simp [oneMore, oneLeft, release, Entries.remove, lookup_cons_eq]

theorem run_oneLeft (m k : Nat) (hm : m ≠ 0) :
    ∃ events, Machine.run (step 53) (oneLeft m) events = some (oneLeft (m + k)) := by
  induction k with
  | zero => exact ⟨[], rfl⟩
  | succ k ih =>
    rcases ih with ⟨events, hrun⟩
    refine ⟨events ++ [.query twoLabelQuery, .finish (m + k)], ?_⟩
    simp only [Machine.run_append, hrun, Option.bind_some, Machine.run, step_oneLeft,
      step_oneMore (show m + k ≠ 0 by omega)]
    rfl

/-- The query with the number of one that has its answer and has not ended yet: the end of the
    first takes the entry of the other off the list. -/
theorem reused_number_released :
    ∃ events s s' p, Machine.run (step 53) start events = some s ∧
      step 53 s (.finish 0) = some s' ∧ s.resolver.waiting.lookup 0 = some p ∧ p.reply ≠ 0 ∧
      s'.resolver.waiting.lookup 0 = none := by
  have hfst : Machine.run (step 53) start [.query twoLabelQuery, .datagram 53 twoLabelAnswer] =
      some (oneLeft 1) := by
    decide +kernel
  rcases run_oneLeft 1 (2 ^ 64 - 1) (by decide) with ⟨events, hrun⟩
  refine ⟨[.query twoLabelQuery, .datagram 53 twoLabelAnswer] ++ events ++ [.query twoLabelQuery],
    oneMore (2 ^ 64), _, _, ?_, rfl, rfl, by decide, rfl⟩
  rw [Machine.run_append, Machine.run_append, hfst, Option.bind_some, hrun]
  exact Machine.run_cons_eq_some.mpr ⟨_, step_oneLeft _, rfl⟩

end Nexapipe.Demux
