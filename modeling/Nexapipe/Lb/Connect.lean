import Nexapipe.Lib.Timeout

/-!
# Sharing the connect budget

A connect tries the addresses of a backend in turn under one deadline, and gives each an equal
share of the time that is left, with a floor. The number of the addresses left is cut to 32
bits before the time is divided by it. Times are in nanoseconds.

## Main definitions

* `shareDeadline`: When the share of the next address ends.
* `connectAddrsWith`: The addresses tried in turn, with every attempt that is made.
* `DialledAll`: Every address is dialled, up to one that answers.

## Theorems

* `connectAddrsFrom_bounds`: No attempt ends after its deadline or the connect's own.
* `connectAddrsFrom_shares`: With enough budget every address has its share.
* `connect_budget_shared`: Both, of a whole connect.
* `long_list_spends_budget`: A list whose length is cut to nothing.
-/

namespace Nexapipe.BackendConn

open Timeout

/-- The source's `MIN_ADDRESS_SHARE`. -/
def minAddressShare : Nat := 250000000

/-- When the attempt on the next of the addresses left is given up. -/
def shareDeadline (now deadline left : Nat) : Nat :=
  min (now + max ((deadline - now) / max left 1) minAddressShare) deadline

/-- A dial connects or fails. -/
abbrev Dial (Stream : Type) : Type :=
  Wait (Except String Stream)

/-- An attempt on an address, when it had to end and when it did. A dial that was given up has no
    result. -/
structure Attempt (Addr Stream : Type) where
  addr : Addr
  start : Nat
  deadline : Nat
  endedAt : Nat
  result : Option (Except String Stream)

/-- What a connect comes to, and the attempts it made. -/
structure Connecting (Addr Stream : Type) where
  result : Except String Stream
  attempts : List (Attempt Addr Stream)
  endedAt : Nat

variable {Addr Stream : Type}

/-- What is said of an attempt that gave no stream. -/
def Attempt.outcome [ToString Addr] (attempt : Attempt Addr Stream) : String :=
  match attempt.result with
  | some (.error e) => toString attempt.addr ++ ": " ++ e
  | _ => toString attempt.addr ++ ": timed out"

/-- The error of a connect that no address answered. -/
def noAddressAnswered (outcomes : List String) : String :=
  if outcomes.isEmpty then "there was no address to try"
  else "no address answered: " ++ "; ".intercalate outcomes

/-- The loop over the addresses from `index` on, of the `len` there are. What a dial does is
    given by the place of its address. -/
def connectAddrsFrom [ToString Addr] (len deadline : Nat) (dial : Nat → Option (Dial Stream)) :
    List Addr → Nat → Nat → List String → Connecting Addr Stream
  | [], _, now, outcomes => ⟨.error (noAddressAnswered outcomes), [], now⟩
  | addr :: rest, index, now, outcomes =>
    if deadline ≤ now then
      ⟨.error (noAddressAnswered (outcomes ++ (addr :: rest).map fun addr =>
        toString addr ++ ": not tried (the connect budget was spent)")), [], now⟩
    else
      let attemptDeadline := shareDeadline now deadline ((len - index) % 2 ^ 32)
      let ended := timeoutAt now attemptDeadline (dial index)
      let attempt := ⟨addr, now, attemptDeadline, ended.1, ended.2⟩
      match ended.2 with
      | some (.ok stream) => ⟨.ok stream, [attempt], ended.1⟩
      | _ =>
        let c := connectAddrsFrom len deadline dial rest (index + 1) ended.1
          (outcomes ++ [attempt.outcome])
        { c with attempts := attempt :: c.attempts }

/-- Tries the addresses of a backend in turn. -/
def connectAddrsWith [ToString Addr] (addrs : List Addr) (deadline : Nat)
    (dial : Nat → Option (Dial Stream)) (now : Nat) : Connecting Addr Stream :=
  connectAddrsFrom addrs.length deadline dial addrs 0 now []

/-- Each address is dialled, or each before one that answers. -/
def DialledAll (attempts : List (Attempt Addr Stream)) (addrs : List Addr) : Prop :=
  attempts.map Attempt.addr = addrs ∨ attempts.map Attempt.addr <+: addrs ∧
    ∃ a ∈ attempts, ∃ stream, a.result = some (.ok stream)

open List

theorem DialledAll.cons {attempts : List (Attempt Addr Stream)} {addrs : List Addr}
    (h : DialledAll attempts addrs) (a : Attempt Addr Stream) :
    DialledAll (a :: attempts) (a.addr :: addrs) := by
  rcases h with hall | ⟨hpre, b, hb, hstr⟩
  · exact Or.inl (congrArg _ hall)
  · exact Or.inr ⟨cons_prefix_cons.2 ⟨rfl, hpre⟩, b, mem_cons_of_mem _ hb, hstr⟩

variable {now deadline left share len index : Nat} {addrs : List Addr} {outcomes : List String}
  {dial : Nat → Option (Dial Stream)}

theorem le_shareDeadline (h : now ≤ deadline) : now ≤ shareDeadline now deadline left :=
  le_min (Nat.le_add_right _ _) h

/-- With time for a share for every address left, the next one has a share and leaves one for each
    of the others. -/
theorem shareDeadline_spec (hmin : minAddressShare ≤ share)
    (hs : now + (left + 1) * share ≤ deadline) :
    now + share ≤ shareDeadline now deadline (left + 1) ∧
      shareDeadline now deadline (left + 1) + left * share ≤ deadline := by
  have hl : 0 < left + 1 := left.succ_pos
  have hdiv : share ≤ (deadline - now) / (left + 1) :=
    (Nat.le_div_iff_mul_le hl).2 (by rw [Nat.mul_comm]; omega)
  have hf := Nat.div_le_self (deadline - now) (left + 1)
  have heq : shareDeadline now deadline (left + 1) = now + (deadline - now) / (left + 1) := by
    rw [shareDeadline, Nat.max_eq_left hl, Nat.max_eq_left (hmin.trans hdiv),
      Nat.min_eq_left (by omega)]
  have hpar := Nat.mul_div_le (deadline - now) (left + 1)
  have hr := Nat.mul_le_mul_left left hdiv
  rw [Nat.add_mul, Nat.one_mul] at hpar
  omega

variable [ToString Addr]

/-- No attempt ends after its own deadline, and none of those is after the connect's. -/
theorem connectAddrsFrom_bounds (h : now ≤ deadline) :
    (connectAddrsFrom len deadline dial addrs index now outcomes).endedAt ≤ deadline ∧
      ∀ a ∈ (connectAddrsFrom len deadline dial addrs index now outcomes).attempts,
        a.deadline ≤ deadline ∧ a.endedAt ≤ a.deadline := by
  fun_induction connectAddrsFrom len deadline dial addrs index now outcomes with
  | case1 | case2 => exact ⟨h, nofun⟩
  | case3 addr rest index now outcomes hnow attemptDeadline ended =>
    have hcap : attemptDeadline ≤ deadline := min_le_right ..
    have he : ended.1 ≤ attemptDeadline := timeoutAt_le (le_shareDeadline h) _
    exact ⟨he.trans hcap, forall_mem_singleton.2 ⟨hcap, he⟩⟩
  | case4 addr rest index now outcomes hnow attemptDeadline ended attempt c hf ih =>
    have hcap : attemptDeadline ≤ deadline := min_le_right ..
    have he : ended.1 ≤ attemptDeadline := timeoutAt_le (le_shareDeadline h) _
    rcases ih (he.trans hcap) with ⟨hend, hall⟩
    exact ⟨hend, forall_mem_cons.2 ⟨⟨hcap, he⟩, hall⟩⟩

/-- With time for a share for every address, each is dialled and has it. -/
theorem connectAddrsFrom_shares (hmin : minAddressShare ≤ share)
    (hlen : index + addrs.length = len) (hwid : len < 2 ^ 32)
    (hsh : now + addrs.length * share ≤ deadline) :
    DialledAll (connectAddrsFrom len deadline dial addrs index now outcomes).attempts addrs ∧
      ∀ a ∈ (connectAddrsFrom len deadline dial addrs index now outcomes).attempts,
        a.start + share ≤ a.deadline := by
  have hpos : 0 < minAddressShare := by decide
  fun_induction connectAddrsFrom len deadline dial addrs index now outcomes with
  | case1 => exact ⟨Or.inl rfl, nofun⟩
  | case2 addr rest index now outcomes hsp =>
    rw [length_cons, Nat.add_mul] at hsh
    omega
  | case3 addr rest index now outcomes hnow attemptDeadline ended attempt stream hstr =>
    have hle : (len - index) % 2 ^ 32 = rest.length + 1 := by grind
    refine ⟨Or.inr ⟨⟨rest, rfl⟩, attempt, mem_singleton_self _, stream, hstr⟩,
      forall_mem_singleton.2 ?_⟩
    exact (hle ▸ shareDeadline_spec hmin hsh).1
  | case4 addr rest index now outcomes hnow attemptDeadline ended attempt c hfa ih =>
    have hle : (len - index) % 2 ^ 32 = rest.length + 1 := by grind
    rcases shareDeadline_spec hmin hsh with ⟨hown, hoth⟩
    rw [← hle] at hown hoth
    have hend : ended.1 ≤ attemptDeadline := timeoutAt_le (le_shareDeadline (by omega)) _
    rcases ih (by grind) ((Nat.add_le_add_right hend _).trans hoth) with ⟨hcom, hall⟩
    exact ⟨hcom.cons attempt, forall_mem_cons.2 ⟨hown, hall⟩⟩

/-- No bit of the number `2 ^ 32` is left, so that the first address may spend the budget. -/
theorem attempts_of_wrapped {n : Nat} (addr : Addr) (hw : (n + 2) % 4294967296 = 0)
    (hpos : ¬deadline ≤ 0) :
    (connectAddrsWith (List.replicate (n + 2) addr) deadline (fun _ => none) 0).attempts =
      ([⟨addr, 0, deadline, deadline, none⟩] : List (Attempt Addr Stream)) := by
  have hfst : shareDeadline 0 deadline 0 = deadline := by simp [shareDeadline]
  simp [connectAddrsWith, replicate_succ, connectAddrsFrom, hpos, hw, hfst, timeoutAt]

/-- A connect ends within its budget, and so does every attempt. With time enough for the shortest
    share of each address, and fewer of them than 32 bits count, every address is dialled and has an
    equal share of the budget. -/
theorem connect_budget_shared (addrs : List Addr) (start budget : Nat)
    (dial : Nat → Option (Dial Stream)) :
    (connectAddrsWith addrs (start + budget) dial start).endedAt ≤ start + budget ∧
      (∀ a ∈ (connectAddrsWith addrs (start + budget) dial start).attempts,
        a.deadline ≤ start + budget ∧ a.endedAt ≤ a.deadline) ∧
      (addrs.length < 2 ^ 32 → addrs.length * minAddressShare ≤ budget →
        DialledAll (connectAddrsWith addrs (start + budget) dial start).attempts addrs ∧
          ∀ a ∈ (connectAddrsWith addrs (start + budget) dial start).attempts,
            a.start + budget / addrs.length ≤ a.deadline) := by
  have hst : start ≤ start + budget := Nat.le_add_right ..
  refine ⟨(connectAddrsFrom_bounds hst).1, (connectAddrsFrom_bounds hst).2,
    fun hwid hbud => ?_⟩
  cases addrs with
  | nil => exact ⟨Or.inl rfl, nofun⟩
  | cons addr rest =>
    have hmin := (Nat.le_div_iff_mul_le rest.length.succ_pos).2 (Nat.mul_comm _ _ ▸ hbud)
    exact connectAddrsFrom_shares hmin (Nat.zero_add _) hwid
      (Nat.add_le_add_left (Nat.mul_div_le ..) start)

/-- The first of two addresses never answers, and the second has its half of the budget. -/
theorem connect_budget_shared_second :
    let addrs := ["192.0.2.1:443", "192.0.2.2:443"]
    let dial : Nat → Option (Dial Unit) := fun n => if n = 0 then none else some ⟨1, .ok ()⟩
    let c := connectAddrsWith addrs (0 + 2 * minAddressShare) dial 0
    DialledAll c.attempts addrs ∧ ∀ a ∈ c.attempts, a.start + minAddressShare ≤ a.deadline :=
  (connect_budget_shared ["192.0.2.1:443", "192.0.2.2:443"] 0 (2 * minAddressShare) _).2.2
    (by decide) (by decide)

/-- With `2 ^ 32` addresses the budget is divided by one, and a second address is not dialled. -/
theorem long_list_spends_budget :
    ((connectAddrsWith (List.replicate (2 ^ 32) "192.0.2.1:443") (2 ^ 32 * minAddressShare)
      (fun _ => none) 0 : Connecting String Unit).attempts.map Attempt.addr) = ["192.0.2.1:443"] :=
  congrArg (List.map Attempt.addr) (attempts_of_wrapped _ (by decide) (by decide))

end Nexapipe.BackendConn
