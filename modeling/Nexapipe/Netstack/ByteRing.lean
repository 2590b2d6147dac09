import Nexapipe.Lib.Backlog
import Nexapipe.Lib.Slice

/-!
# The queue of a flow

`ByteRing` of `netstack/tcp.rs`: the bytes that wait between the runner and the application, in
one direction of a flow. The vector behind it holds the bytes that were read as well, up to
`head`, and gives them back only when the queue runs dry.

The window is kept and the order is kept. The storage is another matter: what the vector holds is
what the queue took in since it was last empty, so a queue that is read and filled again without
ever running dry holds more than a window, and nothing bounds how much more.
-/

namespace Nexapipe.Netstack

open List

structure ByteRing (α : Type) where
  bytes : List α
  /-- How far into `bytes` the next read starts. -/
  head : Nat
  /-- How many bytes may be waiting at once: the window. -/
  limit : Nat
deriving DecidableEq

namespace ByteRing

variable {α : Type}

variable (limit : Nat)

def new : ByteRing α where
  bytes := []
  head := 0
  limit := limit

def len (r : ByteRing α) : Nat :=
  r.bytes.length - r.head

def window (r : ByteRing α) : Nat :=
  r.limit - r.len

def isEmpty (r : ByteRing α) : Bool :=
  r.len == 0

def isFull (r : ByteRing α) : Bool :=
  decide (r.len ≥ r.limit)

def reclaim (r : ByteRing α) : ByteRing α :=
  if r.head = r.bytes.length then { r with bytes := [], head := 0 } else r

def enqueueSlice (r : ByteRing α) (data : List α) : Nat × ByteRing α :=
  let taken := min r.window data.length
  let r := if r.head > 0 then r.reclaim else r
  (taken, { r with bytes := r.bytes ++ data.take taken })

def dequeueSlice (r : ByteRing α) (into : Nat) : List α × ByteRing α :=
  let taken := min into r.len
  (Slice.slice r.bytes r.head taken, { r with head := r.head + taken }.reclaim)

def waiting (r : ByteRing α) : List α :=
  r.bytes.drop r.head

def step (t : Backlog.Traffic (ByteRing α) α) : Backlog.Op α → Backlog.Traffic (ByteRing α) α
  | .put data =>
    { t with
      queue := (t.queue.enqueueSlice data).2
      accepted := t.accepted ++ data.take (t.queue.enqueueSlice data).1 }
  | .take into =>
    { t with
      queue := (t.queue.dequeueSlice into).2
      taken := t.taken ++ (t.queue.dequeueSlice into).1 }

def run (ops : List (Backlog.Op α)) : Backlog.Traffic (ByteRing α) α :=
  ops.foldl step ⟨new limit, [], []⟩

/-- The ring stands for a bounded queue: the same bytes wait, and the vector holds what came in
    since the queue was last empty. -/
structure Stands (r : ByteRing α) (b : Backlog α) : Prop where
  waiting : r.waiting = b.waiting
  head : r.head ≤ r.bytes.length
  storage : r.bytes.length = b.since
  -- Both functions reclaim, so a queue that has run dry starts over.
  dry : b.waiting = [] → r.bytes = []

section

variable {r : ByteRing α} {b : Backlog α}

theorem length_waiting (r : ByteRing α) : r.waiting.length = r.len :=
  length_drop

theorem stands_new : Stands (new limit : ByteRing α) Backlog.empty where
  waiting := rfl
  head := Nat.le_refl 0
  storage := rfl
  dry _ := rfl

theorem Stands.len (h : Stands r b) : r.len = b.waiting.length := by
  rw [← length_waiting, h.waiting]

/-- A queue that has run dry holds nothing, so there is nothing for `enqueue_slice` to reclaim:
    the read that emptied it has done so. -/
theorem Stands.reclaim_eq (h : Stands r b) : (if r.head > 0 then r.reclaim else r) = r := by
  by_cases hh : r.head > 0
  · rw [if_pos hh, reclaim, if_neg]
    intro hall
    have hdry : b.waiting = [] := by
      rw [← h.waiting, ByteRing.waiting, hall, drop_length]
    rw [h.dry hdry, length_nil] at hall
    omega
  · rw [if_neg hh]

theorem Stands.fitting (h : Stands r b) (data : List α) :
    data.take (r.enqueueSlice data).1 = Backlog.fitting r.limit b data := by
  simp only [enqueueSlice, window, h.len, Backlog.fitting]
  exact (take_eq_take_min ..).symm

theorem Stands.enqueueSlice (h : Stands r b) (data : List α) :
    Stands (r.enqueueSlice data).2 (b.put r.limit data) := by
  have hbyt : (r.enqueueSlice data).2.bytes
      = r.bytes ++ Backlog.fitting r.limit b data := by
    rw [← h.fitting]
    simp only [ByteRing.enqueueSlice, h.reclaim_eq]
  have hhe : (r.enqueueSlice data).2.head = r.head := by
    simp only [ByteRing.enqueueSlice, h.reclaim_eq]
  refine ⟨?_, ?_, ?_, ?_⟩
  · rw [ByteRing.waiting, hbyt, hhe, drop_append_of_le_length h.head,
      ← ByteRing.waiting, h.waiting]
    rfl
  · rw [hbyt, hhe, length_append]
    exact Nat.le_add_right_of_le h.head
  · rw [hbyt, length_append, h.storage]
    rfl
  · intro hdry
    obtain ⟨hwa, hfit⟩ := append_eq_nil_iff.mp hdry
    rw [hbyt, hfit, h.dry hwa, append_nil]

theorem Stands.slice (h : Stands r b) (into : Nat) :
    (r.dequeueSlice into).1 = b.waiting.take into := by
  simp only [ByteRing.dequeueSlice, Slice.slice, h.len]
  rw [← ByteRing.waiting, h.waiting, ← take_eq_take_min]

theorem Stands.dequeueSlice (h : Stands r b) (into : Nat) :
    Stands (r.dequeueSlice into).2 (b.take into) := by
  have hlen : r.bytes.length - r.head = b.waiting.length := h.len
  have hle := h.head
  -- The read runs the queue dry, and the storage goes back, or leaves something.
  by_cases hdry : b.waiting.length ≤ into
  · have hall : r.head + min into r.len = r.bytes.length := by
      rw [h.len]
      omega
    have hre : b.waiting.drop into = [] := drop_eq_nil_of_le hdry
    simp only [ByteRing.dequeueSlice, reclaim, if_pos hall]
    refine ⟨?_, Nat.le_refl 0, ?_, fun _ => rfl⟩
    · simp only [ByteRing.waiting, Backlog.take, hre, drop_nil]
    · simp only [Backlog.take, if_pos hdry, length_nil]
  · have hso : ¬ r.head + min into r.len = r.bytes.length := by
      omega
    have hmin : min into r.len = into := by
      rw [h.len]
      omega
    simp only [ByteRing.dequeueSlice, reclaim, if_neg hso]
    refine ⟨?_, ?_, ?_, ?_⟩
    · simp only [ByteRing.waiting, Backlog.take, hmin, ← h.waiting, drop_drop]
    · show r.head + min into r.len ≤ r.bytes.length
      rw [hmin]
      omega
    · simp only [Backlog.take, if_neg hdry]
      exact h.storage
    · intro hnil
      have hleng := congrArg List.length hnil
      simp only [Backlog.take, length_drop, length_nil] at hleng
      omega

end

def Sound (r : ByteRing α) : Prop :=
  ∃ b, Stands r b

theorem sound_new : Sound (new limit : ByteRing α) :=
  ⟨_, stands_new limit⟩

section

variable {r : ByteRing α}

theorem window_eq (r : ByteRing α) : r.window = r.limit - r.waiting.length := by
  rw [length_waiting, window]

theorem isEmpty_iff (r : ByteRing α) : r.isEmpty = true ↔ r.waiting = [] := by
  rw [isEmpty, beq_iff_eq, ← length_waiting, length_eq_zero_iff]

theorem Sound.enqueueSlice (h : Sound r) (data : List α) : Sound (r.enqueueSlice data).2 :=
  h.elim fun _ hb => ⟨_, hb.enqueueSlice data⟩

theorem Sound.dequeueSlice (h : Sound r) (into : Nat) : Sound (r.dequeueSlice into).2 :=
  h.elim fun _ hb => ⟨_, hb.dequeueSlice into⟩

theorem Sound.waiting_enqueueSlice (h : Sound r) (data : List α) :
    (r.enqueueSlice data).2.waiting = r.waiting ++ data.take (r.enqueueSlice data).1 := by
  rcases h with ⟨b, hb⟩
  rw [(hb.enqueueSlice data).waiting, hb.waiting, hb.fitting]
  rfl

theorem Sound.taken_dequeueSlice (h : Sound r) (into : Nat) :
    (r.dequeueSlice into).1 = r.waiting.take into := by
  rcases h with ⟨b, hb⟩
  rw [hb.slice, hb.waiting]

theorem Sound.waiting_dequeueSlice (h : Sound r) (into : Nat) :
    (r.dequeueSlice into).2.waiting = r.waiting.drop into := by
  rcases h with ⟨b, hb⟩
  rw [(hb.dequeueSlice into).waiting, hb.waiting]
  rfl

end

theorem limit_enqueueSlice (r : ByteRing α) (data : List α) :
    (r.enqueueSlice data).2.limit = r.limit := by
  simp only [enqueueSlice, reclaim]
  split
  · split
    · rfl
    · rfl
  · rfl

theorem limit_dequeueSlice (r : ByteRing α) (into : Nat) :
    (r.dequeueSlice into).2.limit = r.limit := by
  simp only [dequeueSlice, reclaim]
  split
  · rfl
  · rfl

structure Same (t : Backlog.Traffic (ByteRing α) α)
    (t' : Backlog.Traffic (Backlog α) α) : Prop where
  stands : Stands t.queue t'.queue
  limit : t.queue.limit = limit
  accepted : t.accepted = t'.accepted
  taken : t.taken = t'.taken

theorem Same.step {limit : Nat} {t : Backlog.Traffic (ByteRing α) α}
    {t' : Backlog.Traffic (Backlog α) α} (h : Same limit t t') (op : Backlog.Op α) :
    Same limit (step t op) (Backlog.step limit t' op) := by
  obtain ⟨hst, hlim, hacc, htak⟩ := h
  cases op with
  | put data =>
    refine ⟨?_, ?_, ?_, htak⟩
    · rw [← hlim]
      exact hst.enqueueSlice data
    · rw [← hlim]
      exact limit_enqueueSlice t.queue data
    · simp only [ByteRing.step, Backlog.step, hacc, hst.fitting, hlim]
  | take into =>
    refine ⟨hst.dequeueSlice into, ?_, hacc, ?_⟩
    · rw [← hlim]
      exact limit_dequeueSlice t.queue into
    · simp only [ByteRing.step, Backlog.step, htak, hst.slice]

theorem same_run (ops : List (Backlog.Op α)) :
    Same limit (run limit ops) (Backlog.run limit ops) := by
  induction ops using List.reverseRecOn with
  | nil => exact ⟨stands_new limit, rfl, rfl, rfl⟩
  | append_singleton ops op ih =>
    rw [run, Backlog.run, foldl_append, foldl_append]
    exact ih.step op

/-- After every list of calls on a new queue the bytes taken out are a prefix of the bytes it
    accepted and no more than a window waits, and the storage is within the window exactly when
    what the queue took in since it was last empty is. -/
theorem bounded_fifo_iff (limit : Nat) (ops : List (Backlog.Op α)) :
    ((run limit ops).taken <+: (run limit ops).accepted
      ∧ (run limit ops).queue.len ≤ limit
      ∧ (run limit ops).queue.bytes.length ≤ limit)
    ↔ (Backlog.run limit ops).queue.since ≤ limit := by
  have hsame := same_run limit ops
  have hf := Backlog.fifo_run limit ops
  have hwin := Backlog.length_waiting_run limit ops
  rw [hsame.taken, hsame.accepted, hsame.stands.len, hsame.stands.storage]
  constructor
  · rintro ⟨-, -, hs⟩
    exact hs
  · intro hsin
    exact ⟨⟨_, hf⟩, hwin, hsin⟩

/-- A window of two that never runs dry holds three bytes after its second write. -/
theorem storage_outgrows_window :
    (run 2 [.put [1, 2], .take 1, .put [3]] : Backlog.Traffic (ByteRing Nat) Nat).queue
        = { bytes := [1, 2, 3], head := 1, limit := 2 }
      ∧ ¬ ((run 2 [.put [1, 2], .take 1, .put [3]]
          : Backlog.Traffic (ByteRing Nat) Nat).queue.bytes.length ≤ 2) := by
  decide

end ByteRing

end Nexapipe.Netstack
