import Mathlib.Data.List.Basic

/-!
# Bytes as text, with what is no text replaced

Bytes that should be UTF-8 and need not be, read as a text in which every piece that is no
character is the replacement character. A piece is as long as it can be while a character could
still come of it, so the byte that shows that none will is read again by itself.

A byte below 128 is always a character, whatever stands before it. So a text can be cut at such a
byte before or after it is decoded (`Lossy.lossy_append`, `Lossy.exists_of_lossy`).
-/

namespace Lossy

open List

inductive Next where
  | any
  | fromA0
  | upTo9F
  | from90
  | upTo8F

def Next.accepts (next : Next) (b : UInt8) : Bool :=
  match next with
  | .any => decide (0x80 ≤ b.toNat ∧ b.toNat ≤ 0xBF)
  | .fromA0 => decide (0xA0 ≤ b.toNat ∧ b.toNat ≤ 0xBF)
  | .upTo9F => decide (0x80 ≤ b.toNat ∧ b.toNat ≤ 0x9F)
  | .from90 => decide (0x90 ≤ b.toNat ∧ b.toNat ≤ 0xBF)
  | .upTo8F => decide (0x80 ≤ b.toNat ∧ b.toNat ≤ 0x8F)

/-- Between two characters, or within one: how many bytes it still needs, the bits it has, and
    what the next byte has to be. -/
inductive State where
  | start
  | within (left acc : Nat) (next : Next)

def replacement : Char := Char.ofNat 0xFFFD

def first (b : UInt8) : List Char × State :=
  if b.toNat < 0x80 then ([Char.ofNat b.toNat], .start)
  else if b.toNat < 0xC2 then ([replacement], .start)
  else if b.toNat ≤ 0xDF then ([], .within 1 (b.toNat % 32) .any)
  else if b.toNat = 0xE0 then ([], .within 2 0 .fromA0)
  else if b.toNat = 0xED then ([], .within 2 13 .upTo9F)
  else if b.toNat ≤ 0xEF then ([], .within 2 (b.toNat % 16) .any)
  else if b.toNat = 0xF0 then ([], .within 3 0 .from90)
  else if b.toNat ≤ 0xF3 then ([], .within 3 (b.toNat % 8) .any)
  else if b.toNat = 0xF4 then ([], .within 3 4 .upTo8F)
  else ([replacement], .start)

def feed (s : State) (b : UInt8) : List Char × State :=
  match s with
  | .start => first b
  | .within left acc next =>
    if next.accepts b then
      if left ≤ 1 then ([Char.ofNat (acc * 64 + b.toNat % 64)], .start)
      else ([], .within (left - 1) (acc * 64 + b.toNat % 64) .any)
    else (replacement :: (first b).1, (first b).2)

def flush : State → List Char
  | .start => []
  | .within .. => [replacement]

def decode (s : State) : List UInt8 → List Char
  | [] => flush s
  | b :: bytes => (feed s b).1 ++ decode (feed s b).2 bytes

def lossy (bytes : List UInt8) : List Char :=
  decode .start bytes

variable {b : UInt8} {s : State} {c : Char} {bytes : List UInt8} {x : List Char}

theorem Next.le_of_accepts {next : Next} (h : next.accepts b = true) : 0x80 ≤ b.toNat := by
  cases next <;> simp only [Next.accepts, decide_eq_true_eq] at h <;> omega

def State.Sound : State → Prop
  | .start => True
  | .within left acc next => 1 ≤ acc ∨ 2 ≤ left ∧ (next = .fromA0 ∨ next = .from90)

theorem first_cases (b : UInt8) :
    (b.toNat < 128 ∧ first b = ([Char.ofNat b.toNat], .start))
    ∨ (128 ≤ b.toNat ∧ first b = ([replacement], .start))
    ∨ (128 ≤ b.toNat ∧ ∃ left acc next, first b = ([], .within left acc next)
        ∧ (State.within left acc next).Sound) := by
  unfold first
  by_cases hasc : b.toNat < 0x80
  · exact .inl ⟨hasc, if_pos hasc⟩
  have hb : 128 ≤ b.toNat := Nat.not_lt.mp hasc
  rw [if_neg hasc]
  refine .inr ?_
  split
  · exact .inl ⟨hb, rfl⟩
  split
  · exact .inr ⟨hb, _, _, _, rfl, .inl (by omega)⟩
  split
  · exact .inr ⟨hb, _, _, _, rfl, .inr ⟨Nat.le_refl 2, .inl rfl⟩⟩
  split
  · exact .inr ⟨hb, _, _, _, rfl, .inl (by decide)⟩
  split
  · exact .inr ⟨hb, _, _, _, rfl, .inl (by omega)⟩
  split
  · exact .inr ⟨hb, _, _, _, rfl, .inr ⟨by decide, .inr rfl⟩⟩
  split
  · exact .inr ⟨hb, _, _, _, rfl, .inl (by omega)⟩
  split
  · exact .inr ⟨hb, _, _, _, rfl, .inl (by decide)⟩
  · exact .inl ⟨hb, rfl⟩

theorem sound_first (b : UInt8) : (first b).2.Sound := by
  rcases first_cases b with ⟨-, h⟩ | ⟨-, h⟩ | ⟨-, left, acc, next, h, hs⟩
  · rw [h]
    trivial
  · rw [h]
    trivial
  · rw [h]
    exact hs

theorem sound_feed (h : s.Sound) (b : UInt8) : (feed s b).2.Sound := by
  cases s with
  | start => exact sound_first b
  | within left acc next =>
    unfold feed
    simp only
    split
    · rename_i hacc
      split
      · trivial
      refine .inl ?_
      rcases h with h | ⟨-, rfl | rfl⟩
      · show 1 ≤ acc * 64 + b.toNat % 64
        omega
      · simp only [Next.accepts, decide_eq_true_eq] at hacc
        omega
      · simp only [Next.accepts, decide_eq_true_eq] at hacc
        show 1 ≤ acc * 64 + b.toNat % 64
        omega
    · exact sound_first b

theorem feed_of_lt (h : b.toNat < 128) (s : State) :
    feed s b = (flush s ++ [Char.ofNat b.toNat], .start) := by
  have hfst : first b = ([Char.ofNat b.toNat], .start) := by
    rw [first, if_pos h]
  cases s with
  | start => exact hfst
  | within left acc next =>
    have hnot : next.accepts b ≠ true := fun hacc => by
      have := Next.le_of_accepts hacc
      omega
    rw [feed, if_neg hnot, hfst]
    rfl

theorem toNat_ofNat_ge {n : Nat} (h : 64 ≤ n) :
    64 ≤ (Char.ofNat n).toNat ∨ (Char.ofNat n).toNat = 0 := by
  by_cases hval : n.isValidChar
  · rw [show Char.ofNat n = Char.ofNatAux n hval from dif_pos hval]
    exact .inl h
  · rw [show Char.ofNat n = _ from dif_neg hval]
    exact .inr rfl

theorem mem_feed_of_ge (hs : s.Sound) (h : 128 ≤ b.toNat) (hc : c ∈ (feed s b).1) :
    64 ≤ c.toNat ∨ c.toNat = 0 := by
  have hrep : 64 ≤ replacement.toNat := by decide
  have hfst : ∀ c ∈ (first b).1, 64 ≤ c.toNat ∨ c.toNat = 0 := by
    intro c hc
    rcases first_cases b with ⟨hlt, -⟩ | ⟨-, hb⟩ | ⟨-, left, acc, next, hb, -⟩
    · omega
    · rw [hb] at hc
      rw [mem_singleton.mp hc]
      exact .inl hrep
    · simp [hb] at hc
  cases s with
  | start => exact hfst c hc
  | within left acc next =>
    unfold feed at hc
    simp only at hc
    split at hc
    · split at hc
      · rename_i hle
        rw [mem_singleton.mp hc]
        rcases hs with hs | ⟨hmo, -⟩
        · exact toNat_ofNat_ge (by omega)
        · omega
      · exact absurd hc (by simp)
    · rcases mem_cons.mp hc with rfl | hc
      · exact .inl hrep
      · exact hfst c hc

theorem decode_append (h : b.toNat < 128) (s : State) (bytes more : List UInt8) :
    decode s (bytes ++ b :: more) = decode s bytes ++ Char.ofNat b.toNat :: lossy more := by
  induction bytes generalizing s with
  | nil =>
    rw [nil_append]
    simp only [decode, feed_of_lt h, lossy, append_assoc, singleton_append]
  | cons a bytes ih => rw [cons_append, decode, ih, decode, append_assoc]

theorem lossy_append (h : b.toNat < 128) (bytes more : List UInt8) :
    lossy (bytes ++ b :: more) = lossy bytes ++ Char.ofNat b.toNat :: lossy more :=
  decode_append h .start bytes more

theorem lossy_nil : lossy [] = [] := rfl

theorem decode_ne_nil (h : decode s bytes = []) : s = .start ∧ bytes = [] := by
  induction bytes generalizing s with
  | nil =>
    cases s with
    | start => exact ⟨rfl, rfl⟩
    | within left acc next => exact absurd h (by simp [decode, flush])
  | cons b bytes ih =>
    rw [decode, append_eq_nil_iff] at h
    obtain ⟨hst, -⟩ := ih h.2
    -- A byte that leaves the decoder between two characters has completed one.
    have hout : (feed s b).1 ≠ [] := by
      cases s with
      | start =>
        rw [feed] at hst ⊢
        rcases first_cases b with ⟨-, hb⟩ | ⟨-, hb⟩ | ⟨-, left, acc, next, hb, -⟩
        · simp [hb]
        · simp [hb]
        · simp [hb] at hst
      | within left acc next =>
        unfold feed at hst ⊢
        simp only at hst ⊢
        split
        · rename_i hacc
          rw [if_pos hacc] at hst
          split
          · simp
          rename_i hle
          rw [if_neg hle] at hst
          exact absurd hst (by simp)
        · simp
    exact absurd h.1 hout

theorem lossy_eq_nil_iff : lossy bytes = [] ↔ bytes = [] :=
  ⟨fun h => (decode_ne_nil h).2, fun h => h ▸ lossy_nil⟩

theorem flush_append_eq {e : List Char} {d : Char} (hc : 0 < c.toNat ∧ c.toNat < 64)
    (h : flush s ++ [d] = x ++ c :: e) : x = flush s ∧ d = c ∧ e = [] := by
  cases s with
  | start =>
    rcases x with _ | ⟨a, x⟩
    · simpa [flush, eq_comm] using h
    · simp [flush] at h
  | within left acc next =>
    rcases x with _ | ⟨a, x⟩
    · obtain ⟨rfl, -⟩ := cons_eq_cons.mp h
      exact absurd hc (by decide)
    obtain ⟨rfl, hr⟩ := cons_eq_cons.mp h
    rcases x with _ | ⟨a, x⟩
    · simpa [flush, eq_comm] using hr
    · simp at hr

theorem toNat_ofNat_of_lt {n : Nat} (h : n < 128) : (Char.ofNat n).toNat = n := by
  unfold Char.ofNat
  rw [dif_pos (.inl (by omega))]
  rfl

theorem exists_of_decode (hs : s.Sound) {y : List Char} (hc : 0 < c.toNat ∧ c.toNat < 64)
    (h : decode s bytes = x ++ c :: y) :
    ∃ front b back, bytes = front ++ b :: back ∧ b.toNat = c.toNat ∧ decode s front = x
      ∧ lossy back = y := by
  induction bytes generalizing s x with
  | nil =>
    cases s with
    | start => exact absurd h (by simp [decode, flush])
    | within left acc next =>
      have hmem : c ∈ [replacement] := by
        rw [show [replacement] = x ++ c :: y from h]
        simp
      rw [mem_singleton.mp hmem] at hc
      exact absurd hc (by decide)
  | cons b bytes ih =>
    -- The character is one that this byte completes, or one that comes of the bytes after it.
    rcases append_eq_append_iff.mp h with ⟨x', rfl, hre⟩ | ⟨e, he, hre⟩
    · obtain ⟨front, b', back, rfl, hb', hfr, hba⟩ := ih (sound_feed hs b) hre
      refine ⟨b :: front, b', back, rfl, hb', ?_, hba⟩
      rw [decode, hfr]
    rcases e with _ | ⟨d, e⟩
    · rw [nil_append] at hre
      obtain ⟨front, b', back, rfl, hb', hfr, hba⟩ :=
        ih (x := []) (sound_feed hs b) hre.symm
      refine ⟨b :: front, b', back, rfl, hb', ?_, hba⟩
      rw [decode, hfr, he]
      simp
    · obtain ⟨rfl, rfl⟩ := cons_eq_cons.mp hre
      have hmem : c ∈ (feed s b).1 := by
        rw [he]
        simp
      by_cases hb : b.toNat < 128
      · rw [feed_of_lt hb] at he ⊢
        obtain ⟨rfl, hbc, rfl⟩ := flush_append_eq hc he
        refine ⟨[], b, bytes, rfl, ?_, rfl, rfl⟩
        rw [← hbc, toNat_ofNat_of_lt hb]
      · rcases mem_feed_of_ge hs (Nat.not_lt.mp hb) hmem with hlow | hlow <;> omega

theorem exists_of_lossy {y : List Char} (hc : 0 < c.toNat ∧ c.toNat < 64)
    (h : lossy bytes = x ++ c :: y) :
    ∃ front b back, bytes = front ++ b :: back ∧ b.toNat = c.toNat ∧ lossy front = x
      ∧ lossy back = y :=
  exists_of_decode (s := .start) trivial hc h

end Lossy
