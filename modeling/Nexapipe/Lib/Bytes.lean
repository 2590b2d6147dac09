import Mathlib.Algebra.GroupWithZero.Nat

/-!
# Numbers as bytes

A number in a fixed count of bytes, least significant first (`le`) or most
significant first (`be`). Writing and reading are inverse on numbers that fit the
width, and reading and writing are inverse on all bytes of the width, so a field of a
wire format is its number and nothing else.
-/

namespace Bytes

open List

/-- The `w` bytes of a number, least significant first. -/
def le : Nat → Nat → List UInt8
  | 0, _ => []
  | w + 1, n => UInt8.ofNat n :: le w (n / 256)

def ofLe : List UInt8 → Nat
  | [] => 0
  | b :: bs => b.toNat + 256 * ofLe bs

@[simp] theorem length_le (w n : Nat) : (le w n).length = w := by
  induction w generalizing n with
  | zero => rfl
  | succ w ih => rw [le, length_cons, ih]

theorem ofLe_le {w n : Nat} (h : n < 256 ^ w) : ofLe (le w n) = n := by
  induction w generalizing n with
  | zero =>
    rw [Nat.pow_zero, Nat.lt_one_iff] at h
    rw [h]
    rfl
  | succ w ih =>
    have hdiv : n / 256 < 256 ^ w := by
      rw [Nat.pow_succ, Nat.mul_comm] at h
      exact Nat.div_lt_of_lt_mul h
    rw [le, ofLe, ih hdiv, UInt8.toNat_ofNat']
    omega

variable (bs : List UInt8)

theorem ofLe_lt : ofLe bs < 256 ^ bs.length := by
  induction bs with
  | nil => exact Nat.one_pos
  | cons b bs ih =>
    have hb : b.toNat < 256 := b.toNat_lt
    rw [ofLe, length_cons, Nat.pow_succ]
    omega

theorem le_ofLe : le bs.length (ofLe bs) = bs := by
  induction bs with
  | nil => rfl
  | cons b bs ih =>
    have hb : b.toNat < 256 := b.toNat_lt
    have hh : UInt8.ofNat (b.toNat + 256 * ofLe bs) = b := by
      apply UInt8.toNat_inj.mp
      rw [UInt8.toNat_ofNat']
      omega
    have ht : (b.toNat + 256 * ofLe bs) / 256 = ofLe bs := by omega
    rw [length_cons, le, ofLe, hh, ht, ih]

/-- The `w` bytes of a number, most significant first. -/
def be (w n : Nat) : List UInt8 :=
  (le w n).reverse

def ofBe : Nat :=
  ofLe bs.reverse

@[simp] theorem length_be (w n : Nat) : (be w n).length = w := by
  rw [be, length_reverse, length_le]

theorem ofBe_be {w n : Nat} (h : n < 256 ^ w) : ofBe (be w n) = n := by
  rw [ofBe, be, reverse_reverse, ofLe_le h]

theorem ofBe_lt : ofBe bs < 256 ^ bs.length := by
  have hlt := ofLe_lt bs.reverse
  rwa [length_reverse] at hlt

theorem be_ofBe : be bs.length (ofBe bs) = bs := by
  have hle := le_ofLe bs.reverse
  rw [length_reverse] at hle
  rw [be, ofBe, hle, reverse_reverse]

end Bytes
