import Mathlib.Logic.Basic

/-!
# Frames in a stream

A stream is the encodings of some items, one behind the other, and a reader holds the part
of it that has arrived and not yet been decoded. A decoder looks at the front of what is
held: it finds the first item and how long its frame is, or nothing while the frame is not
whole.

`Held` is what a reader keeps true: the items already taken, what is held and what is yet to come
are together the stream. `Framed.next` says what a look at the front then gives. It is the next
item of the stream, or nothing, and when it is nothing what is held is shorter than a frame.
-/

namespace Framing

open List

variable {α β : Type} {enc : β → List α} {dec : List α → Option (β × Nat)} {ok : β → Prop}

/-- The decoder finds an item whose whole frame has arrived, whatever follows it, and finds
    nothing in a part of a frame. -/
structure Framed (enc : β → List α) (dec : List α → Option (β × Nat)) (ok : β → Prop) :
    Prop where
  whole : ∀ x rest, ok x → dec (enc x ++ rest) = some (x, (enc x).length)
  short : ∀ x p, ok x → p <+: enc x → p ≠ enc x → dec p = none
  empty : dec [] = none

def Held (enc : β → List α) (items taken : List β) (held coming : List α) : Prop :=
  ∃ rest, items = taken ++ rest ∧ held ++ coming = (rest.map enc).flatten

variable {coming held : List α} {items taken : List β}

theorem Held.start (h : held ++ coming = (items.map enc).flatten) : Held enc items [] held coming :=
  ⟨items, rfl, h⟩

theorem Held.read {chunk : List α} (h : Held enc items taken held (chunk ++ coming)) :
    Held enc items taken (held ++ chunk) coming := by
  rcases h with ⟨rest, hi, hstr⟩
  exact ⟨rest, hi, by rw [append_assoc, hstr]⟩

theorem Framed.next (h : Framed enc dec ok) {items taken : List β} {held coming : List α}
    (hok : ∀ x ∈ items, ok x) (hhe : Held enc items taken held coming) :
    (∃ x ∈ items, dec held = some (x, (enc x).length) ∧ (enc x).length ≤ held.length ∧
        Held enc items (taken ++ [x]) (held.drop (enc x).length) coming) ∨
      dec held = none ∧ (held = [] ∨ ∃ x ∈ items, held.length < (enc x).length) := by
  rcases hhe with ⟨rest, hit, hstr⟩
  rcases rest with _ | ⟨x, rest⟩
  · -- The stream is over, so nothing is held.
    have hnil : held = [] := (append_eq_nil_iff.mp hstr).1
    rw [hnil]
    exact .inr ⟨h.empty, .inl rfl⟩
  · have hmem : x ∈ items := by
      rw [hit]
      simp
    by_cases hlen : (enc x).length ≤ held.length
    · -- The whole frame is held, with the beginning of what follows it.
      have hfr : enc x <+: held := by
        refine prefix_of_prefix_length_le ?_ (prefix_append held coming) hlen
        rw [hstr]
        exact prefix_append _ _
      rcases hfr with ⟨tail, rfl⟩
      refine .inl ⟨x, hmem, h.whole x tail (hok x hmem), hlen, rest, ?_, ?_⟩
      · rw [hit, append_assoc, singleton_append]
      · rw [drop_left]
        rw [append_assoc] at hstr
        exact append_cancel_left hstr
    · -- What is held ends inside the frame.
      have hpa : held <+: enc x := by
        refine prefix_of_prefix_length_le (prefix_append held coming) ?_ (by omega)
        rw [hstr]
        exact prefix_append _ _
      have hne : held ≠ enc x := by
        intro heq
        rw [heq] at hlen
        exact hlen (Nat.le_refl _)
      exact .inr ⟨h.short x held (hok x hmem) hpa hne, .inr ⟨x, hmem, by omega⟩⟩

theorem Framed.all_taken (h : Framed enc dec ok) (hok : ∀ x ∈ items, ok x)
    (hh : Held enc items taken held []) (hn : dec held = none) :
    held = [] ∧ taken = items := by
  rcases hh with ⟨rest, hi, hstr⟩
  rw [append_nil] at hstr
  rcases rest with _ | ⟨x, rest⟩
  · exact ⟨hstr, by rw [hi, append_nil]⟩
  -- Another item would have its whole frame in what is held.
  have hx : ok x := hok x (by rw [hi]; simp)
  rw [hstr, map_cons, flatten_cons, h.whole x _ hx] at hn
  cases hn

end Framing
