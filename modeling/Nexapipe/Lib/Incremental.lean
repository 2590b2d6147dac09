import Mathlib.Logic.Basic

/-!
# Reading until a verdict

A reader that needs to see enough of a stream before it can say anything looks at what has
arrived, and reads on while it cannot say. Where the stream is cut into reads is
chance, so what the reader says must not depend on it.

It does not when a verdict *stands*: once given, more bytes do not change it. Then the
verdict at the end of the loop is the verdict on the whole stream (`verdict_read`), and
nothing that arrived is lost (`read_append`), although how much of the stream has
been read by then does depend on the cuts.
-/

namespace Incremental

open List

variable {α ν : Type}

def Stands (verdict : List α → Option ν) : Prop :=
  ∀ buf more v, verdict buf = some v → verdict (buf ++ more) = some v

def read (verdict : List α → Option ν) : List (List α) → List α → List α × List (List α)
  | [], buf => (buf, [])
  | chunk :: chunks, buf =>
    match verdict buf with
    | some _ => (buf, chunk :: chunks)
    | none => read verdict chunks (buf ++ chunk)

variable {verdict : List α → Option ν}

theorem read_cons_some {buf : List α} {v : ν} (h : verdict buf = some v) (chunk : List α)
    (chunks : List (List α)) : read verdict (chunk :: chunks) buf = (buf, chunk :: chunks) := by
  rw [read, h]

theorem read_cons_none {buf : List α} (h : verdict buf = none) (chunk : List α)
    (chunks : List (List α)) :
    read verdict (chunk :: chunks) buf = read verdict chunks (buf ++ chunk) := by
  rw [read, h]

theorem read_append (verdict : List α → Option ν) (chunks : List (List α)) (buf : List α) :
    (read verdict chunks buf).1 ++ (read verdict chunks buf).2.flatten =
      buf ++ chunks.flatten := by
  induction chunks generalizing buf with
  | nil => rfl
  | cons chunk chunks ih =>
    rcases h : verdict buf with _ | v
    · rw [read_cons_none h, ih, flatten_cons, append_assoc]
    · rw [read_cons_some h]

theorem verdict_read (hs : Stands verdict) (chunks : List (List α)) (buf : List α) :
    verdict (read verdict chunks buf).1 = verdict (buf ++ chunks.flatten) := by
  induction chunks generalizing buf with
  | nil => rw [read, flatten_nil, append_nil]
  | cons chunk chunks ih =>
    rcases h : verdict buf with _ | v
    · rw [read_cons_none h, ih, flatten_cons, append_assoc]
    · rw [read_cons_some h, h, hs buf _ v h]

end Incremental
