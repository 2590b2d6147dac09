import Mathlib.Data.List.Basic

/-!
# Lines

Texts cut into lines. A line ends in a line feed with a carriage return before it, and for a reader
that is not strict about it (`bare`) in any line feed. The two readings of one text differ where a
line feed stands by itself, which is what a text that is checked by one reader and understood by
another has to be looked at for.

A head is the lines of a text up to the first empty one.
-/

namespace Lines

open List Nat

variable {α : Type}

def unlines (cr lf : α) (ls : List (List α)) : List α :=
  ls.flatMap fun line => line ++ [cr, lf]

theorem unlines_append (cr lf : α) (ls ls' : List (List α)) :
    unlines cr lf (ls ++ ls') = unlines cr lf ls ++ unlines cr lf ls' :=
  flatMap_append

theorem exists_unlines (cr lf : α) (first : List α) (more : List (List α)) :
    ∃ text, unlines cr lf (first :: more) = text ++ [cr, lf] := by
  induction more generalizing first with
  | nil => exact ⟨first, by simp [unlines]⟩
  | cons next more ih =>
    obtain ⟨text, ht⟩ := ih next
    refine ⟨first ++ [cr, lf] ++ text, ?_⟩
    rw [append_assoc, ← ht]
    rfl

variable [DecidableEq α]

section Scan

variable (cr lf : α) (bare : Bool)

/-- Whether an element ends the line that has been read so far, which is given last element
    first. -/
def ends (acc : List α) (a : α) : Bool :=
  decide (a = lf) && (bare || decide (acc.head? = some cr))

/-- The line without the carriage return that belongs to its end. -/
def chop (acc : List α) : List α :=
  (if acc.head? = some cr then acc.tail else acc).reverse

def scan (acc : List α) : List α → List (List α) × List α
  | [] => ([], acc)
  | a :: text =>
    if ends cr lf bare acc a then
      (chop cr acc :: (scan [] text).1, (scan [] text).2)
    else scan (a :: acc) text

def lines (text : List α) : List (List α) :=
  (scan cr lf bare [] text).1

def split (text : List α) : List (List α) :=
  lines cr lf bare text ++ [(scan cr lf bare [] text).2.reverse]

def head (taken : List (List α)) (acc : List α) : List α → Option (List (List α) × List α)
  | [] => none
  | a :: text =>
    if ends cr lf bare acc a then
      if chop cr acc = [] then
        if taken = [] then head [] [] text else some (taken.reverse, text)
      else head (chop cr acc :: taken) [] text
    else head taken (a :: acc) text

end Scan

/-- Where a piece first occurs in a text. The piece is not empty. -/
def position (piece : List α) : List α → Option Nat
  | [] => none
  | a :: text =>
    if piece <+: a :: text then some 0 else (position piece text).map (· + 1)

section

variable {cr lf : α} {bare : Bool}

theorem scan_append (acc s t : List α) :
    scan cr lf bare acc (s ++ t) =
      ((scan cr lf bare acc s).1 ++ (scan cr lf bare (scan cr lf bare acc s).2 t).1,
        (scan cr lf bare (scan cr lf bare acc s).2 t).2) := by
  induction s generalizing acc with
  | nil => rfl
  | cons a s ih =>
    simp only [cons_append, scan]
    split
    · rw [ih]
      rfl
    · exact ih (a :: acc)

theorem scan_crlf (hne : cr ≠ lf) (acc : List α) :
    scan cr lf bare acc [cr, lf] = ([acc.reverse], []) := by
  have hcr : ends cr lf bare acc cr = false := by simp [ends, hne]
  have hlf : ends cr lf bare (cr :: acc) lf = true := by simp [ends]
  simp [scan, hcr, hlf, chop]

theorem scan_line_crlf (hne : cr ≠ lf) (line : List α) :
    scan cr lf bare [] (line ++ [cr, lf]) = (lines cr lf bare (line ++ [cr, lf]), []) := by
  have hl : (scan cr lf bare [] (line ++ [cr, lf])).2 = [] := by
    rw [scan_append, scan_crlf hne]
  exact Prod.ext rfl hl

variable {line acc text rest : List α} {ls h taken : List (List α)}

theorem unlines_scan (acc text : List α) :
    unlines cr lf (scan cr lf false acc text).1 ++ (scan cr lf false acc text).2.reverse =
      acc.reverse ++ text := by
  induction text generalizing acc with
  | nil => simp [scan, unlines]
  | cons a text ih =>
    rw [scan]
    split
    · rename_i hen
      -- The line feed was preceded by the carriage return the line is written without.
      simp only [ends, Bool.false_or, Bool.and_eq_true, decide_eq_true_eq] at hen
      obtain ⟨rfl, hcr⟩ := hen
      rcases acc with _ | ⟨b, acc⟩
      · exact absurd hcr (by simp)
      cases hcr
      have hre := ih []
      simp only [reverse_nil, nil_append] at hre
      simp only [unlines, flatMap_cons, chop, List.head?_cons, if_true, tail_cons,
        reverse_cons, append_assoc, cons_append, nil_append] at hre ⊢
      rw [hre]
    · rw [ih]
      simp

theorem unlines_lines (cr lf : α) (text : List α) :
    unlines cr lf (lines cr lf false text) ++ (scan cr lf false [] text).2.reverse = text := by
  rw [lines, unlines_scan]
  rfl

theorem scan_of_fst_eq_nil {s : List α} (h : (scan cr lf bare acc s).1 = []) :
    scan cr lf bare acc s = ([], s.reverse ++ acc) := by
  induction s generalizing acc with
  | nil => rfl
  | cons a s ih =>
    rw [scan] at h ⊢
    split at h
    · exact absurd h (by simp)
    rename_i he
    rw [if_neg he, ih h]
    simp

theorem lines_of_scan (acc : List α) (hacc : lines cr lf false acc.reverse = []) (text : List α) :
    (∀ line ∈ (scan cr lf false acc text).1, lines cr lf false line = [])
      ∧ lines cr lf false (scan cr lf false acc text).2.reverse = [] := by
  induction text generalizing acc with
  | nil => exact ⟨fun line hli => absurd hli (by simp [scan]), hacc⟩
  | cons a text ih =>
    rw [scan]
    split
    · rename_i hen
      simp only [ends, Bool.false_or, Bool.and_eq_true, decide_eq_true_eq] at hen
      obtain ⟨hmo, hla⟩ := ih [] rfl
      refine ⟨fun line hli => ?_, hla⟩
      rcases mem_cons.mp hli with rfl | hli
      · rcases acc with _ | ⟨b, acc⟩
        · exact absurd hen.2 (by simp)
        rw [lines, reverse_cons, scan_append] at hacc
        rw [chop, if_pos hen.2, tail_cons, lines]
        exact (append_eq_nil_iff.mp hacc).1
      · exact hmo line hli
    · rename_i hen
      have hop := scan_of_fst_eq_nil hacc
      refine ih (a :: acc) ?_
      rw [reverse_cons, lines, scan_append, hop]
      simp [scan, hen]

theorem lines_of_mem_lines (h : line ∈ lines cr lf false text) : lines cr lf false line = [] :=
  (lines_of_scan [] rfl text).1 line h

theorem scan_crlf_of_lines_eq_nil (hne : cr ≠ lf) (h : lines cr lf bare line = []) :
    scan cr lf bare [] (line ++ [cr, lf]) = ([line], []) := by
  rw [scan_append, scan_of_fst_eq_nil h, scan_crlf hne]
  simp

theorem split_unlines (hne : cr ≠ lf) (hls : ∀ line ∈ ls, lines cr lf bare line = [])
    (hr : lines cr lf bare rest = []) :
    split cr lf bare (unlines cr lf ls ++ rest) = ls ++ [rest] := by
  have hs : scan cr lf bare [] (unlines cr lf ls ++ rest) = (ls, rest.reverse) := by
    induction ls with
    | nil =>
      rw [unlines, flatMap_nil, nil_append, scan_of_fst_eq_nil hr, append_nil]
    | cons line ls ih =>
      rw [forall_mem_cons] at hls
      have hm := ih hls.2
      rw [unlines] at hm
      rw [unlines, flatMap_cons, append_assoc, scan_append,
        scan_crlf_of_lines_eq_nil hne hls.1, hm]
      rfl
  rw [split, lines, hs, reverse_reverse]

theorem lines_ne_nil (hne : cr ≠ lf) (s t : List α) :
    lines cr lf bare (s ++ cr :: lf :: t) ≠ [] := by
  rw [show s ++ cr :: lf :: t = s ++ ([cr, lf] ++ t) from rfl, lines, scan_append, scan_append,
    scan_crlf hne]
  simp

theorem head_of_lines_eq_nil (hli : lines cr lf bare line = []) (taken : List (List α))
    (rest : List α) :
    head cr lf bare taken [] (line ++ rest) = head cr lf bare taken line.reverse rest := by
  have hmo : ∀ acc, (scan cr lf bare acc line).1 = [] →
      head cr lf bare taken acc (line ++ rest)
        = head cr lf bare taken (line.reverse ++ acc) rest := by
    clear hli
    induction line with
    | nil =>
      intro acc _
      rfl
    | cons a line ih =>
      intro acc hacc
      rw [scan] at hacc
      split at hacc
      · exact absurd hacc (by simp)
      rename_i hen
      rw [cons_append, head, if_neg hen, ih (a :: acc) hacc]
      simp
  simpa using hmo [] hli

theorem head_crlf (hne : cr ≠ lf) (taken : List (List α)) (acc rest : List α) :
    head cr lf bare taken acc (cr :: lf :: rest) =
      if acc = [] then if taken = [] then head cr lf bare [] [] rest else some (taken.reverse, rest)
      else head cr lf bare (acc.reverse :: taken) [] rest := by
  have hcr : ends cr lf bare acc cr = false := by simp [ends, hne]
  have hlf : ends cr lf bare (cr :: acc) lf = true := by simp [ends]
  simp [head, hcr, hlf, chop]

theorem head_unlines (hne : cr ≠ lf) (hsin : ∀ line ∈ ls, lines cr lf bare line = [])
    (hso : ∀ line ∈ ls, line ≠ []) (taken : List (List α)) (htak : taken.reverse ++ ls ≠ []) :
    head cr lf bare taken [] (unlines cr lf ls ++ cr :: lf :: rest)
      = some (taken.reverse ++ ls, rest) := by
  induction ls generalizing taken with
  | nil =>
    have htak : taken ≠ [] := by simpa using htak
    rw [unlines, flatMap_nil, nil_append, head_crlf hne, if_pos rfl, if_neg htak]
    simp
  | cons line ls ih =>
    rw [forall_mem_cons] at hsin hso
    have hli : line.reverse ≠ [] := by simpa using hso.1
    have hre := ih hsin.2 hso.2 (line :: taken) (by simp)
    rw [unlines, flatMap_cons, append_assoc, append_assoc,
      head_of_lines_eq_nil hsin.1]
    simp only [cons_append, nil_append]
    rw [head_crlf hne, if_neg hli, reverse_reverse]
    rw [unlines] at hre
    rw [hre]
    simp

theorem head_nil_crlf (hne : cr ≠ lf) (rest : List α) :
    head cr lf bare [] [] (cr :: lf :: rest) = head cr lf bare [] [] rest := by
  rw [head_crlf hne, if_pos rfl, if_pos rfl]

theorem length_of_head (hh : head cr lf bare taken acc text = some (h, rest)) :
    rest.length < text.length := by
  revert hh
  fun_induction head cr lf bare taken acc text with
  | case1 => rintro ⟨⟩
  | case3 =>
    rintro ⟨⟩
    exact lt_succ_self _
  | case2 | case4 | case5 =>
    rename_i ih
    exact fun hh => lt_succ_of_lt (ih hh)

end

section Position

variable {piece : List α}

theorem position_eq_some_iff (hpi : piece ≠ []) {text : List α} {n : Nat} :
    position piece text = some n ↔
      piece <+: text.drop n ∧ ∀ m < n, ¬piece <+: text.drop m := by
  induction text generalizing n with
  | nil => simp [position, hpi]
  | cons a text ih =>
    rw [position]
    by_cases hhe : piece <+: a :: text
    · rw [if_pos hhe]
      constructor
      · rintro ⟨⟩
        exact ⟨hhe, fun m hm => absurd hm (not_lt_zero m)⟩
      · rintro ⟨-, hfst⟩
        rcases n with _ | n
        · rfl
        · exact absurd hhe (hfst 0 (succ_pos n))
    · rw [if_neg hhe]
      rcases n with _ | n
      · simp [hhe]
      rw [Option.map_eq_some_iff]
      constructor
      · rintro ⟨k, hk, heq⟩
        obtain rfl : k = n := Nat.succ.inj heq
        obtain ⟨hat, hfst⟩ := ih.mp hk
        refine ⟨hat, fun m hm => ?_⟩
        rcases m with _ | m
        · exact hhe
        · exact hfst m (lt_of_succ_lt_succ hm)
      · rintro ⟨hat, hfst⟩
        exact ⟨n, ih.mpr ⟨hat, fun m hm => hfst (m + 1) (succ_lt_succ hm)⟩, rfl⟩

theorem position_append_of_some (hp : piece ≠ []) {s : List α} {n : Nat}
    (h : position piece s = some n) (t : List α) : position piece (s ++ t) = some n := by
  obtain ⟨hat, hfst⟩ := (position_eq_some_iff hp).mp h
  have hn : n + piece.length ≤ s.length := by
    have := hat.length_le
    have := length_pos_iff.mpr hp
    rw [length_drop] at *
    omega
  refine (position_eq_some_iff hp).mpr ⟨?_, fun m hm hbef => hfst m hm ?_⟩
  · rw [drop_append_of_le_length (by omega)]
    exact hat.trans (prefix_append _ _)
  · rw [drop_append_of_le_length (by omega)] at hbef
    refine prefix_of_prefix_length_le hbef (prefix_append _ _) ?_
    rw [length_drop]
    omega

theorem position_append (hpi : piece ≠ []) {s : List α} (h : position piece s = none) {k : Nat}
    (hk : k + piece.length ≤ s.length + 1) (t : List α) :
    position piece (s ++ t) = (position piece (s.drop k ++ t)).map (k + ·) := by
  induction k generalizing s with
  | zero => simp
  | succ k ih =>
    rcases s with _ | ⟨a, s⟩
    · have := length_pos_iff.mpr hpi
      simp only [length_nil] at hk
      omega
    rw [position] at h
    split at h
    · exact absurd h (by simp)
    rename_i hhe
    have hnot : ¬piece <+: a :: (s ++ t) := fun hpre =>
      hhe (prefix_of_prefix_length_le hpre
        (prefix_append (a :: s) t) (by simp only [length_cons] at hk ⊢; omega))
    rw [cons_append, position, if_neg hnot,
      ih (Option.map_eq_none_iff.mp h) (by simp only [length_cons] at hk; omega),
      Option.map_map, drop_succ_cons]
    congr 1
    funext n
    simp only [Function.comp]
    omega

end Position

theorem lines_take_position (cr lf : α) (hne : cr ≠ lf) {text : List α} {n : Nat}
    (h : position [cr, lf, cr, lf] text = some n) :
    ∃ first more, lines cr lf false (text.take (n + 4)) = first :: more ++ [[]]
      ∧ (∀ line ∈ more, line ≠ [])
      ∧ text.take (n + 4) = unlines cr lf (first :: more) ++ [cr, lf] := by
  obtain ⟨hat, hfst⟩ := (position_eq_some_iff (by simp)).mp h
  have hbloc : text.take (n + 4) = (text.take n ++ [cr, lf]) ++ [cr, lf] := by
    rw [take_add, append_assoc]
    congr 1
    obtain ⟨rest, hrest⟩ := hat
    rw [← hrest]
    rfl
  have hscan : scan cr lf false [] (text.take n ++ [cr, lf])
      = (lines cr lf false (text.take n ++ [cr, lf]), []) := scan_line_crlf hne (text.take n)
  have hlin : lines cr lf false (text.take (n + 4))
      = lines cr lf false (text.take n ++ [cr, lf]) ++ [[]] := by
    rw [hbloc, lines, scan_append, hscan, scan_crlf hne]
    rfl
  have hjoin : unlines cr lf (lines cr lf false (text.take n ++ [cr, lf]))
      = text.take n ++ [cr, lf] := by
    have := unlines_lines cr lf (text.take n ++ [cr, lf])
    rwa [hscan, reverse_nil, append_nil] at this
  rcases hls : lines cr lf false (text.take n ++ [cr, lf]) with _ | ⟨first, more⟩
  · rw [hls] at hjoin
    exact absurd hjoin.symm (by simp [unlines])
  rw [hls] at hjoin hlin
  refine ⟨first, more, hlin, fun line hline hnil => ?_, by rw [hjoin, hbloc]⟩
  -- An empty line among them would be an earlier occurrence of the piece.
  obtain ⟨before, after, rfl⟩ := append_of_mem hline
  obtain ⟨front, hfr⟩ := exists_unlines cr lf first before
  have hear :
      front ++ ([cr, lf, cr, lf] ++ unlines cr lf after) = text.take n ++ [cr, lf] := by
    rw [← hjoin, hnil, ← cons_append, unlines_append, hfr]
    simp [unlines]
  have hlen := congrArg List.length hear
  simp only [length_append, length_cons, length_nil, length_take] at hlen
  refine hfst front.length (by omega) ?_
  have hstar : front ++ ([cr, lf, cr, lf] ++ unlines cr lf after) <+: text := by
    rw [hear]
    refine List.IsPrefix.trans ?_ ⟨text.drop (n + 4), take_append_drop _ _⟩
    rw [hbloc]
    exact prefix_append _ _
  obtain ⟨rest, hrest⟩ := hstar
  rw [← hrest, append_assoc, drop_left]
  simp

end Lines
