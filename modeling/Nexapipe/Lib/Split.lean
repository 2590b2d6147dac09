import Mathlib.Data.List.DropRight

/-!
# Cutting text

The operations a program's standard library has for taking a text apart: at the
first or the last occurrence of a character, at every occurrence, and reading a
number out of what is left. Texts are lists of characters.
-/

namespace Text

open List

def splitOnce (c : Char) (s : List Char) : Option (List Char × List Char) :=
  match s.dropWhile (· ≠ c) with
  | [] => none
  | _ :: rest => some (s.takeWhile (· ≠ c), rest)

def rsplitOnce (c : Char) (s : List Char) : Option (List Char × List Char) :=
  (splitOnce c s.reverse).map fun p => (p.2.reverse, p.1.reverse)

def split (c : Char) : List Char → List (List Char)
  | [] => [[]]
  | x :: rest =>
    if x = c then [] :: split c rest
    else
      match split c rest with
      | piece :: pieces => (x :: piece) :: pieces
      | [] => [[x]]

def digitVal (c : Char) : Option Nat :=
  if '0' ≤ c ∧ c ≤ '9' then some (c.toNat - '0'.toNat) else none

def digitsVal : Nat → List Char → Option Nat
  | acc, [] => some acc
  | acc, c :: rest =>
    match digitVal c with
    | some d => digitsVal (10 * acc + d) rest
    | none => none

/-- An unsigned number in decimal that is at most `max`. One leading plus sign is
    accepted, and a number has at least one digit. -/
def parseNat (max : Nat) (s : List Char) : Option Nat :=
  let digits := match s with
    | '+' :: rest => rest
    | _ => s
  match digits with
  | [] => none
  | _ :: _ => (digitsVal 0 digits).filter (· ≤ max)

def eqIgnoreCase (a b : List Char) : Bool :=
  a.map Char.toLower = b.map Char.toLower

/-- Another text for every occurrence of a piece, once the given number of characters
    has been left out. -/
def replaceFrom (piece with' : List Char) : Nat → List Char → List Char
  | _, [] => []
  | skip + 1, _ :: rest => replaceFrom piece with' skip rest
  | 0, c :: rest =>
    if piece <+: c :: rest then with' ++ replaceFrom piece with' (piece.length - 1) rest
    else c :: replaceFrom piece with' 0 rest

/-- Another text for every occurrence of a piece, from the left and without overlaps.
    The piece is not empty. -/
def replace (piece with' : List Char) (s : List Char) : List Char :=
  replaceFrom piece with' 0 s

def EndsWith (piece s : List Char) : Prop :=
  ∃ base, s = base ++ piece ∧ ∀ k < base.length, ¬piece <+: s.drop k

theorem replaceFrom_of_length_le (piece with' : List Char) (skip : Nat) (s : List Char)
    (h : s.length ≤ skip) : replaceFrom piece with' skip s = [] := by
  induction s generalizing skip with
  | nil => unfold replaceFrom; rfl
  | cons c rest ih =>
    rcases skip with _ | skip
    · simp at h
    · unfold replaceFrom
      exact ih skip (by simpa using h)

theorem replace_end {piece : List Char} (hp : piece ≠ []) (with' base : List Char)
    (ho : ∀ k < base.length, ¬piece <+: (base ++ piece).drop k) :
    replace piece with' (base ++ piece) = base ++ with' := by
  unfold replace
  induction base with
  | nil =>
    obtain ⟨c, rest, rfl⟩ := exists_cons_of_ne_nil hp
    rw [nil_append, replaceFrom, if_pos (prefix_refl _),
      replaceFrom_of_length_le _ _ _ _ (by simp), append_nil, nil_append]
  | cons c base ih =>
    have hfst : ¬piece <+: c :: (base ++ piece) := ho 0 (by simp)
    rw [cons_append, replaceFrom, if_neg hfst, cons_append, ih]
    intro k hk
    exact ho (k + 1) (by simpa using hk)

end Text
