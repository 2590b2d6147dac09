import Mathlib.Data.List.DropRight
import Mathlib.Data.Set.Insert

/-!
# Host names and host patterns

The one host-matching rule server and client share: folding a name (`normalizeHost`) and a pattern
(`normalizePattern`), the matcher (`hostMatches`) and the check that refuses a pattern where it is
configured (`patternError`).

The rule has three shapes of pattern, a name, a dotted wildcard and the
catch-all, and `reach` says which hosts each of them is for. A folded pattern
that has none of the three shapes matches nothing. Coverage of one pattern by
another is then inclusion of the sets, which is how the reload decides whether
an edited list took a host away.
-/

namespace Nexapipe.Host

def stripChar (c : Char) : List Char → Option (List Char)
  | [] => none
  | x :: rest => if x = c then some rest else none

open List

theorem stripChar_eq_some {c : Char} {s rest : List Char} :
    stripChar c s = some rest ↔ s = c :: rest := by
  rcases s with _ | ⟨x, xs⟩
  · exact ⟨nofun, nofun⟩
  simp only [stripChar]
  by_cases h : x = c
  · rw [if_pos h, h, Option.some_inj, cons_inj_right]
  · rw [if_neg h]
    exact ⟨nofun, fun heq => absurd (cons.inj heq).1 h⟩

/-- Compares host names the way DNS does: case-insensitively, without trailing
    dots and without the brackets of an address literal. -/
def normalizeHost (host : List Char) : List Char :=
  -- The dots go first, so brackets behind a trailing dot are still stripped.
  let host := host.rdropWhile (· = '.')
  let host := (host.dropWhile fun c => c = '[' ∨ c = ']').rdropWhile fun c => c = '[' ∨ c = ']'
  host.map Char.toLower

/-- The folded form of a pattern. A spelling that would fold into the catch-all
    keeps its own shape, so that it matches nothing rather than everything. -/
def normalizePattern (pattern : List Char) : List Char :=
  let folded := normalizeHost pattern
  if folded = ['*'] ∧ pattern ≠ ['*'] then pattern.map Char.toLower else folded

def hostMatches (pattern host : List Char) : Bool :=
  match stripChar '*' pattern with
  | none => pattern = host
  | some [] => true
  | some rest =>
    match (stripChar '.' rest).bind fun suffix => host.dropSuffix? suffix with
    -- The suffix has to start at a label: the bare suffix itself is not under the wildcard.
    | some front => front.getLast? = some '.'
    | none => false

def catchAllMessage (pattern : String) : String :=
  s!"\"{pattern}\" is the catch-all \"*\" in another spelling, and that means every host: " ++
    "write \"*\" for every host, or a name for the host you mean"

def patternError (pattern : String) : Option String :=
  let chars := pattern.toList
  if chars = [] then
    some "is empty; name the host, or use \"*\" for every host"
  else if chars.rdropWhile (· = '.') = [] then
    some "is empty; name the host, or use \"*\" for every host"
  else
    match (stripChar '.' chars).filter (· ≠ []) with
    | some rest =>
      let rest := String.ofList rest
      some (s!"\"{pattern}\" starts with a dot, which is the suffix spelling a resolver uses " ++
        s!"and not a pattern: write \"{rest}\" for that host, or \"*.{rest}\" for its subdomains")
    | none =>
      -- A spelling such as `*.` or `[*]` folds to the catch-all, and is refused by name.
      if '*' ∈ chars ∧ chars ≠ ['*'] ∧ normalizeHost chars = ['*'] then
        some (catchAllMessage pattern)
      else
        match stripChar '*' chars with
        | none => none
        | some rest =>
          match stripChar '.' rest with
          | none => if rest = [] then none else some (wildcardMessage pattern)
          | some suffix => if suffix ≠ [] then none else some (wildcardMessage pattern)
where
  /-- The refusal of a star that no dot follows. -/
  wildcardMessage (pattern : String) : String :=
    s!"\"{pattern}\" has to be \"*\" or start with \"*.\": the dot is what marks the " ++
      "label boundary, and without it the pattern also matches any host that merely " ++
      "ends in the same letters"

def hostMatchesAny (patterns : List String) (host : List Char) : Bool :=
  let host := normalizeHost host
  patterns.any fun pattern => hostMatches (normalizePattern pattern.toList) host

/-! ### What a pattern is for -/

/-- The folded hosts a folded pattern is for: the name itself for a name, every
    host for the catch-all, the names under the suffix for a dotted wildcard,
    and nothing for a star that no dot follows. -/
def reach (pattern : List Char) : Set (List Char) :=
  match stripChar '*' pattern with
  | none => {pattern}
  | some [] => Set.univ
  | some rest =>
    match stripChar '.' rest with
    | some suffix => {host | ∃ front, host = front ++ '.' :: suffix}
    | none => ∅

theorem reach_catchAll : reach ['*'] = Set.univ := rfl

theorem reach_name {pattern : List Char} (h : stripChar '*' pattern = none) :
    reach pattern = {pattern} := by
  unfold reach
  rw [h]

theorem reach_of_head {p : List Char} (h : p.head? ≠ some '*') : reach p = {p} := by
  apply reach_name
  rcases hstr : stripChar '*' p with _ | rest
  · rfl
  · rw [stripChar_eq_some.mp hstr] at h
    exact absurd rfl h

theorem dropSuffix?_dot_iff {host suffix : List Char} :
    (∃ front, host.dropSuffix? suffix = some front ∧ front.getLast? = some '.') ↔
      ∃ front, host = front ++ '.' :: suffix := by
  constructor
  · rintro ⟨front, hdr, hla⟩
    -- Both halves cut the host at the same dot, once before it and once behind.
    obtain ⟨suffix', hho, hbeq⟩ := dropSuffix?_eq_some_iff.mp hdr
    obtain ⟨init, hin⟩ := getLast?_eq_some_iff.mp hla
    refine ⟨init, ?_⟩
    rw [hho, hin, eq_of_beq hbeq, append_assoc]
    rfl
  · rintro ⟨front, hho⟩
    refine ⟨front ++ ['.'], ?_, getLast?_concat⟩
    rw [dropSuffix?_eq_some_iff]
    refine ⟨suffix, ?_, beq_self_eq_true suffix⟩
    rw [hho, append_assoc]
    rfl

theorem hostMatches_iff_mem_reach (pattern host : List Char) :
    hostMatches pattern host = true ↔ host ∈ reach pattern := by
  unfold hostMatches reach
  rcases hs : stripChar '*' pattern with _ | rest
  · rw [decide_eq_true_iff, Set.mem_singleton_iff]
    exact eq_comm
  rcases rest with _ | ⟨c, cs⟩
  · exact ⟨fun _ => Set.mem_univ host, fun _ => rfl⟩
  -- A star with more behind it matches through its suffix, and only after a dot.
  rcases hdot : stripChar '.' (c :: cs) with _ | suffix
  · simp [hdot]
  · simp only [hdot, Option.bind_some, Set.mem_ofPred_eq, ← dropSuffix?_dot_iff]
    cases host.dropSuffix? suffix <;> simp

theorem reach_wildcard_subset (head suffix : List Char) :
    reach ('*' :: '.' :: (head ++ '.' :: suffix)) ⊆ reach ('*' :: '.' :: suffix) := by
  rintro host ⟨front, hh⟩
  refine ⟨front ++ '.' :: head, ?_⟩
  rw [hh, append_assoc]
  rfl

end Nexapipe.Host
