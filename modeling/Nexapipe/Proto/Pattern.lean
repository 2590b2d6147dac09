import Nexapipe.Proto.Fold

/-!
# What a pattern matches

The rule has three shapes of pattern: a lone star for every host, a star and a dot for
the names below a suffix, and a name for itself. `meant` is that rule over folded
names, and `patternError` is to accept the patterns it applies to.

Matching folds the pattern as it folds a host, brackets included, and looks for the star
afterwards. The check looks for the star in the pattern as it was written. The two disagree on a
star behind a bracket: it is accepted as a name and matched as a wildcard. They also disagree on a
wildcard whose suffix begins with a bracket, which stands in the middle of the pattern and is not
stripped. And a name with a dot right inside a closing bracket keeps that dot (`PlainShape`,
`pattern_meaning_iff`).

A refused pattern is to match nothing. One that begins with a dot, and one that is empty, is a name
like any other to the matcher and matches itself.
-/

namespace Nexapipe.Host

open List Trim

/-! ### The rule -/

/-- The hosts a pattern is for. Names are compared as they are when neither brackets nor trailing
    dots are left of them, in whatever order they stand. -/
def meant : List Char → Set (List Char)
  | ['*'] => Set.univ
  | '*' :: '.' :: s => {host | ∃ front, fullFold host = front ++ '.' :: fullFold s}
  | p => {host | fullFold host = fullFold p}

/-- No star stands behind leading brackets, no bracket behind the dot of a wildcard, and no dot
    right inside a closing bracket. A wildcard with nothing but brackets and dots for a suffix
    is for no host. -/
def PlainShape : List Char → Prop
  | '*' :: '.' :: s => fullFold s = [] ∨ ¬DotInside s ∧ s.head?.any bracket = false
  | '*' :: _ => True
  | p => ¬DotInside p ∧ (p.dropWhile bracket).head? ≠ some '*'

structure Accepted (p : List Char) : Prop where
  named : ∃ c ∈ p, dot c = false
  undotted : p.head? ≠ some '.'
  no_catchAll : normalizeHost p = ['*'] → p = ['*']
  dotted : ∀ rest, p = '*' :: rest → rest = [] ∨ ∃ s, s ≠ [] ∧ rest = '.' :: s

variable {c : Char} {p rest s : List Char} {pattern : String}

theorem bare_append_cons {l : List Char} (hl : ∀ d ∈ l, bracket d = true)
    (hb : bracket c = false) (hdot : dot c = false) (rest : List Char) :
    bare (l ++ c :: rest) = c :: (rest.rdropWhile dot).rdropWhile bracket := by
  unfold bare strip
  rw [rdropWhile_append_cons hdot, dropWhile_append_of_pos hl,
    dropWhile_cons_of_neg (by rw [hb]; decide)]
  exact rdropWhile_append_cons hb [] _

theorem mem_of_mem_bare {host : List Char} (h : c ∈ bare host) : c ∈ host := by
  rcases exists_bare host with ⟨l, r, w, heq, -⟩
  rw [heq]
  simp [h]

theorem bare_eq_star (h : normalizeHost p = ['*']) : bare p = ['*'] := by
  rw [normalizeHost_eq] at h
  rcases map_eq_singleton_iff.mp h with ⟨c, hc, hlow⟩
  rw [Ascii.toLower_eq_iff (by decide)] at hlow
  rw [hc, hlow]

theorem star_toLower : Char.toLower '*' = '*' := by decide

theorem dot_toLower : Char.toLower '.' = '.' := by decide

theorem normalizeHost_star_dots (hd : ∀ c ∈ rest, dot c = true) :
    normalizeHost ('*' :: rest) = ['*'] := by
  have hb : bare ('*' :: rest) = ['*'] := by
    have hf := bare_append_cons (l := []) (c := '*') (by simp) (by decide) (by decide) rest
    rw [rdropWhile_eq_nil_iff.mpr hd] at hf
    exact hf
  rw [normalizeHost_eq, hb, map_singleton, star_toLower]

/-! ### The check -/

theorem exists_not_dot_iff : (∃ c ∈ p, dot c = false) ↔ p.rdropWhile (· = '.') ≠ [] := by
  simp [dot]

theorem stripChar_dot_filter (h : p.rdropWhile (· = '.') ≠ []) :
    (stripChar '.' p).filter (· ≠ []) = none ↔ p.head? ≠ some '.' := by
  rcases p with _ | ⟨c, rest⟩
  · simp at h
  by_cases hc : c = '.'
  · subst hc
    have hr : rest ≠ [] := by
      rintro rfl
      exact h (by decide)
    simp [stripChar, hr]
  · simp [stripChar, hc]

theorem dotted_iff {message : String} :
    (match stripChar '*' p with
      | none => none
      | some rest =>
        match stripChar '.' rest with
        | none => if rest = [] then none else some message
        | some suffix => if suffix ≠ [] then none else some message) = none ↔
      ∀ rest, p = '*' :: rest → rest = [] ∨ ∃ s, s ≠ [] ∧ rest = '.' :: s := by
  rcases hst : stripChar '*' p with _ | rest
  · refine ⟨fun _ rest hre => ?_, fun _ => rfl⟩
    rw [stripChar_eq_some.mpr hre] at hst
    cases hst
  rw [stripChar_eq_some] at hst
  subst hst
  rcases hdot : stripChar '.' rest with _ | suffix
  · simp only [hdot, ite_eq_left_iff, reduceCtorEq, imp_false, not_not, cons.injEq,
      true_and, forall_eq']
    refine ⟨.inl, ?_⟩
    rintro (rfl | ⟨s, -, rfl⟩)
    · rfl
    · cases hdot
  · rw [stripChar_eq_some] at hdot
    subst hdot
    simp [stripChar]

theorem patternError_eq_none_iff (pattern : String) :
    patternError pattern = none ↔ Accepted pattern.toList := by
  unfold patternError
  generalize pattern.toList = p
  by_cases hdo : p.rdropWhile (· = '.') = []
  · -- Nothing but dots, or nothing at all.
    have href : ¬Accepted p := fun h => exists_not_dot_iff.mp h.named hdo
    by_cases hnil : p = []
    · simp only [hnil, if_true, reduceCtorEq, false_iff]
      rw [← hnil]
      exact href
    · simp only [hnil, if_false, hdo, if_true, reduceCtorEq, href]
  · have hnil : p ≠ [] := by
      rintro rfl
      exact hdo rfl
    simp only [hnil, if_false, hdo]
    by_cases hhe : p.head? = some '.'
    · have hso : (stripChar '.' p).filter (· ≠ []) ≠ none := by
        rw [ne_eq, stripChar_dot_filter hdo]
        exact not_not.mpr hhe
      rcases Option.ne_none_iff_exists'.mp hso with ⟨rest, hre⟩
      simp only [hre, reduceCtorEq, false_iff]
      exact fun h => h.undotted hhe
    · rw [(stripChar_dot_filter hdo).mpr hhe]
      by_cases hfo : '*' ∈ p ∧ p ≠ ['*'] ∧ normalizeHost p = ['*']
      · simp only [hfo, if_true, reduceCtorEq, false_iff, and_self, ne_eq, not_false_eq_true]
        exact fun h => hfo.2.1 (h.no_catchAll hfo.2.2)
      simp only [hfo, if_false]
      refine dotted_iff.trans ?_
      refine ⟨fun h => ⟨exists_not_dot_iff.mpr hdo, hhe, ?_, h⟩, fun h => h.dotted⟩
      intro hcat
      by_contra hne
      refine hfo ⟨mem_of_mem_bare ?_, hne, hcat⟩
      rw [bare_eq_star hcat]
      exact mem_singleton_self _

/-! ### What is matched -/

theorem hostMatchesAny_singleton (pattern : String) (host : List Char) :
    hostMatchesAny [pattern] host = true ↔
      normalizeHost host ∈ reach (normalizePattern pattern.toList) := by
  unfold hostMatchesAny
  rw [any_cons, any_nil, Bool.or_false, hostMatches_iff_mem_reach]

theorem normalizePattern_of_ne (h : normalizeHost p ≠ ['*']) :
    normalizePattern p = normalizeHost p :=
  if_neg fun hc => h hc.1

theorem normalizePattern_of_catchAll (h : normalizeHost p = ['*']) (hp : p ≠ ['*']) :
    normalizePattern p = p.map Char.toLower :=
  if_pos ⟨h, hp⟩

theorem reach_loose (hc : c ≠ '.') (rest : List Char) : reach ('*' :: c :: rest) = ∅ := by
  simp [reach, stripChar, hc]

/-! ### The suffix of a wildcard -/

def trimmedBehind (s : List Char) : List Char :=
  (s.rdropWhile dot).rdropWhile bracket

theorem bare_cons_dot (hb : bracket c = false) (hdot : dot c = false)
    (h : ∃ d ∈ s, dot d = false) : bare (c :: '.' :: s) = c :: '.' :: trimmedBehind s := by
  have hf := bare_append_cons (l := []) (by simp) hb hdot ('.' :: s)
  have hd : ('.' :: s).rdropWhile dot = '.' :: s.rdropWhile dot :=
    rdropWhile_append_of_exists h ['.']
  have hbr : ('.' :: s.rdropWhile dot).rdropWhile bracket = '.' :: trimmedBehind s :=
    rdropWhile_append_cons (by decide) [] _
  rw [nil_append, hd, hbr] at hf
  exact hf

theorem head_trimmedBehind (h : (trimmedBehind s).head? = some c) : s.head? = some c :=
  head_rdropWhile (head_rdropWhile h)

theorem trimmedBehind_eq_bare (h : s.head?.any bracket = false) : trimmedBehind s = bare s := by
  unfold trimmedBehind bare strip
  rw [dropWhile_of_head]
  intro c hc
  have hnot := h
  rw [head_rdropWhile hc] at hnot
  exact hnot

theorem length_bare_le_trimmedBehind (s : List Char) :
    (bare s).length ≤ (trimmedBehind s).length :=
  length_rdropWhile_dropWhile_le bracket _

theorem length_fullFold_le_trimmedBehind (s : List Char) :
    (fullFold s).length ≤ (trimmedBehind s).length := by
  rcases exists_rdropWhile dot s with ⟨w, hw, hwdot⟩
  rcases exists_rdropWhile bracket (s.rdropWhile dot) with ⟨v, hv, hvbr⟩
  have hs : s.rdropWhile (fun c => bracket c || dot c) =
      (trimmedBehind s).rdropWhile fun c => bracket c || dot c := by
    conv_lhs => rw [hw, rdropWhile_append_all _ fun c hc => by rw [hwdot c hc, Bool.or_true],
      hv, rdropWhile_append_all _ fun c hc => by rw [hvbr c hc, Bool.true_or]]
    rfl
  calc (fullFold s).length
    _ ≤ (s.rdropWhile fun c => bracket c || dot c).length := by
      rw [fullFold, length_map]
      exact length_rdropWhile_dropWhile_le _ s
    _ ≤ (trimmedBehind s).length := by
      rw [hs]
      exact ( rdropWhile_prefix _ _).length_le

theorem last_trimmedBehind (h : fullFold s = []) (hc : (trimmedBehind s).getLast? = some c) :
    c = '.' := by
  have hmem : c ∈ s :=
    ( rdropWhile_prefix _ _).subset (( rdropWhile_prefix _ _).subset (mem_of_getLast? hc))
  have hbr : bracket c = false := last_rdropWhile hc
  rw [fullFold, map_eq_nil_iff, rdropWhile_eq_nil_iff] at h
  rcases exists_dropWhile bracket s with ⟨l, hl, hlb⟩
  rw [hl] at hmem
  rcases mem_append.mp hmem with hin | hin
  · rw [hlb c hin] at hbr
    cases hbr
  · have hq := h c hin
    rw [hbr, Bool.false_or, dot, decide_eq_true_iff] at hq
    exact hq

/-! ### Names that are folded all the way -/

section

variable {host : List Char}

theorem last_fullFold (h : (fullFold host).getLast? = some c) : (bracket c || dot c) = false := by
  rw [fullFold, getLast?_map, Option.map_eq_some_iff] at h
  rcases h with ⟨d, hd, rfl⟩
  have hq := last_rdropWhile hd
  rwa [← bracket_comp_toLower, ← dot_comp_toLower] at hq

theorem head_fullFold (h : (fullFold host).head? = some c) : bracket c = false := by
  rw [fullFold, head?_map, Option.map_eq_some_iff] at h
  rcases h with ⟨d, hd, rfl⟩
  have hb : bracket d = false := head_dropWhile (head_rdropWhile hd)
  rwa [← bracket_comp_toLower] at hb

theorem fullFold_ne_append {front t : List Char} (ht : t.getLast? = some '.') :
    fullFold host ≠ front ++ t := by
  intro heq
  have hne : t ≠ [] := by
    rintro rfl
    cases ht
  have hlast : (fullFold host).getLast? = some '.' := by
    rw [heq, getLast?_append_of_ne_nil _ hne, ht]
  cases last_fullFold hlast

theorem not_dotInside_of_last (h : ∀ c ∈ host.getLast?, (bracket c || dot c) = false) :
    ¬DotInside host := by
  rintro ⟨u, v, w, rfl, hne, hv, hw⟩
  rcases w.eq_nil_or_concat' with rfl | ⟨w, c, rfl⟩
  · rcases v.eq_nil_or_concat' with rfl | ⟨v, c, rfl⟩
    · exact hne rfl
    · have hc := h c (by simp [getLast?_append, getLast?_cons])
      rw [hv c (by simp), Bool.true_or] at hc
      cases hc
  · have hc := h c (by simp [getLast?_append, getLast?_cons])
    rw [hw c (by simp), Bool.or_true] at hc
    cases hc

theorem fullFold_of_ends (hh : ∀ c ∈ host.head?, bracket c = false)
    (hl : ∀ c ∈ host.getLast?, (bracket c || dot c) = false) :
    fullFold host = host.map Char.toLower := by
  rw [fullFold, dropWhile_of_head hh, rdropWhile_of_last hl]

theorem map_toLower_fullFold (host : List Char) :
    (fullFold host).map Char.toLower = fullFold host :=
  Ascii.map_toLower_map_toLower _

theorem fullFold_fullFold (host : List Char) : fullFold (fullFold host) = fullFold host := by
  rw [fullFold_of_ends (fun c hc => head_fullFold hc) fun c hc => last_fullFold hc,
    map_toLower_fullFold]

theorem not_dotInside_fullFold (host : List Char) : ¬DotInside (fullFold host) :=
  not_dotInside_of_last fun _ hc => last_fullFold hc

end

/-! ### The three shapes -/

section

variable {pattern : String}

variable {s : List Char}

theorem wildcard_matches_iff (hp : pattern.toList = '*' :: '.' :: s) (hs : ∃ c ∈ s, dot c = false)
    (host : List Char) :
    hostMatchesAny [pattern] host = true ↔
      ∃ front, normalizeHost host = front ++ '.' :: (trimmedBehind s).map Char.toLower := by
  have hf : normalizeHost pattern.toList =
      '*' :: '.' :: (trimmedBehind s).map Char.toLower := by
    rw [normalizeHost_eq, hp, bare_cons_dot (by decide) (by decide) hs, map_cons,
      map_cons, star_toLower, dot_toLower]
  have hne : normalizeHost pattern.toList ≠ ['*'] := by
    rw [hf]
    simp
  rw [hostMatchesAny_singleton, normalizePattern_of_ne hne, hf]
  exact Iff.rfl

theorem wildcard_meaning_iff (hp : pattern.toList = '*' :: '.' :: s) (hs : ∃ c ∈ s, dot c = false) :
    (∀ host, ¬DotInside host → (hostMatchesAny [pattern] host = true ↔
        ∃ front, fullFold host = front ++ '.' :: fullFold s)) ↔
      fullFold s = [] ∨ ¬DotInside s ∧ s.head?.any bracket = false := by
  simp only [wildcard_matches_iff hp hs]
  constructor
  · intro h
    by_cases hnil : fullFold s = []
    · exact .inl hnil
    refine .inr ?_
    -- A name below the suffix as it is meant.
    let below : List Char := 'x' :: '.' :: fullFold s
    have hlast : ∀ c ∈ below.getLast?, (bracket c || dot c) = false := by
      intro c hc
      rw [show below = ['x', '.'] ++ fullFold s from rfl, getLast?_append_of_ne_nil _ hnil] at hc
      exact last_fullFold hc
    have hin := not_dotInside_of_last hlast
    have hfold : fullFold below = below := by
      rw [fullFold_of_ends (by rintro _ ⟨⟩; decide) hlast]
      simp only [below, map_cons, map_toLower_fullFold, dot_toLower]
      rfl
    rcases (h below hin).mpr ⟨['x'], hfold⟩ with ⟨front, hfr⟩
    rw [normalizeHost_eq_fullFold hin, hfold] at hfr
    have hle := length_fullFold_le_trimmedBehind s
    have hlen := congrArg length hfr
    simp only [below, length_append, length_cons, length_map] at hlen
    -- Only the two characters in front are there for the wildcard and its dot.
    rcases front with _ | ⟨x, _ | ⟨y, front⟩⟩
    · exact absurd (cons.inj hfr).1 (by decide)
    · have hsame : fullFold s = (trimmedBehind s).map Char.toLower := by
        rw [singleton_append, cons.injEq, cons.injEq] at hfr
        exact hfr.2.2
      have hplain : s.head?.any bracket = false := by
        rw [← Bool.not_eq_true]
        intro hbr
        rcases ht : (trimmedBehind s).head? with _ | c
        · rw [head?_eq_none_iff.mp ht] at hsame
          exact hnil hsame
        have hfirst : (fullFold s).head? = some c.toLower := by
          rw [hsame, head?_map, ht]
          rfl
        have hf := head_fullFold hfirst
        rw [show bracket c.toLower = bracket c from congrFun bracket_comp_toLower c] at hf
        rw [head_trimmedBehind ht, Option.any_some, hf] at hbr
        cases hbr
      refine ⟨fun hdot => ?_, hplain⟩
      rw [trimmedBehind_eq_bare hplain] at hsame
      have hend : ((bare s).map Char.toLower).getLast? = some '.' := by
        rw [getLast?_map, (last_bare_iff s).mpr hdot]
        rfl
      exact fullFold_ne_append hend (hsame.trans (nil_append _).symm)
    · simp only [length_cons] at hlen
      omega
  · rintro (hnil | ⟨hin, hplain⟩) host hhost
    · rw [normalizeHost_eq_fullFold hhost, hnil]
      have hno : ∀ t : List Char, (∀ c ∈ t.getLast?, c = '.') →
          ¬∃ front, fullFold host = front ++ '.' :: t := by
        rintro t ht ⟨front, hfr⟩
        refine fullFold_ne_append ?_ hfr
        rw [getLast?_cons]
        rcases hl : t.getLast? with _ | c
        · rfl
        · rw [ht c hl]
          rfl
      refine iff_of_false (hno _ ?_) (hno [] (by simp))
      intro c hc
      rw [getLast?_map, Option.mem_def, Option.map_eq_some_iff] at hc
      rcases hc with ⟨d, hd, rfl⟩
      rw [last_trimmedBehind hnil hd]
      exact dot_toLower
    · rw [normalizeHost_eq_fullFold hhost, trimmedBehind_eq_bare hplain, ← normalizeHost_eq,
        normalizeHost_eq_fullFold hin]

theorem wildcard_not_suffix (hp : pattern.toList = '*' :: '.' :: s) (hs : ∃ c ∈ s, dot c = false) :
    hostMatchesAny [pattern] s = false := by
  rw [← Bool.not_eq_true, wildcard_matches_iff hp hs]
  rintro ⟨front, hfr⟩
  have hlen := congrArg length hfr
  have hle := length_bare_le_trimmedBehind s
  rw [normalizeHost_eq] at hlen
  simp only [length_append, length_cons, length_map] at hlen
  omega

theorem last_of_mem_reach {host t : List Char} (h : host ∈ reach (t ++ ['.'])) :
    host.getLast? = some '.' := by
  rcases t with _ | ⟨c, t⟩
  · rw [nil_append, reach_of_head (by decide)] at h
    rw [h]
    rfl
  by_cases hc : c = '*'
  · subst hc
    rcases t with _ | ⟨d, t⟩
    · rcases h with ⟨front, rfl⟩
      exact getLast?_concat
    by_cases hd : d = '.'
    · subst hd
      rcases h with ⟨front, rfl⟩
      simp [getLast?_append, getLast?_cons]
    · rw [cons_append, cons_append, reach_loose hd] at h
      exact absurd h (Set.notMem_empty host)
  · rw [reach_of_head (by simpa using hc)] at h
    rw [h]
    exact getLast?_concat

theorem name_meaning_iff (hfold : normalizeHost pattern.toList ≠ ['*']) :
    (∀ host, ¬DotInside host → (hostMatchesAny [pattern] host = true ↔
        fullFold host = fullFold pattern.toList)) ↔
      ¬DotInside pattern.toList ∧ (pattern.toList.dropWhile bracket).head? ≠ some '*' := by
  simp only [hostMatchesAny_singleton, normalizePattern_of_ne hfold]
  generalize pattern.toList = p at hfold ⊢
  constructor
  · intro h
    have hin : ¬DotInside p := by
      intro hdot
      -- The name as it is meant ends in no dot, and the folded pattern does.
      have hself := (h (fullFold p) (not_dotInside_fullFold p)).mpr (fullFold_fullFold p)
      rw [normalizeHost_eq_fullFold (not_dotInside_fullFold p), fullFold_fullFold] at hself
      rcases getLast?_eq_some_iff.mp ((last_bare_iff p).mpr hdot) with ⟨t, ht⟩
      rw [normalizeHost_eq, ht, map_append, map_singleton, dot_toLower] at hself
      exact fullFold_ne_append (last_of_mem_reach hself) (nil_append _).symm
    refine ⟨hin, fun hbehind => ?_⟩
    rcases exists_dropWhile bracket p with ⟨l, hl, hbrac⟩
    rcases head?_eq_some_iff.mp hbehind with ⟨rest, hrest⟩
    rw [hrest] at hl
    have hbare : ∀ c : Char, bracket c = false → dot c = false →
        bare (l ++ c :: rest) = c :: trimmedBehind rest :=
      fun c hc hdot => bare_append_cons hbrac hc hdot rest
    have hp : normalizeHost p = '*' :: (trimmedBehind rest).map Char.toLower := by
      rw [hl, normalizeHost_eq, hbare '*' (by decide) (by decide), map_cons, star_toLower]
    rcases hbehind' : trimmedBehind rest with _ | ⟨c, tail⟩
    · rw [hbehind'] at hp
      exact hfold hp
    rw [hbehind', map_cons] at hp
    by_cases hdot : c = '.'
    · -- Matched as a wildcard: a name with something else for the star is taken.
      have hoth : normalizeHost (l ++ 'x' :: rest) = 'x' :: '.' :: tail.map Char.toLower := by
        rw [normalizeHost_eq, hbare 'x' (by decide) (by decide), hbehind', hdot]
        rfl
      have hino : ¬DotInside (l ++ 'x' :: rest) := by
        rw [← last_bare_iff, hbare 'x' (by decide) (by decide), hbehind', getLast?_cons_cons]
        rwa [← last_bare_iff, hl, hbare '*' (by decide) (by decide), hbehind',
          getLast?_cons_cons] at hin
      have htak := (h (l ++ 'x' :: rest) hino).mp (by
        rw [hp, hoth, hdot]
        exact ⟨['x'], rfl⟩)
      rw [← normalizeHost_eq_fullFold hino, ← normalizeHost_eq_fullFold hin, hoth, hp] at htak
      cases htak
    · -- Matched as a loose star: not even the name itself is taken.
      have hself := (h p hin).mpr rfl
      have hlow : c.toLower ≠ '.' := fun hc =>
        hdot ((Ascii.toLower_eq_iff (by decide)).mp hc)
      rw [hp, reach_loose hlow] at hself
      exact hself
  · rintro ⟨hin, h⟩ host hhost
    have hhead : (normalizeHost p).head? ≠ some '*' := by
      intro hc
      rw [normalizeHost_eq, head?_map, Option.map_eq_some_iff] at hc
      rcases hc with ⟨c, hc, hlow⟩
      rw [Ascii.toLower_eq_iff (by decide)] at hlow
      subst hlow
      rcases exists_bare p with ⟨l, r, w, heq, hl, -⟩
      rcases head?_eq_some_iff.mp hc with ⟨tail, htail⟩
      refine h ?_
      rw [heq, htail, append_assoc, append_assoc, dropWhile_append_of_pos hl]
      rfl
    rw [reach_of_head hhead, Set.mem_singleton_iff, normalizeHost_eq_fullFold hhost,
      normalizeHost_eq_fullFold hin]

end

theorem Accepted.suffix_named (h : Accepted p) (hp : p = '*' :: '.' :: s) :
    ∃ c ∈ s, dot c = false := by
  by_contra hn
  have hd : ∀ c ∈ '.' :: s, dot c = true := by
    intro c hc
    rcases mem_cons.mp hc with rfl | hc
    · decide
    · rw [← Bool.not_eq_false]
      exact fun hcd => hn ⟨c, hc, hcd⟩
  have hcat := h.no_catchAll (by rw [hp, normalizeHost_star_dots hd])
  rw [hp] at hcat
  cases hcat

theorem meant_of_no_star (hst : p.head? ≠ some '*') :
    meant p = {host | fullFold host = fullFold p} ∧
      (PlainShape p ↔ ¬DotInside p ∧ (p.dropWhile bracket).head? ≠ some '*') := by
  have hno : ∀ rest, p ≠ '*' :: rest := by
    rintro rest rfl
    exact hst rfl
  constructor
  · rw [meant]
    · exact hno _
    · exact fun _ => hno _
  · rw [PlainShape]
    · exact fun _ => hno _
    · exact fun _ => hno _

theorem meant_iff_plainShape (haccepted : patternError pattern = none) :
    ((∀ host, ¬DotInside host →
          (hostMatchesAny [pattern] host = true ↔ host ∈ meant pattern.toList)) ∧
        ∀ s, pattern.toList = '*' :: '.' :: s → hostMatchesAny [pattern] s = false) ↔
      PlainShape pattern.toList := by
  have h := (patternError_eq_none_iff pattern).mp haccepted
  by_cases hst : pattern.toList.head? = some '*'
  · rcases head?_eq_some_iff.mp hst with ⟨rest, hp⟩
    rcases h.dotted rest hp with rfl | ⟨s, hne, rfl⟩
    · -- The catch-all.
      have hall : ∀ host, hostMatchesAny [pattern] host = true := by
        intro host
        rw [hostMatchesAny_singleton, hp]
        exact Set.mem_univ _
      rw [hp]
      refine ⟨fun _ => trivial, fun _ => ⟨fun host _ => ?_, fun s hs => by cases hs⟩⟩
      exact ⟨fun _ => Set.mem_univ host, fun _ => hall host⟩
    · have hs := h.suffix_named hp
      have hmea := wildcard_meaning_iff hp hs
      rw [hp]
      refine ⟨fun hbo => hmea.mp hbo.1, fun hsh => ⟨hmea.mpr hsh, fun s' hs' => ?_⟩⟩
      cases hs'
      exact wildcard_not_suffix hp hs
  · have hfo : normalizeHost pattern.toList ≠ ['*'] := by
      intro hc
      rw [h.no_catchAll hc] at hst
      exact hst rfl
    have hmea := name_meaning_iff hfo
    obtain ⟨hme, hsh⟩ := meant_of_no_star hst
    rw [hme, hsh, ← hmea]
    refine ⟨fun hbo => hbo.1, fun hall => ⟨hall, fun s hs => ?_⟩⟩
    rw [hs] at hst
    exact absurd rfl hst

/-- Matching is the rule exactly for the patterns of a plain shape and the hosts without a dot
    right inside a closing bracket. A pattern of another shape fails with a host that has none,
    and a host that has one fails with a plain pattern. -/
theorem pattern_meaning_iff (pattern : String) (host : List Char) :
    (patternError pattern = none →
      (((∀ host, ¬DotInside host →
            (hostMatchesAny [pattern] host = true ↔ host ∈ meant pattern.toList)) ∧
          ∀ s, pattern.toList = '*' :: '.' :: s → hostMatchesAny [pattern] s = false) ↔
        PlainShape pattern.toList)) ∧
    ((∀ pattern, patternError pattern = none → PlainShape pattern.toList →
        (hostMatchesAny [pattern] host = true ↔ host ∈ meant pattern.toList)) ↔
      ¬DotInside host) := by
  refine ⟨meant_iff_plainShape, fun h hdot => ?_, ?_⟩
  · -- A suffix that folds to nothing leaves the dot of the wildcard at the end.
    have hp : "*.[".toList = '*' :: '.' :: ['['] := by decide
    have hmatch : hostMatchesAny ["*.["] host = true := by
      rcases getLast?_eq_some_iff.mp ((last_bare_iff host).mpr hdot) with ⟨t, ht⟩
      refine (wildcard_matches_iff hp ⟨'[', by simp, by decide⟩ host).mpr ⟨t.map Char.toLower, ?_⟩
      rw [normalizeHost_eq, ht, map_append]
      rfl
    have hnil : fullFold ['['] = [] := by decide
    have hmeant := (h "*.[" (by decide +kernel) (by rw [hp]; exact .inl hnil)).mp hmatch
    rw [hp] at hmeant
    rcases hmeant with ⟨front, hfr⟩
    rw [hnil] at hfr
    exact fullFold_ne_append rfl hfr
  · intro hin pattern haccepted hshape
    exact ((meant_iff_plainShape haccepted).mpr hshape).1 host hin

theorem pattern_meaning_iff_wildcard :
    patternError "*.example.com" = none ∧ PlainShape "*.example.com".toList ∧
      hostMatchesAny ["*.example.com"] "A.Example.COM.".toList = true ∧
      ¬DotInside "A.Example.COM.".toList := by
  have hshape : PlainShape "*.example.com".toList := .inr (by decide +kernel)
  have hacc : patternError "*.example.com" = none := by decide +kernel
  have hin : ¬DotInside "A.Example.COM.".toList := by decide +kernel
  have h := pattern_meaning_iff "*.example.com" "A.Example.COM.".toList
  have hm := ((h.1 hacc).mpr hshape).1 _ hin
  have hh := h.2.mpr hin _ hacc hshape
  exact ⟨hacc, hshape, hh.mpr (hm.mp (by decide +kernel)), hin⟩

/-- A wildcard in brackets is accepted as a name and matches below its suffix, where
    the rule has it match its own folded form alone. -/
theorem bracketed_wildcard_matches :
    patternError "[*.example.com]" = none ∧
      hostMatchesAny ["[*.example.com]"] "a.example.com".toList = true ∧
      "a.example.com".toList ∉ meant "[*.example.com]".toList := by
  refine ⟨by decide +kernel, by decide +kernel, ?_⟩
  have hm : meant "[*.example.com]".toList =
      {host | fullFold host = fullFold "[*.example.com]".toList} := rfl
  rw [hm, Set.mem_ofPred_eq]
  decide +kernel

/-! ### Refused patterns -/

/-- The refused patterns that match something: nothing at all, a leading dot, and a
    star with dots behind it. -/
def slipsThrough : List Char → Bool
  | [] => true
  | '.' :: _ => true
  | '*' :: rest => rest ≠ [] && rest.all dot
  | _ => false

theorem head_normalizeHost_of_dot (h : ∀ c ∈ p.head?, c = '.') :
    ∀ c ∈ (normalizeHost p).head?, c = '.' := by
  intro c hc
  rw [normalizeHost_eq, head?_map, Option.mem_def, Option.map_eq_some_iff] at hc
  rcases hc with ⟨d, hd, rfl⟩
  rcases exists_bare p with ⟨l, r, w, heq, hl, -⟩
  rcases head?_eq_some_iff.mp hd with ⟨tail, ht⟩
  rw [heq, ht] at h
  rcases l with _ | ⟨b, rest⟩
  · have hdot : d = '.' := h d rfl
    rw [hdot, dot_toLower]
  -- A bracket in front of it would be the first character.
  have hb : b = '.' := h b rfl
  have hbr := hl b mem_cons_self
  rw [hb] at hbr
  cases hbr

theorem dotted_matches_itself (pattern : String) (h : ∀ c ∈ pattern.toList.head?, c = '.') :
    hostMatchesAny [pattern] pattern.toList = true := by
  have hh := head_normalizeHost_of_dot h
  have hs : (normalizeHost pattern.toList).head? ≠ some '*' := by
    intro hc
    cases hh '*' hc
  have hne : normalizeHost pattern.toList ≠ ['*'] := by
    intro hc
    rw [hc] at hs
    exact hs rfl
  rw [hostMatchesAny_singleton, normalizePattern_of_ne hne, reach_of_head hs]
  rfl

theorem star_dots_matches {n : Nat} (hp : pattern.toList = '*' :: List.replicate (n + 1) '.') :
    hostMatchesAny [pattern] ('[' :: List.replicate (n + 1) '.' ++ [']']) = true := by
  have hdo : ∀ c ∈ replicate (n + 1) '.', dot c = true := by
    intro c hc
    rw [eq_of_mem_replicate hc]
    decide
  have hcat : normalizeHost pattern.toList = ['*'] := by
    rw [hp, normalizeHost_star_dots hdo]
  have hne : pattern.toList ≠ ['*'] := by
    rw [hp]
    simp
  have hlow : pattern.toList.map Char.toLower = '*' :: '.' :: replicate n '.' := by
    rw [hp, map_cons, map_replicate, star_toLower, dot_toLower, replicate_succ]
  have hho : normalizeHost ('[' :: replicate (n + 1) '.' ++ [']']) =
      [] ++ '.' :: replicate n '.' := by
    have hco := bare_append (l := ['[']) (m := replicate (n + 1) '.') (r := [']'])
      (w := []) (forall_mem_singleton.mpr rfl) (forall_mem_singleton.mpr rfl) (by simp)
      (fun c hc => bracket_eq_false_of_dot (hdo c (mem_of_mem_head? hc)))
      (fun c hc => bracket_eq_false_of_dot (hdo c (mem_of_getLast? hc)))
      (fun c hc => by rw [getLast?_concat] at hc; cases hc; decide)
    rw [append_nil] at hco
    rw [normalizeHost_eq, cons_append, ← singleton_append, ← append_assoc, hco,
      map_replicate, dot_toLower, replicate_succ, nil_append]
  rw [hostMatchesAny_singleton, normalizePattern_of_catchAll hcat hne, hlow]
  exact ⟨[], hho⟩

theorem catchAll_spelling_matches_nothing (hcat : normalizeHost pattern.toList = ['*'])
    (hne : pattern.toList ≠ ['*']) (hslip : slipsThrough pattern.toList = false)
    (host : List Char) :
    hostMatchesAny [pattern] host = false := by
  rw [← Bool.not_eq_true, hostMatchesAny_singleton, normalizePattern_of_catchAll hcat hne]
  rcases exists_bare pattern.toList with ⟨l, r, w, heq, hl, hr, hw, -⟩
  rw [bare_eq_star hcat] at heq
  rw [heq] at hslip hne ⊢
  rcases l with _ | ⟨b, rest⟩
  · rcases r with _ | ⟨b, rest⟩
    · -- Dots alone: one of the patterns that slip through.
      exfalso
      have hslips : slipsThrough ([] ++ ['*'] ++ [] ++ w) = true := by
        have hwne : w ≠ [] := by
          rintro rfl
          exact hne rfl
        simp only [nil_append, append_nil, singleton_append, slipsThrough]
        simpa [hwne] using hw
      rw [hslips] at hslip
      cases hslip
    · -- A bracket behind the star: a star that no dot follows.
      have hloos : b.toLower ≠ '.' := by
        intro hc
        rw [Ascii.toLower_eq_iff (by decide)] at hc
        have hb := hr b mem_cons_self
        rw [hc] at hb
        cases hb
      have hlow : ([] ++ ['*'] ++ b :: rest ++ w).map Char.toLower =
          '*' :: b.toLower :: (rest ++ w).map Char.toLower := by
        simp [star_toLower]
      rw [hlow, reach_loose hloos]
      exact fun h => h
  · -- A bracket in front: no folded host begins with one.
    have hb := hl b mem_cons_self
    have hlow : bracket b.toLower = true := by
      rw [← Function.comp_apply (f := bracket), bracket_comp_toLower]
      exact hb
    have hhead : ((b :: rest ++ ['*'] ++ r ++ w).map Char.toLower).head? ≠ some '*' := by
      intro hc
      have hstar : b.toLower = '*' := Option.some.inj hc
      rw [hstar] at hlow
      cases hlow
    rw [reach_of_head hhead, Set.mem_singleton_iff]
    intro hhost
    have hfst : (normalizeHost host).head? = some b.toLower := by
      rw [hhost]
      rfl
    rw [head_normalizeHost hfst] at hlow
    cases hlow

theorem loose_star_matches_nothing (hp : pattern.toList = '*' :: c :: rest) (hc : c ≠ '.')
    (hfo : normalizeHost pattern.toList ≠ ['*']) (host : List Char) :
    hostMatchesAny [pattern] host = false := by
  rw [← Bool.not_eq_true, hostMatchesAny_singleton, normalizePattern_of_ne hfo]
  have hba := bare_append_cons (l := []) (c := '*') (by simp) (by decide) (by decide) (c :: rest)
  rw [nil_append, ← hp] at hba
  have hno : normalizeHost pattern.toList =
      '*' :: (trimmedBehind (c :: rest)).map Char.toLower := by
    rw [normalizeHost_eq, hba, map_cons, star_toLower]
    rfl
  rw [hno] at hfo ⊢
  rcases htr : trimmedBehind (c :: rest) with _ | ⟨d, tail⟩
  · rw [htr] at hfo
    exact absurd rfl hfo
  -- What is left begins as the rest did.
  have hd : d = c := by
    have hfst := head_trimmedBehind (congrArg head? htr)
    exact (Option.some.inj hfst).symm
  have hlow : d.toLower ≠ '.' := by
    rw [hd]
    exact fun h => hc ((Ascii.toLower_eq_iff (by decide)).mp h)
  rw [map_cons, reach_loose hlow]
  exact fun h => h

theorem exists_match_of_slipsThrough (hsl : slipsThrough pattern.toList = true) :
    ∃ host, hostMatchesAny [pattern] host = true := by
  unfold slipsThrough at hsl
  split at hsl
  · rename_i hnil
    exact ⟨_, dotted_matches_itself pattern (by rw [hnil]; simp)⟩
  · rename_i hdot
    exact ⟨_, dotted_matches_itself pattern (by rw [hdot]; simp)⟩
  · rename_i rest hp
    rw [Bool.and_eq_true, decide_eq_true_iff] at hsl
    rcases exists_cons_of_ne_nil hsl.1 with ⟨c, tail, rfl⟩
    have hre : c :: tail = replicate (tail.length + 1) '.' := by
      refine eq_replicate_iff.mpr ⟨rfl, fun d hd => ?_⟩
      simpa [dot] using all_eq_true.mp hsl.2 d hd
    rw [hre] at hp
    exact ⟨_, star_dots_matches hp⟩
  · cases hsl

theorem loose_of_refused (href : ¬Accepted p) (hcat : normalizeHost p = ['*'] → p = ['*'])
    (hsl : slipsThrough p = false) : ∃ d tail, p = '*' :: d :: tail ∧ d ≠ '.' := by
  rcases p with _ | ⟨c, rest⟩
  · cases hsl
  have hcd : c ≠ '.' := by
    rintro rfl
    cases hsl
  -- The first two parts of the check are passed, and the third is `hcatch`.
  have hdot : ¬∀ rest', c :: rest = '*' :: rest' →
      rest' = [] ∨ ∃ s, s ≠ [] ∧ rest' = '.' :: s := by
    intro hdot
    refine href ⟨⟨c, mem_cons_self, by simpa [dot] using hcd⟩, ?_, hcat, hdot⟩
    simpa using hcd
  by_contra hlo
  refine hdot fun rest' heq => ?_
  cases heq
  rcases rest with _ | ⟨d, tail⟩
  · exact .inl rfl
  by_cases hd : d = '.'
  · subst hd
    refine .inr ⟨tail, ?_, rfl⟩
    rintro rfl
    cases hsl
  · exact absurd ⟨d, tail, rfl, hd⟩ hlo

/-- A refused pattern matches nothing exactly when it is not empty, does not begin
    with a dot and is not a star with dots alone behind it. -/
theorem refused_matches_nothing_iff (pattern : String) (hrefused : patternError pattern ≠ none) :
    (∀ host, hostMatchesAny [pattern] host = false) ↔ slipsThrough pattern.toList = false := by
  constructor
  · intro h
    rw [← Bool.not_eq_true]
    intro hsl
    obtain ⟨host, hho⟩ := exists_match_of_slipsThrough hsl
    rw [h] at hho
    cases hho
  · intro hsl host
    rw [ne_eq, patternError_eq_none_iff] at hrefused
    by_cases hcat : normalizeHost pattern.toList = ['*'] ∧ pattern.toList ≠ ['*']
    · exact catchAll_spelling_matches_nothing hcat.1 hcat.2 hsl host
    -- Not a spelling of the catch-all, so what was refused is the shape of the star.
    have hon : normalizeHost pattern.toList = ['*'] → pattern.toList = ['*'] := by
      intro hfo
      by_contra hne
      exact hcat ⟨hfo, hne⟩
    obtain ⟨d, tail, hp, hd⟩ := loose_of_refused hrefused hon hsl
    refine loose_star_matches_nothing hp hd ?_ host
    intro hfo
    have hst := hon hfo
    rw [hp] at hst
    cases hst

theorem refused_matches_nothing_iff_loose :
    patternError "*example.com" ≠ none ∧
      ∀ host, hostMatchesAny ["*example.com"] host = false := by
  refine ⟨by decide +kernel, ?_⟩
  exact (refused_matches_nothing_iff "*example.com" (by decide +kernel)).mpr (by decide +kernel)

/-- The suffix spelling of a resolver is refused and matches a host of that
    spelling. -/
theorem refused_pattern_matches :
    patternError ".example.com" ≠ none ∧
      hostMatchesAny [".example.com"] ".example.com".toList = true := by
  decide +kernel

end Nexapipe.Host
