import Nexapipe.Lib.Ascii
import Nexapipe.Lib.Trim
import Nexapipe.Proto.Host

/-!
# What folding a host does

Folding takes the dots off the end of a name, then the brackets off both ends, and
lowers what is left. `bare` is the name before it is lowered, and `bare_append`
computes it: a core between two runs of brackets, with dots behind, is the bare
name.

The dots go before the brackets and are not looked for again. A dot right inside the
closing bracket is behind no dot and in front of a bracket, so it stays, and the
folded name ends in it. Folding such a name once more takes the dot off
(`normalizeHost_normalizeHost_iff`).

`fullFold` is what the fold is meant to be: no brackets in front, neither brackets nor dots behind,
lower case.
-/

namespace Nexapipe.Host

open List Trim

/-! ### Characters -/

def bracket (c : Char) : Bool :=
  c = '[' ∨ c = ']'

def dot (c : Char) : Bool :=
  c = '.'

theorem dot_comp_toLower : dot ∘ Char.toLower = dot := by
  funext c
  have halp : ('.' : Char).isAlpha = false := by decide
  simp only [Function.comp_apply, dot, Ascii.toLower_eq_iff halp]

theorem bracket_comp_toLower : bracket ∘ Char.toLower = bracket := by
  funext c
  simp only [Function.comp_apply, bracket,
    Ascii.toLower_eq_iff (show ('[' : Char).isAlpha = false by decide),
    Ascii.toLower_eq_iff (show (']' : Char).isAlpha = false by decide)]

variable {c : Char} {host : List Char}

theorem bracket_eq_false_of_dot (h : dot c = true) : bracket c = false := by
  rw [dot, decide_eq_true_iff] at h
  rw [h]
  decide

theorem dot_eq_false_of_bracket (h : bracket c = true) : dot c = false := by
  rw [bracket, decide_eq_true_iff] at h
  rcases h with rfl | rfl
  · decide
  · decide

/-! ### The bare name -/

def bare (host : List Char) : List Char :=
  Trim.strip bracket (host.rdropWhile dot)

theorem normalizeHost_eq (host : List Char) :
    normalizeHost host = (bare host).map Char.toLower := rfl

theorem bare_append {l m r w : List Char} (hl : ∀ c ∈ l, bracket c = true)
    (hr : ∀ c ∈ r, bracket c = true) (hw : ∀ c ∈ w, dot c = true)
    (hh : ∀ c ∈ m.head?, bracket c = false)
    (hla : ∀ c ∈ m.getLast?, bracket c = false)
    (hend : ∀ c ∈ (l ++ m ++ r).getLast?, dot c = false) :
    bare (l ++ m ++ r ++ w) = m := by
  unfold bare
  rw [rdropWhile_append_all _ hw, rdropWhile_of_last hend]
  exact strip_append hl hr hh hla

theorem exists_bare (host : List Char) :
    ∃ l r w, host = l ++ bare host ++ r ++ w ∧ (∀ c ∈ l, bracket c = true) ∧
      (∀ c ∈ r, bracket c = true) ∧ (∀ c ∈ w, dot c = true) ∧
      ∀ c ∈ (l ++ bare host ++ r).getLast?, dot c = false := by
  rcases exists_rdropWhile dot host with ⟨w, hw, hd⟩
  rcases exists_strip bracket (host.rdropWhile dot) with ⟨l, r, hlr, hl, hr⟩
  refine ⟨l, r, w, ?_, hl, hr, hd, ?_⟩
  · unfold bare
    rw [← hlr, ← hw]
  · intro c hc
    unfold bare at hc
    rw [← hlr] at hc
    exact last_rdropWhile hc

theorem head_bare (h : (bare host).head? = some c) : bracket c = false :=
  head_strip h

theorem last_bare (h : (bare host).getLast? = some c) : bracket c = false :=
  last_strip h

theorem bare_map_toLower (host : List Char) :
    bare (host.map Char.toLower) = (bare host).map Char.toLower := by
  unfold bare
  rw [rdropWhile_map, dot_comp_toLower, strip_map, bracket_comp_toLower]

theorem normalizeHost_map_toLower (host : List Char) :
    normalizeHost (host.map Char.toLower) = normalizeHost host := by
  rw [normalizeHost_eq, normalizeHost_eq, bare_map_toLower, Ascii.map_toLower_map_toLower]

theorem head_normalizeHost (h : (normalizeHost host).head? = some c) : bracket c = false := by
  rw [normalizeHost_eq, ← bare_map_toLower] at h
  exact head_bare h

/-! ### Folding twice -/

def DotInside (host : List Char) : Prop :=
  ∃ u v w, host = u ++ '.' :: v ++ w ∧ v ≠ [] ∧ (∀ c ∈ v, bracket c = true) ∧
    ∀ c ∈ w, dot c = true

theorem last_bare_iff (host : List Char) : (bare host).getLast? = some '.' ↔ DotInside host := by
  constructor
  · intro hla
    rcases exists_bare host with ⟨l, r, w, heq, -, hr, hw, hend⟩
    rcases getLast?_eq_some_iff.mp hla with ⟨t, ht⟩
    refine ⟨l ++ t, r, w, ?_, ?_, hr, hw⟩
    · rw [heq, ht]
      simp
    · -- With no bracket behind it the dot would have gone with the others.
      rintro rfl
      have hen : (l ++ bare host ++ []).getLast? = some '.' := by
        rw [ht, append_nil, ← append_assoc, getLast?_concat]
      cases hend '.' hen
  · rintro ⟨u, v, w, rfl, hne, hv, hw⟩
    rcases exists_dropWhile bracket u with ⟨l, hu, hl⟩
    have hco : u ++ '.' :: v ++ w = l ++ (u.dropWhile bracket ++ ['.']) ++ v ++ w := by
      rw [← append_assoc l, ← hu]
      simp
    have hba : bare (u ++ '.' :: v ++ w) = u.dropWhile bracket ++ ['.'] := by
      rw [hco]
      refine bare_append hl hv hw ?_ ?_ ?_
      · intro c hc
        rw [head?_append] at hc
        rcases hhe : (u.dropWhile bracket).head? with _ | d
        · rw [hhe] at hc
          cases hc
          rfl
        rw [hhe] at hc
        cases hc
        exact head_dropWhile hhe
      · intro c hc
        rw [getLast?_concat] at hc
        cases hc
        rfl
      · intro c hc
        -- Brackets end it, because there is at least one.
        rw [getLast?_append_of_ne_nil _ hne] at hc
        exact dot_eq_false_of_bracket (hv c (mem_of_getLast? hc))
    rw [hba, getLast?_concat]

instance (host : List Char) : Decidable (DotInside host) :=
  decidable_of_iff _ (last_bare_iff host)

theorem bare_bare (h : ¬DotInside host) : bare (bare host) = bare host := by
  have hend : ∀ c ∈ (bare host).getLast?, dot c = false := by
    intro c hc
    rw [dot, decide_eq_false_iff_not]
    rintro rfl
    exact h ((last_bare_iff host).mp hc)
  have hsame := bare_append (l := []) (m := bare host) (r := []) (w := []) (by simp) (by simp)
    (by simp) (fun c hc => head_bare hc) (fun c hc => last_bare hc)
    (by rw [nil_append, append_nil]; exact hend)
  simpa using hsame

theorem length_strip_le (s : List Char) : (Trim.strip bracket s).length ≤ s.length := by
  rcases exists_strip bracket s with ⟨l, r, heq, -, -⟩
  have hlen := congrArg length heq
  simp only [length_append] at hlen
  omega

theorem length_bare_bare_lt (h : DotInside host) :
    (bare (bare host)).length < (bare host).length := by
  rcases getLast?_eq_some_iff.mp ((last_bare_iff host).mpr h) with ⟨t, ht⟩
  have hd : (bare host).rdropWhile dot = t.rdropWhile dot := by
    rw [ht]
    exact rdropWhile_concat_pos dot t '.' (by decide)
  have hstr := length_strip_le ((bare host).rdropWhile dot)
  have hle : (t.rdropWhile dot).length ≤ t.length := ( rdropWhile_prefix dot t).length_le
  have hlen : (bare host).length = t.length + 1 := by rw [ht, length_append]; rfl
  rw [hd] at hstr
  have hf : bare (bare host) = strip bracket (t.rdropWhile dot) := by
    rw [← hd]
    rfl
  rw [hf]
  omega

theorem normalizeHost_normalizeHost_iff (host : List Char) :
    normalizeHost (normalizeHost host) = normalizeHost host ↔ ¬DotInside host := by
  have ht : normalizeHost (normalizeHost host) = (bare (bare host)).map Char.toLower := by
    rw [normalizeHost_eq host, normalizeHost_map_toLower]
    rfl
  rw [ht, normalizeHost_eq]
  constructor
  · intro h hdot
    have hlen := congrArg length h
    rw [length_map, length_map] at hlen
    have hlt := length_bare_bare_lt hdot
    omega
  · intro h
    rw [bare_bare h]

/-! ### The fold as it is meant -/

def fullFold (host : List Char) : List Char :=
  ((host.dropWhile bracket).rdropWhile fun c => bracket c || dot c).map Char.toLower

theorem normalizeHost_eq_fullFold (h : ¬DotInside host) : normalizeHost host = fullFold host := by
  rcases exists_bare host with ⟨l, r, w, heq, hl, hr, hw, -⟩
  rw [normalizeHost_eq]
  congr 1
  have hrw : ∀ c ∈ r ++ w, (bracket c || dot c) = true := by
    intro c hc
    rcases mem_append.mp hc with hcr | hcw
    · rw [hr c hcr, Bool.true_or]
    · rw [hw c hcw, Bool.or_true]
  have hdr : host.dropWhile bracket = (bare host ++ (r ++ w)).dropWhile bracket := by
    conv_lhs => rw [heq, append_assoc, append_assoc, dropWhile_append_of_pos hl]
  rw [hdr]
  rcases hba : bare host with _ | ⟨c, rest⟩
  · -- Nothing but brackets and dots, in whatever order.
    symm
    rw [nil_append, rdropWhile_eq_nil_iff]
    intro c hc
    exact hrw c ((dropWhile_sublist _).subset hc)
  · have hc : bracket c = false := head_bare (by rw [hba]; rfl)
    rw [cons_append, dropWhile_cons_of_neg (by rw [hc]; decide), ← cons_append,
      rdropWhile_append_all _ hrw, rdropWhile_of_last]
    intro d hd
    rw [← hba] at hd
    have hdot : dot d = false := by
      rw [dot, decide_eq_false_iff_not]
      rintro rfl
      exact h ((last_bare_iff host).mp hd)
    rw [last_bare hd, hdot]
    rfl

end Nexapipe.Host
