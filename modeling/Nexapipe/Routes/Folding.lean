import Nexapipe.Proto.Fold
import Nexapipe.Routes.Lookup

/-!
# Spellings of one host

A host may be spelled in either case, with dots behind it, and in brackets, and the
brackets may have dots inside and outside. `Spells` is that relation between a name
and its spellings. Folding is to take all of them to one text, and to leave that text
alone, so that a route or a list of patterns answers the same for a host and for its
fold.

It does for every spelling but those with a dot right inside the closing bracket
(`folding_iff`). Folding such a spelling leaves the dot, and folding once more takes
it off.
-/

namespace Nexapipe.Host

open List

inductive Spells (name : List Char) : List Char → Prop
  | plain {s : List Char} (n : Nat) :
      s.map Char.toLower = (name ++ List.replicate n '.').map Char.toLower → Spells name s
  | bracketed {s : List Char} (n m : Nat) :
      s.map Char.toLower =
        ('[' :: (name ++ List.replicate n '.') ++ ']' :: List.replicate m '.').map Char.toLower →
      Spells name s

structure FoldedOnce (host : List Char) : Prop where
  again : normalizeHost (normalizeHost host) = normalizeHost host
  matched : ∀ patterns, hostMatchesAny patterns (normalizeHost host) = hostMatchesAny patterns host
  served : ∀ (r : Route) (port : UInt16),
    acceptsFlow (normalizeHost host) port r = acceptsFlow host port r

theorem foldedOnce_iff (host : List Char) : FoldedOnce host ↔ ¬DotInside host := by
  rw [← normalizeHost_normalizeHost_iff]
  refine ⟨fun h => h.again, fun h => ⟨h, fun patterns => ?_, fun r port => ?_⟩⟩
  · unfold hostMatchesAny
    rw [h]
  · unfold acceptsFlow
    rw [h]

/-! ### The normal form of a spelling -/

theorem fullFold_map_toLower (s : List Char) : fullFold (s.map Char.toLower) = fullFold s := by
  have hbo : (fun c => bracket c || dot c) ∘ Char.toLower = fun c => bracket c || dot c := by
    funext c
    have hb := congrFun bracket_comp_toLower c
    have hdot := congrFun dot_comp_toLower c
    simp only [Function.comp_apply] at hb hdot ⊢
    rw [hb, hdot]
  unfold fullFold
  rw [dropWhile_map, bracket_comp_toLower, Trim.rdropWhile_map, hbo,
    Ascii.map_toLower_map_toLower]

theorem fullFold_append {l r : List Char} (hl : ∀ c ∈ l, bracket c = true)
    (hr : ∀ c ∈ r, (bracket c || dot c) = true) (name : List Char) :
    fullFold (l ++ (name ++ r)) = fullFold name := by
  unfold fullFold
  rw [dropWhile_append_of_pos hl, dropWhile_append]
  rcases hn : name.dropWhile bracket with _ | ⟨c, rest⟩
  · -- The name is brackets alone, so the rest may lose some in front as well.
    have hre : ∀ c ∈ r.dropWhile bracket, (bracket c || dot c) = true :=
      fun c hc => hr c ((dropWhile_sublist _).subset hc)
    rw [isEmpty_nil, if_pos rfl, rdropWhile_eq_nil_iff.mpr hre]
    rfl
  · rw [isEmpty_cons, if_neg (by decide), Trim.rdropWhile_append_all _ hr]

theorem Spells.fullFold_eq {name s : List Char} (h : Spells name s) :
    fullFold s = fullFold name := by
  have hdo : ∀ (n : Nat), ∀ c ∈ List.replicate n '.', (bracket c || dot c) = true := by
    intro n c hc
    rw [eq_of_mem_replicate hc]
    decide
  cases h with
  | plain n heq =>
    rw [← fullFold_map_toLower, heq, fullFold_map_toLower]
    exact fullFold_append (l := []) (by simp) (hdo n) name
  | bracketed n m heq =>
    have hbehind : ∀ c ∈ List.replicate n '.' ++ ']' :: List.replicate m '.',
        (bracket c || dot c) = true := by
      intro c hc
      rcases mem_append.mp hc with hc | hc
      · exact hdo n c hc
      rcases mem_cons.mp hc with rfl | hc
      · decide
      · exact hdo m c hc
    rw [← fullFold_map_toLower, heq, fullFold_map_toLower, cons_append,
      ← singleton_append, append_assoc]
    exact fullFold_append (forall_mem_singleton.mpr rfl) hbehind name

/-- Two spellings of a name fold to one text that folds to itself exactly when
    neither has a dot right inside its closing bracket. -/
theorem folding_iff {name g h : List Char} (hg : Spells name g) (hh : Spells name h) :
    (FoldedOnce g ∧ FoldedOnce h ∧ normalizeHost g = normalizeHost h) ↔
      ¬DotInside g ∧ ¬DotInside h := by
  rw [foldedOnce_iff, foldedOnce_iff]
  refine ⟨fun hall => ⟨hall.1, hall.2.1⟩, fun hall => ⟨hall.1, hall.2, ?_⟩⟩
  rw [normalizeHost_eq_fullFold hall.1, normalizeHost_eq_fullFold hall.2, hg.fullFold_eq,
    hh.fullFold_eq]

theorem folding_iff_example :
    normalizeHost "[Example.COM]..".toList = normalizeHost "example.com.".toList := by
  have hl : Spells "example.com".toList "[Example.COM]..".toList :=
    .bracketed 0 2 (by decide +kernel)
  have hrig : Spells "example.com".toList "example.com.".toList := .plain 1 (by decide +kernel)
  exact ((folding_iff hl hrig).mpr ⟨by decide +kernel, by decide +kernel⟩).2.2

/-- A dot inside the brackets stays the first time and goes the second. -/
theorem inner_dot_survives :
    Spells "a".toList "[a.]".toList ∧
      normalizeHost "[a.]".toList = "a.".toList ∧
      normalizeHost (normalizeHost "[a.]".toList) = "a".toList ∧
      normalizeHost "[a.]".toList ≠ normalizeHost "a".toList ∧
      hostMatchesAny ["a"] "[a.]".toList = false ∧
      hostMatchesAny ["a"] (normalizeHost "[a.]".toList) = true := by
  refine ⟨.bracketed 1 0 (by decide +kernel), ?_⟩
  decide +kernel

end Nexapipe.Host
