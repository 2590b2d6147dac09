import Nexapipe.Lib.Text
import Nexapipe.Proto.Pattern

/-!
# The scope of the DNS setup

Some systems are told which domains to ask the tunnel about. The list is made from the patterns the
client routes by, and has to be the wider of the two: a host that a pattern matches must lie in a
domain of the list, or its name never reaches the client.

The two read a pattern differently. The list has it trimmed, without the stars and dots in front;
the rule keeps those and takes brackets off, which no domain of the list has. So they part at white
space only: a pattern with white space around it matches a name with that white space in it.
-/

namespace Nexapipe.Host

open List Trim

section

-- Lower case, of any text.
variable (lower : List Char → List Char)

def normalizeDomain (domain : List Char) : List Char :=
  lower ((((Text.trim domain).dropWhile (· = '*')).dropWhile dot).rdropWhile dot)

def isScopedDomain (domain : List Char) : Bool :=
  domain ≠ [] && domain.contains '.' && domain.head? ≠ some '.' && domain.getLast? ≠ some '.' &&
    !(domain.zip domain.tail).contains ('.', '.') &&
    domain.all fun c => c.isAlphanum || c = '.' || c = '-'

/-- The domains in the order of the patterns, each once, if every one of them can be named. -/
def scopedDomains (proxyDomains : List String) : Option (List (List Char)) :=
  let normalized := proxyDomains.map fun domain => normalizeDomain lower domain.toList
  if proxyDomains ≠ [] && normalized.all isScopedDomain then some normalized.eraseDups else none

end

def isAscii (s : List Char) : Bool :=
  s.all fun c => c.toNat < 128

/-- The host is the domain or a name under it. -/
def Under (domain host : List Char) : Prop :=
  host = domain ∨ '.' :: domain <:+ host

instance (domain host : List Char) : Decidable (Under domain host) :=
  inferInstanceAs (Decidable (_ ∨ _))

/-- A name a file of a directory can have, and not one of the directory or the one above. -/
def IsFileName (name : List Char) : Prop :=
  name ≠ [] ∧ '/' ∉ name ∧ '\x00' ∉ name ∧ name ≠ ['.'] ∧ name ≠ ['.', '.']

structure Scoped (domain : List Char) : Prop where
  ne_nil : domain ≠ []
  head : domain.head? ≠ some '.'
  chars : ∀ c ∈ domain, c.isAlphanum = true ∨ c = '.' ∨ c = '-'

variable {lower : List Char → List Char} {host domain stars dots p : List Char}

theorem scoped_of_isScopedDomain (h : isScopedDomain domain = true) : Scoped domain := by
  simp only [isScopedDomain, Bool.and_eq_true, decide_eq_true_eq, all_eq_true, Bool.or_eq_true,
    or_assoc] at h
  obtain ⟨⟨⟨⟨⟨hne, -⟩, hh⟩, -⟩, -⟩, hc⟩ := h
  exact ⟨hne, hh, hc⟩

theorem Scoped.isFileName (h : Scoped domain) : IsFileName domain := by
  refine ⟨h.ne_nil, fun hc => ?_, fun hc => ?_, ?_, ?_⟩
  · exact absurd (h.chars _ hc) (by decide)
  · exact absurd (h.chars _ hc) (by decide)
  · rintro rfl
    exact h.head rfl
  · rintro rfl
    exact h.head rfl

theorem under_append (hdo : ∀ c ∈ dots, dot c = true) (hne : dots ≠ []) (front : List Char) :
    Under domain (front ++ (dots ++ domain)) := by
  obtain ⟨init, d, rfl⟩ := eq_nil_or_concat dots |>.resolve_left hne
  have hd : d = '.' := of_decide_eq_true (hdo d (by simp))
  exact .inr ⟨front ++ init, by simp [hd]⟩

theorem under_of_reach (hs : Scoped domain) (hst : ∀ c ∈ stars, c = '*')
    (hdo : ∀ c ∈ dots, dot c = true) (h : host ∈ reach (stars ++ (dots ++ domain))) :
    Under domain host := by
  obtain ⟨c, rest, rfl⟩ := exists_cons_of_ne_nil hs.ne_nil
  have hc : c ≠ '.' := fun heq => hs.head (heq ▸ rfl)
  rcases stars with _ | ⟨a, stars⟩
  · have hhe : (dots ++ c :: rest).head? ≠ some '*' := by
      rcases dots with _ | ⟨d, dots⟩
      · rintro ⟨⟩
        exact absurd (hs.chars '*' mem_cons_self) (by decide)
      · rintro ⟨⟩
        exact absurd (hdo '*' mem_cons_self) (by decide)
    rw [nil_append, reach_of_head hhe, Set.mem_singleton_iff] at h
    rcases dots with _ | ⟨d, dots⟩
    · exact .inl h
    · exact h ▸ under_append hdo (by simp) []
  obtain rfl := hst a mem_cons_self
  rcases stars with _ | ⟨b, stars⟩
  · rcases dots with _ | ⟨d, dots⟩
    · rw [nil_append, singleton_append, reach_loose hc] at h
      cases h
    · obtain rfl : d = '.' := of_decide_eq_true (hdo d mem_cons_self)
      obtain ⟨front, rfl⟩ : ∃ front, host = front ++ '.' :: (dots ++ c :: rest) := h
      exact under_append hdo (by simp) front
  · obtain rfl := hst b (by simp)
    cases h

theorem under_of_match
    (hlower : ∀ s, isAscii s = true → lower s = s.map Char.toLower)
    (hascii : isAscii p = true) (htrim : Text.trim p = p)
    (hscope : isScopedDomain (normalizeDomain lower p) = true)
    (h : host ∈ reach (normalizePattern p)) : Under (normalizeDomain lower p) host := by
  obtain ⟨stars, hp, hstars⟩ := exists_dropWhile (fun c => decide (c = '*')) p
  obtain ⟨dots, hrest, hdots⟩ := exists_dropWhile dot (p.dropWhile fun c => decide (c = '*'))
  generalize hfront : (p.dropWhile fun c => decide (c = '*')).dropWhile dot = front at hrest
  obtain ⟨behind, hcore, hbehind⟩ := exists_rdropWhile dot front
  have hlast : ∀ c ∈ (front.rdropWhile dot).getLast?, dot c = false := fun c => last_rdropWhile
  rw [normalizeDomain, htrim, hfront] at hscope ⊢
  generalize front.rdropWhile dot = core at hcore hlast hscope ⊢
  rw [hrest, hcore, ← append_assoc, ← append_assoc, append_assoc stars] at hp
  have hcoreAscii : isAscii core = true :=
    all_eq_true.mpr fun c hc => all_eq_true.mp hascii c (by rw [hp]; simp [hc])
  rw [hlower core hcoreAscii] at hscope ⊢
  have hs := scoped_of_isScopedDomain hscope
  have hbracket : ∀ c ∈ stars ++ (dots ++ core), bracket c = false := by
    intro c hc
    by_contra hnot
    rw [Bool.not_eq_false, bracket, decide_eq_true_eq] at hnot
    rw [mem_append, mem_append] at hc
    rcases hc with hc | hc | hc
    · have hstar := hstars c hc
      rcases hnot with rfl | rfl <;> cases hstar
    · have hdot := hdots c hc
      rcases hnot with rfl | rfl <;> cases hdot
    · have hchar := hs.chars _ (mem_map_of_mem hc)
      rcases hnot with rfl | rfl <;> exact absurd hchar (by decide)
  have hne : core ≠ [] := fun hnil => hs.ne_nil (by rw [hnil, map_nil])
  have hfold : normalizeHost p = stars ++ (dots ++ core.map Char.toLower) := by
    have hbare := bare_append (l := []) (m := stars ++ (dots ++ core)) (r := []) (by simp) (by simp)
      hbehind (fun c hc => hbracket c (mem_of_mem_head? hc))
      (fun c hc => hbracket c (mem_of_mem_getLast? hc)) (by simpa [hne] using hlast)
    have hmap : ∀ l : List Char, (∀ c ∈ l, c.toLower = c) → l.map Char.toLower = l := fun l hl =>
      (map_congr_left hl).trans (map_id l)
    rw [nil_append, append_nil, ← hp] at hbare
    rw [normalizeHost_eq, hbare, map_append, map_append, hmap stars, hmap dots]
    · intro c hc
      rw [show c = '.' from of_decide_eq_true (hdots c hc), dot_toLower]
    · intro c hc
      rw [show c = '*' from of_decide_eq_true (hstars c hc), star_toLower]
  have hcatch : normalizeHost p ≠ ['*'] := by
    intro hstar
    obtain ⟨c, hc⟩ := exists_mem_of_ne_nil _ hs.ne_nil
    have hmem : c ∈ normalizeHost p := by
      rw [hfold]
      exact mem_append_right _ (mem_append_right _ hc)
    rw [hstar, mem_singleton] at hmem
    exact absurd (hs.chars c hc) (hmem ▸ by decide)
  rw [normalizePattern_of_ne hcatch, hfold] at h
  exact under_of_reach hs (fun c hc => of_decide_eq_true (hstars c hc)) hdots h

/-- For ASCII patterns with no white space around them, every host the rule matches is a domain of
    the scope or lies under one. For any patterns, every domain of the scope is the name of a
    file. -/
theorem scope_covers_rule
    (hlower : ∀ s, isAscii s = true → lower s = s.map Char.toLower)
    {patterns : List String} {s : List (List Char)}
    (hs : scopedDomains lower patterns = some s) :
    ((∀ p ∈ patterns, isAscii p.toList = true ∧ Text.trim p.toList = p.toList) →
      ∀ host, hostMatchesAny patterns host = true →
        ∃ domain ∈ s, Under domain (normalizeHost host)) ∧ ∀ domain ∈ s, IsFileName domain := by
  unfold scopedDomains at hs
  simp only at hs
  split at hs
  · rename_i hall
    cases hs
    rw [Bool.and_eq_true, all_eq_true] at hall
    refine ⟨fun hplain host h => ?_, fun domain hd => ?_⟩
    · obtain ⟨p, hp, hma⟩ := any_eq_true.mp h
      have hmem := mem_map_of_mem (f := fun p : String => normalizeDomain lower p.toList) hp
      refine ⟨_, mem_eraseDups.mpr hmem, ?_⟩
      exact under_of_match hlower (hplain p hp).1 (hplain p hp).2 (hall.2 _ hmem)
        ((hostMatches_iff_mem_reach _ _).mp hma)
    · exact (scoped_of_isScopedDomain (hall.2 _ (mem_eraseDups.mp hd))).isFileName
  · cases hs

theorem scope_covers_wildcard :
    ∃ domain ∈ ["example.com".toList], Under domain (normalizeHost "App.example.com".toList) :=
  (@scope_covers_rule (List.map Char.toLower) (fun _ _ => rfl) ["*.example.com"] _
    (by decide +kernel)).1 (by decide +kernel) _ (by decide +kernel)

/-- The scope is made of the pattern without its white space, and the rule keeps it. -/
theorem blank_pattern_not_covered :
    scopedDomains (List.map Char.toLower) [" example.com"] = some ["example.com".toList] ∧
      hostMatchesAny [" example.com"] " example.com".toList = true ∧
      ¬Under "example.com".toList (normalizeHost " example.com".toList) := by
  decide +kernel

end Nexapipe.Host
