import Nexapipe.Http.Headers
import Nexapipe.Routes.Access

/-!
# The port a request names

The text of a `Host` header is a name and perhaps a port. A route is looked up by the name, and the
port is held against the client's access list if there is one. `Authority` is the grammar of such
texts, and of these nothing is dropped.

Of the others something is. A port that is no number of 16 bits, and whatever follows the bracket of
an address literal, counts as no port at all, so the lookup that follows asks about the host alone.
-/

namespace Nexapipe

open List Host

/-- A name that something may follow: an address literal up to its closing bracket, or a text
    without a colon. -/
def IsName (name : List Char) : Prop :=
  (∃ inside, ']' ∉ inside ∧ name = '[' :: inside ++ [']']) ∨ name.head? ≠ some '[' ∧ ':' ∉ name

def SpellsPort (spelling : List Char) (port : UInt16) : Prop :=
  spelling ≠ [] ∧ Text.digitsVal 0 spelling = some port.toNat

def Authority (text : List Char) : Prop :=
  (∃ inside, ']' ∉ inside ∧ text = '[' :: inside) ∨ ∃ name rest, IsName name ∧ text = name ++ rest ∧
    (rest = [] ∨ rest = [':'] ∨ ∃ spelling port, rest = ':' :: spelling ∧ SpellsPort spelling port)

/-- Nothing of the text is dropped: it is the name and the port that are found in it. -/
def PortKept (text : List Char) : Prop :=
  (∀ name port, hostAndPort text = (name, some port) →
    ∃ spelling, text = name ++ ':' :: spelling ∧ SpellsPort spelling port) ∧
  ∀ name, hostAndPort text = (name, none) → text = name ∨ text = name ++ [':']

def portIn (rest : List Char) : Option UInt16 :=
  (stripChar ':' rest).bind parsePort

theorem splitOnce_of_not_mem {c : Char} {s : List Char} (h : c ∉ s) : Text.splitOnce c s = none := by
  have hall : s.dropWhile (· ≠ c) = [] := by
    rw [dropWhile_eq_nil_iff]
    exact fun d hd => decide_eq_true fun heq => h (heq ▸ hd)
  rw [Text.splitOnce, hall]

theorem splitOnce_append {c : Char} {s : List Char} (h : c ∉ s) (t : List Char) :
    Text.splitOnce c (s ++ c :: t) = some (s, t) := by
  have hall : ∀ d ∈ s, decide (d ≠ c) = true :=
    fun d hd => decide_eq_true fun heq => h (heq ▸ hd)
  rw [Text.splitOnce, dropWhile_append_of_pos hall, takeWhile_append_of_pos hall]
  simp

variable {name rest text : List Char}

theorem hostAndPort_unclosed (h : ']' ∉ rest) : hostAndPort ('[' :: rest) = ('[' :: rest, none) := by
  simp only [hostAndPort, splitOnce_of_not_mem h]

theorem hostAndPort_append (hna : IsName name) (hre : name.head? ≠ some '[' → rest = [] ∨
    ∃ port, rest = ':' :: port) : hostAndPort (name ++ rest) = (name, portIn rest) := by
  rcases hna with ⟨inside, hin, rfl⟩ | ⟨hhe, hco⟩
  · have hsp := splitOnce_append hin rest
    rw [append_assoc, cons_append, singleton_append]
    simp only [hostAndPort, hsp]
    rfl
  · have hop : (name ++ rest).head? ≠ some '[' := by
      rcases hre hhe with rfl | ⟨port, rfl⟩
      · rwa [append_nil]
      · cases name <;> simp_all
    unfold hostAndPort
    split
    · rename_i inside heq
      rw [heq] at hop
      exact absurd rfl hop
    rcases hre hhe with rfl | ⟨port, rfl⟩
    · rw [append_nil, splitOnce_of_not_mem hco]
      rfl
    · rw [splitOnce_append hco]
      rfl

/-- Every text is a name and a rest, or a bracket that is not closed. -/
theorem exists_name (text : List Char) : (∃ inside, ']' ∉ inside ∧ text = '[' :: inside) ∨
    ∃ name rest, IsName name ∧ text = name ++ rest ∧ hostAndPort text = (name, portIn rest) := by
  by_cases hop : text.head? = some '['
  · obtain ⟨inside, rfl⟩ := head?_eq_some_iff.mp hop
    by_cases hcl : ']' ∈ inside
    · obtain ⟨before, after, rfl, hbe⟩ := eq_append_cons_of_mem hcl
      have hna : IsName ('[' :: before ++ [']']) := .inl ⟨before, hbe, rfl⟩
      have hte : '[' :: (before ++ ']' :: after) = '[' :: before ++ [']'] ++ after := by simp
      refine .inr ⟨_, after, hna, hte, ?_⟩
      rw [hte]
      exact hostAndPort_append hna fun hne => absurd rfl hne
    · exact .inl ⟨inside, hcl, rfl⟩
  · by_cases hco : ':' ∈ text
    · obtain ⟨before, after, rfl, hbe⟩ := eq_append_cons_of_mem hco
      have hhe : before.head? ≠ some '[' := by
        cases before <;> simp_all
      have hna : IsName before := .inr ⟨hhe, hbe⟩
      exact .inr ⟨before, _, hna, rfl, hostAndPort_append hna fun _ => .inr ⟨after, rfl⟩⟩
    · have hna : IsName text := .inr ⟨hop, hco⟩
      have hwh := hostAndPort_append hna fun _ => .inl rfl
      rw [append_nil] at hwh
      exact .inr ⟨text, [], hna, (append_nil _).symm, hwh⟩

theorem parsePort_of_spellsPort {spelling : List Char} {port : UInt16}
    (h : SpellsPort spelling port) : parsePort spelling = some port := by
  obtain ⟨hne, hval⟩ := h
  obtain ⟨c, digits, rfl⟩ := exists_cons_of_ne_nil hne
  have hp : c ≠ '+' := by
    rintro rfl
    cases hval
  have hle : port.toNat ≤ 65535 := Nat.le_of_lt_succ port.toNat_lt
  unfold parsePort Text.parseNat
  simp [hp, hval, hle]

def loose8080 : ClientAcl :=
  { hosts := none, ports := some [8080], strictPorts := false }

end Nexapipe
