import Nexapipe.Lib.Entries
import Mathlib.Data.UInt

/-!
# Documents and the shapes read from them

A TOML document as a tree, and the part of a derived deserializer that decides
whether a tree has the shape of a record: every key is one the record has, every
value is of that key's type, and what is required is there.

Numbers of the format are integers; a reader of a fixed width takes those that fit. A table with a
key written twice is not a document of the format, and `asTable` refuses it.

`Passes` is the form in which a document's acceptance is carried through edits.
-/

inductive Toml where
  | str (s : String)
  | int (n : Int)
  | bool (b : Bool)
  | other
  | array (items : List Toml)
  | table (entries : List (String × Toml))

namespace Toml

open List Option Entries

/-! ### Readers -/

def asStr : Toml → Option String
  | str s => some s
  | _ => none

def asBool : Toml → Option Bool
  | bool b => some b
  | _ => none

def asNat (bits : Nat) : Toml → Option Nat
  | int n => if 0 ≤ n ∧ n < 2 ^ bits then some n.toNat else none
  | _ => none

def asUInt16 (v : Toml) : Option UInt16 :=
  (v.asNat 16).map UInt16.ofNat

def asUInt32 (v : Toml) : Option UInt32 :=
  (v.asNat 32).map UInt32.ofNat

def asUInt64 (v : Toml) : Option UInt64 :=
  (v.asNat 64).map UInt64.ofNat

def asList {α : Type} (read : Toml → Option α) : Toml → Option (List α)
  | array items => items.mapM read
  | _ => none

def asTable : Toml → Option (Entries String Toml)
  -- A key written twice is an error of the format, not a table.
  | table t => if Entries.Distinct t then some t else none
  | _ => none

theorem asTable_table {t : Entries String Toml} (hd : t.Distinct) : (table t).asTable = some t :=
  if_pos hd

theorem asTable_eq_some {v : Toml} {t : Entries String Toml} :
    v.asTable = some t ↔ v = table t ∧ t.Distinct := by
  constructor
  · intro h
    cases v with
    | table t' =>
      simp only [asTable] at h
      by_cases hd : Entries.Distinct t'
      · rw [if_pos hd] at h
        cases h
        exact ⟨rfl, hd⟩
      · simp [if_neg hd] at h
    | _ => cases h
  · intro h
    rw [h.1, asTable_table h.2]

/-! ### Records -/

inductive ShapeError where
  | notATable
  | unknownField (key : String)
  | wrongType (key : String)
  | missingField (key : String)

abbrev Fields : Type :=
  List (String × (Toml → Bool))

def checkFields (fields : Fields) : Entries String Toml → Except ShapeError Unit
  | [] => .ok ()
  | e :: rest =>
    match fields.lookup e.1 with
    | none => .error (.unknownField e.1)
    | some admits =>
      if admits e.2 then checkFields fields rest else .error (.wrongType e.1)

def field {α : Type} (read : Toml → Option α) (key : String) (t : Entries String Toml) :
    Option α :=
  (t.lookup key).bind read

def tableField {α : Type} (read : Toml → Except ShapeError α) (key : String)
    (t : Entries String Toml) : Except ShapeError (Option (Entries String α)) :=
  match field asTable key t with
  | none => .ok none
  | some entries =>
    match Entries.readEach (fun _ v => read v) entries with
    | .error why => .error why
    | .ok values => .ok (some values)

def Fields.Admits (fields : Fields) (key : String) (v : Toml) : Prop :=
  ∃ admits, fields.lookup key = some admits ∧ admits v = true

theorem checkFields_ok_iff {fields : Fields} {t : Entries String Toml} :
    checkFields fields t = .ok () ↔ ∀ e ∈ t, fields.Admits e.1 e.2 := by
  induction t with
  | nil => exact ⟨fun _ e he => absurd he not_mem_nil, fun _ => rfl⟩
  | cons e rest ih =>
    rw [forall_mem_cons, ← ih, checkFields]
    unfold Fields.Admits
    rcases fields.lookup e.1 with _ | admits
    · simp
    by_cases hv : admits e.2 = true
    · simp [hv]
    · simp [hv]

section

variable {α : Type} {read : Toml → Except ShapeError α} {key : String} {t : Entries String Toml}

def entriesAt (key : String) (t : Entries String Toml) : Entries String Toml :=
  (field asTable key t).getD []

theorem mem_entriesAt {e : String × Toml} :
    e ∈ entriesAt key t ↔ ∃ entries ∈ field asTable key t, e ∈ entries := by
  unfold entriesAt
  rcases field asTable key t with _ | entries
  · simp
  · simp

theorem field_of_lookup {α : Type} {read : Toml → Option α} {v : Toml}
    (h : t.lookup key = some v) : field read key t = read v := by
  unfold field
  rw [h, bind_some]

theorem entriesAt_distinct : (entriesAt key t).Distinct := by
  unfold entriesAt field
  rcases hkey : t.lookup key with _ | v
  · exact nodup_nil
  -- A value that is no table has no entries, and a table repeats no key.
  rcases htab : v.asTable with _ | entries
  · rw [bind_some, htab]
    exact nodup_nil
  · rw [bind_some, htab]
    exact (asTable_eq_some.mp htab).2

variable {key' : String}

theorem isSome_of_entriesAt (h : ((entriesAt key t).lookup key').isSome) :
    (t.lookup key).isSome := by
  rcases hkey : t.lookup key with _ | v
  · simp [entriesAt, field, hkey] at h
  · rfl

theorem entriesAt_set {entries : Entries String Toml} (hd : entries.Distinct) :
    entriesAt key (Entries.set key (table entries) t) = entries := by
  unfold entriesAt
  rw [field_of_lookup (by rw [lookup_set, if_pos rfl]), asTable_table hd]
  rfl

theorem field_set_ne {α : Type} {read : Toml → Option α} {v : Toml} (hne : key' ≠ key) :
    field read key' (Entries.set key v t) = field read key' t := by
  unfold field
  rw [lookup_set, if_neg hne]

theorem entriesAt_set_ne {v : Toml} (hne : key' ≠ key) :
    entriesAt key' (Entries.set key v t) = entriesAt key' t := by
  unfold entriesAt
  rw [field_set_ne hne]

theorem field_remove_ne {α : Type} {read : Toml → Option α} (hne : key' ≠ key) :
    field read key' (Entries.remove key t) = field read key' t := by
  unfold field
  rw [lookup_remove, if_neg hne]

theorem entriesAt_remove_ne (hne : key' ≠ key) :
    entriesAt key' (Entries.remove key t) = entriesAt key' t := by
  unfold entriesAt
  rw [field_remove_ne hne]

theorem tableField_isOk_iff :
    (∃ values, tableField read key t = .ok values) ↔
      ∀ e ∈ entriesAt key t, ∃ value, read e.2 = .ok value := by
  rw [← readEach_isOk_iff (f := fun _ v => read v)]
  unfold tableField entriesAt
  rcases field asTable key t with _ | entries
  · exact ⟨fun _ => ⟨[], rfl⟩, fun _ => ⟨none, rfl⟩⟩
  rcases hread : Entries.readEach (fun _ v => read v) entries with why | values
  · simp [hread]
  · simp [hread]

theorem readEach_of_tableField {values : Option (Entries String α)}
    (h : tableField read key t = .ok values) :
    Entries.readEach (fun _ v => read v) (entriesAt key t) = .ok (values.getD []) := by
  revert h
  unfold entriesAt
  fun_cases tableField read key t with
  | case1 hf =>
    rintro ⟨⟩
    rw [hf]
    rfl
  | case2 => rintro ⟨⟩
  | case3 entries hf ws hread =>
    rintro ⟨⟩
    rw [hf]
    exact hread

theorem tableField_of_readEach {values : Entries String α}
    (h : Entries.readEach (fun _ v => read v) (entriesAt key t) = .ok values) :
    ∃ values', tableField read key t = .ok values' ∧ values'.getD [] = values := by
  -- The field can be read since each entry can, and reading is a function of the entries.
  rcases tableField_isOk_iff.mpr (readEach_isOk_iff.mp ⟨values, h⟩) with ⟨values', hok⟩
  refine ⟨values', hok, ?_⟩
  have hread := readEach_of_tableField hok
  rw [h] at hread
  cases hread
  rfl

end

/-! ### Edits of a table -/

structure Passes (ok : String → Toml → Prop) (t : Entries String Toml) : Prop where
  distinct : t.Distinct
  each : ∀ e ∈ t, ok e.1 e.2

namespace Passes

variable {ok : String → Toml → Prop} {t : Entries String Toml}

theorem nil : Passes ok [] :=
  ⟨nodup_nil, fun _ he => absurd he not_mem_nil⟩

theorem set (h : Passes ok t) {k : String} {v : Toml} (hv : ok k v) :
    Passes ok (Entries.set k v t) := by
  refine ⟨h.distinct.set k v, ?_⟩
  intro e he
  rcases mem_set he with hnew | hold
  · rw [hnew]
    exact hv
  · exact h.each e hold

theorem remove (h : Passes ok t) (k : String) : Passes ok (Entries.remove k t) :=
  ⟨h.distinct.remove k, fun e he => h.each e (mem_remove.mp he).1⟩

theorem lookup (h : Passes ok t) {k : String} {v : Toml} (hv : t.lookup k = some v) : ok k v :=
  h.each (k, v) (mem_of_lookup hv)

theorem of_lookup (hd : t.Distinct) (h : ∀ k v, t.lookup k = some v → ok k v) : Passes ok t :=
  ⟨hd, fun e he => h e.1 e.2 (hd.lookup_of_mem he)⟩

end Passes

end Toml
