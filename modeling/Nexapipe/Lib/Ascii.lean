import Mathlib.Logic.Basic

/-!
# Text as bytes

A text is the bytes of its encoding and the proof that they are one, so a text and
its bytes determine each other: `fromUtf8` reads exactly the bytes `utf8` writes
(`fromUtf8_eq_some_iff`). A text whose bytes are all below 128 has one byte for each
character, and lowering its letters lowers its bytes.
-/

namespace Ascii

open List UInt8

/-! ### Case -/

theorem toNat_toLower (c : Char) :
    c.toLower.toNat = if 65 ≤ c.toNat ∧ c.toNat ≤ 90 then c.toNat + 32 else c.toNat := by
  have hg : (c.val ≥ 'A'.val ∧ c.val ≤ 'Z'.val) ↔ (65 ≤ c.toNat ∧ c.toNat ≤ 90) := by
    exact Iff.rfl
  unfold Char.toLower
  by_cases h : 65 ≤ c.toNat ∧ c.toNat ≤ 90
  · rw [dif_pos (hg.mpr h), if_pos h]
    have hadd : (c.val + ('a'.val - 'A'.val)).toNat = (c.val.toNat + 32) % 2 ^ 32 :=
      UInt32.toNat_add _ _
    have hval : c.val.toNat = c.toNat := rfl
    rw [Char.toNat, hadd, hval]
    omega
  · rw [dif_neg (fun hc => h (hg.mp hc)), if_neg h]

theorem toLower_toLower (c : Char) : c.toLower.toLower = c.toLower := by
  apply Char.toNat_inj.mp
  rw [toNat_toLower c.toLower, toNat_toLower]
  by_cases h : 65 ≤ c.toNat ∧ c.toNat ≤ 90
  · rw [if_pos h, if_neg (by omega)]
  · rw [if_neg h, if_neg h]

variable {c : Char} {bytes : List UInt8} {s : String}

theorem toLower_eq_iff {d : Char} (hd : d.isAlpha = false) : c.toLower = d ↔ c = d := by
  have hlet : ¬(65 ≤ d.toNat ∧ d.toNat ≤ 90) ∧ ¬(97 ≤ d.toNat ∧ d.toNat ≤ 122) := by
    obtain ⟨hupp, hlow⟩ := Bool.or_eq_false_iff.mp hd
    have hnot : ¬(d.val ≥ 'A'.val ∧ d.val ≤ 'Z'.val) := of_decide_eq_false hupp
    have hno := Bool.and_eq_false_iff.mp hlow
    simp only [decide_eq_false_iff_not, ge_iff_le, UInt32.le_iff_toNat_le] at hnot hno
    have hval : d.val.toNat = d.toNat := rfl
    have hA : 'A'.val.toNat = 65 := rfl
    have hZ : 'Z'.val.toNat = 90 := rfl
    have ha : 'a'.val.toNat = 97 := rfl
    have hz : 'z'.val.toNat = 122 := rfl
    omega
  rw [← Char.toNat_inj, ← Char.toNat_inj (c := c), toNat_toLower]
  by_cases h : 65 ≤ c.toNat ∧ c.toNat ≤ 90
  · rw [if_pos h]
    omega
  · rw [if_neg h]

theorem map_toLower_map_toLower (s : List Char) :
    (s.map Char.toLower).map Char.toLower = s.map Char.toLower := by
  rw [map_map]
  exact map_congr_left fun c _ => toLower_toLower c

/-! ### Bytes -/

def utf8 (s : String) : List UInt8 :=
  s.toByteArray.data.toList

def fromUtf8 (bytes : List UInt8) : Option String :=
  String.fromUTF8? ⟨bytes.toArray⟩

theorem fromUtf8_eq_some_iff : fromUtf8 bytes = some s ↔ utf8 s = bytes := by
  unfold fromUtf8 String.fromUTF8? utf8
  constructor
  · intro h
    split at h
    · cases h
      rfl
    · cases h
  · rintro rfl
    rw [dif_pos s.isValidUTF8]
    rfl

@[simp] theorem fromUtf8_utf8 (s : String) : fromUtf8 (utf8 s) = some s :=
  fromUtf8_eq_some_iff.mpr rfl

theorem utf8_injective {t : String} (h : utf8 s = utf8 t) : s = t := by
  have hs := fromUtf8_utf8 s
  rw [h, fromUtf8_utf8] at hs
  exact (Option.some.inj hs).symm

theorem utf8_eq_flatMap (s : String) : utf8 s = s.toList.flatMap String.utf8EncodeChar := by
  unfold utf8
  rw [← String.utf8Encode_toList]
  simp [utf8Encode]

theorem utf8_ofList (cs : List Char) :
    utf8 (String.ofList cs) = cs.flatMap String.utf8EncodeChar := by
  rw [utf8_eq_flatMap, String.toList_ofList]

theorem utf8EncodeChar_of_lt (h : c.toNat < 128) :
    String.utf8EncodeChar c = [UInt8.ofNat c.toNat] := by
  have hle : c.val.toNat ≤ 127 := by
    have hval : c.val.toNat = c.toNat := rfl
    omega
  unfold String.utf8EncodeChar
  simp only [hle, if_true]
  rfl

theorem toNat_lt_of_utf8EncodeChar (h : ∀ b ∈ String.utf8EncodeChar c, b.toNat < 128) :
    c.toNat < 128 := by
  refine Nat.lt_of_not_le fun hge => ?_
  have hval : c.val.toNat = c.toNat := rfl
  -- The first byte of a longer encoding is 192 or more.
  have hfst : ∃ b ∈ String.utf8EncodeChar c, 128 ≤ b.toNat := by
    unfold String.utf8EncodeChar
    rw [if_neg (by omega)]
    split
    · refine ⟨_, mem_cons_self, ?_⟩
      rw [toNat_ofNat']
      omega
    split
    · refine ⟨_, mem_cons_self, ?_⟩
      rw [toNat_ofNat']
      omega
    refine ⟨_, mem_cons_self, ?_⟩
    rw [toNat_ofNat']
    omega
  rcases hfst with ⟨b, hb, hlar⟩
  have hsm := h b hb
  omega

theorem toNat_lt_of_utf8 (h : ∀ b ∈ utf8 s, b.toNat < 128) : ∀ c ∈ s.toList, c.toNat < 128 := by
  intro c hc
  refine toNat_lt_of_utf8EncodeChar fun b hb => h b ?_
  rw [utf8_eq_flatMap]
  exact mem_flatMap.mpr ⟨c, hc, hb⟩

theorem flatMap_utf8EncodeChar {cs : List Char} (h : ∀ c ∈ cs, c.toNat < 128) :
    cs.flatMap String.utf8EncodeChar = cs.map fun c => UInt8.ofNat c.toNat := by
  induction cs with
  | nil => rfl
  | cons c rest ih =>
    rw [forall_mem_cons] at h
    rw [flatMap_cons, utf8EncodeChar_of_lt h.1, ih h.2]
    rfl

theorem exists_utf8_eq (h : ∀ b ∈ bytes, b.toNat < 128) : ∃ s, utf8 s = bytes := by
  have hba : ∀ b ∈ bytes, (Char.ofNat b.toNat).toNat = b.toNat := by
    intro b hb
    have hlt := h b hb
    have hval : b.toNat.isValidChar := Or.inl (by omega)
    rw [Char.ofNat, dif_pos hval]
    rfl
  refine ⟨String.ofList (bytes.map fun b => Char.ofNat b.toNat), ?_⟩
  rw [utf8_ofList, flatMap_utf8EncodeChar, map_map]
  · -- Each byte is the code point of its own character.
    have hmap : bytes.map ((fun c => ofNat c.toNat) ∘ fun b => Char.ofNat b.toNat) =
        bytes.map id := by
      refine map_congr_left fun b hb => ?_
      rw [Function.comp, hba b hb, UInt8.ofNat_toNat, id]
    rw [hmap, map_id]
  · intro c hc
    rcases mem_map.mp hc with ⟨b, hb, rfl⟩
    rw [hba b hb]
    exact h b hb

def lower (s : String) : String :=
  String.ofList (s.toList.map Char.toLower)

def lowerByte (b : UInt8) : UInt8 :=
  if 65 ≤ b ∧ b ≤ 90 then b + 32 else b

theorem toNat_lowerByte (b : UInt8) :
    (lowerByte b).toNat = if 65 ≤ b.toNat ∧ b.toNat ≤ 90 then b.toNat + 32 else b.toNat := by
  have hg : (65 ≤ b ∧ b ≤ 90) ↔ (65 ≤ b.toNat ∧ b.toNat ≤ 90) := by
    exact Iff.rfl
  unfold lowerByte
  by_cases h : 65 ≤ b.toNat ∧ b.toNat ≤ 90
  · rw [if_pos (hg.mpr h), if_pos h, UInt8.toNat_add]
    have hlit : (32 : UInt8).toNat = 32 := rfl
    omega
  · rw [if_neg (fun hc => h (hg.mp hc)), if_neg h]

theorem ofNat_toNat_toLower (h : c.toNat < 128) :
    UInt8.ofNat c.toLower.toNat = lowerByte (UInt8.ofNat c.toNat) := by
  apply UInt8.toNat_inj.mp
  rw [toNat_lowerByte, UInt8.toNat_ofNat', UInt8.toNat_ofNat', toNat_toLower]
  have hmod : c.toNat % 2 ^ 8 = c.toNat := by omega
  rw [hmod]
  by_cases hupp : 65 ≤ c.toNat ∧ c.toNat ≤ 90
  · rw [if_pos hupp]
    omega
  · rw [if_neg hupp]
    exact hmod

theorem utf8_lower (h : ∀ b ∈ utf8 s, b.toNat < 128) : utf8 (lower s) = (utf8 s).map lowerByte := by
  have hs := toNat_lt_of_utf8 h
  have hlow : ∀ c ∈ s.toList.map Char.toLower, c.toNat < 128 := by
    intro c hc
    rcases mem_map.mp hc with ⟨d, hd, rfl⟩
    have hdlt := hs d hd
    rw [toNat_toLower]
    split
    · omega
    · exact hdlt
  rw [lower, utf8_ofList, flatMap_utf8EncodeChar hlow, utf8_eq_flatMap,
    flatMap_utf8EncodeChar hs, map_map, map_map]
  exact map_congr_left fun c hc => ofNat_toNat_toLower (hs c hc)

end Ascii
