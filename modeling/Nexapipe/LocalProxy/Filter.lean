import Nexapipe.LocalProxy.Head

/-!
# The filter of a head

The filter reads a head twice: once for the names that its `Connection` fields nominate, and once
to leave lines out. A field is left out for its name alone. A name with white space in it is none
to the filter, and no name it looks for has any, so the request line stays if there is white space
before its first colon.

What the filter leaves is a head again, and it nominates no name the first one does not.
-/

namespace Nexapipe.LocalProxy

open List Lines Ascii

/-- A field as it stands in a head. -/
structure Field where
  name : List UInt8
  value : List UInt8
  no_colon : 58 ∉ name
  one_line : blockLines (name ++ 58 :: value) = []

def Field.line (f : Field) : List UInt8 :=
  f.name ++ 58 :: f.value

/-- A head of a request line with a blank before any colon, and of fields. -/
structure RequestHead where
  requestLine : List UInt8
  fields : List Field
  not_empty : requestLine ≠ []
  one_line : blockLines requestLine = []
  blank_first : ∀ before after, requestLine = before ++ 58 :: after →
    before.any isAsciiWhitespace = true

def RequestHead.lines (h : RequestHead) : List (List UInt8) :=
  h.requestLine :: h.fields.map Field.line

def RequestHead.bytes (h : RequestHead) : List UInt8 :=
  unlines 13 10 (h.lines ++ [[]])

/-- Whether a name is one of these, ignoring case. -/
def isOneOf (names : List String) (name : List UInt8) : Bool :=
  (names.map fun n => asBytes n.toList).any fun n => n = lowerBytes name

/-- The tokens of a list, without their blanks and in lower case. -/
def Field.tokens (f : Field) : List (List UInt8) :=
  ((f.value.splitOnP (· = 44)).map fun token =>
    token.filter fun b => !isAsciiWhitespace b).filter (· ≠ []) |>.map lowerBytes

def nominatedBy (fields : List Field) : List (List UInt8) :=
  fields.flatMap fun f => if isOneOf ["connection"] f.name then f.tokens else []

/-- Whether a field of this name is to be left out. -/
def isLeftOut (keepUpgrade : Bool) (nominated : List (List UInt8)) (name : List UInt8) : Bool :=
  isOneOf ["if-modified-since", "if-none-match"] name ||
    !(keepUpgrade && isOneOf ["upgrade", "connection"] name) &&
      (isOneOf hopByHopHeaders name || nominated.any fun token => token = lowerBytes name)

def RequestHead.filtered (h : RequestHead) (keepUpgrade : Bool) : RequestHead :=
  { h with fields := h.fields.filter fun f => !isLeftOut keepUpgrade (nominatedBy h.fields) f.name }

/-! ### Names -/

section

variable {line name value : List UInt8} {nominated : List (List UInt8)}

theorem lowerByte_eq_iff {b c : UInt8} (hc : c.toNat < 65) : lowerByte b = c ↔ b = c := by
  rw [← UInt8.toNat_inj, toNat_lowerByte, ← UInt8.toNat_inj]
  split <;> omega

theorem any_lowerBytes (name : List UInt8) :
    (lowerBytes name).any isAsciiWhitespace = name.any isAsciiWhitespace := by
  rw [lowerBytes, any_map]
  congr 1
  funext b
  simp [isAsciiWhitespace, lowerByte_eq_iff]

theorem cutColon_append (h : 58 ∉ name) :
    cutColon (name ++ 58 :: value) = some (name, value) := by
  have hn : ∀ b ∈ name, decide (b ≠ 58) = true := by
    intro b hb
    exact decide_eq_true fun heq => h (heq ▸ hb)
  rw [cutColon, if_pos (by simp), takeWhile_append_of_pos hn, dropWhile_append_of_pos hn]
  simp

theorem cutColon_eq_some (h : cutColon line = some (name, value)) :
    58 ∉ name ∧ line = name ++ 58 :: value := by
  unfold cutColon at h
  split at h
  · rename_i hcol
    obtain ⟨before, after, rfl, hbef⟩ := eq_append_cons_of_mem hcol
    have hcut : cutColon (before ++ 58 :: after) = some (before, after) := cutColon_append hbef
    rw [cutColon, if_pos hcol, h] at hcut
    cases hcut
    exact ⟨hbef, rfl⟩
  · cases h

theorem startsWithIgnoreCase_colon (hna : 58 ∉ name) (hlow : lowerBytes name = name) :
    startsWithIgnoreCase line (name ++ [58]) =
      (cutColon line).any fun cut => name = lowerBytes cut.1 := by
  have hcol : lowerByte 58 = 58 := by decide
  have hst : lowerBytes (name ++ [58]) = name ++ [58] := by
    rw [lowerBytes, map_append, ← lowerBytes, hlow]
    simp [hcol]
  rw [startsWithIgnoreCase, hst, Bool.eq_iff_iff, Bool.and_eq_true, decide_eq_true_eq,
    decide_eq_true_eq, Option.any_eq_true]
  constructor
  · rintro ⟨-, hta⟩
    obtain ⟨found, last, hli, rfl, hla⟩ := map_eq_append_iff.mp hta
    obtain ⟨b, rfl, hb⟩ := map_eq_singleton_iff.mp hla
    obtain rfl := (lowerByte_eq_iff (by decide)).mp hb
    have hfound : 58 ∉ found := fun hmem => hna (mem_map.mpr ⟨58, hmem, hcol⟩)
    refine ⟨(found, line.drop (found.map lowerByte ++ [58]).length), ?_, decide_eq_true rfl⟩
    rw [← cutColon_append hfound, append_cons, ← hli, take_append_drop]
  · rintro ⟨⟨found, value⟩, hcut, hfound⟩
    obtain rfl := of_decide_eq_true hfound
    obtain ⟨-, rfl⟩ := cutColon_eq_some hcut
    simp [lowerBytes, hcol, take_append]

theorem isCacheValidationHeader_eq (line : List UInt8) : isCacheValidationHeader line =
    (cutColon line).any fun cut => isOneOf ["if-modified-since", "if-none-match"] cut.1 := by
  have hst : ∀ n : List UInt8, 58 ∉ n → lowerBytes n = n →
      startsWithIgnoreCase line (n ++ [58]) =
        (cutColon line).any fun cut => n = lowerBytes cut.1 := fun n => startsWithIgnoreCase_colon
  refine (congrArg₂ or (hst (asBytes "if-modified-since".toList) (by decide) (by decide))
    (hst (asBytes "if-none-match".toList) (by decide) (by decide))).trans ?_
  rcases cutColon line with _ | ⟨name, value⟩
  · rfl
  · simp only [Option.any_some, isOneOf, map_cons, map_nil, any_cons, any_nil, Bool.or_false]

/-- The names the filter looks for are not empty and have no white space. -/
def Clean (names : List (List UInt8)) : Prop :=
  ∀ name ∈ names, name ≠ [] ∧ name.any isAsciiWhitespace = false

instance (names : List (List UInt8)) : Decidable (Clean names) :=
  inferInstanceAs (Decidable (∀ name ∈ names, _))

theorem Clean.any_eq {names : List (List UInt8)} (hc : Clean names)
    (hbad : name = [] ∨ name.any isAsciiWhitespace = true) :
    (names.any fun n => n = lowerBytes name) = false := by
  rw [any_eq_false]
  intro n hn heq
  obtain rfl := of_decide_eq_true heq
  obtain ⟨hs, hb⟩ := hc _ hn
  rw [any_lowerBytes] at hb
  rcases hbad with rfl | hbad
  · exact hs rfl
  · exact Bool.false_ne_true (hb.symm.trans hbad)

theorem isLeftOut_of_bad (hnom : Clean nominated) (keepUpgrade : Bool)
    (hbad : name = [] ∨ name.any isAsciiWhitespace = true) :
    isLeftOut keepUpgrade nominated name = false := by
  have hone : ∀ names : List String, Clean (names.map fun n => asBytes n.toList) →
      isOneOf names name = false := fun names hc => hc.any_eq hbad
  rw [isLeftOut, hone _ (by decide), hone hopByHopHeaders (by decide), hnom.any_eq hbad]
  simp

theorem isDroppedHeader_eq (hnom : Clean nominated) (keepUpgrade : Bool)
    (line : List UInt8) : isDroppedHeader line keepUpgrade nominated =
      (cutColon line).any fun cut => isLeftOut keepUpgrade nominated cut.1 := by
  rw [isDroppedHeader, isCacheValidationHeader_eq, headerName]
  rcases cutColon line with _ | ⟨name, value⟩
  · rfl
  simp only [Option.any_some, Option.bind_some]
  by_cases hbad : name = [] ∨ name.any isAsciiWhitespace = true
  · have hle := isLeftOut_of_bad hnom keepUpgrade hbad
    have hcac := (Bool.or_eq_false_iff.mp hle).1
    rw [hle, hcac]
    simp only [if_pos hbad]
    rfl
  · have hone : ∀ names, isOneOf names name =
        names.any fun n => decide (lowerBytes name = asBytes n.toList) := by
      intro names
      simp [isOneOf, any_map, Function.comp_def, eq_comm]
    have hpa : isOneOf ["upgrade", "connection"] name = true ↔ lowerBytes name =
        asBytes "upgrade".toList ∨ lowerBytes name = asBytes "connection".toList := by
      rw [hone, any_cons, any_cons, any_nil, Bool.or_false, Bool.or_eq_true, decide_eq_true_eq,
        decide_eq_true_eq]
    simp only [if_neg hbad, ← hone, ← hpa, isLeftOut]
    cases isOneOf ["if-modified-since", "if-none-match"] name <;> cases keepUpgrade <;>
      cases isOneOf ["upgrade", "connection"] name <;> cases isOneOf hopByHopHeaders name <;> rfl

end

/-! ### Heads -/

section

variable (h : RequestHead) (keepUpgrade : Bool)

theorem clean_nominatedBy (fields : List Field) : Clean (nominatedBy fields) := by
  intro name hn
  obtain ⟨f, -, hn⟩ := mem_flatMap.mp hn
  split at hn
  · obtain ⟨token, htoken, rfl⟩ := mem_map.mp hn
    obtain ⟨htoken, hs⟩ := mem_filter.mp htoken
    obtain ⟨raw, -, rfl⟩ := mem_map.mp htoken
    rw [any_lowerBytes]
    simp_all [lowerBytes]
  · cases hn

theorem RequestHead.blockLines_bytes : blockLines h.bytes = h.lines ++ [[]] := by
  have hsp : split 13 10 false (unlines 13 10 (h.lines ++ [[]]) ++ []) =
      h.lines ++ [[]] ++ [[]] := by
    refine split_unlines (by decide) ?_ rfl
    intro line hl
    simp only [RequestHead.lines, mem_append, mem_cons, mem_map, not_mem_nil, or_false] at hl
    rcases hl with (rfl | ⟨f, -, rfl⟩) | rfl
    · exact h.one_line
    · exact f.one_line
    · rfl
  rw [append_nil] at hsp
  exact (append_inj' hsp rfl).1

theorem RequestHead.bad_of_cutColon {name value : List UInt8}
    (hcut : cutColon h.requestLine = some (name, value)) : name.any isAsciiWhitespace = true :=
  h.blank_first name value (cutColon_eq_some hcut).2

theorem RequestHead.nominatedHopByHop_bytes : nominatedHopByHop h.bytes = nominatedBy h.fields := by
  have hreq : headerValue h.requestLine (asBytes "connection".toList) = none := by
    rw [headerValue, Option.bind_eq_none_iff]
    rintro ⟨name, value⟩ hcut
    refine if_neg fun heq => ?_
    have hbad := h.bad_of_cutColon hcut
    rw [← any_lowerBytes, heq] at hbad
    exact absurd hbad (by decide)
  have hfi : ∀ f : Field, headerValue f.line (asBytes "connection".toList) =
      if isOneOf ["connection"] f.name then some f.value else none := by
    intro f
    have hlow : lowerBytes (asBytes "connection".toList) = asBytes "connection".toList := by
      decide
    rw [headerValue, Field.line, cutColon_append f.no_colon, Option.bind_some, hlow, isOneOf,
      map_singleton, any_cons, any_nil, Bool.or_false]
    simp only [decide_eq_true_eq]
    exact if_congr eq_comm rfl rfl
  unfold nominatedHopByHop
  rw [h.blockLines_bytes, RequestHead.lines, cons_append, flatMap_cons, flatMap_append, flatMap_map,
    hreq, nil_append, flatMap_singleton]
  refine (append_nil _).trans ?_
  congr 1
  funext f
  rw [hfi f]
  cases isOneOf ["connection"] f.name <;> rfl

theorem RequestHead.filterRequestHeaders_bytes :
    filterRequestHeaders h.bytes keepUpgrade = (h.filtered keepUpgrade).bytes := by
  have hd := isDroppedHeader_eq (clean_nominatedBy h.fields) keepUpgrade
  have hreq : isDroppedHeader h.requestLine keepUpgrade (nominatedBy h.fields) = false := by
    rw [hd, Option.any_eq_false]
    rintro ⟨name, value⟩ hcut
    exact isLeftOut_of_bad (clean_nominatedBy _) keepUpgrade (.inr (h.bad_of_cutColon hcut))
  have hf : ∀ f : Field, isDroppedHeader f.line keepUpgrade (nominatedBy h.fields) =
      isLeftOut keepUpgrade (nominatedBy h.fields) f.name := by
    intro f
    rw [hd, Field.line, cutColon_append f.no_colon, Option.any_some]
  rw [filterRequestHeaders, keptLines_of_blockLines keepUpgrade h.blockLines_bytes,
    h.nominatedHopByHop_bytes, RequestHead.lines, filter_cons, hreq, filter_map]
  simp [Function.comp_def, hf, RequestHead.bytes, RequestHead.lines, RequestHead.filtered]

theorem RequestHead.filtered_filtered :
    (h.filtered keepUpgrade).filtered keepUpgrade = h.filtered keepUpgrade := by
  have hke : ∀ f ∈ (h.filtered keepUpgrade).fields,
      (!isLeftOut keepUpgrade (nominatedBy (h.filtered keepUpgrade).fields) f.name) = true := by
    intro f hf
    have hout := (mem_filter.mp hf).2
    -- The fields that are left nominate no name the others do not.
    have hany : ((nominatedBy (h.filtered keepUpgrade).fields).any fun token =>
        token = lowerBytes f.name) = true → ((nominatedBy h.fields).any fun token =>
        token = lowerBytes f.name) = true := by
      rw [any_eq_true, any_eq_true]
      rintro ⟨token, htoken, heq⟩
      obtain ⟨c, hc, htoken⟩ := mem_flatMap.mp htoken
      exact ⟨token, mem_flatMap.mpr ⟨c, mem_of_mem_filter hc, htoken⟩, heq⟩
    unfold isLeftOut at hout ⊢
    grind
  rw [RequestHead.filtered, filter_eq_self.mpr hke]

/-- The filter leaves out the fields whose name is to be left out, and nothing else of a head. What
    it leaves ends in one empty line, and is left alone by the filter. -/
theorem filter_exact :
    filterRequestHeaders h.bytes keepUpgrade = (h.filtered keepUpgrade).bytes ∧
      blockLines (filterRequestHeaders h.bytes keepUpgrade) =
        (h.filtered keepUpgrade).lines ++ [[]] ∧ [] ∉ (h.filtered keepUpgrade).lines ∧
      filterRequestHeaders (filterRequestHeaders h.bytes keepUpgrade) keepUpgrade =
        filterRequestHeaders h.bytes keepUpgrade := by
  rw [h.filterRequestHeaders_bytes]
  refine ⟨rfl, (h.filtered keepUpgrade).blockLines_bytes, ?_, ?_⟩
  · simp [RequestHead.lines, Field.line, RequestHead.filtered, h.not_empty.symm]
  · rw [RequestHead.filterRequestHeaders_bytes, h.filtered_filtered]

end

/-- A head whose `Connection` field nominates the one behind it. -/
def nominating : RequestHead where
  requestLine := asBytes "GET / HTTP/1.1".toList
  fields := [⟨asBytes "Connection".toList, asBytes " x".toList, by decide, by decide⟩,
    ⟨asBytes "X".toList, asBytes " 1".toList, by decide, by decide⟩]
  not_empty := by decide
  one_line := by decide
  blank_first before after h :=
    absurd (h ▸ mem_append_right before mem_cons_self) (show 58 ∉ asBytes _ by decide)

theorem filter_exact_nominating :
    filterRequestHeaders nominating.bytes false = asBytes "GET / HTTP/1.1\r\n\r\n".toList :=
  (filter_exact nominating false).1.trans (by decide +kernel)

end Nexapipe.LocalProxy
