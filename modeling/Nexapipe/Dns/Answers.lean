import Nexapipe.Dns.Message

/-!
# Which question an answer answers

What the client reads of the answers of real resolvers. `answersTheQuestion` compares the question
an answer carries with the one that was asked, and the cache walks the answer section to find
the time to live of every record: to keep an answer no longer than its shortest record allows,
and to write into each record what is left of its time when the answer is served again.
-/

namespace Nexapipe.Dns

open List Bytes

open Slice

/-! ### The question of a message -/

def plainNameEnd (message : List UInt8) (offset : Nat) : Option Nat :=
  match message[offset]? with
  | none => none
  | some labelLen =>
    if labelLen = 0 then some (offset + 1)
    else if labelLen &&& 0xC0 ≠ 0 then none
    else if message.length < offset + 1 + labelLen.toNat then none
    else plainNameEnd message (offset + 1 + labelLen.toNat)
termination_by message.length - offset

def questionOf (message : List UInt8) : Option (List UInt8 × List UInt8) :=
  if message.length < 12 then none
  else if Bytes.ofBe (slice message 4 2) ≠ 1 then none
  else
    match plainNameEnd message 12 with
    | none => none
    | some offset =>
      if message.length < offset + 4 then none
      else some (slice message 12 (offset - 12), slice message offset 4)

def eqIgnoreAsciiCase (name other : List UInt8) : Bool :=
  name.map Ascii.lowerByte = other.map Ascii.lowerByte

def answersTheQuestion (answer query : List UInt8) : Bool :=
  if answer.length < 12 ∨ answer.getD 2 0 &&& 0x80 = 0 then false
  else
    match questionOf answer, questionOf query with
    | some (answerName, answerRest), some (name, rest) =>
      eqIgnoreAsciiCase answerName name && answerRest = rest
    | _, _ => false

/-! ### The times of the records -/

def skipDnsName (payload : List UInt8) (pos : Nat) : Option Nat :=
  match h : payload[pos]? with
  | none => none
  | some len =>
    if len = 0 then some (pos + 1)
    else if 0xC0 ≤ len then some (pos + 2)
    else skipDnsName payload (pos + 1 + len.toNat)
termination_by payload.length - pos
decreasing_by
  have hin := (List.getElem?_eq_some_iff.mp h).1
  omega

def ttlOffsets (response : List UInt8) : Nat → Nat → Option (List Nat)
  | 0, _ => some []
  | answers + 1, pos =>
    match skipDnsName response pos with
    | none => none
    | some pos =>
      if response.length < pos + 10 then none
      else
        let rdlength := Bytes.ofBe (slice response (pos + 8) 2)
        (ttlOffsets response answers (pos + 10 + rdlength)).map fun offsets =>
          (pos + 4) :: offsets

def answerTtlOffsets (response : List UInt8) : Option (List Nat) :=
  if response.length < 12 then none
  else
    let answers := Bytes.ofBe (slice response 6 2)
    if answers = 0 then none
    else
      match skipDnsName response 12 with
      | none => none
      | some pos => ttlOffsets response answers (pos + 4)

def readU32 (payload : List UInt8) (pos : Nat) : Nat :=
  if pos + 4 ≤ payload.length then Bytes.ofBe (slice payload pos 4) else 0

def dnsCacheMaxTtl : Nat := 300

def cacheableFor (ttl : Nat) : Option Nat :=
  if ttl = 0 then none else some (min ttl dnsCacheMaxTtl)

def answerTtl (response : List UInt8) : Option Nat :=
  if response.length < 12 then none
  -- Anything but a zero in the low four bits is a refusal or a failure.
  else if response.getD 3 0 &&& 0x0F ≠ 0 then none
  else
    match answerTtlOffsets response with
    | none => none
    | some offsets =>
      match (offsets.map (readU32 response)).min? with
      | none => none
      | some shortest => cacheableFor shortest

def setAnswerTtls (response : List UInt8) (ttl : Nat) : List UInt8 :=
  match answerTtlOffsets response with
  | none => response
  | some offsets => overwriteAll (Bytes.be 4 ttl) offsets response

/-! ### What the question depends on -/

variable {last : Nat} {message other name rest answer query : List UInt8}

theorem lt_plainNameEnd {offset : Nat} (h : plainNameEnd message offset = some last) :
    offset < last ∧ last ≤ message.length := by
  fun_induction plainNameEnd message offset with
  | case1 => cases h
  | case2 offset hb =>
    cases h
    exact ⟨Nat.lt_succ_self _, (List.getElem?_eq_some_iff.mp hb).1⟩
  | case3 => cases h
  | case4 => cases h
  | case5 offset labelLen hb hz hk hf ih =>
    have hl := ih h
    omega

theorem plainNameEnd_congr {offset : Nat} (h : plainNameEnd message offset = some last)
    (hsame : SameOn offset last message other) (hin : last ≤ other.length) :
    plainNameEnd other offset = some last := by
  fun_induction plainNameEnd message offset with
  | case1 => cases h
  | case2 offset hby =>
    cases h
    rw [plainNameEnd, ← hsame offset (Nat.le_refl _) (Nat.lt_succ_self _), hby]
    rfl
  | case3 => cases h
  | case4 => cases h
  | case5 offset labelLen hby hze hki hfi ih =>
    have hla := lt_plainNameEnd h
    rw [plainNameEnd, ← hsame offset (Nat.le_refl _) (by omega), hby]
    simp only
    rw [if_neg hze, if_neg hki, if_neg (by omega)]
    exact ih h (hsame.mono (by omega) (Nat.le_refl _))

theorem questionOf_eq_some :
    questionOf message = some (name, rest) ↔
      12 ≤ message.length ∧ Bytes.ofBe (slice message 4 2) = 1 ∧
        ∃ last, plainNameEnd message 12 = some last ∧ last + 4 ≤ message.length ∧
          name = slice message 12 (last - 12) ∧ rest = slice message last 4 := by
  fun_cases questionOf message with
  | case1 hsh => exact ⟨nofun, fun h => absurd h.1 (by omega)⟩
  | case2 hsh hcount => exact ⟨nofun, fun h => absurd h.2.1 hcount⟩
  | case3 hsh hcount hend =>
    refine ⟨nofun, ?_⟩
    rintro ⟨-, -, last, hla, -⟩
    simp [hend] at hla
  | case4 hsh hcount last hend hcut =>
    refine ⟨nofun, ?_⟩
    rintro ⟨-, -, last', hla', hfi, -⟩
    cases hend.symm.trans hla'
    omega
  | case5 hsh hcount last hend hcut =>
    constructor
    · rintro ⟨⟩
      exact ⟨by omega, Decidable.not_not.mp hcount, last, hend, by omega, rfl, rfl⟩
    · rintro ⟨-, -, last', hla', -, rfl, rfl⟩
      cases hend.symm.trans hla'
      rfl

theorem questionOf_congr (h : questionOf message = some (name, rest))
    (hl : plainNameEnd message 12 = some last) (hsame : SameOn 2 (last + 4) message other)
    (hlen : other.length = message.length) : questionOf other = some (name, rest) := by
  rcases questionOf_eq_some.mp h with ⟨hlo, hcount, last', hl', hf, rfl, rfl⟩
  rw [hl] at hl'
  cases hl'
  have hlt := lt_plainNameEnd hl
  refine questionOf_eq_some.mpr ⟨by omega, ?_, last, ?_, by omega, ?_, ?_⟩
  · rw [← hsame.slice_eq (by omega) (by omega), hcount]
  · exact plainNameEnd_congr hl (hsame.mono (by omega) (by omega)) (by omega)
  · exact hsame.slice_eq (by omega) (by omega)
  · exact hsame.slice_eq (by omega) (by omega)

theorem answersTheQuestion_iff :
    answersTheQuestion answer query = true ↔
      12 ≤ answer.length ∧ answer.getD 2 0 &&& 0x80 ≠ 0 ∧
        ∃ answerName name rest, questionOf answer = some (answerName, rest) ∧
          questionOf query = some (name, rest) ∧ eqIgnoreAsciiCase answerName name = true := by
  unfold answersTheQuestion
  by_cases hhe : answer.length < 12 ∨ answer.getD 2 0 &&& 0x80 = 0
  · rw [if_pos hhe]
    refine ⟨nofun, ?_⟩
    rintro ⟨hlo, hqr, -⟩
    rcases hhe with hsh | hze
    · omega
    · exact absurd hze hqr
  rw [if_neg hhe]
  rw [not_or] at hhe
  rcases hans : questionOf answer with _ | question
  · simp
  rcases hqu : questionOf query with _ | asked
  · simp
  rcases question with ⟨answerName, answerRest⟩
  rcases asked with ⟨name, rest⟩
  simp only [Bool.and_eq_true, decide_eq_true_eq]
  constructor
  · rintro ⟨hna, rfl⟩
    exact ⟨by omega, hhe.2, answerName, name, answerRest, rfl, rfl, hna⟩
  · rintro ⟨-, -, answerName', name', rest', hans', hqu', hna⟩
    cases hans'
    cases hqu'
    exact ⟨hna, rfl⟩

theorem answersTheQuestion_congr (h : answersTheQuestion answer query = true)
    (hl : plainNameEnd answer 12 = some last) (hsame : SameOn 2 (last + 4) answer other)
    (hlen : other.length = answer.length) : answersTheQuestion other query = true := by
  rcases answersTheQuestion_iff.mp h with ⟨hlo, hqr, answerName, name, rest, hans, hq,
    hn⟩
  refine answersTheQuestion_iff.mpr ⟨by omega, ?_, answerName, name, rest,
    questionOf_congr hans hl hsame hlen, hq, hn⟩
  rwa [getD_eq_getElem?_getD, ← hsame 2 (Nat.le_refl _) (by omega),
    ← getD_eq_getElem?_getD]

/-! ### What the walk over the records depends on -/

section Walk

variable {response other : List UInt8} {pos last answers : Nat} {offsets : List Nat}

theorem skipDnsName_eq (payload : List UInt8) (pos : Nat) :
    skipDnsName payload pos =
      match payload[pos]? with
      | none => none
      | some len =>
        if len = 0 then some (pos + 1)
        else if 0xC0 ≤ len then some (pos + 2)
        else skipDnsName payload (pos + 1 + len.toNat) := by
  rw [skipDnsName]
  split <;> simp_all

theorem lt_skipDnsName (h : skipDnsName response pos = some last) : pos < last := by
  fun_induction skipDnsName response pos with
  | case1 => cases h
  | case2 pos hb =>
    cases h
    exact Nat.lt_succ_self _
  | case3 pos len hb hz hp =>
    cases h
    omega
  | case4 pos len hb hz hp ih =>
    have hl := ih h
    omega

theorem skipDnsName_congr (h : skipDnsName response pos = some last)
    (hsame : SameOn pos last response other) : skipDnsName other pos = some last := by
  fun_induction skipDnsName response pos with
  | case1 => cases h
  | case2 pos hby =>
    cases h
    rw [skipDnsName_eq, ← hsame pos (Nat.le_refl _) (by omega), hby]
    rfl
  | case3 pos len hby hze hpo =>
    cases h
    rw [skipDnsName_eq, ← hsame pos (Nat.le_refl _) (by omega), hby]
    simp only
    rw [if_neg hze, if_pos hpo]
  | case4 pos len hby hze hpo ih =>
    have hla := lt_skipDnsName h
    rw [skipDnsName_eq, ← hsame pos (Nat.le_refl _) (by omega), hby]
    simp only
    rw [if_neg hze, if_neg hpo]
    exact ih h (hsame.mono (by omega) (Nat.le_refl _))

theorem lt_of_and_eq_zero {b : UInt8} (h : b &&& 0xC0 = 0) : ¬0xC0 ≤ b := by
  have hall : ∀ n < 256, n &&& 192 = 0 → n < 192 := by decide +kernel
  have hnat : b.toNat &&& 192 = 0 := by
    have hand := congrArg UInt8.toNat h
    rwa [UInt8.toNat_and] at hand
  have hlt := hall b.toNat b.toNat_lt hnat
  exact Nat.not_le.mpr hlt

theorem skipDnsName_of_plain (h : plainNameEnd response pos = some last) :
    skipDnsName response pos = some last := by
  fun_induction plainNameEnd response pos with
  | case1 => cases h
  | case2 pos hb =>
    cases h
    rw [skipDnsName_eq, hb]
    rfl
  | case3 => cases h
  | case4 => cases h
  | case5 pos labelLen hb hz hk hf ih =>
    have hlow := lt_of_and_eq_zero (Decidable.not_not.mp hk)
    rw [skipDnsName_eq, hb]
    simp only
    rw [if_neg hz, if_neg hlow]
    exact ih h

theorem ttlOffsets_succ (h : ttlOffsets response (answers + 1) pos = some offsets) :
    ∃ next rest, skipDnsName response pos = some next ∧ next + 10 ≤ response.length ∧
      ttlOffsets response answers (next + 10 + Bytes.ofBe (slice response (next + 8) 2)) =
        some rest ∧ offsets = (next + 4) :: rest := by
  rw [ttlOffsets] at h
  rcases hs : skipDnsName response pos with _ | next
  · simp [hs] at h
  simp only [hs] at h
  by_cases hcut : response.length < next + 10
  · simp [if_pos hcut] at h
  rw [if_neg hcut, Option.map_eq_some_iff] at h
  rcases h with ⟨rest, hr, rfl⟩
  exact ⟨next, rest, rfl, by omega, hr, rfl⟩

theorem ttlOffsets_spec (h : ttlOffsets response answers pos = some offsets) :
    (∀ offset ∈ offsets, pos + 5 ≤ offset ∧ offset + 4 ≤ response.length) ∧
      offsets.Pairwise fun offset next => offset + 4 ≤ next := by
  induction answers generalizing pos offsets with
  | zero =>
    cases h
    exact ⟨nofun, List.Pairwise.nil⟩
  | succ answers ih =>
    rcases ttlOffsets_succ h with ⟨next, rest, hsk, hfi, hre, rfl⟩
    have hlt := lt_skipDnsName hsk
    rcases ih hre with ⟨hbo, hap⟩
    refine ⟨?_, pairwise_cons.mpr ⟨?_, hap⟩⟩
    · intro offset hoff
      rcases mem_cons.mp hoff with rfl | hin
      · omega
      · have hbou := hbo offset hin
        omega
    · intro offset hin
      have hbou := hbo offset hin
      omega

theorem ttlOffsets_congr (h : ttlOffsets response answers pos = some offsets)
    (hlen : other.length = response.length)
    (hsame : ∀ i, pos ≤ i → (∀ offset ∈ offsets, i < offset ∨ offset + 4 ≤ i) →
      response[i]? = other[i]?) : ttlOffsets other answers pos = some offsets := by
  induction answers generalizing pos offsets with
  | zero => exact h
  | succ answers ih =>
    rcases ttlOffsets_succ h with ⟨next, rest, hsk, hfit, hre, rfl⟩
    have hlt := lt_skipDnsName hsk
    have hbehind := (ttlOffsets_spec hre).1
    have hna : SameOn pos next response other := by
      intro i hlo hhi
      refine hsame i hlo fun offset hoff => .inl ?_
      rcases mem_cons.mp hoff with rfl | hin
      · omega
      · have hbo := hbehind offset hin
        omega
    have hle : slice response (next + 8) 2 = slice other (next + 8) 2 := by
      have hfi : SameOn (next + 8) (next + 10) response other := by
        intro i hlo hhi
        refine hsame i (by omega) fun offset hoff => ?_
        rcases mem_cons.mp hoff with rfl | hin
        · exact .inr hlo
        · have hbo := hbehind offset hin
          omega
      exact hfi.slice_eq (Nat.le_refl _) (Nat.le_refl _)
    have hne := ih hre fun i hlo hout => by
      refine hsame i (by omega) fun offset hoff => ?_
      rcases mem_cons.mp hoff with rfl | hin
      · omega
      · exact hout offset hin
    rw [ttlOffsets, skipDnsName_congr hsk hna]
    simp only
    rw [if_neg (by omega), ← hle, hne]
    rfl

theorem answerTtlOffsets_eq_some :
    answerTtlOffsets response = some offsets ↔
      12 ≤ response.length ∧ Bytes.ofBe (slice response 6 2) ≠ 0 ∧
        ∃ pos, skipDnsName response 12 = some pos ∧
          ttlOffsets response (Bytes.ofBe (slice response 6 2)) (pos + 4) = some offsets := by
  fun_cases answerTtlOffsets response with
  | case1 hsh => exact ⟨nofun, fun h => absurd h.1 (by omega)⟩
  | case2 hsh answerCount hze => exact ⟨nofun, fun h => absurd hze h.2.1⟩
  | case3 hsh answerCount hze hsk =>
    refine ⟨nofun, ?_⟩
    rintro ⟨-, -, pos, hpos, -⟩
    simp [hsk] at hpos
  | case4 hsh answerCount hze pos hsk =>
    refine ⟨fun h => ⟨by omega, hze, pos, hsk, h⟩, ?_⟩
    rintro ⟨-, -, pos', hpos', h⟩
    cases hsk.symm.trans hpos'
    exact h

theorem answerTtlOffsets_congr (h : answerTtlOffsets response = some offsets)
    (hlen : other.length = response.length)
    (hsame : ∀ i, 6 ≤ i → (∀ offset ∈ offsets, i < offset ∨ offset + 4 ≤ i) →
      response[i]? = other[i]?) : answerTtlOffsets other = some offsets := by
  rcases answerTtlOffsets_eq_some.mp h with ⟨hlon, hso, pos, hsk, hoff⟩
  have hlt := lt_skipDnsName hsk
  have hbehind := (ttlOffsets_spec hoff).1
  have hhe : SameOn 6 (pos + 4) response other := by
    intro i hlo hhi
    refine hsame i hlo fun offset hin => .inl ?_
    have hbo := hbehind offset hin
    omega
  have hcount : slice other 6 2 = slice response 6 2 :=
    (hhe.slice_eq (Nat.le_refl _) (by omega)).symm
  refine answerTtlOffsets_eq_some.mpr ⟨by omega, by rw [hcount]; exact hso, pos, ?_, ?_⟩
  · exact skipDnsName_congr hsk (hhe.mono (by omega) (by omega))
  · rw [hcount]
    exact ttlOffsets_congr hoff hlen fun i hlo => hsame i (by omega)

/-! ### A rewritten answer -/

theorem fits_of_answerTtlOffsets (h : answerTtlOffsets response = some offsets) (ttl : Nat) :
    ∀ offset ∈ offsets, offset + (Bytes.be 4 ttl).length ≤ response.length := by
  rcases answerTtlOffsets_eq_some.mp h with ⟨-, -, pos, -, hoff⟩
  intro offset hin
  exact ((ttlOffsets_spec hoff).1 offset hin).2

theorem length_setAnswerTtls (response : List UInt8) (ttl : Nat) :
    (setAnswerTtls response ttl).length = response.length := by
  unfold setAnswerTtls
  rcases h : answerTtlOffsets response with _ | offsets
  · rfl
  · exact length_overwriteAll (fits_of_answerTtlOffsets h ttl)

theorem getElem?_setAnswerTtls (h : answerTtlOffsets response = some offsets) (ttl : Nat) {i : Nat}
    (hi : ∀ offset ∈ offsets, i < offset ∨ offset + 4 ≤ i) :
    (setAnswerTtls response ttl)[i]? = response[i]? := by
  rw [setAnswerTtls, h]
  refine getElem?_overwriteAll (fits_of_answerTtlOffsets h ttl) fun offset hin => ?_
  exact hi offset hin

theorem sameOn_setAnswerTtls (response : List UInt8) (ttl : Nat) :
    SameOn 0 12 response (setAnswerTtls response ttl) := by
  intro i _ hi
  rcases h : answerTtlOffsets response with _ | offsets
  · rw [setAnswerTtls, h]
  rcases answerTtlOffsets_eq_some.mp h with ⟨-, -, pos, hs, hw⟩
  have hlt := lt_skipDnsName hs
  refine (getElem?_setAnswerTtls h ttl fun offset hin => .inl ?_).symm
  have hb := (ttlOffsets_spec hw).1 offset hin
  omega

theorem answerTtlOffsets_setAnswerTtls (h : answerTtlOffsets response = some offsets) (ttl : Nat) :
    answerTtlOffsets (setAnswerTtls response ttl) = some offsets :=
  answerTtlOffsets_congr h (length_setAnswerTtls response ttl)
    fun _ _ hi => (getElem?_setAnswerTtls h ttl hi).symm

theorem readU32_setAnswerTtls (h : answerTtlOffsets response = some offsets) {ttl offset : Nat}
    (httl : ttl < 2 ^ 32) (hin : offset ∈ offsets) :
    readU32 (setAnswerTtls response ttl) offset = ttl := by
  rcases answerTtlOffsets_eq_some.mp h with ⟨-, -, pos, -, hoff⟩
  rcases ttlOffsets_spec hoff with ⟨hb, ha⟩
  have hf := (hb offset hin).2
  have hs := slice_overwriteAll (fits_of_answerTtlOffsets h ttl)
    (by rw [length_be]; exact ha) hin
  rw [length_be] at hs
  rw [readU32, length_setAnswerTtls, if_pos hf, setAnswerTtls, h]
  rw [hs, ofBe_be]
  exact httl

theorem answersTheQuestion_setAnswerTtls {query : List UInt8} (ttl : Nat)
    (h : answersTheQuestion response query = true) :
    answersTheQuestion (setAnswerTtls response ttl) query = true := by
  rcases hoff : answerTtlOffsets response with _ | offsets
  · rw [setAnswerTtls, hoff]
    exact h
  rcases answersTheQuestion_iff.mp h with ⟨-, -, _, _, _, hans, -, -⟩
  rcases questionOf_eq_some.mp hans with ⟨-, -, last, hla, -⟩
  refine answersTheQuestion_congr h hla ?_ (length_setAnswerTtls response ttl)
  -- The walk starts behind the question, so every time lies behind it.
  rcases answerTtlOffsets_eq_some.mp hoff with ⟨-, -, pos, hsk, hwa⟩
  rw [skipDnsName_of_plain hla] at hsk
  cases hsk
  intro i _ hi
  refine (getElem?_setAnswerTtls hoff ttl fun offset hin => .inl ?_).symm
  have hbo := (ttlOffsets_spec hwa).1 offset hin
  omega

end Walk

end Nexapipe.Dns
