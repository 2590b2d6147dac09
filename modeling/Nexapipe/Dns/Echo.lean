import Nexapipe.Dns.Message

/-!
# An answer repeats the question

The answers carry the bytes of the question section as the packet had them, in the same place
behind a header of the same length, so a name without pointers is read out of an answer as it
was read out of the packet. A pointer keeps its offset. Where the offset leads out of the
question section the answer has other bytes than the packet: its own header, its own record, or
nothing at all. `response_repeats_question_iff` says that this is the only way in which an answer
can fail to repeat the question.
-/

namespace Nexapipe.Dns

open List Option

open Slice

/-! ### Messages that agree on some bytes -/

section Agreeing

variable {message other : List UInt8} {walk last : NameWalk} {lo hi : Nat}

theorem Pointer.of_sameOn {offset : Nat} (h : Pointer message walk offset)
    (hsame : SameOn lo hi message other) (hlo : lo ≤ walk.pos) (hhi : walk.pos + 2 ≤ hi) :
    Pointer other walk offset := by
  rcases h with ⟨hjum, high, low, hh, hlow, hk⟩
  refine ⟨hjum, high, low, ?_, ?_, hk⟩
  · rw [← hsame walk.pos hlo (by omega), hh]
  · rw [← hsame (walk.pos + 1) (by omega) (by omega), hlow]

theorem Label.of_sameOn {len : Nat} {label : String} (h : Label message walk len label)
    (hsame : SameOn lo hi message other) (hlo : lo ≤ walk.pos) (hhi : walk.pos + 1 + len ≤ hi)
    (hin : hi ≤ other.length) : Label other walk len label := by
  rcases h with ⟨⟨byte, hb, hlen⟩, hpos, hk, hf, ht⟩
  refine ⟨⟨byte, ?_, hlen⟩, hpos, hk, by omega, ?_⟩
  · rw [← hsame walk.pos hlo (by omega), hb]
  · rw [← hsame.slice_eq (by omega) hhi, ht]

/-! ### The part of a name before its first pointer -/

open NameWalk

def firstJump (payload : List UInt8) (walk : NameWalk) : Option NameWalk :=
  match _h : walk.turn payload with
  | .goOn next => if next.jumps = walk.jumps then firstJump payload next else some next
  | .ended _ => none
  | .unreadable => none
termination_by walk.budget payload
decreasing_by exact budget_lt _h

theorem Pointer.firstJump_eq {offset : Nat} (h : Pointer message walk offset)
    (hin : offset < message.length) : firstJump message walk = some (walk.jump offset) := by
  have ht := h.turn_eq
  rw [if_neg (by omega)] at ht
  have hm : (walk.jump offset).jumps ≠ walk.jumps := Nat.succ_ne_self walk.jumps
  rw [firstJump]
  split <;> simp_all

theorem Label.firstJump_eq {len : Nat} {label : String} (h : Label message walk len label) :
    firstJump message walk = firstJump message (walk.push len label) := by
  have ht := h.turn_eq
  have hsame : (walk.push len label).jumps = walk.jumps := rfl
  rw [firstJump]
  split <;> simp_all

theorem firstJump_ended (h : walk.turn message = .ended last) : firstJump message walk = none := by
  rw [firstJump]
  split <;> simp_all

theorem readName_afterName (h : readName message walk = some last) :
    ∀ {e : Nat}, walk.afterName = some e → last.afterName = some e := by
  refine readName_rec ?_ ?_ h
  · intro walk last ht he
    rcases turn_ended ht with ⟨-, rfl⟩ | ⟨-, rfl⟩ <;> exact he
  · intro walk next last ht _ ih he
    refine ih ?_
    rcases turn_goOn ht with ⟨offset, -, -, rfl⟩ | ⟨len, label, -, rfl⟩
    · rw [jump, he]
      rfl
    · exact he

theorem readName_le_nameEnd (h : readName message walk = some last) :
    walk.afterName = none → walk.pos ≤ last.nameEnd := by
  refine readName_rec ?_ ?_ h
  · intro walk last ht hn
    rcases turn_ended ht with ⟨-, rfl⟩ | ⟨-, rfl⟩ <;>
      simp only [nameEnd, hn, getD_none]
    · exact Nat.le_refl _
    · exact Nat.le_succ _
  · intro walk next last ht hne ih hn
    rcases turn_goOn ht with ⟨offset, -, -, rfl⟩ | ⟨len, label, -, rfl⟩
    · have hend := readName_afterName hne (e := walk.pos + 2) (by rw [jump, hn]; rfl)
      rw [nameEnd, hend]
      exact Nat.le_add_right _ _
    have hle := ih hn
    rw [push_pos] at hle
    omega

theorem readName_firstJump {next : NameWalk} (h : readName message walk = some last) :
    walk.afterName = none → firstJump message walk = some next →
      readName message next = some last ∧ next.afterName = some last.nameEnd := by
  refine readName_rec ?_ ?_ h
  · intro walk last htu _ hju
    rw [firstJump_ended htu] at hju
    cases hju
  · intro walk follow last htu hfol ih hno hju
    rcases turn_goOn htu with ⟨offset, hpo, hoff, rfl⟩ |
      ⟨len, label, hlab, rfl⟩
    · rw [hpo.firstJump_eq hoff] at hju
      cases hju
      have haft : (walk.jump offset).afterName = some (walk.pos + 2) := by
        rw [jump, hno]
        rfl
      refine ⟨hfol, ?_⟩
      rw [haft, nameEnd, readName_afterName hfol haft]
      rfl
    · rw [hlab.firstJump_eq] at hju
      exact ih hno hju

theorem readName_of_sameOn (h : readName message walk = some last) :
    walk.afterName = none → last.nameEnd < message.length → last.nameEnd ≤ other.length →
      SameOn walk.pos last.nameEnd message other →
      readName other walk =
        match firstJump message walk with
        | none => some last
        | some next => if next.pos < other.length then readName other next else none := by
  refine readName_rec ?_ ?_ h
  · intro walk last htu hno hin hoth hsame
    rw [firstJump_ended htu]
    rcases turn_ended htu with ⟨hout, rfl⟩ | ⟨hze, rfl⟩
    · -- The message does not end here: the type and the class are yet to come.
      rw [nameEnd, hno] at hin
      exact absurd hin (Nat.not_lt.mpr hout)
    have hend : walk.pos < nameEnd { walk with pos := walk.pos + 1 } := by
      simp only [nameEnd, hno, getD_none]
      exact Nat.lt_succ_self _
    rw [hsame walk.pos (Nat.le_refl _) hend] at hze
    exact readName_ended (turn_zero hze)
  · intro walk next last htu hne ih hno hin hoth hsame
    rcases turn_goOn htu with ⟨offset, hpo, hoff, rfl⟩ |
      ⟨len, label, hlab, rfl⟩
    · have hend := readName_afterName hne (e := walk.pos + 2) (by rw [jump, hno]; rfl)
      rw [nameEnd, hend, getD_some] at hsame
      have htu' := (hpo.of_sameOn hsame (Nat.le_refl _) (Nat.le_refl _)).turn_eq
      rw [hpo.firstJump_eq hoff]
      by_cases hout : other.length ≤ offset
      · rw [if_pos hout] at htu'
        rw [readName_unreadable htu']
        exact (if_neg (Nat.not_lt.mpr hout)).symm
      rw [if_neg hout] at htu'
      rw [readName_goOn htu']
      exact (if_pos (Nat.lt_of_not_le hout)).symm
    · have hle := readName_le_nameEnd hne hno
      rw [push_pos] at hle
      have hlab' := hlab.of_sameOn hsame (Nat.le_refl _) hle hoth
      rw [readName_goOn hlab'.turn_eq, hlab.firstJump_eq]
      refine ih hno hin hoth (hsame.mono ?_ (Nat.le_refl _))
      rw [push_pos]
      omega

end Agreeing

/-! ### An answer against the question -/

def Echoes (q : Query) (response : List UInt8) : Prop :=
  ∃ again, parseQuery response = some again ∧ again.id = q.id ∧ again.domain = q.domain ∧
    again.qtype = q.qtype ∧ again.qclass = q.qclass

def nameFrom (message : List UInt8) (walk : NameWalk) : Option (List Char) :=
  (readName message walk).map fun last => joinLabels last.labels

def SameBehindPointer (packet other : List UInt8) : Prop :=
  ∀ walk, firstJump packet ⟨12, [], 0, none⟩ = some walk →
    walk.pos < other.length ∧ nameFrom other walk = nameFrom packet walk

def relaid (packet question : List UInt8) (answers : UInt8) (records : List UInt8) : List UInt8 :=
  packet.take 2 ++ [0x81, 0x80, 0, 1, 0, answers, 0, 0, 0, 0] ++ question ++ records

section Relaid

variable {packet : List UInt8} (question : List UInt8) (answers : UInt8) (records : List UInt8)

theorem length_relaidHeader (h : 2 ≤ packet.length) :
    (packet.take 2 ++ [0x81, 0x80, 0, 1, 0, answers, 0, 0, 0, 0]).length = 12 := by
  rw [length_append, length_take, Nat.min_eq_left h]
  rfl

theorem length_relaid (h : 2 ≤ packet.length) :
    (relaid packet question answers records).length = 12 + question.length + records.length := by
  rw [relaid, length_append, length_append, length_relaidHeader answers h]

theorem slice_relaid_id (h : 2 ≤ packet.length) :
    slice (relaid packet question answers records) 0 2 = slice packet 0 2 := by
  simp only [slice, drop_zero, relaid, append_assoc]
  refine take_left' ?_
  rw [length_take, Nat.min_eq_left h]

theorem slice_relaid (h : 2 ≤ packet.length) (pos count : Nat) :
    slice (relaid packet question answers records) (2 + pos) count =
      slice ([0x81, 0x80, 0, 1, 0, answers, 0, 0, 0, 0] ++ (question ++ records)) pos count := by
  have hh : (packet.take 2).length = 2 := by rw [length_take, Nat.min_eq_left h]
  have hrig := slice_append_right (packet.take 2)
    ([0x81, 0x80, 0, 1, 0, answers, 0, 0, 0, 0] ++ (question ++ records)) pos count
  rw [hh] at hrig
  rw [relaid, append_assoc, append_assoc]
  exact hrig

end Relaid

variable {packet : List UInt8} {q : Query}

theorem echoes_iff_of_sameOn {other : List UInt8} (h : parseQuery packet = some q)
    (hsame : SameOn 12 (12 + q.question.length) packet other)
    (hlen : 12 + q.question.length ≤ other.length) (hid : slice other 0 2 = slice packet 0 2)
    (hcount : Bytes.ofBe (slice other 4 2) ≠ 0) :
    Echoes q other ↔ SameBehindPointer packet other := by
  rcases parseQuery_eq_some.mp h with ⟨hlong, -, last, hread, hfits, rfl⟩
  have hst := readName_le_nameEnd hread rfl
  simp only at hst
  have hend : 12 + (slice packet 12 (last.nameEnd + 4 - 12)).length = last.nameEnd + 4 := by
    rw [length_slice (by omega)]
    omega
  simp only [hend] at hsame hlen
  have hqty : slice other last.nameEnd 2 = slice packet last.nameEnd 2 :=
    (hsame.slice_eq hst (by omega)).symm
  have hqcl : slice other (last.nameEnd + 2) 2 = slice packet (last.nameEnd + 2) 2 :=
    (hsame.slice_eq (by omega) (by omega)).symm
  have hoth := readName_of_sameOn hread rfl (by omega) (by omega)
    (hsame.mono (Nat.le_refl _) (by omega))
  unfold Echoes SameBehindPointer
  rcases hjump : firstJump packet ⟨12, [], 0, none⟩ with _ | walk
  · rw [hjump] at hoth
    refine ⟨fun _ walk hwalk => (by cases hwalk), fun _ => ?_⟩
    refine ⟨_, parseQuery_eq_some.mpr ⟨by omega, hcount, last, hoth, by omega, rfl⟩, ?_⟩
    exact ⟨by rw [hid], rfl, by rw [hqty], by rw [hqcl]⟩
  · rw [hjump] at hoth
    rcases readName_firstJump hread rfl hjump with ⟨hrest, haft⟩
    have hname : nameFrom packet walk = some (joinLabels last.labels) := by
      rw [nameFrom, hrest]
      rfl
    constructor
    · rintro ⟨again, hagai, -, hdom, -, -⟩
      rintro _ ⟨⟩
      rcases parseQuery_eq_some.mp hagai with ⟨-, -, last', hread', -, rfl⟩
      rw [hoth] at hread'
      by_cases hin : walk.pos < other.length
      · simp only [hin, if_true] at hread'
        refine ⟨hin, ?_⟩
        rw [hname, nameFrom, hread', map_some]
        exact congrArg some hdom
      · simp only [hin, if_false] at hread'
        cases hread'
    · intro hbehind
      rcases hbehind walk rfl with ⟨hin, hsam⟩
      simp only [hin, if_true] at hoth
      rw [hname, nameFrom, map_eq_some_iff] at hsam
      rcases hsam with ⟨last', hread', hdom⟩
      rw [hread'] at hoth
      -- The first pointer stands in the same place, and with it the type and the class.
      have hend' : last'.nameEnd = last.nameEnd := by
        rw [NameWalk.nameEnd, readName_afterName hread' haft]
        rfl
      refine ⟨_, parseQuery_eq_some.mpr ⟨by omega, hcount, last', hoth, by omega, rfl⟩, ?_⟩
      exact ⟨by rw [hid], hdom, by rw [hend', hqty], by rw [hend', hqcl]⟩

theorem sameOn_relaid (h : parseQuery packet = some q) (answers : UInt8) (records : List UInt8) :
    12 + q.question.length ≤ packet.length ∧
      SameOn 12 (12 + q.question.length) packet (relaid packet q.question answers records) := by
  rcases parseQuery_eq_some.mp h with ⟨hl, -, last, hread, hf, hq⟩
  have hqu : q.question = slice packet 12 (last.nameEnd + 4 - 12) := by rw [hq]
  have hlen : q.question.length = last.nameEnd + 4 - 12 := by
    rw [hqu, length_slice (by omega)]
  have hfr := length_relaidHeader answers (show 2 ≤ packet.length by omega)
  have hsame := sameOn_slice packet
    (packet.take 2 ++ [0x81, 0x80, 0, 1, 0, answers, 0, 0, 0, 0]) records q.question.length
    (by rw [hfr, hlen]; omega)
  rw [hfr, hlen, ← hqu] at hsame
  rw [hlen]
  exact ⟨by omega, hsame⟩

theorem echoes_relaid_iff (h : parseQuery packet = some q) (answers : UInt8)
    (records : List UInt8) :
    Echoes q (relaid packet q.question answers records) ↔
      SameBehindPointer packet (relaid packet q.question answers records) := by
  rcases sameOn_relaid h answers records with ⟨hl, hsame⟩
  have htwo : 2 ≤ packet.length := by omega
  refine echoes_iff_of_sameOn h hsame ?_ (slice_relaid_id _ _ _ htwo) ?_
  · rw [length_relaid _ _ _ htwo]
    omega
  · rw [slice_relaid _ _ _ htwo 2 2]
    exact Nat.one_ne_zero

/-! ### The answers -/

def IpAddr.matches (addr : IpAddr) (qtype : Nat) : Bool :=
  match addr with
  | .v4 _ => qtype = dnsTypeA
  | .v6 _ => qtype = dnsTypeAaaa

def HasRecord (q : Query) (response : List UInt8) : Prop :=
  Bytes.ofBe (slice response 6 2) = 1 ∧ 12 + q.question.length < response.length

def NoRecord (q : Query) (response : List UInt8) : Prop :=
  Bytes.ofBe (slice response 6 2) = 0 ∧ response.length = 12 + q.question.length

/-- Both answers are read as the question they answer, and one has a record exactly when the
    address is of the family asked for. -/
structure RepeatsQuestion (q : Query) (addr : IpAddr) : Prop where
  full : Echoes q (buildResponse q addr)
  empty : Echoes q (buildEmptyResponse q)
  record : if addr.matches q.qtype then HasRecord q (buildResponse q addr)
    else NoRecord q (buildResponse q addr)
  noRecord : NoRecord q (buildEmptyResponse q)

/-- The first pointer of the packet's name, if it has one, leads to the same rest of the name
    where the question stands under the header of an answer, with and without the record. -/
structure PointerKept (packet : List UInt8) (q : Query) (addr : IpAddr) : Prop where
  full : ∀ rtype rdata, recordFor addr q.qtype = some (rtype, rdata) →
    SameBehindPointer packet (relaid packet q.question 1 (answerRecord rtype rdata))
  empty : SameBehindPointer packet (relaid packet q.question 0 [])

section Answers

variable {packet : List UInt8} {q : Query}

theorem responseHeader_eq (h : parseQuery packet = some q) (answers : Nat) :
    responseHeader q.id answers =
      packet.take 2 ++ [0x81, 0x80, 0, 1] ++ Bytes.be 2 answers ++ [0, 0, 0, 0] := by
  rcases parseQuery_eq_some.mp h with ⟨hl, -, last, -, -, rfl⟩
  have hid : Bytes.be 2 (Bytes.ofBe (slice packet 0 2)) = packet.take 2 := by
    have hb := Bytes.be_ofBe (packet.take 2)
    rwa [length_take, Nat.min_eq_left (by omega)] at hb
  rw [responseHeader, hid]
  simp only [append_assoc]
  rfl

theorem buildEmptyResponse_eq (h : parseQuery packet = some q) :
    buildEmptyResponse q = relaid packet q.question 0 [] := by
  rw [buildEmptyResponse, responseHeader_eq h, relaid]
  simp only [append_assoc, append_nil]
  rfl

variable {addr : IpAddr} {rdata : List UInt8}

theorem buildResponse_eq (h : parseQuery packet = some q) {rtype : Nat}
    (hrec : recordFor addr q.qtype = some (rtype, rdata)) :
    buildResponse q addr = relaid packet q.question 1 (answerRecord rtype rdata) := by
  rw [buildResponse, hrec]
  rw [responseHeader_eq h, relaid]
  simp only [append_assoc]
  rfl

theorem two_le_of_parseQuery (h : parseQuery packet = some q) : 2 ≤ packet.length := by
  have hl := (parseQuery_eq_some.mp h).1
  omega

theorem noRecord_buildEmptyResponse (h : parseQuery packet = some q) :
    NoRecord q (buildEmptyResponse q) := by
  have htwo := two_le_of_parseQuery h
  rw [buildEmptyResponse_eq h]
  refine ⟨?_, length_relaid _ _ _ htwo⟩
  rw [slice_relaid _ _ _ htwo 4 2]
  rfl

theorem hasRecord_buildResponse (h : parseQuery packet = some q) {rtype : Nat}
    (hrec : recordFor addr q.qtype = some (rtype, rdata)) :
    HasRecord q (buildResponse q addr) := by
  have htwo := two_le_of_parseQuery h
  rw [buildResponse_eq h hrec]
  refine ⟨?_, ?_⟩
  · rw [slice_relaid _ _ _ htwo 4 2]
    rfl
  · rw [length_relaid _ _ _ htwo]
    have hs : 0 < (answerRecord rtype rdata).length := Nat.succ_pos _
    omega

theorem matches_iff_recordFor {qtype : Nat} :
    addr.matches qtype = true ↔ ∃ rtype rdata, recordFor addr qtype = some (rtype, rdata) := by
  cases addr with
  | v4 ip =>
    by_cases h : qtype = dnsTypeA <;> simp [IpAddr.matches, recordFor, h]
  | v6 ip =>
    by_cases h : qtype = dnsTypeAaaa <;> simp [IpAddr.matches, recordFor, h]

/-- Exactly when the answers to a packet repeat its question. -/
theorem response_repeats_question_iff (h : parseQuery packet = some q) (addr : IpAddr) :
    RepeatsQuestion q addr ↔ PointerKept packet q addr := by
  have hnil := echoes_relaid_iff h 0 []
  rw [← buildEmptyResponse_eq h] at hnil
  by_cases hmat : addr.matches q.qtype = true
  · rcases matches_iff_recordFor.mp hmat with ⟨rtype, rdata, hrec⟩
    have hfu := echoes_relaid_iff h 1 (answerRecord rtype rdata)
    rw [← buildResponse_eq h hrec] at hfu
    constructor
    · intro hrep
      refine ⟨?_, buildEmptyResponse_eq h ▸ hnil.mp hrep.empty⟩
      intro rtype' rdata' hrec'
      rw [← buildResponse_eq h hrec']
      exact hfu.mp hrep.full
    · intro hke
      refine ⟨hfu.mpr ?_, hnil.mpr ?_, ?_, noRecord_buildEmptyResponse h⟩
      · rw [buildResponse_eq h hrec]
        exact hke.full rtype rdata hrec
      · rw [buildEmptyResponse_eq h]
        exact hke.empty
      · rw [if_pos hmat]
        exact hasRecord_buildResponse h hrec
  · -- The address is of the other family, so the answer is the one without records.
    have hno : recordFor addr q.qtype = none := by
      rcases hrec : recordFor addr q.qtype with _ | record
      · rfl
      · exact absurd (matches_iff_recordFor.mpr ⟨_, _, hrec⟩) hmat
    have hbu : buildResponse q addr = buildEmptyResponse q := by rw [buildResponse, hno]
    constructor
    · intro hrep
      refine ⟨fun rtype rdata hrec => ?_, buildEmptyResponse_eq h ▸ hnil.mp hrep.empty⟩
      rw [hno] at hrec
      cases hrec
    · intro hke
      have hech := hnil.mpr (buildEmptyResponse_eq h ▸ hke.empty)
      refine ⟨hbu ▸ hech, hech, ?_, noRecord_buildEmptyResponse h⟩
      rw [if_neg hmat, hbu]
      exact noRecord_buildEmptyResponse h

def plainPacket : List UInt8 :=
  [0x12, 0x34, 1, 0, 0, 1, 0, 0, 0, 0, 0, 0, 2, 97, 98, 1, 99, 0, 0, 28, 0, 1]

theorem response_repeats_plain_question :
    ∃ q, parseQuery plainPacket = some q ∧ q.domain = "ab.c".toList ∧
      RepeatsQuestion q (.v6 5) := by
  have hpar : parseQuery plainPacket = some ⟨0x1234, "ab.c".toList, 28, 1,
      [2, 97, 98, 1, 99, 0, 0, 28, 0, 1]⟩ := by decide +kernel
  have hp : firstJump plainPacket ⟨12, [], 0, none⟩ = none := by decide +kernel
  refine ⟨_, hpar, rfl, (response_repeats_question_iff hpar _).mpr ⟨?_, ?_⟩⟩
  · intro rtype rdata _ walk hw
    rw [hp] at hw
    cases hw
  · intro walk hw
    rw [hp] at hw
    cases hw

/-- A packet that asks for the IPv4 address of `www` and what its pointer points at, which is
    `example.com` behind the question. -/
def partlyCompressedPacket : List UInt8 :=
  [0x12, 0x34, 1, 0, 0, 1, 0, 0, 0, 0, 0, 0, 3, 119, 119, 119, 0xC0, 24, 0, 1, 0, 1, 0, 0,
    7, 101, 120, 97, 109, 112, 108, 101, 3, 99, 111, 109, 0]

/-- The answer has its record where the packet had the rest of the name, and is read as a
    question for `www`; the one without records is not read at all. -/
theorem response_loses_compressed_name :
    ∃ q, parseQuery partlyCompressedPacket = some q ∧ q.domain = "www.example.com".toList ∧
      (parseQuery (buildResponse q (.v4 0x0A000001))).map Query.domain = some "www".toList ∧
      parseQuery (buildEmptyResponse q) = none ∧ ¬RepeatsQuestion q (.v4 0x0A000001) := by
  have hpar : parseQuery partlyCompressedPacket = some ⟨0x1234, "www.example.com".toList, 1, 1,
      [3, 119, 119, 119, 0xC0, 24, 0, 1, 0, 1]⟩ := by decide +kernel
  have hn : parseQuery (buildEmptyResponse ⟨0x1234, "www.example.com".toList, 1, 1,
      [3, 119, 119, 119, 0xC0, 24, 0, 1, 0, 1]⟩) = none := by decide +kernel
  refine ⟨_, hpar, rfl, by decide +kernel, hn, ?_⟩
  intro hrep
  rcases hrep.empty with ⟨again, ha, -⟩
  rw [hn] at ha
  cases ha

end Answers

end Nexapipe.Dns
