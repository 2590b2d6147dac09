import Nexapipe.Lib.Ascii
import Nexapipe.Lib.Bytes
import Nexapipe.Lib.Slice

/-!
# Questions and answers on the wire

How the client reads a DNS question and what it writes back. A name is a list of labels, each
behind its length, up to a length of zero; or up to a compression pointer, which sends the
reader to an offset of the message where the name goes on. `parseQuery` follows such pointers
and keeps the bytes of the question section, and both builders copy these bytes into their
answer behind a header of their own.

A reading ends: a label moves it forward in the message, and a pointer, which may lead back to
the front, is followed four times at most.
-/

namespace Nexapipe.Dns

open Slice

/-! ### Reading a question -/

def maxDnsPointerJumps : Nat := 4

/-- How far the reading of a name has come: where it reads next, the labels and the pointers so
    far, and where the name's first pointer ended it. -/
structure NameWalk where
  pos : Nat
  labels : List (List Char)
  jumps : Nat
  afterName : Option Nat

inductive NameTurn where
  | ended (walk : NameWalk)
  | goOn (walk : NameWalk)
  | unreadable

def pointerOffset (high low : UInt8) : Nat :=
  ((high.toNat &&& 0x3F) <<< 8) ||| low.toNat

def NameWalk.jump (walk : NameWalk) (offset : Nat) : NameWalk :=
  { walk with
    pos := offset
    jumps := walk.jumps + 1
    afterName := some (walk.afterName.getD (walk.pos + 2)) }

def NameWalk.push (walk : NameWalk) (len : Nat) (label : String) : NameWalk :=
  { walk with pos := walk.pos + 1 + len, labels := walk.labels ++ [label.toList] }

@[simp] theorem NameWalk.push_pos (walk : NameWalk) (len : Nat) (label : String) :
    (walk.push len label).pos = walk.pos + 1 + len := rfl

def NameWalk.turn (payload : List UInt8) (walk : NameWalk) : NameTurn :=
  match payload[walk.pos]? with
  | none => .ended walk
  | some byte =>
    let len := byte.toNat
    if len = 0 then .ended { walk with pos := walk.pos + 1 }
    else if len &&& 0xC0 = 0xC0 then
      match payload[walk.pos + 1]? with
      | none => .unreadable
      | some low =>
        let offset := pointerOffset byte low
        if payload.length ≤ offset then .unreadable
        else if maxDnsPointerJumps < walk.jumps + 1 then .unreadable
        else .goOn (walk.jump offset)
    -- The other two kinds of label cannot be read as text.
    else if len &&& 0xC0 ≠ 0 then .unreadable
    else if payload.length < walk.pos + 1 + len then .unreadable
    else
      match Ascii.fromUtf8 (slice payload (walk.pos + 1) len) with
      | none => .unreadable
      | some label => .goOn (walk.push len label)

structure Pointer (payload : List UInt8) (walk : NameWalk) (offset : Nat) : Prop where
  jumps : walk.jumps < maxDnsPointerJumps
  bytes : ∃ high low, payload[walk.pos]? = some high ∧ payload[walk.pos + 1]? = some low ∧
    high.toNat &&& 0xC0 = 0xC0 ∧ pointerOffset high low = offset

structure Label (payload : List UInt8) (walk : NameWalk) (len : Nat) (label : String) : Prop where
  byte : ∃ byte, payload[walk.pos]? = some byte ∧ byte.toNat = len
  pos : len ≠ 0
  kind : len &&& 0xC0 = 0
  fits : walk.pos + 1 + len ≤ payload.length
  text : Ascii.fromUtf8 (slice payload (walk.pos + 1) len) = some label

variable {payload : List UInt8} {walk next : NameWalk}

open NameWalk

theorem Pointer.turn_eq {offset : Nat} (h : Pointer payload walk offset) :
    walk.turn payload =
      if payload.length ≤ offset then .unreadable else .goOn (walk.jump offset) := by
  rcases h with ⟨hjum, high, low, hh, hlow, hk, rfl⟩
  have hpos : high.toNat ≠ 0 := by
    intro hz
    rw [hz] at hk
    cases hk
  have hfew : ¬maxDnsPointerJumps < walk.jumps + 1 := by omega
  simp only [turn, hh, hlow]
  rw [if_neg hpos, if_pos hk, if_neg hfew]

theorem Label.turn_eq {len : Nat} {label : String} (h : Label payload walk len label) :
    walk.turn payload = .goOn (walk.push len label) := by
  rcases h with ⟨⟨byte, hb, rfl⟩, hpos, hk, hf, ht⟩
  simp only [turn, hb, hk, ht]
  rw [if_neg hpos, if_neg (by decide), if_neg (by decide), if_neg (by omega)]

theorem NameWalk.turn_goOn (h : walk.turn payload = .goOn next) :
    (∃ offset, Pointer payload walk offset ∧ offset < payload.length ∧ next = walk.jump offset) ∨
      ∃ len label, Label payload walk len label ∧ next = walk.push len label := by
  revert h
  fun_cases turn payload walk with
  | case6 byte hb _ _ hp low hlow =>
    rintro ⟨⟩
    exact .inl ⟨_, ⟨by omega, byte, low, hb, hlow, hp, rfl⟩, by omega, rfl⟩
  | case10 byte hb _ hz _ hk _ label ht =>
    rintro ⟨⟩
    exact .inr ⟨_, label, ⟨⟨byte, hb, rfl⟩, hz, Decidable.not_not.mp hk,
      by omega, ht⟩, rfl⟩
  | _ => rintro ⟨⟩

theorem NameWalk.turn_ended (h : walk.turn payload = .ended next) :
    payload.length ≤ walk.pos ∧ next = walk ∨
      payload[walk.pos]? = some 0 ∧ next = { walk with pos := walk.pos + 1 } := by
  revert h
  fun_cases turn payload walk with
  | case1 hb =>
    rintro ⟨⟩
    exact .inl ⟨List.getElem?_eq_none_iff.mp hb, rfl⟩
  | case2 byte hb _ hz =>
    rintro ⟨⟩
    exact .inr ⟨hb.trans (congrArg some (UInt8.toNat_inj.mp hz)), rfl⟩
  -- A byte other than zero is a pointer, a label or nothing that can be read.
  | _ => rintro ⟨⟩

theorem NameWalk.turn_zero (h : payload[walk.pos]? = some 0) :
    walk.turn payload = .ended { walk with pos := walk.pos + 1 } := by
  simp only [turn, h]
  rfl

def NameWalk.budget (payload : List UInt8) (walk : NameWalk) : Nat :=
  (maxDnsPointerJumps - walk.jumps) * (payload.length + 1) + (payload.length - walk.pos)

theorem NameWalk.budget_lt (h : walk.turn payload = .goOn next) :
    next.budget payload < walk.budget payload := by
  unfold budget
  rcases turn_goOn h with ⟨offset, hp, hin, rfl⟩ | ⟨len, label, hlab, rfl⟩
  · -- A pointer may lead back to the front of the message, but there are only so many.
    have hone := hp.jumps
    have hl : maxDnsPointerJumps - walk.jumps =
        maxDnsPointerJumps - (walk.jumps + 1) + 1 := by omega
    simp only [jump]
    rw [hl, Nat.add_mul, Nat.one_mul]
    omega
  · have hpos := hlab.pos
    have hf := hlab.fits
    simp only [push]
    omega

def readName (payload : List UInt8) (walk : NameWalk) : Option NameWalk :=
  match _h : walk.turn payload with
  | .ended walk => some walk
  | .goOn next => readName payload next
  | .unreadable => none
termination_by walk.budget payload
decreasing_by exact NameWalk.budget_lt _h

theorem readName_ended {last : NameWalk} (h : walk.turn payload = .ended last) :
    readName payload walk = some last := by
  rw [readName]
  split <;> simp_all

theorem readName_goOn (h : walk.turn payload = .goOn next) :
    readName payload walk = readName payload next := by
  rw [readName]
  split <;> simp_all

theorem readName_unreadable (h : walk.turn payload = .unreadable) :
    readName payload walk = none := by
  rw [readName]
  split <;> simp_all

@[elab_as_elim]
theorem readName_rec {motive : NameWalk → NameWalk → Prop}
    (hover : ∀ walk last, walk.turn payload = .ended last → motive walk last)
    (hg : ∀ walk next last, walk.turn payload = .goOn next →
      readName payload next = some last → motive next last → motive walk last) {last : NameWalk}
    (h : readName payload walk = some last) : motive walk last := by
  fun_induction readName payload walk with
  | case1 walk end' ht =>
    cases h
    exact hover walk _ ht
  | case2 walk next ht ih => exact hg walk next last ht h (ih h)
  | case3 walk ht => cases h

def joinLabels (labels : List (List Char)) : List Char :=
  List.intercalate ['.'] labels

structure Query where
  id : Nat
  domain : List Char
  qtype : Nat
  qclass : Nat
  question : List UInt8
deriving DecidableEq

def dnsClassIn : Nat := 1
def dnsTypeA : Nat := 1
def dnsTypeAaaa : Nat := 28

def NameWalk.nameEnd (walk : NameWalk) : Nat :=
  walk.afterName.getD walk.pos

def parseQuery (payload : List UInt8) : Option Query :=
  if payload.length < 12 then none
  else if Bytes.ofBe (slice payload 4 2) = 0 then none
  else
    match readName payload ⟨12, [], 0, none⟩ with
    | none => none
    | some walk =>
      let qtypePos := walk.nameEnd
      if payload.length < qtypePos + 4 then none
      else some {
        id := Bytes.ofBe (slice payload 0 2)
        domain := joinLabels walk.labels
        qtype := Bytes.ofBe (slice payload qtypePos 2)
        qclass := Bytes.ofBe (slice payload (qtypePos + 2) 2)
        question := slice payload 12 (qtypePos + 4 - 12) }

/-! ### Writing an answer -/

inductive IpAddr where
  | v4 (ip : BitVec 32)
  | v6 (ip : BitVec 128)
deriving DecidableEq

def responseHeader (id answers : Nat) : List UInt8 :=
  Bytes.be 2 id ++ [0x81, 0x80] ++ Bytes.be 2 1 ++ Bytes.be 2 answers ++ Bytes.be 2 0 ++
    Bytes.be 2 0

def buildEmptyResponse (parsed : Query) : List UInt8 :=
  responseHeader parsed.id 0 ++ parsed.question

/-- The record of an answer: the name as a pointer to the question, the type, the class, a time
    to live of a minute, and the address behind its length. -/
def answerRecord (rtype : Nat) (rdata : List UInt8) : List UInt8 :=
  [0xC0, 0x0C] ++ Bytes.be 2 rtype ++ Bytes.be 2 1 ++ Bytes.be 4 60 ++
    Bytes.be 2 rdata.length ++ rdata

def recordFor (addr : IpAddr) (qtype : Nat) : Option (Nat × List UInt8) :=
  match addr with
  | .v4 ip => if qtype = dnsTypeA then some (dnsTypeA, Bytes.be 4 ip.toNat) else none
  | .v6 ip => if qtype = dnsTypeAaaa then some (dnsTypeAaaa, Bytes.be 16 ip.toNat) else none

def buildResponse (parsed : Query) (addr : IpAddr) : List UInt8 :=
  match recordFor addr parsed.qtype with
  | some (rtype, rdata) =>
    responseHeader parsed.id 1 ++ parsed.question ++ answerRecord rtype rdata
  | none => buildEmptyResponse parsed

theorem parseQuery_eq_some {q : Query} :
    parseQuery payload = some q ↔
      12 ≤ payload.length ∧ Bytes.ofBe (slice payload 4 2) ≠ 0 ∧
        ∃ walk, readName payload ⟨12, [], 0, none⟩ = some walk ∧
          walk.nameEnd + 4 ≤ payload.length ∧ q = {
            id := Bytes.ofBe (slice payload 0 2)
            domain := joinLabels walk.labels
            qtype := Bytes.ofBe (slice payload walk.nameEnd 2)
            qclass := Bytes.ofBe (slice payload (walk.nameEnd + 2) 2)
            question := slice payload 12 (walk.nameEnd + 4 - 12) } := by
  fun_cases parseQuery payload with
  | case1 hsh => exact ⟨nofun, fun h => absurd h.1 (by omega)⟩
  | case2 hsh hcount => exact ⟨nofun, fun h => absurd hcount h.2.1⟩
  | case3 hsh hcount hread =>
    refine ⟨nofun, ?_⟩
    rintro ⟨-, -, walk, hwa, -⟩
    simp [hread] at hwa
  | case4 hsh hcount walk hread qtypePos hcut =>
    refine ⟨nofun, ?_⟩
    rintro ⟨-, -, walk', hwa', hle, -⟩
    cases hread.symm.trans hwa'
    omega
  | case5 hsh hcount walk hread qtypePos hcut =>
    constructor
    · rintro ⟨⟩
      exact ⟨by omega, hcount, walk, hread, by omega, rfl⟩
    · rintro ⟨-, -, walk', hwa', -, rfl⟩
      cases hread.symm.trans hwa'
      rfl

end Nexapipe.Dns
