import Nexapipe.Dns.Message

/-!
# The name on the wire

What a question's name is, said without the reader: labels one behind another, each step a label
or a pointer to where the name goes on, up to a zero byte. The reader takes the end of the packet
for the end of a name as well. Where the name has not jumped yet there is then no type left to
read, and the packet is refused; behind a pointer the type is elsewhere, so a name whose last
label ends with the packet is read, although nothing terminates it.
-/

namespace Nexapipe.Dns

open Slice NameWalk

variable {payload : List UInt8} {walk : NameWalk} {labels labels' : List (List Char)}
  {last last' stop stop' : Nat}

/-- The labels from here on, where the last of them ends, and where the name's own bytes end:
    behind its first pointer, or behind the byte its labels end at. -/
inductive Spells (payload : List UInt8) : NameWalk → List (List Char) → Nat → Nat → Prop where
  | here (walk : NameWalk) : Spells payload walk [] walk.pos (walk.pos + 1)
  | label {walk : NameWalk} {len : Nat} {label : String} {labels : List (List Char)}
      {last stop : Nat} (h : Label payload walk len label)
      (rest : Spells payload (walk.push len label) labels last stop) :
      Spells payload walk (label.toList :: labels) last stop
  | pointer {walk : NameWalk} {offset : Nat} {labels : List (List Char)} {last stop : Nat}
      (h : Pointer payload walk offset) (hin : offset < payload.length)
      (rest : Spells payload (walk.jump offset) labels last stop) :
      Spells payload walk labels last (walk.pos + 2)

def Terminated (payload : List UInt8) (last : Nat) : Prop :=
  payload[last]? = some 0

def Ends (payload : List UInt8) (last : Nat) : Prop :=
  Terminated payload last ∨ last = payload.length

structure Asks (payload : List UInt8) (labels : List (List Char)) (last stop : Nat) (q : Query) :
    Prop where
  header : 12 ≤ payload.length ∧ Bytes.ofBe (slice payload 4 2) ≠ 0
  name : Spells payload ⟨12, [], 0, none⟩ labels last stop
  fits : stop + 4 ≤ payload.length
  query : q = {
    id := Bytes.ofBe (slice payload 0 2)
    domain := joinLabels labels
    qtype := Bytes.ofBe (slice payload stop 2)
    qclass := Bytes.ofBe (slice payload (stop + 2) 2)
    question := slice payload 12 (stop + 4 - 12) }

/-! ### The reader and the name -/

theorem Pointer.goOn {offset : Nat} (h : Pointer payload walk offset)
    (hin : offset < payload.length) : walk.turn payload = .goOn (walk.jump offset) := by
  rw [h.turn_eq, if_neg (Nat.not_le.mpr hin)]

theorem turn_of_end (h : Ends payload walk.pos) :
    ∃ w, walk.turn payload = .ended w ∧ w.labels = walk.labels ∧
      (walk.afterName = none → walk.pos < payload.length → w.nameEnd = walk.pos + 1) ∧
      ∀ stop ∈ walk.afterName, w.nameEnd = stop := by
  rcases h with h | h
  · refine ⟨_, turn_zero h, rfl, fun hn _ => ?_, fun stop hs => ?_⟩
    · rw [nameEnd, hn]
      rfl
    · rw [nameEnd, hs]
      rfl
  · refine ⟨walk, ?_, rfl, fun _ hlt => absurd h (Nat.ne_of_lt hlt), fun stop hs => ?_⟩
    · simp [turn, h]
    · rw [nameEnd, hs]
      rfl

theorem Spells.readName (h : Spells payload walk labels last stop)
    (hend : Ends payload last)
    (hst : walk.afterName = none → stop ≤ payload.length) :
    ∃ w, readName payload walk = some w ∧ w.labels = walk.labels ++ labels ∧
      w.nameEnd = walk.afterName.getD stop := by
  induction h with
  | here walk =>
    rcases turn_of_end hend with ⟨w, htu, hlab, hno, hso⟩
    refine ⟨w, readName_ended htu, by rw [hlab, List.append_nil], ?_⟩
    cases haft : walk.afterName with
    | none => exact hno haft (hst haft)
    | some stop => exact hso stop haft
  | label hla _ ih =>
    rcases ih hend hst with ⟨w, hread, hlab, hna⟩
    exact ⟨w, (readName_goOn hla.turn_eq).trans hread, by simp [hlab, push], hna⟩
  | @pointer walk offset labels last stop hpo hin _ ih =>
    rcases ih hend (fun hno => by cases hno) with ⟨w, hread, hlab, hna⟩
    exact ⟨w, (readName_goOn (hpo.goOn hin)).trans hread, hlab, hna⟩

theorem spells_of_readName {w : NameWalk} (h : readName payload walk = some w) :
    walk.pos ≤ payload.length → ∃ labels last stop, Spells payload walk labels last stop ∧
      w.labels = walk.labels ++ labels ∧
      Ends payload last ∧
      (w.nameEnd = walk.afterName.getD stop ∨
        walk.afterName = none ∧ w.nameEnd = payload.length) := by
  refine readName_rec ?_ ?_ h
  · intro walk w htu hin
    refine ⟨[], walk.pos, walk.pos + 1, .here walk, ?_⟩
    rcases turn_ended htu with ⟨hout, rfl⟩ | ⟨hze, rfl⟩
    · refine ⟨by simp, .inr (by omega), ?_⟩
      cases haft : w.afterName with
      | none => exact .inr ⟨rfl, by rw [nameEnd, haft]; exact Nat.le_antisymm hin hout⟩
      | some stop => exact .inl (by rw [nameEnd, haft]; rfl)
    · exact ⟨by simp, .inl hze, .inl rfl⟩
  · intro walk next w htu _ ih hin
    rcases turn_goOn htu with ⟨offset, hpo, hoff, rfl⟩ | ⟨len, label, hla, rfl⟩
    · rcases ih (Nat.le_of_lt hoff) with ⟨labels, last, stop, hsp, hlab, hend, hna⟩
      refine ⟨labels, last, _, .pointer hpo hoff hsp, hlab, hend, .inl ?_⟩
      rcases hna with hna | ⟨hno, -⟩
      · exact hna
      · cases hno
    · rcases ih hla.fits with ⟨labels, last, stop, hsp, hlab, hend, hna⟩
      exact ⟨_, last, stop, .label hla hsp, by simp [hlab, push], hend, hna⟩

theorem Spells.of_goOn {next : NameWalk} (h : Spells payload walk labels last stop)
    (hend : Ends payload last)
    (ht : walk.turn payload = .goOn next) :
    ∃ labels stop, Spells payload next labels last stop := by
  cases h with
  | here =>
    rcases turn_of_end hend with ⟨w, he, -⟩
    cases he.symm.trans ht
  | label hlab rest =>
    cases hlab.turn_eq.symm.trans ht
    exact ⟨_, _, rest⟩
  | pointer hp hin rest =>
    cases (hp.goOn hin).symm.trans ht
    exact ⟨_, _, rest⟩

theorem Spells.last_unique (h : Spells payload walk labels last stop)
    (h' : Spells payload walk labels' last' stop')
    (hend : Ends payload last)
    (hend' : Ends payload last') : last = last' := by
  induction h generalizing labels' stop' with
  | here walk =>
    rcases turn_of_end hend with ⟨w, hen, -⟩
    cases h' with
    | here => rfl
    | label hlab => cases hen.symm.trans hlab.turn_eq
    | pointer hpo hin => cases hen.symm.trans (hpo.goOn hin)
  | label hlab _ ih =>
    rcases h'.of_goOn hend' hlab.turn_eq with ⟨_, _, rest⟩
    exact ih rest hend
  | pointer hpo hin _ ih =>
    rcases h'.of_goOn hend' (hpo.goOn hin) with ⟨_, _, rest⟩
    exact ih rest hend

theorem Asks.parseQuery {q : Query} (h : Asks payload labels last stop q)
    (hend : Ends payload last) : parseQuery payload = some q := by
  have hs := h.fits
  rcases h.name.readName hend fun _ => by omega with ⟨w, hread, hlab, hn⟩
  refine parseQuery_eq_some.mpr ⟨h.header.1, h.header.2, w, hread, ?_⟩
  rw [hn, hlab]
  exact ⟨h.fits, h.query⟩

theorem asks_of_parseQuery {q : Query} (h : parseQuery payload = some q) :
    ∃ labels last stop, Asks payload labels last stop q ∧ Ends payload last := by
  rcases parseQuery_eq_some.mp h with ⟨hl, hcount, w, hread, hf, rfl⟩
  rcases spells_of_readName hread hl with ⟨labels, last, stop, hsp, hlab, hend, hn⟩
  have hs : w.nameEnd = stop := by
    rcases hn with hn | ⟨-, hn⟩
    · exact hn
    · omega
  rw [hs] at hf
  exact ⟨labels, last, stop, ⟨⟨hl, hcount⟩, hsp, hf, by rw [hs, hlab]; rfl⟩, hend⟩

/-! ### The work of a reading -/

def NameWalk.looks (payload : List UInt8) (walk : NameWalk) : Nat :=
  (payload[walk.pos]?).elim 0 fun byte =>
    if byte.toNat &&& 0xC0 = 0xC0 then 2
    else if byte.toNat &&& 0xC0 = 0 then 1 + byte.toNat else 1

def readWork (payload : List UInt8) (walk : NameWalk) : Nat :=
  match _h : walk.turn payload with
  | .goOn next => walk.looks payload + readWork payload next
  | _ => walk.looks payload
termination_by walk.budget payload
decreasing_by exact NameWalk.budget_lt _h

theorem readWork_le (payload : List UInt8) (walk : NameWalk) :
    readWork payload walk ≤ (maxDnsPointerJumps - walk.jumps) * (payload.length + 2) +
      (payload.length - walk.pos) + 256 := by
  fun_induction readWork payload walk with
  | case1 walk next htu ih =>
    rcases turn_goOn htu with ⟨offset, hpo, hin, rfl⟩ | ⟨len, label, hlab, rfl⟩
    · have hlo : walk.looks payload = 2 := by
        rcases hpo.bytes with ⟨high, low, hhi, -, hki, -⟩
        simp [looks, hhi, hki]
      have hjum : maxDnsPointerJumps - walk.jumps =
          maxDnsPointerJumps - (walk.jump offset).jumps + 1 := by
        have hfew := hpo.jumps
        simp only [jump]
        omega
      rw [hlo, hjum, Nat.add_mul, Nat.one_mul]
      omega
    · have hlo : walk.looks payload = 1 + len := by
        rcases hlab.byte with ⟨byte, hby, rfl⟩
        simp [looks, hby, hlab.kind]
      have hfi := hlab.fits
      rw [hlo]
      simp only [push] at *
      omega
  | case2 walk =>
    have hlo : walk.looks payload ≤ 256 := by
      unfold looks
      cases payload[walk.pos]? with
      | none => exact Nat.zero_le _
      | some byte =>
        have hby := byte.toNat_lt
        simp only [Option.elim_some]
        split
        · omega
        · split <;> omega
    omega

/-! ### The result -/

/-- The packet is read in time linear in its length, and as the name on the wire is, exactly when
    its question is not followed, behind a pointer, by labels that end with the packet. -/
theorem reads_wire_name_iff (payload : List UInt8) :
    ((∀ q, parseQuery payload = some q ↔
        ∃ labels last stop, Asks payload labels last stop q ∧ Terminated payload last) ∧
      readWork payload ⟨12, [], 0, none⟩ ≤ 5 * payload.length + 264) ↔
    ¬∃ labels stop q, Asks payload labels payload.length stop q := by
  constructor
  · rintro ⟨hexa, -⟩ ⟨labels, stop, q, has⟩
    have hread := has.parseQuery (.inr rfl)
    rcases (hexa q).mp hread with ⟨_, last, _, hna, hze⟩
    have hla := has.name.last_unique hna.name (.inr rfl) (.inl hze)
    rw [Terminated, ← hla] at hze
    simp at hze
  · intro hno
    refine ⟨fun q => ⟨fun hread => ?_, ?_⟩, ?_⟩
    · rcases asks_of_parseQuery hread with ⟨labels, last, stop, has, hze | rfl⟩
      · exact ⟨labels, last, stop, has, hze⟩
      · exact absurd ⟨labels, stop, q, has⟩ hno
    · rintro ⟨labels, last, stop, has, hze⟩
      exact has.parseQuery (.inl hze)
    · have hle := readWork_le payload ⟨12, [], 0, none⟩
      simp only [maxDnsPointerJumps] at hle
      omega

def unterminatedQuery : List UInt8 :=
  [0, 7, 1, 0, 0, 1, 0, 0, 0, 0, 0, 0, 0xC0, 18, 0, 1, 0, 1, 1, 97]

theorem unterminated_name_read :
    parseQuery unterminatedQuery =
        some ⟨7, "a".toList, 1, 1, [0xC0, 18, 0, 1, 0, 1]⟩ ∧
      ¬∃ labels last stop, Spells unterminatedQuery ⟨12, [], 0, none⟩ labels last stop ∧
        Terminated unterminatedQuery last := by
  have hs : Spells unterminatedQuery ⟨12, [], 0, none⟩ ["a".toList] 20 14 :=
    .pointer ⟨by decide, 0xC0, 18, rfl, rfl, rfl, rfl⟩ (by decide)
      (.label ⟨⟨1, rfl, rfl⟩, by decide, rfl, by decide, by decide +kernel⟩ (.here _))
  refine ⟨Asks.parseQuery ⟨by decide, hs, by decide, rfl⟩ (.inr rfl), ?_⟩
  rintro ⟨labels, last, stop, hn, hz⟩
  cases hs.last_unique hn (.inr rfl) (.inl hz)
  cases hz

end Nexapipe.Dns
