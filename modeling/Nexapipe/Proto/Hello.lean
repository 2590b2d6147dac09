import Nexapipe.Proto.Tls

/-!
# The name in a `ClientHello`

A `ClientHello` is given by its parts, and `ClientHello.record` lays them out with lengths that
agree with them.
-/

namespace Nexapipe.Tls

open List Wire Cursor Bytes

/-! ### A hello by its parts -/

structure NameEntry where
  nameType : UInt8
  name : List UInt8

def NameEntry.bytes (e : NameEntry) : List UInt8 :=
  e.nameType :: (Bytes.be 2 e.name.length ++ e.name)

inductive Extension where
  | serverName (names : List NameEntry)
  | other (extType : UInt16) (data : List UInt8) (h : extType.toNat ≠ extServerName)

namespace Extension

def extType : Extension → Nat
  | .serverName _ => extServerName
  | .other extType _ _ => extType.toNat

def data : Extension → List UInt8
  | .serverName names =>
    Bytes.be 2 (names.flatMap NameEntry.bytes).length ++ names.flatMap NameEntry.bytes
  | .other _ data _ => data

def bytes (e : Extension) : List UInt8 :=
  Bytes.be 2 e.extType ++ (Bytes.be 2 e.data.length ++ e.data)

def hostName : Extension → Option (List UInt8)
  | .serverName names => (names.find? (·.nameType = nameTypeHost)).map NameEntry.name
  | .other _ _ _ => none

end Extension

/-- A `ClientHello` in one record. A hello may carry no extensions at all, which is not the
    same as an empty list of them. -/
structure ClientHello where
  recordVersion : UInt8 × UInt8
  clientVersion : UInt8 × UInt8
  random : List UInt8
  sessionId : List UInt8
  cipherSuites : List UInt8
  compressionMethods : List UInt8
  extensions : Option (List Extension)
  random_length : random.length = 32
  sessionId_length : sessionId.length < 256
  compressionMethods_length : compressionMethods.length < 256

namespace ClientHello

variable (hello : ClientHello)

def extensionBytes : List UInt8 :=
  match hello.extensions with
  | none => []
  | some extensions =>
    Bytes.be 2 (extensions.flatMap Extension.bytes).length ++ extensions.flatMap Extension.bytes

def body : List UInt8 :=
  [hello.clientVersion.1, hello.clientVersion.2] ++ (hello.random ++
    (UInt8.ofNat hello.sessionId.length :: (hello.sessionId ++
      (Bytes.be 2 hello.cipherSuites.length ++ (hello.cipherSuites ++
        (UInt8.ofNat hello.compressionMethods.length :: (hello.compressionMethods ++
          hello.extensionBytes)))))))

def handshake : List UInt8 :=
  handshakeClientHello :: (Bytes.be 3 hello.body.length ++ hello.body)

def record : List UInt8 :=
  tlsHandshake :: hello.recordVersion.1 :: hello.recordVersion.2 ::
    (Bytes.be 2 hello.handshake.length ++ hello.handshake)

def hostName : Option (List UInt8) :=
  (hello.extensions.getD []).findSome? Extension.hostName

end ClientHello

/-! ### The loops over what a hello carries -/

theorem nameEntry_read (e : NameEntry) (h : e.name.length < 65536) (rest : List UInt8) :
    nameEntry (e.bytes ++ rest) = .ok ((e.nameType, e.name), rest) := by
  unfold nameEntry NameEntry.bytes
  rw [cons_append, append_assoc, bind_of_ok (u8_cons _ _),
    bind_of_ok (u16_append h _), bind_of_ok (take_append rfl rest)]
  rfl

theorem serverNames_read {names : List NameEntry} (h : ∀ e ∈ names, e.name.length < 65536)
    {turns : Nat} (htur : (names.flatMap NameEntry.bytes).length ≤ turns) :
    serverNames turns (names.flatMap NameEntry.bytes) =
      (names.find? (·.nameType = nameTypeHost)).map fun e => hostName e.name := by
  induction names generalizing turns with
  | nil =>
    rcases turns with _ | turns
    · rfl
    · rfl
  | cons e names ih =>
    rw [forall_mem_cons] at h
    have hlen : (List.flatMap NameEntry.bytes (e :: names)).length =
        3 + e.name.length + (names.flatMap NameEntry.bytes).length := by
      simp [NameEntry.bytes]
      omega
    obtain ⟨turns, rfl⟩ : ∃ t, turns = t + 1 := ⟨turns - 1, by omega⟩
    have hentry := nameEntry_read e h.1 (names.flatMap NameEntry.bytes)
    rw [← flatMap_cons] at hentry
    rw [serverNames, if_neg (by omega), hentry]
    by_cases hty : e.nameType = nameTypeHost
    · simp [hty]
    · have hre : serverNames turns (names.flatMap NameEntry.bytes) = _ := ih h.2 (by omega)
      simp [hty, hre]

theorem length_le_flatMap {α : Type} {f : α → List UInt8} {a : α} {as : List α} (h : a ∈ as) :
    (f a).length ≤ (as.flatMap f).length := by
  obtain ⟨s, t, rfl⟩ := append_of_mem h
  simp only [flatMap_append, flatMap_cons, length_append]
  omega

theorem extType_lt (e : Extension) : e.extType < 65536 := by
  cases e with
  | serverName names => exact Nat.zero_lt_succ _
  | other extType data h => exact extType.toNat_lt

open Extension

theorem extensionEntry_read (e : Extension) (h : e.data.length < 65536) (rest : List UInt8) :
    extensionEntry (e.bytes ++ rest) = .ok ((e.extType, e.data), rest) := by
  unfold extensionEntry bytes
  rw [append_assoc, append_assoc, bind_of_ok (u16_append (extType_lt e) _),
    bind_of_ok (u16_append h _), bind_of_ok (take_append rfl rest)]
  rfl

theorem extensionNames_read {extensions : List Extension}
    (h : ∀ e ∈ extensions, e.data.length < 65536) {turns : Nat}
    (htur : (extensions.flatMap Extension.bytes).length ≤ turns) :
    extensionNames turns (extensions.flatMap Extension.bytes) =
      (extensions.findSome? Extension.hostName).bind hostName := by
  induction extensions generalizing turns with
  | nil =>
    rcases turns with _ | turns
    · rfl
    · rfl
  | cons e extensions ih =>
    rw [forall_mem_cons] at h
    have hlen : (List.flatMap bytes (e :: extensions)).length =
        4 + e.data.length + (extensions.flatMap bytes).length := by
      simp [bytes]
      omega
    obtain ⟨turns, rfl⟩ : ∃ t, turns = t + 1 := ⟨turns - 1, by omega⟩
    have hentry := extensionEntry_read e h.1 (extensions.flatMap bytes)
    rw [← flatMap_cons] at hentry
    have hrest : extensionNames turns (extensions.flatMap bytes) = _ :=
      ih h.2 (by omega)
    rw [extensionNames, if_neg (by omega), hentry, List.findSome?_cons]
    cases e with
    | other extType data hoth => simp [Extension.extType, hoth, hrest, Extension.hostName]
    | serverName names =>
      have hnam : ∀ n ∈ names, n.name.length < 65536 := by
        intro n hn
        have hle := length_le_flatMap (f := NameEntry.bytes) hn
        have hdata := h.1
        simp only [data, length_append, length_be] at hdata
        simp only [NameEntry.bytes, length_cons, length_append,
          length_be] at hle
        omega
      have hskip : Cursor.skip 2 (serverName names).data =
          .ok ((), names.flatMap NameEntry.bytes) :=
        skip_append (length_be 2 _) _
      simp only [Extension.extType, if_true, hskip, serverNames_read hnam (Nat.le_refl _),
        Extension.hostName]
      cases names.find? (·.nameType = nameTypeHost) with
      | none => exact hrest
      | some n => rfl

/-! ### The whole hello -/

def ClientHello.FitsRecord (hello : ClientHello) : Prop :=
  hello.handshake.length < 65536

variable {hello : ClientHello}

open ClientHello

theorem lengths_of_fitsRecord (h : hello.FitsRecord) :
    hello.cipherSuites.length < 65536 ∧ hello.extensionBytes.length < 65536 := by
  simp only [ClientHello.FitsRecord, handshake, body, length_cons,
    length_append, length_be, length_nil] at h
  omega

open UInt8

theorem helloExtensions_record (h : hello.FitsRecord) :
    helloExtensions hello.record =
      (do let len ← Cursor.u16; Cursor.take len : Cursor (List UInt8)) hello.extensionBytes := by
  have hses : (ofNat hello.sessionId.length).toNat = hello.sessionId.length := by
    have hlt := hello.sessionId_length
    rw [toNat_ofNat', Nat.mod_eq_of_lt (by omega)]
  have hcom : (ofNat hello.compressionMethods.length).toNat =
      hello.compressionMethods.length := by
    have hlt := hello.compressionMethods_length
    rw [toNat_ofNat', Nat.mod_eq_of_lt (by omega)]
  have hhe : hello.record = ([tlsHandshake, hello.recordVersion.1, hello.recordVersion.2] ++
      Bytes.be 2 hello.handshake.length) ++ hello.handshake := by
    simp [record]
  have hver : [hello.clientVersion.1, hello.clientVersion.2].length = 2 := rfl
  have hsu := (lengths_of_fitsRecord h).1
  unfold helloExtensions
  rw [hhe, bind_of_ok (skip_append (by simp) _), handshake,
    bind_of_ok (u8_cons _ _), if_neg (by simp),
    bind_of_ok (skip_append (length_be 3 _) _), body,
    bind_of_ok (skip_append hver _),
    bind_of_ok (skip_append hello.random_length _),
    bind_of_ok (u8_cons _ _), hses,
    bind_of_ok (skip_append rfl _),
    bind_of_ok (u16_append hsu _),
    bind_of_ok (skip_append rfl _),
    bind_of_ok (u8_cons _ _), hcom,
    bind_of_ok (skip_append rfl _)]

theorem recordName_record (h : hello.FitsRecord) :
    recordName hello.record = hello.hostName.bind hostName := by
  have hbyt := (lengths_of_fitsRecord h).2
  unfold recordName
  rw [helloExtensions_record h]
  unfold ClientHello.extensionBytes at hbyt ⊢
  unfold ClientHello.hostName
  rcases hext : hello.extensions with _ | extensions
  · rfl
  rw [hext] at hbyt
  simp only [length_append, length_be] at hbyt
  have hda : ∀ e ∈ extensions, e.data.length < 65536 := by
    intro e he
    have hle := length_le_flatMap (f := bytes) he
    simp only [bytes, length_append, length_be] at hle
    omega
  have hta : Cursor.take (extensions.flatMap bytes).length
      (extensions.flatMap bytes) = .ok (extensions.flatMap bytes, []) :=
    take_ok_iff.mpr ⟨rfl, (append_nil _).symm⟩
  have hlen : (extensions.flatMap bytes).length < 65536 := by omega
  rw [bind_of_ok (u16_append hlen _), hta]
  exact extensionNames_read hda (Nat.le_refl _)

/-! ### The function as a whole -/

theorem firstRecordEnd_record (h : hello.FitsRecord) :
    firstRecordEnd hello.record = some hello.record.length := by
  have hbe : Bytes.be 2 hello.handshake.length =
      [ofNat (hello.handshake.length / 256), ofNat hello.handshake.length] := rfl
  have hf : hello.handshake.length < 65536 := h
  unfold record
  rw [hbe]
  simp only [cons_append, nil_append, firstRecordEnd, toNat_ofNat',
    length_cons, Option.some.injEq]
  omega

/-- What is read off a hello in one record is the first host name of the first `server_name`
    extension that holds one, where it is presentable, and nothing otherwise. Of any bytes
    at all only the first record counts, a name that is returned is presentable, and no
    slice is taken past the end. -/
theorem sni_extraction :
    (∀ (hello : ClientHello) rest, hello.FitsRecord →
      (∀ name, hello.hostName = some name → Presentable name →
        ∃ s, Ascii.utf8 s = name ∧ extractSni (hello.record ++ rest) = .ok (some s)) ∧
      ((∀ name, hello.hostName = some name → ¬Presentable name) →
        extractSni (hello.record ++ rest) = .ok none)) ∧
      (∀ data, extractSni data =
        match firstRecord data with
        | none => .ok none
        | some record => extractSni record) ∧
      (∀ data s, extractSni data = .ok (some s) → Presentable (Ascii.utf8 s)) ∧
      ∀ data fault, extractSni data ≠ .error fault := by
  refine ⟨?_, ?_, ?_, ?_⟩
  · intro hello rest h
    have hsni : extractSni (hello.record ++ rest) = .ok (hello.hostName.bind hostName) := by
      rw [extractSni_eq, firstRecord_append (firstRecordEnd_record h)]
      exact congrArg _ (recordName_record h)
    rw [hsni]
    constructor
    · intro name hname hpres
      obtain ⟨s, hs⟩ := exists_hostName hpres
      refine ⟨s, (hostName_eq_some_iff.mp hs).1, ?_⟩
      rw [hname, Option.bind_some, hs]
    · intro hnot
      rcases hname : hello.hostName with _ | name
      · rfl
      rw [Option.bind_some]
      rcases hs : hostName name with _ | s
      · rfl
      · exact absurd (hostName_eq_some_iff.mp hs).2 (hnot name hname)
  · intro data
    rcases hrec : firstRecord data with _ | record
    · rw [extractSni_eq, hrec]
    · simp only
      rw [extractSni_eq data, extractSni_eq record, hrec, firstRecord_firstRecord hrec]
  · intro data s h
    rw [extractSni_eq, Except.ok.injEq] at h
    rcases hrec : firstRecord data with _ | record
    · simp [hrec] at h
    rw [hrec] at h
    by_cases hhead : record.head? = some tlsHandshake
    · simp only [if_pos hhead] at h
      exact presentable_of_recordName h
    · simp [hhead] at h
  · intro data fault h
    rw [extractSni_eq] at h
    cases h

def sampleHello : ClientHello where
  recordVersion := (0x03, 0x01)
  clientVersion := (0x03, 0x03)
  random := List.replicate 32 0
  sessionId := []
  cipherSuites := [0x13, 0x01]
  compressionMethods := [0]
  extensions := some [.other 10 [0x00, 0x1d] (by decide),
    .serverName [⟨0x01, [0x78]⟩, ⟨0x00, [0x61, 0x2e, 0x62]⟩]]
  random_length := rfl
  sessionId_length := by decide
  compressionMethods_length := by decide

theorem sni_extraction_sample :
    extractSni (sampleHello.record ++ [0x17, 0x03]) = .ok (some "a.b") ∧
      Presentable (Ascii.utf8 "a.b") := by
  have hf : sampleHello.FitsRecord := by
    unfold ClientHello.FitsRecord
    decide +kernel
  have hp : Presentable [0x61, 0x2e, 0x62] := by
    refine ⟨by decide, by decide, by decide +kernel⟩
  obtain ⟨s, hs, hread⟩ := (sni_extraction.1 sampleHello [0x17, 0x03] hf).1 _ rfl hp
  have hn : s = "a.b" := Ascii.utf8_injective (hs.trans (by decide +kernel))
  subst hn
  exact ⟨hread, sni_extraction.2.2.1 _ _ hread⟩

end Nexapipe.Tls
