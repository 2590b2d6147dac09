import Nexapipe.Lib.Ascii
import Nexapipe.Lib.Bytes
import Nexapipe.Lib.Incremental
import Nexapipe.Routes.Lookup

/-!
# The preface of a tunnelled flow

A client opens a tcp or udp flow with a preface: a magic byte, a version, the protocol, the
host behind its length, and the port. The server decodes it from the front of whatever has
arrived, and reads on while the preface is incomplete.

What `decode` accepts is exactly the encoding of a preface with something behind it, the host
lowered on the way in (`decode_frame`, `decode_some`).
-/

namespace Nexapipe

open List Bytes Ascii Incremental

/-! ### The codec -/

def prefaceMagic : UInt8 := 0x05

def prefaceVersion : UInt8 := 0x01

def maxHostLen : Nat := 255

def maxPrefaceLen : Nat := 4 + maxHostLen + 2

inductive ProtoError where
  | notAPreface
  | unsupportedVersion (version : UInt8)
  | unknownProto (byte : UInt8)
  | invalidHost
  | invalidPort
deriving DecidableEq

def isL4Preface (firstByte : UInt8) : Bool :=
  firstByte = prefaceMagic

def L4Proto.asByte : L4Proto → UInt8
  | .tcp => 0x01
  | .udp => 0x02

def L4Proto.fromByte (byte : UInt8) : Option L4Proto :=
  if byte = 0x01 then some .tcp else if byte = 0x02 then some .udp else none

theorem L4Proto.fromByte_eq_some_iff {byte : UInt8} {proto : L4Proto} :
    fromByte byte = some proto ↔ byte = proto.asByte := by
  unfold fromByte
  cases proto with
  | tcp | udp =>
    by_cases h : byte = 0x01
    · simp [h, asByte]
    · by_cases h2 : byte = 0x02 <;> simp [h, h2, asByte]

structure Preface where
  proto : L4Proto
  host : String
  port : UInt16
deriving DecidableEq

def isAsciiGraphic (b : UInt8) : Bool :=
  0x21 ≤ b.toNat && b.toNat ≤ 0x7e

def isValidHost (host : String) : Bool :=
  let bytes := Ascii.utf8 host
  !bytes.isEmpty && bytes.length ≤ maxHostLen && bytes.all isAsciiGraphic

namespace Preface

def encode (preface : Preface) (out : List UInt8) : Except ProtoError Unit × List UInt8 :=
  if !isValidHost preface.host then (.error .invalidHost, out)
  else if preface.port = 0 then (.error .invalidPort, out)
  else
    let host := Ascii.utf8 preface.host
    (.ok (), out ++ ([prefaceMagic, prefaceVersion, preface.proto.asByte,
      UInt8.ofNat host.length] ++ (host ++ Bytes.be 2 preface.port.toNat)))

def decodeTarget (proto : L4Proto) (total : Nat) (hostBytes portBytes : List UInt8) :
    Except ProtoError (Option (Preface × Nat)) :=
  match Ascii.fromUtf8 hostBytes with
  | none => .error .invalidHost
  | some host =>
    if !isValidHost host then .error .invalidHost
    else
      let port := UInt16.ofNat (Bytes.ofBe portBytes)
      if port = 0 then .error .invalidPort
      else .ok (some (⟨proto, Ascii.lower host, port⟩, total))

/-- What follows the magic byte: the version, the protocol and the length of the host, and
    behind them the host and the port. -/
def decodeBody (version protoByte hostLen : UInt8) (body : List UInt8) :
    Except ProtoError (Option (Preface × Nat)) :=
  if version ≠ prefaceVersion then .error (.unsupportedVersion version)
  else
    match L4Proto.fromByte protoByte with
    | none => .error (.unknownProto protoByte)
    | some proto =>
      if hostLen = 0 then .error .invalidHost
      else if body.length < hostLen.toNat + 2 then .ok none
      else
        decodeTarget proto (4 + hostLen.toNat + 2) (body.take hostLen.toNat)
          ((body.drop hostLen.toNat).take 2)

/-- Decodes a preface from the front of a buffer. `none` asks for more bytes, and a
    preface comes with the number of bytes it took. -/
def decode (buf : List UInt8) : Except ProtoError (Option (Preface × Nat)) :=
  match buf with
  | [] => .ok none
  | first :: rest =>
    if !isL4Preface first then .error .notAPreface
    else
      match rest with
      | version :: protoByte :: hostLen :: body => decodeBody version protoByte hostLen body
      | _ => .ok none

/-! ### Hosts -/

end Preface

def VisibleHost (host : String) : Prop :=
  1 ≤ host.toList.length ∧ host.toList.length ≤ 255 ∧
    ∀ c ∈ host.toList, 0x21 ≤ c.toNat ∧ c.toNat ≤ 0x7e

variable {host : String}

theorem isValidHost_bytes :
    isValidHost host = true ↔
      1 ≤ (Ascii.utf8 host).length ∧ (Ascii.utf8 host).length ≤ 255 ∧
        ∀ b ∈ Ascii.utf8 host, 0x21 ≤ b.toNat ∧ b.toNat ≤ 0x7e := by
  unfold isValidHost maxHostLen
  simp only [Bool.and_eq_true, Bool.not_eq_true', isEmpty_eq_false_iff, decide_eq_true_eq,
    all_eq_true, isAsciiGraphic, ← length_pos_iff, and_assoc]
  exact Iff.rfl

theorem isValidHost_iff : isValidHost host = true ↔ VisibleHost host := by
  rw [isValidHost_bytes]
  constructor
  · rintro ⟨hpos, hlen, hall⟩
    have hsm : ∀ c ∈ host.toList, c.toNat < 128 :=
      toNat_lt_of_utf8 fun b hb => by have := hall b hb; omega
    have hbyt : utf8 host = host.toList.map fun c => UInt8.ofNat c.toNat := by
      rw [utf8_eq_flatMap, flatMap_utf8EncodeChar hsm]
    rw [hbyt, length_map] at hpos hlen
    refine ⟨hpos, hlen, ?_⟩
    intro c hc
    have hb := hall (UInt8.ofNat c.toNat) (by rw [hbyt]; exact mem_map_of_mem hc)
    have hc128 := hsm c hc
    rw [UInt8.toNat_ofNat', Nat.mod_eq_of_lt (by omega)] at hb
    exact hb
  · rintro ⟨hpos, hlen, hall⟩
    have hsm : ∀ c ∈ host.toList, c.toNat < 128 := fun c hc => by have := hall c hc; omega
    rw [utf8_eq_flatMap, flatMap_utf8EncodeChar hsm, length_map]
    refine ⟨hpos, hlen, ?_⟩
    intro b hb
    rcases mem_map.mp hb with ⟨c, hc, rfl⟩
    have hc128 := hsm c hc
    rw [UInt8.toNat_ofNat', Nat.mod_eq_of_lt (by omega)]
    exact hall c hc

theorem utf8_lower_of_valid (h : isValidHost host = true) :
    Ascii.utf8 (Ascii.lower host) = (Ascii.utf8 host).map Ascii.lowerByte :=
  utf8_lower fun b hb => by
    have := (isValidHost_bytes.mp h).2.2 b hb
    omega

theorem isValidHost_lower (h : isValidHost host = true) :
    isValidHost (Ascii.lower host) = true := by
  have hbyt := utf8_lower_of_valid h
  obtain ⟨hpos, hlen, hall⟩ := isValidHost_bytes.mp h
  rw [isValidHost_bytes, hbyt, length_map]
  refine ⟨hpos, hlen, ?_⟩
  intro b hb
  rcases mem_map.mp hb with ⟨c, hc, rfl⟩
  have hran := hall c hc
  rw [toNat_lowerByte]
  split
  · omega
  · exact hran

namespace Preface

/-! ### What is written and what is accepted -/

def frame (proto : L4Proto) (host : List UInt8) (port : UInt16) : List UInt8 :=
  [prefaceMagic, prefaceVersion, proto.asByte, UInt8.ofNat host.length] ++
    (host ++ Bytes.be 2 port.toNat)

theorem length_frame (proto : L4Proto) (host : List UInt8) (port : UInt16) :
    (frame proto host port).length = 4 + host.length + 2 := by
  simp [frame, Nat.add_comm, Nat.add_left_comm]

variable {p : Preface} {host : String} {body buf : List UInt8} {hostLen protoByte version : UInt8}

theorem encode_of_valid (hh : isValidHost p.host = true) (hp : p.port ≠ 0)
    (out : List UInt8) :
    p.encode out = (.ok (), out ++ frame p.proto (Ascii.utf8 p.host) p.port) := by
  simp [encode, hh, hp, frame]

theorem encode_error {out out' : List UInt8} {e : ProtoError}
    (h : p.encode out = (.error e, out')) :
    out' = out := by
  unfold encode at h
  by_cases hh : isValidHost p.host = true
  · by_cases hp : p.port = 0
    · simp [hh, hp] at h
      exact h.2.symm
    · simp [hh, hp] at h
  · simp [hh] at h
    exact h.2.symm

theorem toNat_hostLen (h : isValidHost host = true) :
    (UInt8.ofNat (Ascii.utf8 host).length).toNat = (Ascii.utf8 host).length := by
  obtain ⟨-, hlen, -⟩ := isValidHost_bytes.mp h
  rw [UInt8.toNat_ofNat', Nat.mod_eq_of_lt (by omega)]

theorem hostLen_ne_zero (h : isValidHost host = true) :
    UInt8.ofNat (Ascii.utf8 host).length ≠ 0 := by
  intro hz
  have hlen := toNat_hostLen h
  rw [hz] at hlen
  obtain ⟨hpos, -, -⟩ := isValidHost_bytes.mp h
  have hlit : (0 : UInt8).toNat = 0 := rfl
  omega

theorem frame_append (proto : L4Proto) (host : List UInt8) (port : UInt16)
    (rest : List UInt8) :
    frame proto host port ++ rest = prefaceMagic :: prefaceVersion :: proto.asByte ::
      UInt8.ofNat host.length :: (host ++ (Bytes.be 2 port.toNat ++ rest)) := by
  simp [frame]

theorem decode_header (version protoByte hostLen : UInt8) (body : List UInt8) :
    decode (prefaceMagic :: version :: protoByte :: hostLen :: body) =
      decodeBody version protoByte hostLen body :=
  rfl

open L4Proto

theorem decode_frame {port : UInt16} (hho : isValidHost host = true) (hpo : port ≠ 0)
    (proto : L4Proto) (rest : List UInt8) :
    decode (frame proto (Ascii.utf8 host) port ++ rest) =
      .ok (some (⟨proto, Ascii.lower host, port⟩,
        (frame proto (Ascii.utf8 host) port).length)) := by
  have hlen := toNat_hostLen hho
  have hpr : fromByte proto.asByte = some proto := fromByte_eq_some_iff.mpr rfl
  rw [length_frame, frame_append, decode_header, decodeBody, if_neg (by simp)]
  simp only [hpr]
  have hen : ¬(utf8 host ++ (be 2 port.toNat ++ rest)).length <
      (utf8 host).length + 2 := by
    simp only [length_append, length_be]
    omega
  rw [if_neg (hostLen_ne_zero hho), hlen, if_neg hen, take_left, drop_left,
    take_left' (length_be 2 _), decodeTarget, ofBe_be port.toNat_lt,
    UInt16.ofNat_toNat, fromUtf8_utf8]
  simp [hho, hpo]

theorem be_port {bytes : List UInt8} (h : bytes.length = 2) :
    Bytes.be 2 (UInt16.ofNat (Bytes.ofBe bytes)).toNat = bytes := by
  have hlt := ofBe_lt bytes
  have hb := be_ofBe bytes
  rw [h] at hlt hb
  rw [UInt16.toNat_ofNat_of_lt' hlt, hb]

theorem decodeTarget_some {proto : L4Proto} {total n : Nat} {hostBytes portBytes : List UInt8}
    (hp : portBytes.length = 2)
    (h : decodeTarget proto total hostBytes portBytes = .ok (some (p, n))) :
    ∃ host, isValidHost host = true ∧ Ascii.utf8 host = hostBytes ∧ p.port ≠ 0 ∧
      Bytes.be 2 p.port.toNat = portBytes ∧ p.host = Ascii.lower host ∧ p.proto = proto ∧
      n = total := by
  revert h
  fun_cases decodeTarget proto total hostBytes portBytes with
  | case4 host hutf hval port hz =>
    rintro ⟨⟩
    rw [Bool.not_eq_true, Bool.not_eq_false'] at hval
    exact ⟨host, hval, fromUtf8_eq_some_iff.mp hutf, hz, be_port hp, rfl, rfl, rfl⟩
  | _ => rintro ⟨⟩

theorem decodeTarget_ne_none (proto : L4Proto) (total : Nat) (hostBytes portBytes : List UInt8) :
    decodeTarget proto total hostBytes portBytes ≠ .ok none := by
  fun_cases decodeTarget proto total hostBytes portBytes <;> nofun

theorem decodeBody_some {n : Nat}
    (h : decodeBody version protoByte hostLen body = .ok (some (p, n))) :
    ∃ host rest, isValidHost host = true ∧ p.port ≠ 0 ∧ p.host = Ascii.lower host ∧
      version = prefaceVersion ∧ protoByte = p.proto.asByte ∧
      hostLen = UInt8.ofNat (Ascii.utf8 host).length ∧ n = 4 + (Ascii.utf8 host).length + 2 ∧
      body = Ascii.utf8 host ++ (Bytes.be 2 p.port.toNat ++ rest) := by
  revert h
  fun_cases decodeBody version protoByte hostLen body with
  | case5 hver proto hpr hze hsh =>
    intro h
    have htwo : ((body.drop hostLen.toNat).take 2).length = 2 := by
      rw [length_take, length_drop]
      omega
    obtain ⟨host, hval, hbyt, hpo, hbe, hho, rfl, rfl⟩ := decodeTarget_some htwo h
    -- The host is as long as its length byte says.
    have hlen : (utf8 host).length = hostLen.toNat := by
      rw [hbyt, length_take]
      omega
    refine ⟨host, (body.drop hostLen.toNat).drop 2, hval, hpo, hho, not_not.mp hver,
      fromByte_eq_some_iff.mp hpr, ?_, by rw [hlen], ?_⟩
    · rw [hlen, UInt8.ofNat_toNat]
    · rw [hbe, take_append_drop, hbyt, take_append_drop]
  | _ => rintro ⟨⟩

theorem decode_some {n : Nat} (h : decode buf = .ok (some (p, n))) :
    ∃ host rest, isValidHost host = true ∧ p.port ≠ 0 ∧ p.host = Ascii.lower host ∧
      n = (frame p.proto (Ascii.utf8 host) p.port).length ∧
      buf = frame p.proto (Ascii.utf8 host) p.port ++ rest := by
  match buf, h with
  | first :: rest, h =>
    by_cases hmag : first = prefaceMagic
    · subst hmag
      match rest, h with
      | version :: protoByte :: hostLen :: body, h =>
        rcases decodeBody_some h with
          ⟨host, rest, hval, hp, hh, rfl, rfl, rfl, rfl, rfl⟩
        exact ⟨host, rest, hval, hp, hh, (length_frame _ _ _).symm,
          (frame_append _ _ _ _).symm⟩
    · simp [decode, isL4Preface, hmag] at h

/-! ### Incomplete prefaces -/

theorem decodeBody_short (hz : hostLen ≠ 0) (hsh : body.length < hostLen.toNat + 2)
    (proto : L4Proto) : decodeBody prefaceVersion proto.asByte hostLen body = .ok none := by
  have hp : fromByte proto.asByte = some proto := fromByte_eq_some_iff.mpr rfl
  simp [decodeBody, hp, hz, hsh]

theorem decode_cut_short (hho : isValidHost host = true) (proto : L4Proto) (port : UInt16)
    {p : List UInt8} (hp : p <+: frame proto (Ascii.utf8 host) port)
    (hne : p ≠ frame proto (Ascii.utf8 host) port) : decode p = .ok none := by
  rw [← append_nil (frame _ _ _), frame_append] at hp hne
  match p, hp, hne with
  | [], _, _ => rfl
  | [_], hp, _ | [_, _], hp, _ | [_, _, _], hp, _ =>
    obtain ⟨rfl, -⟩ := cons_prefix_cons.mp hp
    rfl
  | a :: b :: c :: d :: body, hp, hne =>
    simp only [cons_prefix_cons] at hp
    obtain ⟨rfl, rfl, rfl, rfl, hbo⟩ := hp
    have hlt : body.length < (utf8 host).length + 2 := by
      have hle := hbo.length_le
      have hneq : body.length ≠ (utf8 host ++ (be 2 port.toNat ++ [])).length := by
        intro hlen
        exact hne (by rw [hbo.eq_of_length hlen])
      rw [length_append, length_append, length_be, length_nil] at hle hneq
      omega
    exact decodeBody_short (hostLen_ne_zero hho) (by rw [toNat_hostLen hho]; exact hlt) proto

theorem decodeBody_incomplete (h : decodeBody version protoByte hostLen body = .ok none) :
    body.length < hostLen.toNat + 2 := by
  revert h
  fun_cases decodeBody version protoByte hostLen body with
  | case4 _ _ _ _ hsh => exact fun _ => hsh
  | case5 => exact fun h => absurd h (decodeTarget_ne_none _ _ _ _)
  | _ => rintro ⟨⟩

theorem length_lt_of_incomplete (h : decode buf = .ok none) : buf.length < maxPrefaceLen := by
  have hmax : maxPrefaceLen = 261 := rfl
  match buf, h with
  | [], _ => decide
  | [_], _ | [_, _], _ | [_, _, _], _ =>
    simp [hmax]
  | first :: version :: protoByte :: hostLen :: body, h =>
    by_cases hmag : first = prefaceMagic
    case neg => simp [decode, isL4Preface, hmag] at h
    subst hmag
    have hb := hostLen.toNat_lt
    have hsh := decodeBody_incomplete h
    simp only [length_cons, hmax]
    omega

/-! ### Verdicts stand -/

theorem decodeBody_append (h : decodeBody version protoByte hostLen body ≠ .ok none)
    (more : List UInt8) :
    decodeBody version protoByte hostLen (body ++ more) =
      decodeBody version protoByte hostLen body := by
  unfold decodeBody at h ⊢
  by_cases hver : version = prefaceVersion
  case neg => simp [hver]
  rcases hpr : fromByte protoByte with _ | proto
  · simp
  by_cases hze : hostLen = 0
  case pos => simp [hze]
  by_cases hsh : body.length < hostLen.toNat + 2
  case pos => simp [hver, hpr, hze, hsh] at h
  have hlo : ¬(body ++ more).length < hostLen.toNat + 2 := by
    rw [length_append]
    omega
  have hho : (body ++ more).take hostLen.toNat = body.take hostLen.toNat :=
    take_append_of_le_length (by omega)
  have hpo : ((body ++ more).drop hostLen.toNat).take 2 =
      (body.drop hostLen.toNat).take 2 := by
    rw [drop_append_of_le_length (by omega),
      take_append_of_le_length (by rw [length_drop]; omega)]
  simp only [if_neg hsh, if_neg hlo, hho, hpo]

theorem decode_append (h : decode buf ≠ .ok none) (more : List UInt8) :
    decode (buf ++ more) = decode buf := by
  match buf, h with
  | [], h => exact absurd rfl h
  | first :: rest, h =>
    by_cases hmag : first = prefaceMagic
    case neg => simp [decode, isL4Preface, hmag]
    subst hmag
    match rest, h with
    | [], h | [_], h | [_, _], h => exact absurd rfl h
    | version :: protoByte :: hostLen :: body, h =>
      exact decodeBody_append h more

end Preface

/-! ### Reading a preface off a stream -/

inductive Ending where
  | quiet
  | failed (error : String)

inductive PrefaceFailure where
  | proto (error : ProtoError)
  | io (error : String)
deriving DecidableEq

def Ending.failure : Ending → PrefaceFailure
  | .quiet => .io "stream ended or went quiet before the L4 preface was complete"
  | .failed error => .io error

def readPreface (ending : Ending) : List (List UInt8) → List UInt8 →
    Except PrefaceFailure (Preface × List UInt8) × List (List UInt8)
  | reads, buf =>
    match Preface.decode buf with
    | .ok (some (preface, len)) => (.ok (preface, buf.drop len), reads)
    | .error e => (.error (.proto e), reads)
    | .ok none =>
      match reads with
      | [] => (.error ending.failure, [])
      | chunk :: reads => readPreface ending reads (buf ++ chunk)

def Preface.verdict (buf : List UInt8) : Option (Except ProtoError (Preface × Nat)) :=
  match decode buf with
  | .ok none => none
  | .ok (some accepted) => some (.ok accepted)
  | .error e => some (.error e)

open Preface

theorem verdict_stands : Incremental.Stands Preface.verdict := by
  intro buf more v h
  have hset : decode buf ≠ .ok none := by
    intro hn
    rw [verdict, hn] at h
    cases h
  rw [verdict, decode_append hset, ← verdict, h]

def settle (ending : Ending) (buf : List UInt8) :
    Except PrefaceFailure (Preface × List UInt8) :=
  match Preface.decode buf with
  | .ok (some (preface, len)) => .ok (preface, buf.drop len)
  | .error e => .error (.proto e)
  | .ok none => .error ending.failure

theorem readPreface_eq (ending : Ending) (reads : List (List UInt8)) (buf : List UInt8) :
    readPreface ending reads buf =
      (settle ending (Incremental.read Preface.verdict reads buf).1,
        (Incremental.read Preface.verdict reads buf).2) := by
  induction reads generalizing buf with
  | nil =>
    rw [readPreface, Incremental.read, settle]
    rcases decode buf with e | (_ | ⟨p, n⟩) <;> rfl
  | cons chunk reads ih =>
    rw [readPreface]
    rcases hdec : decode buf with e | (_ | ⟨p, n⟩)
    · rw [read_cons_some (v := .error e) (by rw [verdict, hdec]), settle,
        hdec]
    · rw [read_cons_none (by rw [verdict, hdec]), ih]
    · rw [read_cons_some (v := .ok (p, n)) (by rw [verdict, hdec]),
        settle, hdec]

def outcome (r : Except PrefaceFailure (Preface × List UInt8) × List (List UInt8)) :
    Except PrefaceFailure (Preface × List UInt8) :=
  r.1.map fun accepted => (accepted.1, accepted.2 ++ r.2.flatten)

theorem outcome_readPreface (ending : Ending) (reads : List (List UInt8)) (buf : List UInt8) :
    outcome (readPreface ending reads buf) = settle ending (buf ++ reads.flatten) := by
  have happ := read_append verdict reads buf
  have hver := verdict_read verdict_stands reads buf
  rw [readPreface_eq]
  set got := (read verdict reads buf).1
  set unread := (read verdict reads buf).2
  rw [← happ] at hver ⊢
  rcases hdec : decode got with e | (_ | ⟨p, n⟩)
  · have hwh : decode (got ++ unread.flatten) = .error e := by
      rw [decode_append (by rw [hdec]; nofun), hdec]
    simp only [outcome, settle, hdec, hwh, Except.map]
  · have hwh : decode (got ++ unread.flatten) = .ok none := by
      rw [verdict, hdec, verdict] at hver
      rcases hd : decode (got ++ unread.flatten) with e | (_ | ⟨p, n⟩)
      · simp [hd] at hver
      · rfl
      · simp [hd] at hver
    simp only [outcome, settle, hdec, hwh, Except.map]
  · have hwh : decode (got ++ unread.flatten) = .ok (some (p, n)) := by
      rw [decode_append (by rw [hdec]; nofun), hdec]
    -- The preface lies within what was read, so the cut behind it does too.
    have hle : n ≤ got.length := by
      obtain ⟨host, rest, -, -, -, hn, hgot⟩ := decode_some hdec
      rw [hgot, length_append, hn]
      exact Nat.le_add_right _ _
    simp only [outcome, settle, hdec, hwh, Except.map,
      drop_append_of_le_length hle]

/-! ### The codec as a whole -/

theorem reencode_of_decode {buf : List UInt8} {p : Preface} {n : Nat}
    (h : Preface.decode buf = .ok (some (p, n))) :
    n ≤ buf.length ∧ n ≤ maxPrefaceLen ∧
      ∃ front host back, buf.take n = front ++ host ++ back ∧ front.length = 4 ∧
        back.length = 2 ∧
        ∀ out, p.encode out = (.ok (), out ++ (front ++ host.map Ascii.lowerByte ++ back)) := by
  obtain ⟨host, rest, hval, hpo, hho, rfl, rfl⟩ := decode_some h
  have hlen := (isValidHost_bytes.mp hval).2.1
  have hlow := isValidHost_lower hval
  refine ⟨by rw [length_append]; exact Nat.le_add_right _ _, ?_, ?_⟩
  · rw [length_frame]
    simp only [maxPrefaceLen, maxHostLen]
    omega
  · refine ⟨_, utf8 host, be 2 p.port.toNat,
      by rw [take_left, frame, append_assoc], rfl, length_be _ _, ?_⟩
    intro out
    rw [encode_of_valid (by rw [hho]; exact hlow) hpo, hho, frame,
      utf8_lower_of_valid hval, length_map, append_assoc]

/-- The codec of the preface. A preface with a visible host and a port is read back with its
    host lowered, whatever follows, and is incomplete where it breaks off. A verdict
    stands when more bytes arrive, so the reading loop comes to the same preface, or
    the same refusal, however the stream is cut, and what it hands back together with what
    is not yet read is the same. What is accepted is what would be written but for the case
    of the host. A failed encode leaves its buffer alone. -/
theorem preface_codec :
    (∀ proto host port, VisibleHost host → port ≠ 0 →
      ∃ w, (∀ out, Preface.encode ⟨proto, host, port⟩ out = (.ok (), out ++ w)) ∧
        (∀ rest, Preface.decode (w ++ rest) =
          .ok (some (⟨proto, Ascii.lower host, port⟩, w.length))) ∧
        ∀ p, p <+: w → p ≠ w → Preface.decode p = .ok none) ∧
      (∀ buf more, Preface.decode buf ≠ .ok none →
        Preface.decode (buf ++ more) = Preface.decode buf) ∧
      (∀ ending reads reads' buf buf',
        buf ++ reads.flatten = buf' ++ reads'.flatten →
          outcome (readPreface ending reads buf) = outcome (readPreface ending reads' buf')) ∧
      (∀ buf p n, Preface.decode buf = .ok (some (p, n)) →
        n ≤ buf.length ∧ n ≤ maxPrefaceLen ∧
          ∃ front host back, buf.take n = front ++ host ++ back ∧ front.length = 4 ∧
            back.length = 2 ∧ ∀ out,
              p.encode out = (.ok (), out ++ (front ++ host.map Ascii.lowerByte ++ back))) ∧
      ∀ (p : Preface) out e out', p.encode out = (.error e, out') → out' = out := by
  refine ⟨?_, ?_, ?_, fun buf p n => reencode_of_decode, fun p out e out' => encode_error⟩
  · intro proto host port hho hpo
    have hval := isValidHost_iff.mpr hho
    refine ⟨frame proto (utf8 host) port, ?_, ?_, ?_⟩
    · exact encode_of_valid (p := ⟨proto, host, port⟩) hval hpo
    · exact decode_frame hval hpo proto
    · intro p hp hne
      exact decode_cut_short hval proto port hp hne
  · intro buf more h
    exact decode_append h more
  · intro ending reads reads' buf buf' h
    rw [outcome_readPreface, outcome_readPreface, h]

theorem preface_codec_example :
    Preface.decode [0x05, 0x01, 0x01, 0x02, 0x41, 0x62, 0x00, 0x50, 0x2a] =
        .ok (some (⟨.tcp, "ab", 80⟩, 8)) ∧
      outcome (readPreface .quiet [[0x05, 0x01, 0x01, 0x01], [0x61, 0x00, 0x50, 0x2a]] []) =
        outcome (readPreface .quiet [[0x05, 0x01, 0x01, 0x01, 0x61, 0x00, 0x50], [0x2a]] []) := by
  refine ⟨?_, preface_codec.2.2.1 _ _ _ _ _ rfl⟩
  have h : decode [0x05, 0x01, 0x01, 0x02, 0x41, 0x62, 0x00, 0x50] ≠ .ok none := by
    decide +kernel
  have hm := preface_codec.2.1 _ [0x2a] h
  refine hm.trans ?_
  decide +kernel

/-- What is handed back does depend on the cuts: a byte behind the preface is there when it
    came with the last of it, and not when it came later. -/
theorem leftover_depends_on_cuts :
    (readPreface .quiet [[0x05, 0x01, 0x01, 0x01, 0x61, 0x00, 0x50, 0x2a]] []).1 =
        .ok (⟨.tcp, "a", 80⟩, [0x2a]) ∧
      (readPreface .quiet [[0x05, 0x01, 0x01, 0x01, 0x61, 0x00, 0x50], [0x2a]] []).1 =
        .ok (⟨.tcp, "a", 80⟩, []) := by
  decide +kernel

end Nexapipe
