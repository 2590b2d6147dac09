import Mathlib.Data.FinEnum
import Nexapipe.Lib.Ascii
import Nexapipe.Lib.Text
import Nexapipe.Lib.Wire

/-!
# The binary form of the authentication messages

The binary form is a kind, a byte of flags that says which optional fields there are,
and the fields in a fixed order: numbers least significant byte first, strings and byte
strings behind their length.

Its reader and its writer are exact for each other (`readBinary_exact`).

`fromBinary` does not ask whether the reader has come to the end, so bytes behind the last
field are dropped.
-/

namespace Nexapipe.Codec

open List Wire Nat

/-! ### Messages -/

inductive Algorithm where
  | sha1
  | sha256
  | sha512
deriving DecidableEq

def Algorithm.toByte : Algorithm → UInt8
  | .sha1 => 0x01
  | .sha256 => 0x02
  | .sha512 => 0x03

def Algorithm.fromByte (byte : UInt8) : Option Algorithm :=
  if byte = 0x01 then some .sha1
  else if byte = 0x02 then some .sha256
  else if byte = 0x03 then some .sha512
  else none

theorem Algorithm.fromByte_eq_some_iff {byte : UInt8} {algorithm : Algorithm} :
    fromByte byte = some algorithm ↔ algorithm.toByte = byte := by
  cases algorithm with
  | sha1 | sha256 | sha512 => revert byte; decide +kernel

inductive AuthMessage where
  | start (clientId : String) (timestamp : Int64) (deviceId : Option String)
      (version : Option UInt8)
  | challenge (nonce : List UInt8)
  | response (clientId : String) (timestamp : Int64) (totpCode : String)
      (signature : List UInt8) (deviceId : Option String)
  | ok
  | failed (reason : String)
  | enrollStart (clientId token : String) (deviceId publicKey : Option String)
  | enrollIssue (clientId secret : String) (algorithm : Algorithm) (digits : UInt32)
      (period : UInt64) (deviceId : Option String)
  | enrollFailed (reason : String)
deriving DecidableEq

inductive CodecError (J : Type) where
  | json (error : J)
  | binary (reason : String)
deriving DecidableEq

namespace Kind

def start : UInt8 := 0x01
def challenge : UInt8 := 0x02
def response : UInt8 := 0x03
def ok : UInt8 := 0x04
def failed : UInt8 := 0x05
def enrollStart : UInt8 := 0x06
def enrollIssue : UInt8 := 0x07
def enrollFailed : UInt8 := 0x08

end Kind

namespace Flag

def deviceId : UInt8 := 0b00000001
def publicKey : UInt8 := 0b00000010
def version : UInt8 := 0b00000100

def of (flag : UInt8) (present : Bool) : UInt8 :=
  if present then flag else 0

def has (flags flag : UInt8) : Bool :=
  flags &&& flag != 0

end Flag

def allowedFlags (kind : UInt8) : UInt8 :=
  if kind = Kind.start then Flag.deviceId ||| Flag.version
  else if kind = Kind.response then Flag.deviceId
  else if kind = Kind.enrollStart then Flag.deviceId ||| Flag.publicKey
  else if kind = Kind.enrollIssue then Flag.deviceId
  else 0

/-! ### The writer and the reader

The writer's methods are modelled by the bytes they append. -/

variable {J : Type}

namespace Writer

def u8 (value : UInt8) : Except (CodecError J) (List UInt8) :=
  .ok [value]

def u32 (value : UInt32) : Except (CodecError J) (List UInt8) :=
  .ok (Bytes.le 4 value.toNat)

def u64 (value : UInt64) : Except (CodecError J) (List UInt8) :=
  .ok (Bytes.le 8 value.toNat)

def i64 (value : Int64) : Except (CodecError J) (List UInt8) :=
  u64 value.toUInt64

def string (value : String) : Except (CodecError J) (List UInt8) :=
  let bytes := Ascii.utf8 value
  if bytes.length ≤ 0xffff then .ok (Bytes.le 2 bytes.length ++ bytes)
  else .error (.binary s!"a string of {bytes.length} bytes does not fit the wire format")

def bytes (value : List UInt8) : Except (CodecError J) (List UInt8) :=
  if value.length ≤ 0xffffffff then .ok (Bytes.le 4 value.length ++ value)
  else .error (.binary s!"{value.length} bytes of payload do not fit the wire format")

theorem string_ok_iff {value : String} {w : List UInt8} :
    (string value : Except (CodecError J) _) = .ok w ↔
      (Ascii.utf8 value).length ≤ 0xffff ∧
        w = Bytes.le 2 (Ascii.utf8 value).length ++ Ascii.utf8 value := by
  unfold string
  by_cases h : (Ascii.utf8 value).length ≤ 0xffff
  · simp [h, eq_comm]
  · simp [h]

theorem string_fails_iff {value : String} :
    Fails (string value : Except (CodecError J) _) ↔
      0xffff < (Ascii.utf8 value).length := by
  unfold string
  by_cases h : (Ascii.utf8 value).length ≤ 0xffff
  · simp [h]
  · simp only [h, if_false, fails_error, true_iff]
    exact Nat.lt_of_not_le h

variable {value : List UInt8}

theorem bytes_ok_iff {w : List UInt8} :
    (bytes value : Except (CodecError J) _) = .ok w ↔
      value.length ≤ 0xffffffff ∧ w = Bytes.le 4 value.length ++ value := by
  unfold bytes
  by_cases h : value.length ≤ 0xffffffff
  · simp [h, eq_comm]
  · simp [h]

theorem bytes_fails_iff :
    Fails (bytes value : Except (CodecError J) _) ↔ 0xffffffff < value.length := by
  unfold bytes
  by_cases h : value.length ≤ 0xffffffff
  · simp [h]
  · simp only [h, if_false, fails_error, true_iff]
    exact Nat.lt_of_not_le h

theorem string_fits (value : String) (w : List UInt8)
    (h : (string value : Except (CodecError J) _) = .ok w) : (Wire.Shape.sized 2).Fits w := by
  rcases string_ok_iff.mp h with ⟨hlen, rfl⟩
  exact ⟨_, lt_succ_of_le hlen, rfl⟩

theorem bytes_fits (value w : List UInt8)
    (h : (bytes value : Except (CodecError J) _) = .ok w) : (Wire.Shape.sized 4).Fits w := by
  rcases bytes_ok_iff.mp h with ⟨hlen, rfl⟩
  exact ⟨_, lt_succ_of_le hlen, rfl⟩

theorem u8_fits (value : UInt8) (w : List UInt8)
    (h : (u8 value : Except (CodecError J) _) = .ok w) : (Wire.Shape.fixed 1).Fits w := by
  cases h
  rfl

theorem u32_fits (value : UInt32) (w : List UInt8)
    (h : (u32 value : Except (CodecError J) _) = .ok w) : (Wire.Shape.fixed 4).Fits w := by
  cases h
  exact Bytes.length_le 4 _

theorem u64_fits (value : UInt64) (w : List UInt8)
    (h : (u64 value : Except (CodecError J) _) = .ok w) : (Wire.Shape.fixed 8).Fits w := by
  cases h
  exact Bytes.length_le 8 _

end Writer

namespace Reader

def endsAfter (left len : Nat) : CodecError J :=
  .binary s!"the payload ends after {left} of the {len} bytes it claims"

def take (len : Nat) : Wire.Decoder (CodecError J) (List UInt8) :=
  Wire.take endsAfter len

def u8 : Wire.Decoder (CodecError J) UInt8 := do
  let bytes ← take 1
  pure (bytes.headD 0)

def u32 : Wire.Decoder (CodecError J) UInt32 := do
  let n ← Wire.number endsAfter 4
  pure (UInt32.ofNat n)

def u64 : Wire.Decoder (CodecError J) UInt64 := do
  let n ← Wire.number endsAfter 8
  pure (UInt64.ofNat n)

def i64 : Wire.Decoder (CodecError J) Int64 := do
  let n ← u64
  pure n.toInt64

def string : Wire.Decoder (CodecError J) String := do
  let len ← Wire.number endsAfter 2
  let bytes ← take len
  match Ascii.fromUtf8 bytes with
  | some value => pure value
  | none => throw (.binary "a string is not UTF-8")

def bytes : Wire.Decoder (CodecError J) (List UInt8) := do
  let len ← Wire.number endsAfter 4
  take len

def algorithm : Wire.Decoder (CodecError J) Algorithm := do
  let byte ← u8
  match Algorithm.fromByte byte with
  | some algorithm => pure algorithm
  | none => throw (.binary "the algorithm is not one this build knows")

theorem u8_exact : Exact (ε := CodecError J) Writer.u8 u8 := by
  intro bs a rest
  simp only [u8, take, bind_ok_iff, take_ok_iff, pure_ok_iff, Writer.u8]
  constructor
  · rintro ⟨bytes, mid, ⟨hlen, rfl⟩, rfl, rfl⟩
    obtain ⟨b, rfl⟩ := length_eq_one_iff.mp hlen
    exact ⟨[b], rfl, rfl⟩
  · rintro ⟨w, hw, rfl⟩
    cases hw
    exact ⟨[a], rest, ⟨rfl, rfl⟩, rfl, rfl⟩

theorem u32_exact : Exact (ε := CodecError J) Writer.u32 u32 := by
  intro bs a rest
  simp only [u32, bind_ok_iff, number_ok_iff, pure_ok_iff, Writer.u32]
  constructor
  · rintro ⟨n, mid, ⟨hlt, rfl⟩, rfl, rfl⟩
    refine ⟨_, rfl, ?_⟩
    rw [UInt32.toNat_ofNat_of_lt' hlt]
  · rintro ⟨w, hw, rfl⟩
    cases hw
    exact ⟨a.toNat, rest, ⟨a.toNat_lt, rfl⟩, UInt32.ofNat_toNat, rfl⟩

theorem u64_exact : Exact (ε := CodecError J) Writer.u64 u64 := by
  intro bs a rest
  simp only [u64, bind_ok_iff, number_ok_iff, pure_ok_iff, Writer.u64]
  constructor
  · rintro ⟨n, mid, ⟨hlt, rfl⟩, rfl, rfl⟩
    refine ⟨_, rfl, ?_⟩
    rw [UInt64.toNat_ofNat_of_lt' hlt]
  · rintro ⟨w, hw, rfl⟩
    cases hw
    exact ⟨a.toNat, rest, ⟨a.toNat_lt, rfl⟩, UInt64.ofNat_toNat, rfl⟩

theorem i64_exact : Exact (ε := CodecError J) Writer.i64 i64 := by
  intro bs a rest
  simp only [i64, bind_ok_iff, pure_ok_iff, Writer.i64]
  constructor
  · rintro ⟨n, mid, hread, rfl, rfl⟩
    exact u64_exact.canonical hread
  · rintro ⟨w, hw, rfl⟩
    exact ⟨a.toUInt64, rest, u64_exact.read_back hw rest, Int64.toInt64_toUInt64 a, rfl⟩

theorem string_exact : Exact (ε := CodecError J) Writer.string string := by
  intro bs a rest
  simp only [string, take, bind_ok_iff, number_ok_iff, take_ok_iff,
    Writer.string_ok_iff]
  constructor
  · rintro ⟨len, mid, ⟨hlt, rfl⟩, bytes, mid', ⟨rfl, rfl⟩, hread⟩
    rcases hutf : Ascii.fromUtf8 bytes with _ | value
    · rw [hutf] at hread
      exact absurd hread not_throw_ok
    rw [hutf] at hread
    obtain ⟨rfl, rfl⟩ := pure_ok_iff.mp hread
    rw [Ascii.fromUtf8_eq_some_iff] at hutf
    subst hutf
    exact ⟨_, ⟨le_of_lt_succ hlt, rfl⟩, (append_assoc _ _ _).symm⟩
  · rintro ⟨w, ⟨hlen, rfl⟩, rfl⟩
    refine ⟨_, _, ⟨lt_succ_of_le hlen, append_assoc _ _ _⟩, _, _, ⟨rfl, rfl⟩, ?_⟩
    rw [Ascii.fromUtf8_utf8]
    rfl

theorem bytes_exact : Exact (ε := CodecError J) Writer.bytes bytes := by
  intro bs a rest
  simp only [bytes, take, bind_ok_iff, number_ok_iff, take_ok_iff,
    Writer.bytes_ok_iff]
  constructor
  · rintro ⟨len, mid, ⟨hlt, rfl⟩, rfl, rfl⟩
    exact ⟨_, ⟨le_of_lt_succ hlt, rfl⟩, (append_assoc _ _ _).symm⟩
  · rintro ⟨w, ⟨hlen, rfl⟩, rfl⟩
    exact ⟨_, _, ⟨lt_succ_of_le hlen, append_assoc _ _ _⟩, rfl, rfl⟩

theorem algorithm_exact :
    Exact (ε := CodecError J) (fun a => Writer.u8 a.toByte) algorithm := by
  intro bs a rest
  simp only [algorithm, bind_ok_iff]
  constructor
  · rintro ⟨byte, mid, hread, hpu⟩
    cases hby : Algorithm.fromByte byte with
    | none =>
      rw [hby] at hpu
      exact absurd hpu not_throw_ok
    | some a' =>
      rw [hby] at hpu
      obtain ⟨rfl, rfl⟩ := pure_ok_iff.mp hpu
      rw [Algorithm.fromByte_eq_some_iff.mp hby]
      exact u8_exact.canonical hread
  · rintro ⟨w, hw, rfl⟩
    refine ⟨a.toByte, rest, u8_exact.read_back hw rest, ?_⟩
    rw [Algorithm.fromByte_eq_some_iff.mpr rfl]
    rfl

end Reader

/-! ### The binary form -/

def AuthMessage.kind : AuthMessage → UInt8
  | .start .. => Kind.start
  | .challenge _ => Kind.challenge
  | .response .. => Kind.response
  | .ok => Kind.ok
  | .failed _ => Kind.failed
  | .enrollStart .. => Kind.enrollStart
  | .enrollIssue .. => Kind.enrollIssue
  | .enrollFailed _ => Kind.enrollFailed

def AuthMessage.flags : AuthMessage → UInt8
  | .start _ _ deviceId version =>
    Flag.of Flag.deviceId deviceId.isSome ||| Flag.of Flag.version version.isSome
  | .response _ _ _ _ deviceId => Flag.of Flag.deviceId deviceId.isSome
  | .enrollStart _ _ deviceId publicKey =>
    Flag.of Flag.deviceId deviceId.isSome ||| Flag.of Flag.publicKey publicKey.isSome
  | .enrollIssue _ _ _ _ _ deviceId => Flag.of Flag.deviceId deviceId.isSome
  | .challenge _ | .ok | .failed _ | .enrollFailed _ => 0

def AuthMessage.body : AuthMessage → List (Except (CodecError J) (List UInt8))
  | .start clientId timestamp deviceId version =>
    [Writer.string clientId, Writer.i64 timestamp, encodeOptional Writer.string deviceId,
      encodeOptional Writer.u8 version]
  | .challenge nonce => [Writer.bytes nonce]
  | .response clientId timestamp totpCode signature deviceId =>
    [Writer.string clientId, Writer.i64 timestamp, Writer.string totpCode,
      Writer.bytes signature, encodeOptional Writer.string deviceId]
  | .ok => []
  | .failed reason => [Writer.string reason]
  | .enrollStart clientId token deviceId publicKey =>
    [Writer.string clientId, Writer.string token, encodeOptional Writer.string deviceId,
      encodeOptional Writer.string publicKey]
  | .enrollIssue clientId secret algorithm digits period deviceId =>
    [Writer.string clientId, Writer.string secret, Writer.u8 algorithm.toByte,
      Writer.u32 digits, Writer.u64 period, encodeOptional Writer.string deviceId]
  | .enrollFailed reason => [Writer.string reason]

def writeBinary (message : AuthMessage) : Except (CodecError J) (List UInt8) :=
  fields (Writer.u8 message.kind :: Writer.u8 message.flags :: message.body)

def hexByte (b : UInt8) : String :=
  "0x" ++ String.ofList (Text.hexEncode [b])

def readFields (kind flags : UInt8) : Wire.Decoder (CodecError J) AuthMessage :=
  if kind = Kind.start then do
    let clientId ← Reader.string
    let timestamp ← Reader.i64
    let deviceId ← optional (Flag.has flags Flag.deviceId) Reader.string
    let version ← optional (Flag.has flags Flag.version) Reader.u8
    pure (.start clientId timestamp deviceId version)
  else if kind = Kind.challenge then do
    let nonce ← Reader.bytes
    pure (.challenge nonce)
  else if kind = Kind.response then do
    let clientId ← Reader.string
    let timestamp ← Reader.i64
    let totpCode ← Reader.string
    let signature ← Reader.bytes
    let deviceId ← optional (Flag.has flags Flag.deviceId) Reader.string
    pure (.response clientId timestamp totpCode signature deviceId)
  else if kind = Kind.ok then pure .ok
  else if kind = Kind.failed then do
    let reason ← Reader.string
    pure (.failed reason)
  else if kind = Kind.enrollStart then do
    let clientId ← Reader.string
    let token ← Reader.string
    let deviceId ← optional (Flag.has flags Flag.deviceId) Reader.string
    let publicKey ← optional (Flag.has flags Flag.publicKey) Reader.string
    pure (.enrollStart clientId token deviceId publicKey)
  else if kind = Kind.enrollIssue then do
    let clientId ← Reader.string
    let secret ← Reader.string
    let algorithm ← Reader.algorithm
    let digits ← Reader.u32
    let period ← Reader.u64
    let deviceId ← optional (Flag.has flags Flag.deviceId) Reader.string
    pure (.enrollIssue clientId secret algorithm digits period deviceId)
  else if kind = Kind.enrollFailed then do
    let reason ← Reader.string
    pure (.enrollFailed reason)
  else throw (.binary s!"unknown message type {hexByte kind}")

def readBinary : Wire.Decoder (CodecError J) AuthMessage := do
  let kind ← Reader.u8
  let flags ← Reader.u8
  if flags &&& ~~~(allowedFlags kind) != 0 then
    throw (.binary (s!"a message of type {hexByte kind} carries flags {hexByte flags} " ++
      "that it has no meaning for"))
  else readFields kind flags

/-- The message a binary payload carries. The reader is dropped where it stands. -/
def fromBinary (payload : List UInt8) : Except (CodecError J) AuthMessage :=
  (readBinary payload).map Prod.fst

/-! ### The binary reader takes off what the writer writes -/

variable {flags : UInt8}

theorem start_flags (h : flags &&& ~~~(Flag.deviceId ||| Flag.version) = 0)
    (device version : Bool) :
    Flag.of Flag.deviceId device ||| Flag.of Flag.version version = flags ↔
      device = Flag.has flags Flag.deviceId ∧ version = Flag.has flags Flag.version := by
  revert flags device version
  decide +kernel

theorem enrollStart_flags (h : flags &&& ~~~(Flag.deviceId ||| Flag.publicKey) = 0)
    (device key : Bool) :
    Flag.of Flag.deviceId device ||| Flag.of Flag.publicKey key = flags ↔
      device = Flag.has flags Flag.deviceId ∧ key = Flag.has flags Flag.publicKey := by
  revert flags device key
  decide +kernel

theorem device_flags (h : flags &&& ~~~Flag.deviceId = 0) (device : Bool) :
    Flag.of Flag.deviceId device = flags ↔ device = Flag.has flags Flag.deviceId := by
  revert flags device
  decide +kernel

theorem no_flags (h : flags &&& ~~~0 = 0) : 0 = flags := by
  revert flags
  decide +kernel

theorem flags_allowed (m : AuthMessage) : m.flags &&& ~~~(allowedFlags m.kind) = 0 := by
  have hone : ∀ device : Bool, Flag.of Flag.deviceId device &&& ~~~Flag.deviceId = 0 := by
    decide
  have hst : ∀ device version : Bool,
      (Flag.of Flag.deviceId device ||| Flag.of Flag.version version) &&&
        ~~~(Flag.deviceId ||| Flag.version) = 0 := by decide
  have henr : ∀ device key : Bool,
      (Flag.of Flag.deviceId device ||| Flag.of Flag.publicKey key) &&&
        ~~~(Flag.deviceId ||| Flag.publicKey) = 0 := by decide
  cases m with
  | start _ _ _ _ => exact hst _ _
  | response | enrollIssue => exact hone _
  | enrollStart _ _ _ _ => exact henr _ _
  | challenge | ok | failed | enrollFailed => exact UInt8.zero_and

def Body (J : Type) (kind flags : UInt8) (m : AuthMessage)
    (fs : List (Except (CodecError J) (List UInt8))) : Prop :=
  m.kind = kind ∧ m.flags = flags ∧ fs = m.body

section Parsing

variable {flags : UInt8}

open Reader Parses

theorem start_parses (h : flags &&& ~~~(Flag.deviceId ||| Flag.version) = 0) :
    Parses (readFields Kind.start flags) (Body J Kind.start flags) := by
  refine (bind string_exact fun clientId =>
    bind i64_exact fun timestamp =>
    bind_optional string_exact fun deviceId =>
    bind_optional u8_exact fun version => pure _).congr ?_
  intro m fs
  constructor
  · rintro ⟨_, _, rfl, _, _, rfl, _, _, hd, rfl, _, _, hv, rfl, rfl, rfl⟩
    exact ⟨rfl, (start_flags h _ _).mpr ⟨hd, hv⟩, rfl⟩
  · rintro ⟨hk, hf, rfl⟩
    cases m with
    | start _ _ _ _ =>
      obtain ⟨hd, hv⟩ := (start_flags h _ _).mp hf
      exact ⟨_, _, rfl, _, _, rfl, _, _, hd, rfl, _, _, hv, rfl, rfl, rfl⟩
    | _ => cases hk

theorem challenge_parses (h : flags &&& ~~~0 = 0) :
    Parses (readFields Kind.challenge flags) (Body J Kind.challenge flags) := by
  refine (bind bytes_exact fun nonce => pure _).congr ?_
  intro m fs
  constructor
  · rintro ⟨_, _, rfl, rfl, rfl⟩
    exact ⟨rfl, no_flags h, rfl⟩
  · rintro ⟨hk, -, rfl⟩
    cases m with
    | challenge _ => exact ⟨_, _, rfl, rfl, rfl⟩
    | _ => cases hk

theorem response_parses (h : flags &&& ~~~Flag.deviceId = 0) :
    Parses (readFields Kind.response flags) (Body J Kind.response flags) := by
  refine (bind string_exact fun clientId =>
    bind i64_exact fun timestamp =>
    bind string_exact fun totpCode =>
    bind bytes_exact fun signature =>
    bind_optional string_exact fun deviceId => pure _).congr ?_
  intro m fs
  constructor
  · rintro ⟨_, _, rfl, _, _, rfl, _, _, rfl, _, _, rfl, _, _, hd, rfl, rfl, rfl⟩
    exact ⟨rfl, (device_flags h _).mpr hd, rfl⟩
  · rintro ⟨hki, hfl, rfl⟩
    cases m with
    | response _ _ _ _ _ =>
      have hd := (device_flags h _).mp hfl
      exact ⟨_, _, rfl, _, _, rfl, _, _, rfl, _, _, rfl, _, _, hd, rfl, rfl, rfl⟩
    | _ => cases hki

theorem ok_parses (h : flags &&& ~~~0 = 0) :
    Parses (readFields Kind.ok flags) (Body J Kind.ok flags) := by
  refine (pure _).congr ?_
  intro m fs
  constructor
  · rintro ⟨rfl, rfl⟩
    exact ⟨rfl, no_flags h, rfl⟩
  · rintro ⟨hk, -, rfl⟩
    cases m with
    | ok => exact ⟨rfl, rfl⟩
    | _ => cases hk

theorem failed_parses (h : flags &&& ~~~0 = 0) :
    Parses (readFields Kind.failed flags) (Body J Kind.failed flags) := by
  refine (bind string_exact fun reason => pure _).congr ?_
  intro m fs
  constructor
  · rintro ⟨_, _, rfl, rfl, rfl⟩
    exact ⟨rfl, no_flags h, rfl⟩
  · rintro ⟨hk, -, rfl⟩
    cases m with
    | failed _ => exact ⟨_, _, rfl, rfl, rfl⟩
    | _ => cases hk

theorem enrollStart_parses (h : flags &&& ~~~(Flag.deviceId ||| Flag.publicKey) = 0) :
    Parses (readFields Kind.enrollStart flags) (Body J Kind.enrollStart flags) := by
  refine (bind string_exact fun clientId =>
    bind string_exact fun token =>
    bind_optional string_exact fun deviceId =>
    bind_optional string_exact fun publicKey => pure _).congr ?_
  intro m fs
  constructor
  · rintro ⟨_, _, rfl, _, _, rfl, _, _, hd, rfl, _, _, hk, rfl, rfl, rfl⟩
    exact ⟨rfl, (enrollStart_flags h _ _).mpr ⟨hd, hk⟩, rfl⟩
  · rintro ⟨hki, hf, rfl⟩
    cases m with
    | enrollStart _ _ _ _ =>
      obtain ⟨hd, hk⟩ := (enrollStart_flags h _ _).mp hf
      exact ⟨_, _, rfl, _, _, rfl, _, _, hd, rfl, _, _, hk, rfl, rfl, rfl⟩
    | _ => cases hki

theorem enrollIssue_parses (h : flags &&& ~~~Flag.deviceId = 0) :
    Parses (readFields Kind.enrollIssue flags) (Body J Kind.enrollIssue flags) := by
  refine (bind string_exact fun clientId =>
    bind string_exact fun secret =>
    bind algorithm_exact fun algorithm =>
    bind u32_exact fun digits =>
    bind u64_exact fun period =>
    bind_optional string_exact fun deviceId => pure _).congr ?_
  intro m fs
  constructor
  · rintro ⟨_, _, rfl, _, _, rfl, _, _, rfl, _, _, rfl, _, _, rfl, _, _, hd, rfl, rfl, rfl⟩
    exact ⟨rfl, (device_flags h _).mpr hd, rfl⟩
  · rintro ⟨hki, hfl, rfl⟩
    cases m with
    | enrollIssue _ _ _ _ _ _ =>
      have hd := (device_flags h _).mp hfl
      exact ⟨_, _, rfl, _, _, rfl, _, _, rfl, _, _, rfl, _, _, rfl, _, _, hd, rfl, rfl, rfl⟩
    | _ => cases hki

theorem enrollFailed_parses (h : flags &&& ~~~0 = 0) :
    Parses (readFields Kind.enrollFailed flags) (Body J Kind.enrollFailed flags) := by
  refine (bind string_exact fun reason => pure _).congr ?_
  intro m fs
  constructor
  · rintro ⟨_, _, rfl, rfl, rfl⟩
    exact ⟨rfl, no_flags h, rfl⟩
  · rintro ⟨hk, -, rfl⟩
    cases m with
    | enrollFailed _ => exact ⟨_, _, rfl, rfl, rfl⟩
    | _ => cases hk

end Parsing

open Kind

theorem readFields_parses {kind : UInt8} (h : flags &&& ~~~(allowedFlags kind) = 0) :
    Parses (readFields kind flags) (Body J kind flags) := by
  by_cases hkn : kind ∈ [start, challenge, response, ok, failed,
      enrollStart, enrollIssue, enrollFailed]
  · simp only [mem_cons, not_mem_nil, or_false] at hkn
    rcases hkn with rfl | rfl | rfl | rfl | rfl | rfl | rfl | rfl
    · exact start_parses h
    · exact challenge_parses h
    · exact response_parses h
    · exact ok_parses h
    · exact failed_parses h
    · exact enrollStart_parses h
    · exact enrollIssue_parses h
    · exact enrollFailed_parses h
  · -- Every message has one of these kinds, so there is none to be read.
    have hno : ∀ m fs, ¬Body J kind flags m fs := by
      rintro m fs ⟨rfl, -⟩
      apply hkn
      cases m <;> simp [AuthMessage.kind]
    simp only [mem_cons, not_mem_nil, or_false, not_or] at hkn
    obtain ⟨h1, h2, h3, h4, h5, h6, h7, h8⟩ := hkn
    rw [readFields, if_neg h1, if_neg h2, if_neg h3, if_neg h4, if_neg h5, if_neg h6, if_neg h7,
      if_neg h8]
    exact Parses.throw _ hno

theorem readBinary_exact : Exact (ε := CodecError J) writeBinary readBinary := by
  intro bs m rest
  simp only [readBinary, bind_ok_iff, writeBinary, fields_cons_ok_iff]
  constructor
  · rintro ⟨kind, mid, hki, flags, mid', hfl, hread⟩
    by_cases hall : flags &&& ~~~(allowedFlags kind) = 0
    · rw [hall] at hread
      rcases (readFields_parses hall mid' m rest).mp hread with
        ⟨_, w, ⟨rfl, rfl, rfl⟩, hw, rfl⟩
      rcases Reader.u8_exact.canonical hfl with ⟨wf, hwf, rfl⟩
      rcases Reader.u8_exact.canonical hki with ⟨wk, hwk, rfl⟩
      exact ⟨_, ⟨wk, _, hwk, ⟨wf, w, hwf, hw, rfl⟩, rfl⟩, by simp only [append_assoc]⟩
    · rw [if_pos (bne_iff_ne.mpr hall)] at hread
      exact absurd hread not_throw_ok
  · rintro ⟨_, ⟨wk, _, hwk, ⟨wf, w, hwf, hw, rfl⟩, rfl⟩, rfl⟩
    simp only [append_assoc]
    refine ⟨_, _, Reader.u8_exact.read_back hwk _, _, _, Reader.u8_exact.read_back hwf _, ?_⟩
    rw [flags_allowed m]
    exact (readFields_parses (flags_allowed m) _ m rest).mpr ⟨_, w, ⟨rfl, rfl, rfl⟩, hw, rfl⟩

theorem fromBinary_ok_iff {payload : List UInt8} {m : AuthMessage} :
    (fromBinary payload : Except (CodecError J) _) = .ok m ↔
      ∃ w rest, (writeBinary m : Except (CodecError J) _) = .ok w ∧ payload = w ++ rest := by
  have hmap : (fromBinary payload : Except (CodecError J) _) = .ok m ↔
      ∃ rest, (readBinary payload : Except (CodecError J) _) = .ok (m, rest) := by
    unfold fromBinary
    rcases readBinary payload with e | r
    · simp [Except.map]
    · rcases r with ⟨m', rest⟩
      simp [Except.map]
  rw [hmap]
  constructor
  · rintro ⟨rest, hread⟩
    rcases readBinary_exact.canonical hread with ⟨w, hw, rfl⟩
    exact ⟨w, rest, hw, rfl⟩
  · rintro ⟨w, rest, hw, rfl⟩
    exact ⟨rest, readBinary_exact.read_back hw rest⟩

end Nexapipe.Codec
