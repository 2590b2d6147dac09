import Nexapipe.Proto.AuthCodec

/-!
# Authentication payloads

An authentication message travels in one of three forms, told apart by the first byte
of its payload: JSON behind a version byte, the binary form behind another, and JSON
with no version byte, which is what every peer sent before there was one.

JSON is left to a library, and `Json` carries what is assumed of it: it reads back what
it wrote, and what it writes for a message begins with an opening brace, which is
neither of the version bytes.

The binary form accepts bytes behind the last field and drops them, so one message has
many payloads. `announced` tells the one that is written from the others without
reading it: it is the length that the kind, the flags and the payload's own length
prefixes add up to.
-/

namespace Nexapipe.Codec

open List Wire Writer

variable {J : Type}

/-! ### Messages that cannot be written -/

def AuthMessage.strings : AuthMessage → List String
  | .start clientId _ deviceId _ => clientId :: deviceId.toList
  | .challenge _ | .ok => []
  | .response clientId _ totpCode _ deviceId => clientId :: totpCode :: deviceId.toList
  | .failed reason | .enrollFailed reason => [reason]
  | .enrollStart clientId token deviceId publicKey =>
    clientId :: token :: (deviceId.toList ++ publicKey.toList)
  | .enrollIssue clientId secret _ _ _ deviceId => clientId :: secret :: deviceId.toList

def AuthMessage.byteStrings : AuthMessage → List (List UInt8)
  | .challenge nonce => [nonce]
  | .response _ _ _ signature _ => [signature]
  | _ => []

def AuthMessage.HasLongField (m : AuthMessage) : Prop :=
  (∃ s ∈ m.strings, 0xffff < (Ascii.utf8 s).length) ∨
    ∃ b ∈ m.byteStrings, 0xffffffff < b.length

theorem writeBinary_fails_iff {m : AuthMessage} :
    Fails (writeBinary m : Except (CodecError J) _) ↔ m.HasLongField := by
  unfold writeBinary AuthMessage.HasLongField
  rw [fields_fails_iff]
  cases m <;>
    simp [AuthMessage.body, AuthMessage.strings, AuthMessage.byteStrings,
      string_fails_iff, bytes_fails_iff, encodeOptional_fails_iff, u8,
      u32, u64, i64, or_and_right, exists_or]
  -- The signature is written between two strings.
  grind

/-! ### How long a payload says it is -/

def shapes (kind flags : UInt8) : List Shape :=
  let deviceId : List Shape := if Flag.has flags Flag.deviceId then [.sized 2] else []
  let version : List Shape := if Flag.has flags Flag.version then [.fixed 1] else []
  let publicKey : List Shape := if Flag.has flags Flag.publicKey then [.sized 2] else []
  if kind = Kind.start then Shape.sized 2 :: .fixed 8 :: (deviceId ++ (version ++ []))
  else if kind = Kind.challenge then [.sized 4]
  else if kind = Kind.response then
    Shape.sized 2 :: .fixed 8 :: .sized 2 :: .sized 4 :: (deviceId ++ [])
  else if kind = Kind.ok then []
  else if kind = Kind.failed then [.sized 2]
  else if kind = Kind.enrollStart then
    Shape.sized 2 :: .sized 2 :: (deviceId ++ (publicKey ++ []))
  else if kind = Kind.enrollIssue then
    Shape.sized 2 :: .sized 2 :: .fixed 1 :: .fixed 4 :: .fixed 8 :: (deviceId ++ [])
  else if kind = Kind.enrollFailed then [.sized 2]
  else []

/-- The length a binary payload gives itself: the version byte, the kind, the flags, and
    what the fields take by their own length prefixes. -/
def announced : List UInt8 → Nat
  | _ :: kind :: flags :: rest => 3 + Wire.extent (shapes kind flags) rest
  | short => short.length

theorem shapes_cover (m : AuthMessage) :
    Wire.Covers (ε := CodecError J) (shapes m.kind m.flags) m.body := by
  have hall := flags_allowed m
  cases m with
  | start _ _ _ _ =>
    obtain ⟨hd, hv⟩ := (start_flags hall _ _).mp rfl
    exact .cons (string_fits _) (.cons (u64_fits _)
      (.optional hd string_fits (.optional hv u8_fits .nil)))
  | challenge _ => exact .cons (bytes_fits _) .nil
  | response _ _ _ _ _ =>
    have hd := (device_flags hall _).mp rfl
    exact .cons (string_fits _) (.cons (u64_fits _)
      (.cons (string_fits _) (.cons (bytes_fits _)
        (.optional hd string_fits .nil))))
  | ok => exact .nil
  | failed | enrollFailed => exact .cons (string_fits _) .nil
  | enrollStart _ _ _ _ =>
    obtain ⟨hd, hk⟩ := (enrollStart_flags hall _ _).mp rfl
    exact .cons (string_fits _) (.cons (string_fits _)
      (.optional hd string_fits (.optional hk string_fits .nil)))
  | enrollIssue _ _ _ _ _ _ =>
    have hd := (device_flags hall _).mp rfl
    exact .cons (string_fits _) (.cons (string_fits _)
      (.cons (u8_fits _) (.cons (u32_fits _) (.cons (u64_fits _)
        (.optional hd string_fits .nil)))))

theorem announced_written {m : AuthMessage} {w : List UInt8}
    (hw : (writeBinary m : Except (CodecError J) _) = .ok w) (version : UInt8)
    (rest : List UInt8) : announced (version :: (w ++ rest)) = w.length + 1 := by
  rw [writeBinary, u8, u8, fields_cons_ok_iff] at hw
  rcases hw with ⟨_, v, hk, hw, rfl⟩
  rcases fields_cons_ok_iff.mp hw with ⟨_, body, hf, hb, rfl⟩
  cases hk
  cases hf
  have hcov := shapes_cover m body hb rest
  simp only [cons_append, nil_append, announced, hcov, length_cons]
  omega

/-! ### Payloads -/

inductive Format where
  | legacyJson
  | json
  | binary
deriving DecidableEq

def versionJson : UInt8 := 0x00

def versionBinary : UInt8 := 0x01

structure Json (J : Type) where
  toWriter : AuthMessage → Except J (List UInt8)
  fromSlice : List UInt8 → Except J AuthMessage
  reads_back : ∀ m bytes, toWriter m = .ok bytes → fromSlice bytes = .ok m
  opens : ∀ m bytes, toWriter m = .ok bytes → bytes.head? = some 0x7b

def toPayload (json : Json J) (message : AuthMessage) :
    Format → Except (CodecError J) (List UInt8)
  | .legacyJson => (json.toWriter message).mapError .json
  | .json => fields [Writer.u8 versionJson, (json.toWriter message).mapError .json]
  | .binary => fields [Writer.u8 versionBinary, writeBinary message]

def fromPayload (json : Json J) (payload : List UInt8) :
    Except (CodecError J) (AuthMessage × Format) :=
  match payload with
  | [] => .error (.binary "the payload is empty")
  | first :: rest =>
    if first = versionJson then ((json.fromSlice rest).mapError .json).map (·, .json)
    else if first = versionBinary then (fromBinary rest).map (·, .binary)
    else ((json.fromSlice payload).mapError .json).map (·, .legacyJson)

section Payload

variable {json : Json J} {m : AuthMessage} {b : List UInt8}

theorem toPayload_binary_ok_iff :
    toPayload json m .binary = .ok b ↔
      ∃ w, (writeBinary m : Except (CodecError J) _) = .ok w ∧ b = versionBinary :: w := by
  rw [toPayload, u8, fields_cons_ok_iff]
  constructor
  · rintro ⟨_, _, hver, hf, rfl⟩
    rcases fields_cons_ok_iff.mp hf with ⟨w, _, hw, hnil, rfl⟩
    cases hver
    cases hnil
    exact ⟨w, hw, by simp⟩
  · rintro ⟨w, hw, rfl⟩
    exact ⟨_, _, rfl, fields_cons_ok_iff.mpr ⟨w, [], hw, rfl, rfl⟩, by simp⟩

theorem fromPayload_binary_ok_iff :
    fromPayload json b = .ok (m, .binary) ↔
      ∃ w rest, (writeBinary m : Except (CodecError J) _) = .ok w ∧
        b = versionBinary :: (w ++ rest) := by
  -- Every form is reported with its own name.
  have hfo : ∀ (x : Except (CodecError J) AuthMessage) (format : Format),
      x.map (·, format) = .ok (m, .binary) ↔ format = .binary ∧ x = .ok m := by
    intro x format
    cases x with
    | error e => simp [Except.map]
    | ok m' => simp [Except.map, and_comm]
  rcases b with _ | ⟨first, bytes⟩
  · simp [fromPayload]
  by_cases hjs : first = versionJson
  · subst hjs
    rw [fromPayload, if_pos rfl, hfo]
    simp [versionJson, versionBinary]
  by_cases hbin : first = versionBinary
  · subst hbin
    rw [fromPayload, if_neg hjs, if_pos rfl, hfo, fromBinary_ok_iff]
    simp
  · rw [fromPayload, if_neg hjs, if_neg hbin, hfo]
    simp [hbin]

theorem fromPayload_toPayload {format : Format} (h : toPayload json m format = .ok b) :
    fromPayload json b = .ok (m, format) := by
  have hsent : ∀ bytes, (json.toWriter m).mapError CodecError.json = .ok bytes →
      json.toWriter m = .ok bytes := by
    intro bytes hbyt
    rcases hto : json.toWriter m with e | w
    · simp [hto, Except.mapError] at hbyt
    · simpa [hto, Except.mapError] using hbyt
  cases format with
  | legacyJson =>
    have hto := hsent b h
    have hread := json.reads_back m b hto
    -- An opening brace is neither version byte.
    have hop := json.opens m b hto
    rcases b with _ | ⟨first, rest⟩
    · cases hop
    cases hop
    rw [fromPayload, if_neg (by decide), if_neg (by decide), hread]
    rfl
  | json =>
    rw [toPayload, fields_cons_ok_iff] at h
    rcases h with ⟨_, _, hver, hfi, rfl⟩
    rcases fields_cons_ok_iff.mp hfi with ⟨w, _, hw, hnil, rfl⟩
    cases hver
    cases hnil
    have hread := json.reads_back m w (hsent w hw)
    rw [append_nil, singleton_append, fromPayload, if_pos rfl, hread]
    rfl
  | binary =>
    rcases toPayload_binary_ok_iff.mp h with ⟨w, hw, rfl⟩
    exact fromPayload_binary_ok_iff.mpr ⟨w, [], hw, by rw [append_nil]⟩

theorem fromPayload_cut_short {p : List UInt8} (h : toPayload json m .binary = .ok b)
    (hp : p <+: b) (hne : p ≠ b) (r : AuthMessage × Format) : fromPayload json p ≠ .ok r := by
  intro hread
  rcases toPayload_binary_ok_iff.mp h with ⟨w, hw, rfl⟩
  rcases p with _ | ⟨first, cut⟩
  · cases hread
  obtain ⟨rfl, hcut⟩ := cons_prefix_cons.mp hp
  have hsh : cut ≠ w := fun hc => hne (by rw [hc])
  have hn := readBinary_exact.not_cut_short hw hcut hsh
  rw [fromPayload, if_neg (by decide), if_pos rfl, fromBinary] at hread
  rcases hc : (readBinary cut : Except (CodecError J) _) with e | s
  · rw [hc] at hread
    cases hread
  · exact hn s hc

end Payload

/-! ### The two properties of the codec -/

/-- Messages come back as they were sent, in the form they were sent in. The binary form
    cannot be written only when a field is too long for its length prefix, and no bytes
    that break off inside it carry a message. -/
theorem payload_codec (json : Json J) (m : AuthMessage) :
    (∀ format b, toPayload json m format = .ok b → fromPayload json b = .ok (m, format)) ∧
      ((∃ e, toPayload json m .binary = .error e) ↔ m.HasLongField) ∧
      ∀ b p, toPayload json m .binary = .ok b → p <+: b → p ≠ b →
        ∀ r, fromPayload json p ≠ .ok r := by
  refine ⟨fun format b h => fromPayload_toPayload h, ?_, ?_⟩
  · have hf : Fails (toPayload json m .binary) ↔
        Fails (writeBinary m : Except (CodecError J) _) := by
      rw [toPayload, fields_fails_iff]
      simp [u8]
    exact hf.trans writeBinary_fails_iff
  · intro b p h hp hne
    exact fromPayload_cut_short h hp hne

def braced : Json Unit where
  toWriter m :=
    match (writeBinary m : Except (CodecError Unit) _) with
    | .ok w => .ok (0x7b :: w)
    | .error _ => .error ()
  fromSlice bytes :=
    match (fromBinary bytes.tail : Except (CodecError Unit) _) with
    | .ok m => .ok m
    | .error _ => .error ()
  reads_back m bytes h := by
    cases hw : (writeBinary m : Except (CodecError Unit) _) with
    | error e =>
      rw [hw] at h
      cases h
    | ok w =>
      rw [hw] at h
      cases h
      have hread : (fromBinary w : Except (CodecError Unit) _) = .ok m :=
        fromBinary_ok_iff.mpr ⟨w, [], hw, (append_nil w).symm⟩
      rw [tail_cons, hread]
  opens m bytes h := by
    cases hw : (writeBinary m : Except (CodecError Unit) _) with
    | error e =>
      rw [hw] at h
      cases h
    | ok w =>
      rw [hw] at h
      cases h
      rfl

theorem payload_codec_challenge :
    fromPayload braced [0x01, 0x02, 0x00, 0x01, 0x00, 0x00, 0x00, 0x2a] =
        .ok (.challenge [0x2a], .binary) ∧
      fromPayload braced [0x00, 0x7b, 0x02, 0x00, 0x01, 0x00, 0x00, 0x00, 0x2a] =
        .ok (.challenge [0x2a], .json) ∧
      ∀ r, fromPayload braced [0x01, 0x02, 0x00, 0x01, 0x00] ≠ .ok r := by
  have h := payload_codec braced (.challenge [0x2a])
  have hbin : toPayload braced (.challenge [0x2a]) .binary =
      .ok [0x01, 0x02, 0x00, 0x01, 0x00, 0x00, 0x00, 0x2a] := by decide
  have hj : toPayload braced (.challenge [0x2a]) .json =
      .ok [0x00, 0x7b, 0x02, 0x00, 0x01, 0x00, 0x00, 0x00, 0x2a] := by decide
  refine ⟨h.1 .binary _ hbin, h.1 .json _ hj, ?_⟩
  exact h.2.2 _ [0x01, 0x02, 0x00, 0x01, 0x00] hbin (by decide) (by decide)

/-- A payload is the encoding of the message it carries when nothing follows the fields it
    announces, and only then. Of such payloads no two carry one message. -/
theorem binary_canonical_iff (json : Json J) :
    (∀ b m, fromPayload json b = .ok (m, .binary) →
      (toPayload json m .binary = .ok b ↔ announced b = b.length)) ∧
      ∀ b b' m, fromPayload json b = .ok (m, .binary) → fromPayload json b' = .ok (m, .binary) →
        announced b = b.length → announced b' = b'.length → b = b' := by
  have hcan : ∀ b m, fromPayload json b = .ok (m, .binary) →
      (toPayload json m .binary = .ok b ↔ announced b = b.length) := by
    intro b m hread
    rcases fromPayload_binary_ok_iff.mp hread with ⟨w, rest, hw, rfl⟩
    rw [announced_written hw, toPayload_binary_ok_iff, length_cons, length_append]
    constructor
    · rintro ⟨w', hw', heq⟩
      cases hw.symm.trans hw'
      have hre : w ++ rest = w ++ [] := by
        rw [append_nil]
        exact (cons.inj heq).2
      rw [append_cancel_left hre, length_nil]
    · intro hlen
      have hnil : rest = [] := length_eq_zero_iff.mp (by omega)
      exact ⟨w, hw, by rw [hnil, append_nil]⟩
  refine ⟨hcan, ?_⟩
  intro b b' m hread hread' hlen hlen'
  have hb := (hcan b m hread).mpr hlen
  have hb' := (hcan b' m hread').mpr hlen'
  exact Except.ok.inj (hb.symm.trans hb')

theorem binary_canonical_iff_ok :
    toPayload braced .ok .binary = .ok [0x01, 0x04, 0x00] :=
  ((binary_canonical_iff braced).1 [0x01, 0x04, 0x00] .ok (by decide)).mpr (by decide)

/-- The shortest message is read with a byte behind it, and written without. -/
theorem trailing_byte_accepted :
    fromPayload braced [0x01, 0x04, 0x00, 0x00] = .ok (.ok, .binary) ∧
      toPayload braced .ok .binary ≠ .ok [0x01, 0x04, 0x00, 0x00] ∧
      fromPayload braced [0x01, 0x04, 0x00] = .ok (.ok, .binary) := by
  decide

end Nexapipe.Codec
