import Nexapipe.Lib.Text

/-!
# Device public keys and presentable ids

The credential a device proves without a human is an Ed25519 public key, stored
as 64 hex characters. `parsePublicKey` is called both where a key is written and
where one is loaded, and `publicKeyHex` is the one spelling that is written, so
a key the program wrote is a key the program reads.

Whether 32 bytes are a point of the curve is a question for the curve's own
library and stays a parameter, `onCurve`. A `PublicKey` carries the answer, so a
key that nothing could verify with cannot be built.
-/

namespace Nexapipe

def publicKeyLen : Nat := 32

structure PublicKey (onCurve : List UInt8 → Bool) where
  bytes : List UInt8
  length_eq : bytes.length = publicKeyLen
  onCurve_eq : onCurve bytes = true

inductive KeyError where
  | notHex (spelled : String)
  | wrongLength (spelled : String) (decodedLen : Nat)
  | notOnCurve (spelled : String)
deriving DecidableEq

section

variable {onCurve : List UInt8 → Bool}

def publicKeyHex (key : PublicKey onCurve) : String :=
  String.ofList (Text.hexEncode key.bytes)

def parsePublicKey (onCurve : List UInt8 → Bool) (stored : String) :
    Except KeyError (PublicKey onCurve) :=
  let spelled := Text.trim stored.toList
  match Text.hexDecode spelled with
  | none => .error (.notHex (String.ofList spelled))
  | some bytes =>
    -- The length is checked before the point: bytes of another length are no point at all.
    if hlen : bytes.length = publicKeyLen then
      if hcurve : onCurve bytes = true then .ok ⟨bytes, hlen, hcurve⟩
      else .error (.notOnCurve (String.ofList spelled))
    else .error (.wrongLength (String.ofList spelled) bytes.length)

theorem parsePublicKey_publicKeyHex (key : PublicKey onCurve) :
    parsePublicKey onCurve (publicKeyHex key) = .ok key := by
  -- A hex string has no white space to trim, so the reader decodes what was encoded.
  have ht : Text.trim (publicKeyHex key).toList = Text.hexEncode key.bytes := by
    unfold publicKeyHex
    rw [String.toList_ofList, Text.trim_hexEncode]
  unfold parsePublicKey
  simp only [ht, Text.hexDecode_hexEncode, key.length_eq, key.onCurve_eq, dif_pos]

end

/-! ### Presentable ids -/

def maxIdLen : Nat := 255

/-- Whether an id may be printed as it stands: printable ASCII, not empty, and
    not longer than the limit. The source looks at the bytes; for a string all
    of whose bytes are ASCII those are its characters. -/
def isPresentableId (id : String) (maxLen : Nat) : Bool :=
  id ≠ "" && id.utf8ByteSize ≤ maxLen &&
    id.toList.all fun c => 0x21 ≤ c.toNat && c.toNat ≤ 0x7e

def isPresentableClientId (id : String) : Bool :=
  isPresentableId id maxIdLen

def isPresentableDeviceId (id : String) : Bool :=
  isPresentableId id maxIdLen

end Nexapipe
