import Nexapipe.Auth.Config
import Nexapipe.Auth.DeviceKey

/-!
# Verifying a challenge response

`verifyResponse` decides an AUTH response: it looks the client up, holds the lockout against it,
picks the credential the response has to prove (the client's secret, a device's secret or a
device's key), checks the timestamp, and then the proof itself.

The cryptography is a parameter. `Crypto` collects what the program takes from its libraries:
base32, the HMAC over the challenge, the TOTP validator, Ed25519 signatures and the digest of an
enrollment token.
-/

namespace Nexapipe

structure Crypto where
  onCurve : List UInt8 → Bool
  base32Decode : List Char → Option (List UInt8)
  /-- The HMAC over a challenge: key, nonce, timestamp. -/
  hmacChallenge : List UInt8 → List UInt8 → Int64 → Option (List UInt8)
  /-- Builds a validator (algorithm, digits, skew, step, secret) and asks it
      which step the code is for at a time. The outer `none` is a validator that
      cannot be built. -/
  totpCheck : TotpAlgorithm → UInt8 → UInt16 → UInt64 → List UInt8 → String → UInt64 →
    Option (Option UInt64)
  /-- The bytes have the form of a signature. -/
  isSignature : List UInt8 → Bool
  /-- A well-formed signature over a challenge verifies under a key. -/
  ed25519Verify : PublicKey onCurve → List UInt8 → Int64 → List UInt8 → Bool
  tokenFingerprint : String → String

def Crypto.refusing : Crypto :=
  { onCurve := fun _ => false
    base32Decode := fun _ => none
    hmacChallenge := fun _ _ _ => none
    totpCheck := fun _ _ _ _ _ _ _ => none
    isSignature := fun _ => false
    ed25519Verify := fun _ _ _ _ => false
    tokenFingerprint := id }

/-- A library small enough to compute with: every secret decodes to the same key,
    the signature over a challenge is its nonce, one code is current for the whole
    of every step, and another one was in the step before. -/
def Crypto.toy : Crypto :=
  { Crypto.refusing with
    base32Decode := fun _ => some [7]
    hmacChallenge := fun _ nonce _ => some nonce
    totpCheck := fun _ _ _ step _ code now =>
      some (if code = "000000" then some (now / step)
        else if code = "999999" then some (now / step - 1) else none) }

inductive AuthError where
  | clientNotFound
  | unknownDevice
  | invalidSecret
  | totpCreationFailed
  | lockedOut
  | invalidCode
  | staleTimestamp
  | challengeMismatch
  | unnamedDeviceNotAllowed
  | wrongSignature
  | malformedSignature
  | protocolError (msg : String)

def timestampWindowSecs : Nat := 30

/-- A response that is not an error. A key device has no step. -/
inductive Verified where
  | accepted (step : Option UInt64)
  | wrongCode

/-! ### Secrets -/

def base32Alphabet : List Char := "ABCDEFGHIJKLMNOPQRSTUVWXYZ234567".toList

/-- The canonical spelling of a secret: no white space and no padding, upper
    case, and only base32 characters. -/
def normalizeSecret (raw : String) : Option (List Char) :=
  let cleaned := (raw.toList.filter fun c => !Text.isWhitespace c && c ≠ '=').map Char.toUpper
  if cleaned = [] ∨ ¬ cleaned.all base32Alphabet.contains then none else some cleaned

def decodeBase32Secret (cr : Crypto) (stored : String) : Option (List UInt8) :=
  (normalizeSecret stored).bind cr.base32Decode

/-! ### Comparing signatures -/

def constantTimeEq (a b : List UInt8) : Bool :=
  -- Lengths are public; only the bytes are compared in constant time.
  if a.length ≠ b.length then false
  else (a.zip b).foldl (fun diff p => diff ||| (p.1 ^^^ p.2)) 0 = 0

theorem foldl_or_xor_eq_zero (ps : List (UInt8 × UInt8)) (diff : UInt8) :
    ps.foldl (fun diff p => diff ||| (p.1 ^^^ p.2)) diff = 0 ↔
      diff = 0 ∧ ∀ p ∈ ps, p.1 = p.2 := by
  induction ps generalizing diff with
  | nil => simp
  | cons p ps ih =>
    -- The accumulator only gains bits, so it is zero at the end when every difference was.
    rw [List.foldl_cons, ih, UInt8.or_eq_zero_iff, UInt8.xor_eq_zero_iff, List.forall_mem_cons,
      and_assoc]

theorem forall_zip_eq_iff : ∀ {a b : List UInt8}, a.length = b.length →
    ((∀ p ∈ a.zip b, p.1 = p.2) ↔ a = b)
  | [], [], _ => by simp
  | [], _ :: _, h => absurd h (by simp)
  | _ :: _, [], h => absurd h (by simp)
  | x :: xs, y :: ys, h => by
    rw [List.zip_cons_cons, List.forall_mem_cons,
      forall_zip_eq_iff (Nat.succ.inj h), List.cons.injEq]

theorem constantTimeEq_iff (a b : List UInt8) : constantTimeEq a b = true ↔ a = b := by
  unfold constantTimeEq
  by_cases hlen : a.length = b.length
  · rw [if_neg (not_not.mpr hlen), decide_eq_true_iff, foldl_or_xor_eq_zero,
      forall_zip_eq_iff hlen]
    exact and_iff_right rfl
  · rw [if_pos hlen]
    exact ⟨nofun, fun h => absurd (congrArg List.length h) hlen⟩

/-! ### The verdict -/

inductive Proof (cr : Crypto) where
  | secret (bytes : List UInt8)
  | key (key : PublicKey cr.onCurve)

structure VerifyClock where
  lockout : UInt64
  timestamp : UInt64
  code : UInt64

structure AuthRequest where
  clientId : String
  deviceId : Option String
  nonce : List UInt8
  timestamp : Int64
  signature : List UInt8
  code : String

def Proof.Signs {cr : Crypto} (req : AuthRequest) : Proof cr → Prop
  | .secret bytes => cr.hmacChallenge bytes req.nonce req.timestamp = some req.signature
  | .key k => cr.ed25519Verify k req.nonce req.timestamp req.signature = true

section

variable (cr : Crypto)

/-- The credential a response has to prove. A name that is not in the table is
    no such device; only a response without a name falls back to the client's
    own secret, and only where the client still allows that. -/
def selectProof (client : ClientAuth) (deviceId : Option String) :
    Except AuthError (Proof cr) :=
  match deviceId with
  | none =>
    if !client.unnamedDeviceAllowed then .error .unnamedDeviceNotAllowed
    else
      match decodeBase32Secret cr client.secret with
      | some bytes => .ok (.secret bytes)
      | none => .error .invalidSecret
  | some name =>
    match client.devices.lookup name with
    | none => .error .unknownDevice
    | some device =>
      -- A device that has a key is never asked for a code, whatever secret its row has.
      match device.publicKey with
      | some stored =>
        match parsePublicKey cr.onCurve stored with
        | .ok key => .ok (.key key)
        | .error _ => .error .invalidSecret
      | none =>
        match decodeBase32Secret cr device.secret with
        | some bytes => .ok (.secret bytes)
        | none => .error .invalidSecret

/-- The step a code is for, if it is current. The validator takes narrower
    numbers than the configuration, and a value that does not fit is an error. -/
def checkCode (cfg : AuthConfig) (secret : List UInt8) (code : String) (now : UInt64) :
    Except AuthError (Option UInt64) :=
  if 256 ≤ cfg.digits.toNat then .error .totpCreationFailed
  else if 65536 ≤ cfg.window.toNat then .error .totpCreationFailed
  else
    match cr.totpCheck cfg.algorithm cfg.digits.toUInt8 cfg.window.toUInt16
      cfg.timeStep.toUInt64 secret code now with
    | none => .error .totpCreationFailed
    | some step => .ok step

/-- The proof itself. A wrong code is the one verdict of the secret path that is
    not an error; a key is not guessable, so nothing of its path is counted. -/
def checkProof (cfg : AuthConfig) (now : UInt64) (req : AuthRequest) :
    Proof cr → Except AuthError Verified
  | .secret secret =>
    match cr.hmacChallenge secret req.nonce req.timestamp with
    | none => .error .invalidSecret
    | some expected =>
      if !constantTimeEq req.signature expected then .error .challengeMismatch
      else
        match checkCode cr cfg secret req.code now with
        | .error e => .error e
        | .ok (some step) => .ok (.accepted (some step))
        -- The one verdict that is counted: whoever got here has the secret.
        | .ok none => .ok .wrongCode
  | .key key =>
    if !cr.isSignature req.signature then .error .malformedSignature
    else if !cr.ed25519Verify key req.nonce req.timestamp req.signature then
      .error .wrongSignature
    else .ok (.accepted none)

def isStale (now : UInt64) (timestamp : Int64) : Bool :=
  timestampWindowSecs < (now.toInt64.toInt - timestamp.toInt).natAbs

def verifyClient (cfg : AuthConfig) (clock : VerifyClock) (req : AuthRequest)
    (client : ClientAuth) : Except AuthError Verified :=
  if client.isLockedOut clock.lockout then .error .lockedOut
  else
    match selectProof cr client req.deviceId with
    | .error e => .error e
    -- The timestamp is looked at before any signature is computed.
    | .ok proof =>
      if isStale clock.timestamp req.timestamp then .error .staleTimestamp
      else checkProof cr cfg clock.code req proof

def verifyResponse (cfg : AuthConfig) (clock : VerifyClock) (req : AuthRequest) :
    Except AuthError Verified :=
  -- With two-factor off every response passes, and none has a step.
  if !cfg.enabled then .ok (.accepted none)
  else
    match cfg.clients.lookup req.clientId with
    | none => .error .clientNotFound
    | some client => verifyClient cr cfg clock req client

end

/-! ### What a verdict says about the client -/

section

variable {cr : Crypto} {cfg : AuthConfig} {clock : VerifyClock} {req : AuthRequest}
  {client : ClientAuth}

theorem verifyClient_locked (h : client.isLockedOut clock.lockout = true) :
    verifyClient cr cfg clock req client = .error .lockedOut := by
  unfold verifyClient
  rw [if_pos h]

theorem verifyClient_ok {v : Verified} (h : verifyClient cr cfg clock req client = .ok v) :
    client.isLockedOut clock.lockout = false ∧
      ∃ proof, selectProof cr client req.deviceId = .ok proof ∧
        checkProof cr cfg clock.code req proof = .ok v := by
  revert h
  fun_cases verifyClient cr cfg clock req client with
  | case4 hloc proof hp =>
    exact fun h => ⟨Bool.eq_false_iff.mpr hloc, proof, hp, h⟩
  | _ => rintro ⟨⟩

variable {proof : Proof cr}

theorem device_isSome_of_selectProof {deviceId : Option String} {name : String}
    (h : selectProof cr client deviceId = .ok proof) (hn : deviceId = some name) :
    (client.devices.lookup name).isSome = true := by
  subst hn
  rcases hd : client.devices.lookup name with _ | d
  · simp [selectProof, hd] at h
  · rfl

theorem checkProof_ok {now : UInt64} {v : Verified} (h : checkProof cr cfg now req proof = .ok v) :
    proof.Signs req := by
  revert h
  fun_cases checkProof cr cfg now req proof with
  | case3 secret expected hexp hsig | case4 secret expected hexp hsig
  | case5 secret expected hexp hsig =>
    -- The comparison let the signature through, so it is the one expected.
    have he := (constantTimeEq_iff req.signature expected).mp (by simpa using hsig)
    exact fun _ => by rw [Proof.Signs, hexp, he]
  | case8 key _ hsig =>
    have hver : cr.ed25519Verify key req.nonce req.timestamp req.signature = true := by
      simpa using hsig
    exact fun _ => hver
  | _ => rintro ⟨⟩

end

end Nexapipe
