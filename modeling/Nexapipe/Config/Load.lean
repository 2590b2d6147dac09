import Nexapipe.Auth.DeviceKey
import Nexapipe.Lib.Toml
import Nexapipe.Watcher.Authorization

/-!
# Loading the auth section

`parseWithAuth` reads a configuration document twice over. The first read is of
the whole document, and takes of the auth section the port rules only; the second
reads the section itself, refuses every key it does not know, and then checks
what the types do not say: tokens that are not empty, host patterns that mean
what they say, ports that can be asked for, devices with a name and exactly one
credential, an algorithm and TOTP parameters the validator can honour.

What the other sections hold is not read here. Whether they are accepted, the sidecar files their
credentials may be in included, is the parameter `LoadEnv.otherSections`, a function of the
document without its auth section.

The tables of the section are hash maps in the source, visited in an order
nobody chose. The model visits them in the order of the document, which decides
which of several errors is reported and nothing else.
-/

namespace Nexapipe

open Toml

/-! ### The shapes on disk -/

structure DeviceAuthToml where
  secret : Option String
  publicKey : Option String
  createdAt : Option String
  lastUsed : Option UInt64

structure ClientAuthToml where
  secret : String
  createdAt : Option String
  allowHosts : Option (List String)
  allowPorts : Option (List UInt16)
  allowPortsStrict : Option Bool
  pendingEnrollment : Option String
  devices : Option (Entries String DeviceAuthToml)
  unnamedDeviceAllowed : Option Bool
  failedAttempts : Option UInt32
  lockedUntil : Option UInt64
  lastUsed : Option UInt64

structure AuthTomlConfig where
  enabled : Option Bool
  issuer : Option String
  algorithm : Option String
  timeStep : Option UInt32
  digits : Option UInt32
  window : Option UInt32
  maxAttempts : Option UInt32
  lockoutDuration : Option UInt64
  clients : Option (Entries String ClientAuthToml)

def holds {α : Type} (read : Toml → Option α) (v : Toml) : Bool :=
  (read v).isSome

namespace DeviceAuthToml

def fields : Fields :=
  [("secret", holds asStr),
    ("public_key", holds asStr),
    ("created_at", holds asStr),
    ("last_used", holds asUInt64)]

def ofEntries (t : Entries String Toml) : DeviceAuthToml :=
  { secret := field asStr "secret" t
    publicKey := field asStr "public_key" t
    createdAt := field asStr "created_at" t
    lastUsed := field asUInt64 "last_used" t }

def ofToml (v : Toml) : Except ShapeError DeviceAuthToml :=
  match v.asTable with
  | none => .error .notATable
  | some t =>
    match checkFields fields t with
    | .error why => .error why
    | .ok () => .ok (ofEntries t)

end DeviceAuthToml

namespace ClientAuthToml

def fields : Fields :=
  [("secret", holds asStr),
    ("created_at", holds asStr),
    ("allow_hosts", holds (asList asStr)),
    ("allow_ports", holds (asList asUInt16)),
    ("allow_ports_strict", holds asBool),
    ("pending_enrollment", holds asStr),
    ("devices", holds asTable),
    ("unnamed_device_allowed", holds asBool),
    ("failed_attempts", holds asUInt32),
    ("locked_until", holds asUInt64),
    ("last_used", holds asUInt64)]

def ofEntries (t : Entries String Toml) (secret : String)
    (devices : Option (Entries String DeviceAuthToml)) : ClientAuthToml :=
  { secret := secret
    createdAt := field asStr "created_at" t
    allowHosts := field (asList asStr) "allow_hosts" t
    allowPorts := field (asList asUInt16) "allow_ports" t
    allowPortsStrict := field asBool "allow_ports_strict" t
    pendingEnrollment := field asStr "pending_enrollment" t
    devices := devices
    unnamedDeviceAllowed := field asBool "unnamed_device_allowed" t
    failedAttempts := field asUInt32 "failed_attempts" t
    lockedUntil := field asUInt64 "locked_until" t
    lastUsed := field asUInt64 "last_used" t }

def ofToml (v : Toml) : Except ShapeError ClientAuthToml :=
  match v.asTable with
  | none => .error .notATable
  | some t =>
    match checkFields fields t with
    | .error why => .error why
    | .ok () =>
      match field asStr "secret" t with
      | none => .error (.missingField "secret")
      | some secret =>
        match tableField DeviceAuthToml.ofToml "devices" t with
        | .error why => .error why
        | .ok devices => .ok (ofEntries t secret devices)

end ClientAuthToml

namespace AuthTomlConfig

def fields : Fields :=
  [("enabled", holds asBool),
    ("issuer", holds asStr),
    ("algorithm", holds asStr),
    ("time_step", holds asUInt32),
    ("digits", holds asUInt32),
    ("window", holds asUInt32),
    ("max_attempts", holds asUInt32),
    ("lockout_duration", holds asUInt64),
    ("clients", holds asTable)]

def ofEntries (t : Entries String Toml) (clients : Option (Entries String ClientAuthToml)) :
    AuthTomlConfig :=
  { enabled := field asBool "enabled" t
    issuer := field asStr "issuer" t
    algorithm := field asStr "algorithm" t
    timeStep := field asUInt32 "time_step" t
    digits := field asUInt32 "digits" t
    window := field asUInt32 "window" t
    maxAttempts := field asUInt32 "max_attempts" t
    lockoutDuration := field asUInt64 "lockout_duration" t
    clients := clients }

def ofToml (v : Toml) : Except ShapeError AuthTomlConfig :=
  match v.asTable with
  | none => .error .notATable
  | some t =>
    match checkFields fields t with
    | .error why => .error why
    | .ok () =>
      match tableField ClientAuthToml.ofToml "clients" t with
      | .error why => .error why
      | .ok clients => .ok (ofEntries t clients)

end AuthTomlConfig

/-! ### The port rules

The first read knows two keys of a client and ignores every other. -/

namespace AuthPortRules

def checkClient (v : Toml) : Except ShapeError Unit :=
  match v.asTable with
  | none => .error .notATable
  | some t =>
    if !(t.lookup "allow_ports").all (holds (asList asUInt16)) then
      .error (.wrongType "allow_ports")
    else if !(t.lookup "allow_ports_strict").all (holds asBool) then
      .error (.wrongType "allow_ports_strict")
    else .ok ()

def check (v : Toml) : Except ShapeError Unit :=
  match v.asTable with
  | none => .error .notATable
  | some t =>
    match t.lookup "clients" with
    | none => .ok ()
    | some clients =>
      match clients.asTable with
      | none => .error (.wrongType "clients")
      | some clients =>
        match Entries.readEach (fun _ v => checkClient v) clients with
        | .error why => .error why
        | .ok _ => .ok ()

end AuthPortRules

/-! ### Refusals -/

inductive LoadError where
  | otherSections (why : String)
  | portRules (why : ShapeError)
  | authSection (why : ShapeError)
  | emptyToken (id : String)
  | badHost (id host why : String)
  | portZero (id : String)
  | unnamedDevice (id : String)
  | unpresentableDevice (id device : String)
  | noCredential (id device : String)
  | twoCredentials (id device : String)
  | badKey (id device : String) (why : KeyError)
  | badAlgorithm (name : String)
  | zeroTimeStep
  | badDigits (digits : UInt32)
  | badWindow (window : UInt32)

/-! ### The checks -/

structure LoadEnv where
  otherSections : Entries String Toml → Except String Unit
  onCurve : List UInt8 → Bool
  now : UInt64

def LoadEnv.plain : LoadEnv :=
  { otherSections := fun _ => .ok (), onCurve := fun _ => true, now := 0 }

section

variable (env : LoadEnv)

/-- One device of a client: it has a name, and exactly one credential. An empty
    secret is read as none. -/
def loadDevice (id deviceId : String) (toml : DeviceAuthToml) : Except LoadError DeviceAuth :=
  if deviceId = "" then .error (.unnamedDevice id)
  else if !isPresentableDeviceId deviceId then .error (.unpresentableDevice id deviceId)
  else
    let secret := toml.secret.filter (· ≠ "")
    let device : DeviceAuth :=
      { secret := secret.getD ""
        publicKey := toml.publicKey
        createdAt := toml.createdAt.getD (defaultCreatedAt env.now)
        lastUsed := toml.lastUsed
        lastUsedStep := none }
    -- Exactly one of the two: an empty secret counts as none, an empty key does not.
    match secret, toml.publicKey with
    | none, none => .error (.noCredential id deviceId)
    | some _, some _ => .error (.twoCredentials id deviceId)
    | none, some publicKey =>
      match parsePublicKey env.onCurve publicKey with
      | .error why => .error (.badKey id deviceId why)
      | .ok _ => .ok device
    | some _, none => .ok device

def firstBadHost (hosts : List String) : Option (String × String) :=
  hosts.findSome? fun host => (Host.patternError host).map fun why => (host, why)

/-- The entry of a client whose checks passed. The step memory and the enrollment
    counters are not in the document. -/
def ClientAuthToml.toClient (toml : ClientAuthToml) (devices : Entries String DeviceAuth) :
    ClientAuth :=
  { secret := toml.secret
    createdAt := toml.createdAt.getD (defaultCreatedAt env.now)
    allowHosts := toml.allowHosts
    allowPorts := toml.allowPorts
    allowPortsStrict := toml.allowPortsStrict.getD false
    pendingEnrollment := toml.pendingEnrollment
    devices := Table.ofList devices
    unnamedDeviceAllowed := toml.unnamedDeviceAllowed.getD true
    lastUsed := toml.lastUsed
    lastUsedStep := none
    failedAttempts := toml.failedAttempts.getD 0
    lockedUntil := toml.lockedUntil
    enrollmentFailedAttempts := 0
    enrollmentLockedUntil := none }

def loadClient (id : String) (toml : ClientAuthToml) : Except LoadError ClientAuth :=
  if toml.pendingEnrollment = some "" then .error (.emptyToken id)
  else
    match firstBadHost (toml.allowHosts.getD []) with
    | some bad => .error (.badHost id bad.1 bad.2)
    | none =>
      -- Hosts are refused before ports, and ports before devices; the first refusal is the
      -- answer.
      if 0 ∈ toml.allowPorts.getD [] then .error (.portZero id)
      else
        match Entries.readEach (loadDevice env id) (toml.devices.getD []) with
        | .error why => .error why
        | .ok devices => .ok (toml.toClient env devices)

def loadAlgorithm (algorithm : Option String) : Except LoadError TotpAlgorithm :=
  -- Only the two spellings of each name are known, and an empty one is the default.
  match algorithm.map fun name => String.ofList (Text.trim name.toList) with
  | none | some "" | some "sha1" | some "SHA1" => .ok .sha1
  | some "sha256" | some "SHA256" => .ok .sha256
  | some "sha512" | some "SHA512" => .ok .sha512
  | some name => .error (.badAlgorithm name)

def validateTotpParameters (timeStep digits window : UInt32) : Except LoadError Unit :=
  if timeStep = 0 then .error .zeroTimeStep
  else if !(6 ≤ digits && digits ≤ 8) then .error (.badDigits digits)
  else if window > 255 then .error (.badWindow window)
  else .ok ()

def loadSettings (toml : AuthTomlConfig) (clients : Table String ClientAuth) :
    Except LoadError AuthConfig :=
  match loadAlgorithm toml.algorithm with
  | .error why => .error why
  | .ok algorithm =>
    let timeStep := toml.timeStep.getD 30
    let digits := toml.digits.getD 6
    let window := toml.window.getD 1
    match validateTotpParameters timeStep digits window with
    | .error why => .error why
    | .ok () =>
      .ok
        { enabled := toml.enabled.getD false
          issuer := toml.issuer.getD "NexaPipe"
          algorithm := algorithm
          timeStep := timeStep
          digits := digits
          window := window
          clients := clients
          maxAttempts := toml.maxAttempts.getD 5
          lockoutDuration := toml.lockoutDuration.getD 300 }

def loadAuth (toml : AuthTomlConfig) : Except LoadError AuthConfig :=
  match Entries.readEach (loadClient env) (toml.clients.getD []) with
  | .error why => .error why
  -- The clients are checked before the settings of the section they stand in.
  | .ok clients => loadSettings toml (Table.ofList clients)

def parseWithAuth (doc : Entries String Toml) : Except LoadError (Option AuthConfig) :=
  match env.otherSections (Entries.remove "auth" doc) with
  | .error why => .error (.otherSections why)
  | .ok () =>
    match doc.lookup "auth" with
    | none => .ok none
    | some v =>
      -- The routing half reads the port rules first, and its error comes first too.
      match AuthPortRules.check v with
      | .error why => .error (.portRules why)
      | .ok () =>
        match AuthTomlConfig.ofToml v with
        | .error why => .error (.authSection why)
        | .ok toml =>
          match loadAuth env toml with
          | .error why => .error why
          | .ok cfg => .ok (some cfg)

end

/-! ### The clients' table of a document -/

def clientsOf (doc : Entries String Toml) : Entries String Toml :=
  entriesAt "clients" (entriesAt "auth" doc)

theorem clientsOf_distinct (doc : Entries String Toml) : (clientsOf doc).Distinct :=
  entriesAt_distinct

def withClients (doc clients : Entries String Toml) : Entries String Toml :=
  Entries.set "auth" (table (Entries.set "clients" (table clients) (entriesAt "auth" doc))) doc

end Nexapipe
