import Nexapipe.Routes.Address
import Nexapipe.Proto.Host

/-!
# The host a request is served as

A request is looked up and checked by its `Host` header, and the backend is sent the
client's headers without those that are about one hop only. Those are a fixed list
and the ones the request's own `Connection` header names.

A client may name any header there, `Host` included. On the two request paths the filter then takes
the `Host` header out, and what the backend sees in its place is what the HTTP client fills in: the
backend's own address, or nothing. The host that was authorized is not the one that is served.

The HTTP client is a third party's. What matters of it is the value it fills in for
a request without a `Host` header, which is a parameter.
-/

namespace Nexapipe

open List

/-! ### Headers -/

/-- A header of a request. The name is in lower case, as the parser leaves it. -/
structure Header where
  name : List Char
  value : List UInt8
  lower : name.map Char.toLower = name

/-- The value as text. Only visible ASCII and the tab are text. -/
def toStr (value : List UInt8) : Option (List Char) :=
  if value.all fun b => (32 ≤ b && b < 127) || b = 9 then
    some (value.map fun b => Char.ofNat b.toNat)
  else none

def asBytes (text : List Char) : List UInt8 :=
  text.map fun c => UInt8.ofNat c.toNat

def getAll (name : String) (headers : List Header) : List (List UInt8) :=
  (headers.filter fun h => h.name = name.toList).map Header.value

variable (headers : List Header)

def hostValues : List (List UInt8) :=
  getAll "host" headers

def hostHeader (value : List UInt8) : Header :=
  { name := "host".toList, value := value, lower := by decide }

def contentLengthHeader (length : Nat) : Header :=
  { name := "content-length".toList
    value := asBytes (toString length).toList
    lower := by decide +kernel }

/-- The host a `Host` header names, and the port if it names one. The colons of a
    bracketed literal belong to the address. -/
def hostAndPort (host : List Char) : List Char × Option UInt16 :=
  match host with
  | '[' :: rest =>
    match Text.splitOnce ']' rest with
    | some (inside, after) =>
      ('[' :: inside ++ [']'], (Host.stripChar ':' after).bind parsePort)
    | none => (host, none)
  | _ =>
    match Text.splitOnce ':' host with
    | some (name, port) => (name, parsePort port)
    | none => (host, none)

def lookupHost : Option (List Char × Option UInt16) :=
  ((hostValues headers).head?.bind toStr).map hostAndPort

/-! ### The filters -/

def connectionNamed : List (List Char) :=
  ((getAll "connection" headers).filterMap toStr).flatMap fun value =>
    ((Text.split ',' value).map Text.trim).filter fun name => name ≠ []

def namesHeader (connection : List (List Char)) (name : List Char) : Bool :=
  connection.any fun named => Text.eqIgnoreCase named name

def requestHops : List String :=
  ["connection", "proxy-connection", "proxy-authenticate", "proxy-authorization", "keep-alive",
    "transfer-encoding", "te", "trailer", "upgrade", "expect"]

def upgradeHops : List String :=
  ["proxy-connection", "proxy-authenticate", "proxy-authorization", "keep-alive",
    "transfer-encoding", "te", "trailer", "expect"]

def isHop (hops : List String) (name : List Char) : Bool :=
  hops.any fun hop => Text.eqIgnoreCase name hop.toList

def forwardsRequestHeader (name : List Char) (connection : List (List Char)) : Bool :=
  !isHop requestHops name && !namesHeader connection name

def forwardsUpgradeHeader (name : List Char) (connection : List (List Char)) : Bool :=
  !isHop upgradeHops name &&
    !(namesHeader connection name && !Text.eqIgnoreCase name "upgrade".toList &&
      !Text.eqIgnoreCase name "connection".toList)

/-! ### What the backend is sent -/

/-- The headers of a tunnelled request as they go to the backend. The length the proxy
    declares takes the place of the client's. -/
def backendRequestHeaders (contentLength : Option Nat) : List Header :=
  let connection := connectionNamed headers
  (headers.filter fun h =>
      forwardsRequestHeader h.name connection &&
        !(contentLength.isSome && h.name = "content-length".toList)) ++
    (contentLength.map contentLengthHeader).toList

def attemptHeaders : List Header :=
  let connection := connectionNamed headers
  headers.filter fun h => forwardsRequestHeader h.name connection

def upgradeHeaders (backendHost : List Char) : List Header :=
  let connection := connectionNamed headers
  let originalHost := ((hostValues headers).head?.bind toStr).getD backendHost
  hostHeader (asBytes originalHost) ::
    headers.filter fun h =>
      !Text.eqIgnoreCase h.name "host".toList && forwardsUpgradeHeader h.name connection

variable (autoHost : Option (List UInt8))

def fillHost (headers : List Header) : List Header :=
  if hostValues headers = [] then headers ++ (autoHost.map hostHeader).toList else headers

def tunnelRequest (headers : List Header)
    (contentLength : Option Nat) : Option (List Header) :=
  (lookupHost headers).map fun _ =>
    fillHost autoHost (backendRequestHeaders headers contentLength)

def plaintextRequest (headers : List Header) :
    Option (List Header) :=
  (lookupHost headers).map fun _ => fillHost autoHost (attemptHeaders headers)

def upgradeRequest (backendHost : List Char) : Option (List Header) :=
  (lookupHost headers).map fun _ => upgradeHeaders headers backendHost

structure HostRequest where
  headers : List Header
  value : List UInt8
  only : hostValues headers = [value]

/-! ### What is left of the host -/

theorem toNat_ofNat_byte (b : UInt8) : (Char.ofNat b.toNat).toNat = b.toNat := by
  have hlt := b.toNat_lt
  have hval : b.toNat.isValidChar := Or.inl (by omega)
  unfold Char.ofNat
  rw [dif_pos hval]
  rfl

theorem asBytes_toStr {value : List UInt8} {text : List Char} (h : toStr value = some text) :
    asBytes text = value := by
  unfold toStr at h
  split at h
  · cases h
    unfold asBytes
    rw [map_map]
    refine map_id'' (fun b => ?_) value
    rw [Function.comp_apply, toNat_ofNat_byte, UInt8.ofNat_toNat]
  · cases h

theorem hostValues_filter (p : List Char → Bool) (headers : List Header) :
    hostValues (headers.filter fun h => p h.name) =
      if p "host".toList then hostValues headers else [] := by
  unfold hostValues getAll
  rw [filter_filter]
  by_cases hp : p "host".toList = true
  · rw [if_pos hp]
    congr 1
    refine filter_congr fun h _ => ?_
    by_cases hna : h.name = "host".toList
    · rw [hna, hp, Bool.and_true]
    · rw [decide_eq_false hna, Bool.false_and]
  · rw [if_neg hp, map_eq_nil_iff, filter_eq_nil_iff]
    intro h _ hbo
    rw [Bool.and_eq_true, decide_eq_true_eq] at hbo
    rw [hbo.1] at hbo
    exact hp hbo.2

theorem hostValues_append (headers headers' : List Header) :
    hostValues (headers ++ headers') = hostValues headers ++ hostValues headers' := by
  unfold hostValues getAll
  rw [filter_append, map_append]

theorem hostValues_nil : hostValues [] = [] := rfl

theorem hostValues_cons_host (value : List UInt8) (headers : List Header) :
    hostValues (hostHeader value :: headers) = value :: hostValues headers := by
  unfold hostValues getAll
  rfl

theorem hostValues_contentLength (length : Nat) : hostValues [contentLengthHeader length] = [] := by
  have hoth : decide ("content-length".toList = "host".toList) = false := by decide +kernel
  unfold hostValues getAll
  rfl

theorem hostValues_fillHost (headers : List Header) :
    hostValues (fillHost autoHost headers) =
      if hostValues headers = [] then autoHost.toList else hostValues headers := by
  fun_cases fillHost autoHost headers with
  | case1 hn =>
    rw [if_pos hn, hostValues_append, hn, nil_append]
    rcases autoHost with _ | value
    · exact hostValues_nil
    · exact hostValues_cons_host value []
  | case2 hn => rw [if_neg hn]

section

variable (r : HostRequest)

def HostRequest.namesHost : Bool :=
  namesHeader (connectionNamed r.headers) "host".toList

theorem forwardsRequestHeader_host (connection : List (List Char)) :
    forwardsRequestHeader "host".toList connection =
      !namesHeader connection "host".toList := by
  have hhop : isHop requestHops "host".toList = false := by decide +kernel
  unfold forwardsRequestHeader
  rw [hhop, Bool.not_false, Bool.true_and]

theorem hostValues_attemptHeaders :
    hostValues (attemptHeaders r.headers) = if r.namesHost then [] else [r.value] := by
  unfold attemptHeaders
  rw [hostValues_filter fun name => forwardsRequestHeader name (connectionNamed r.headers),
    forwardsRequestHeader_host, r.only]
  unfold HostRequest.namesHost
  by_cases hnam : namesHeader (connectionNamed r.headers) "host".toList = true
  · rw [hnam]
    rfl
  rw [Bool.not_eq_true] at hnam
  rw [hnam]
  rfl

theorem hostValues_backendRequestHeaders (contentLength : Option Nat) :
    hostValues (backendRequestHeaders r.headers contentLength) =
      if r.namesHost then [] else [r.value] := by
  have hoth : decide ("host".toList = "content-length".toList) = false := by decide +kernel
  -- The length the proxy declares does not concern the host, so the two filters agree on it.
  have hsame := hostValues_attemptHeaders r
  unfold attemptHeaders at hsame
  rw [hostValues_filter fun name => forwardsRequestHeader name (connectionNamed r.headers)] at hsame
  have hlen : hostValues (contentLength.map contentLengthHeader).toList = [] := by
    rcases contentLength with _ | length
    · exact hostValues_nil
    · exact hostValues_contentLength length
  unfold backendRequestHeaders
  rw [hostValues_append, hlen, append_nil,
    hostValues_filter fun name => forwardsRequestHeader name (connectionNamed r.headers) &&
      !(contentLength.isSome && decide (name = "content-length".toList)),
    hoth, Bool.and_false, Bool.not_false, Bool.and_true]
  exact hsame

theorem hostValues_upgradeHeaders {text : List Char} (backendHost : List Char)
    (ht : toStr r.value = some text) :
    hostValues (upgradeHeaders r.headers backendHost) = [r.value] := by
  have hs : Text.eqIgnoreCase "host".toList "host".toList = true := by decide +kernel
  have ho : ((hostValues r.headers).head?.bind toStr).getD backendHost = text := by
    rw [r.only, List.head?_cons, Option.bind_some, ht, Option.getD_some]
  have hr : hostValues (r.headers.filter fun h => !Text.eqIgnoreCase h.name "host".toList &&
      forwardsUpgradeHeader h.name (connectionNamed r.headers)) = [] := by
    rw [hostValues_filter fun name => !Text.eqIgnoreCase name "host".toList &&
      forwardsUpgradeHeader name (connectionNamed r.headers), hs, Bool.not_true, Bool.false_and]
    rfl
  unfold upgradeHeaders
  rw [ho, hostValues_cons_host, hr, asBytes_toStr ht]

theorem fillHost_eq_iff {autoHost : Option (List UInt8)} {headers : List Header}
    (h : hostValues headers = if r.namesHost then [] else [r.value]) :
    hostValues (fillHost autoHost headers) = [r.value] ↔
      r.namesHost = false ∨ autoHost = some r.value := by
  rw [hostValues_fillHost, h]
  by_cases hnam : r.namesHost = true
  · rcases autoHost with _ | v
    · simp [hnam]
    · simp [hnam]
  · rw [Bool.not_eq_true] at hnam
    simp [hnam]

end

/-- The backend is sent exactly the host that was looked up, on the tunnel path and the plaintext
    path, unless the request's `Connection` header names the host and the HTTP client does not
    fill in the same one; and on the upgrade path whatever that header names. A request whose
    host cannot be read is sent nowhere. -/
theorem host_served_iff (autoHost : Option (List UInt8)) (r : HostRequest)
    (contentLength : Option Nat) (backendHost : List Char) :
    ((∀ sent ∈ tunnelRequest autoHost r.headers contentLength, hostValues sent = [r.value]) ↔
        r.namesHost = false ∨ autoHost = some r.value ∨ toStr r.value = none) ∧
      ((∀ sent ∈ plaintextRequest autoHost r.headers, hostValues sent = [r.value]) ↔
        r.namesHost = false ∨ autoHost = some r.value ∨ toStr r.value = none) ∧
      ∀ sent ∈ upgradeRequest r.headers backendHost, hostValues sent = [r.value] := by
  have hlk : lookupHost r.headers = (toStr r.value).map hostAndPort := by
    unfold lookupHost
    rw [r.only, List.head?_cons, Option.bind_some]
  unfold tunnelRequest plaintextRequest upgradeRequest
  rw [hlk]
  rcases hte : toStr r.value with _ | text
  · simp
  simp only [Option.map_some, Option.mem_some_iff, forall_eq', reduceCtorEq, or_false]
  exact ⟨fillHost_eq_iff r (hostValues_backendRequestHeaders r contentLength),
    fillHost_eq_iff r (hostValues_attemptHeaders r), hostValues_upgradeHeaders r backendHost hte⟩

def namesItsHost : HostRequest :=
  { headers :=
      [hostHeader (asBytes "app.example.com".toList),
        { name := "connection".toList, value := asBytes "Host".toList, lower := by decide +kernel }]
    value := asBytes "app.example.com".toList
    only := by decide +kernel }

/-- It is looked up as the host it names, and the backend is sent its own address. -/
theorem connection_takes_host :
    lookupHost namesItsHost.headers = some ("app.example.com".toList, none) ∧
      (tunnelRequest (some (asBytes "10.0.0.5:8080".toList)) namesItsHost.headers none).map
        hostValues = some [asBytes "10.0.0.5:8080".toList] ∧
      (plaintextRequest none namesItsHost.headers).map hostValues = some [] := by
  decide +kernel

end Nexapipe
