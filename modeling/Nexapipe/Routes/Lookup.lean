import Nexapipe.Auth.Config
import Nexapipe.Lb.Pool
import Nexapipe.Lib.Best
import Nexapipe.Routes.Address

/-!
# Looking up a backend

Three kinds of traffic ask the routing table for a backend: a request by host and
path, a TLS session by the name its handshake carries, and a tunnelled flow by the
host and port of its preface. Each of them walks the routes of its own mode, keeps
the one of the highest priority, and asks that route's pool for a backend.

The access list of the client is asked twice. The host, and the port if the client
named one, are held against it before any route is looked at. The port the backend
is reached on is held against it after the pool has made its choice, since that is
when it is known; a lease refused there is dropped again.
-/

namespace Nexapipe

/-! ### What a route serves -/

/-- The part of a path that a pattern does not cover, if it covers any of it. The
    pattern covers a path that is the pattern or goes on with a slash, and that
    slash stays in the suffix. -/
def pathSuffix (pattern path : List Char) : Option (List Char) :=
  let pattern := pattern.rdropWhile (· = '/')
  if path = pattern then some []
  else
    (path.dropPrefix? pattern).bind fun rest =>
      (Host.stripChar '/' rest).map fun _ => rest

namespace Route

def servesHost (r : Route) (host : List Char) : Bool :=
  Host.hostMatches r.hostPattern.toList host

def servesL4 (r : Route) (host : List Char) (port : UInt16) : Bool :=
  r.servesHost host &&
    match r.l4.clientPorts with
    | some allowed => allowed.contains port
    | none => true

def servesRequest (r : Route) (host path : List Char) : Bool :=
  r.servesHost host &&
    if r.pathIsPrefix then (pathSuffix r.pathPattern.toList path).isSome
    else path = r.pathPattern.toList

def serves (r : Route) (mode : RouteMode) : Bool :=
  r.modes.contains mode

def hostTier (r : Route) : Nat :=
  if r.hostPattern = "*" then 0
  else
    match r.hostPattern.toList with
    | '*' :: _ => 1
    | _ => 2

/-- What the path adds to the priority. The length of the pattern is cut to 32 bits
    before it is capped, as the source cuts it. -/
def pathRank (r : Route) : Nat :=
  (if r.pathIsPrefix then 0 else 1) * 100 +
    min (r.pathPattern.utf8ByteSize % 4294967296) 99

def priority (r : Route) : Nat :=
  r.hostTier * 10000 + (if r.l4.clientPorts.isSome then 1 else 0) * 1000 + r.pathRank

end Route

/-- The route of the highest priority among those of a mode that a lookup accepts,
    and its place in the table. Of equals the first one declared wins. -/
def bestMatch (routes : List Route) (mode : RouteMode) (accepts : Route → Bool) :
    Option (Route × Nat) :=
  Best.best Route.priority (fun r => r.serves mode && accepts r) routes

def IsMatch (routes : List Route) (mode : RouteMode) (accepts : Route → Bool) (i : Nat)
    (r : Route) : Prop :=
  Best.IsBest Route.priority (fun r => r.serves mode && accepts r) routes i r

/-- The routes a request for this host and path is served by. The host is folded once
    for the whole walk. -/
def acceptsRequest (host path : List Char) : Route → Bool :=
  let folded := Host.normalizeHost host
  fun r => r.servesRequest folded path

def acceptsSession (sni : List Char) : Route → Bool :=
  let folded := Host.normalizeHost sni
  fun r => r.servesHost folded

def acceptsFlow (host : List Char) (port : UInt16) : Route → Bool :=
  let folded := Host.normalizeHost host
  fun r => r.servesL4 folded port

/-! ### Lookups -/

structure BackendLease where
  pool : Nat
  entry : Nat
  url : String

structure RoutingTable where
  routes : List Route
  pools : Nat → PoolState

namespace RoutingTable

def setPool (t : RoutingTable) (pool : Nat) (st : PoolState) : RoutingTable :=
  { t with pools := Function.update t.pools pool st }

def selectFrom (t : RoutingTable) (draw : Draw) (exclude : List String) (r : Route) :
    Option (BackendLease × RoutingTable) :=
  (r.backendPool.selectBackendExcluding (t.pools r.backendPool.id) draw exclude).map fun picked =>
    ({ pool := r.backendPool.id
       entry := picked.1
       url := r.backendPool.backends.getD picked.1 "" }, t.setPool r.backendPool.id picked.2)

def dropLease (t : RoutingTable) (lease : BackendLease) : RoutingTable :=
  t.setPool lease.pool ((t.pools lease.pool).release lease.entry)

end RoutingTable

/-- What looking up a backend can come back with. Nothing serves the name, or it is
    served and nothing behind it is up, or there is a backend. -/
inductive BackendLookup (α : Type) where
  | noRoute
  | unavailable
  | found (value : α)

def BackendLookup.status {α : Type} : BackendLookup α → Option Nat
  | noRoute => some 404
  | unavailable => some 503
  | found _ => none

structure BackendInfo where
  url : String
  origin : Except String Origin
  protocol : BackendProtocol
  pathRewrite : Option String
  pathPattern : String
  pathIsPrefix : Bool
  lease : BackendLease

structure L4RouteInfo where
  backend : String
  idleTimeout : Option Nat
  flowTimeout : Option Nat
  lease : BackendLease

def refusesPort (check : ClientAcl → UInt16 → Bool) (acl : Option ClientAcl)
    (port : Option UInt16) : Bool :=
  match acl, port with
  | some acl, some port => !check acl port
  | _, _ => false

def refusesHost (acl : Option ClientAcl) (host : List Char) : Bool :=
  match acl with
  | some acl => !acl.allows host
  | none => false

def refusesTarget (acl : Option ClientAcl) (host : List Char) (port : UInt16) : Bool :=
  match acl with
  | some acl => !acl.allowsTarget host port
  | none => false

section

variable (parseUrl : UrlParser) (t : RoutingTable) (draw : Draw)

def backendInfo (r : Route) (lease : BackendLease) : BackendInfo :=
  { url := lease.url
    origin := originOf parseUrl lease.url
    protocol := r.backendProtocol
    pathRewrite := r.pathRewrite
    pathPattern := r.pathPattern
    pathIsPrefix := r.pathIsPrefix
    lease := lease }

/-- The backend for a request, under a client's authorization and preferring one that
    is not on the list. `port` is the port the client named, if it named one. -/
def getBackendWithAclExcluding (host path : List Char) (port : Option UInt16)
    (acl : Option ClientAcl) (exclude : List String) : BackendLookup BackendInfo × RoutingTable :=
  if refusesHost acl host then (.noRoute, t)
  else if refusesPort ClientAcl.allowsPort acl port then (.noRoute, t)
  else
    match bestMatch t.routes .http (acceptsRequest host path) with
    | none => (.noRoute, t)
    | some (r, _) =>
      match t.selectFrom draw exclude r with
      | none => (.unavailable, t)
      | some (lease, t') =>
        -- The port the request is served from, which is not the one the client named.
        if refusesPort ClientAcl.allowsBackendPort acl (backendPort parseUrl lease.url) then
          (.noRoute, t'.dropLease lease)
        else (.found (backendInfo parseUrl r lease), t')

def getPassthroughBackend (sni : List Char) : BackendLookup BackendLease × RoutingTable :=
  match bestMatch t.routes .passthrough (acceptsSession sni) with
  | none => (.noRoute, t)
  | some (r, _) =>
    match t.selectFrom draw [] r with
    | none => (.unavailable, t)
    | some (lease, t') => (.found lease, t')

def resolveBackend (sni : Option (List Char)) (acl : Option ClientAcl) :
    Option (String × UInt16 × BackendLease) × RoutingTable :=
  match sni with
  | none => (none, t)
  | some sni =>
    if refusesHost acl sni then (none, t)
    else
      match getPassthroughBackend t draw sni with
      | (.found lease, t') =>
        if refusesPort ClientAcl.allowsBackendPort acl (backendPort parseUrl lease.url) then
          (none, t'.dropLease lease)
        else
          match parseBackendAddr parseUrl lease.url with
          | none => (none, t'.dropLease lease)
          | some (host, port) => (some (host, port, lease), t')
      | (_, t') => (none, t')

def getL4Backend (host : List Char) (port : UInt16) (mode : RouteMode) :
    BackendLookup L4RouteInfo × RoutingTable :=
  match bestMatch t.routes mode (acceptsFlow host port) with
  | none => (.noRoute, t)
  | some (r, _) =>
    match t.selectFrom draw [] r with
    | none => (.unavailable, t)
    | some (lease, t') =>
      (.found
        { backend := lease.url
          idleTimeout := r.l4.idleTimeout
          flowTimeout := r.l4.flowTimeout
          lease := lease }, t')

inductive L4Proto where
  | tcp
  | udp
deriving DecidableEq

def RouteMode.fromL4Proto : L4Proto → RouteMode
  | .tcp => .tcp
  | .udp => .udp

inductive Status where
  | noRoute
  | backendFailed
  | tooManyFlows

/-- The first half of serving a flow: its backend, or the status it is refused with.
    `admitted` is what the limit on flows of one connection answers. -/
def serveStream (proto : L4Proto) (host : List Char) (port : UInt16) (acl : Option ClientAcl)
    (admitted : Bool) : (Status ⊕ L4RouteInfo) × RoutingTable :=
  if refusesTarget acl host port then (.inl .noRoute, t)
  else
    match getL4Backend t draw host port (.fromL4Proto proto) with
    | (.noRoute, t') => (.inl .noRoute, t')
    | (.unavailable, t') => (.inl .backendFailed, t')
    | (.found route, t') =>
      if admitted then (.inr route, t') else (.inl .tooManyFlows, t'.dropLease route.lease)

end

/-! ### What a lookup finds -/

section

variable {routes : List Route} {mode : RouteMode} {accepts : Route → Bool} {r : Route} {i : Nat}

theorem bestMatch_eq_some_iff :
    bestMatch routes mode accepts = some (r, i) ↔ IsMatch routes mode accepts i r :=
  Best.best_eq_some_iff

theorem bestMatch_eq_none_iff :
    bestMatch routes mode accepts = none ↔
      ∀ r ∈ routes, r.serves mode = true → accepts r = false := by
  unfold bestMatch
  rw [Best.best_eq_none_iff]
  simp

theorem IsMatch.mem (h : IsMatch routes mode accepts i r) : r ∈ routes :=
  List.mem_of_getElem? h.1

theorem IsMatch.serves (h : IsMatch routes mode accepts i r) : r.serves mode = true :=
  (Bool.and_eq_true_iff.mp h.2.1).1

theorem IsMatch.accepted (h : IsMatch routes mode accepts i r) : accepts r = true :=
  (Bool.and_eq_true_iff.mp h.2.1).2

variable {host : List Char}

theorem Route.servesHost_of_servesRequest {path : List Char}
    (h : r.servesRequest host path = true) :
    r.servesHost host = true :=
  (Bool.and_eq_true_iff.mp h).1

theorem Route.servesHost_of_servesL4 {port : UInt16} (h : r.servesL4 host port = true) :
    r.servesHost host = true :=
  (Bool.and_eq_true_iff.mp h).1

end

section

variable {parseUrl : UrlParser} {t t' : RoutingTable} {draw : Draw} {acl : Option ClientAcl}
  {exclude : List String} {host : List Char} {r : Route} {lease : BackendLease}

theorem refusesHost_eq_false : refusesHost acl host = false ↔ ∀ a ∈ acl, a.allows host = true := by
  rcases acl with _ | a
  · simp [refusesHost]
  · simp [refusesHost]

variable {port : Option UInt16} {path : List Char} {info : L4RouteInfo}

theorem refusesPort_eq_false {check : ClientAcl → UInt16 → Bool} :
    refusesPort check acl port = false ↔ ∀ a ∈ acl, ∀ p ∈ port, check a p = true := by
  rcases acl with _ | a
  · simp [refusesPort]
  rcases port with _ | p
  · simp [refusesPort]
  · simp [refusesPort]

namespace RoutingTable

theorem selectFrom_eq_some_iff :
    t.selectFrom draw exclude r = some (lease, t') ↔
      ∃ i st, r.backendPool.selectBackendExcluding (t.pools r.backendPool.id) draw exclude =
          some (i, st) ∧
        lease = { pool := r.backendPool.id, entry := i, url := r.backendPool.backends.getD i "" } ∧
        t' = t.setPool r.backendPool.id st := by
  unfold selectFrom
  rw [Option.map_eq_some_iff]
  simp only [Prod.exists, Prod.mk.injEq, eq_comm]

theorem selectFrom_eq_none_iff :
    t.selectFrom draw exclude r = none ↔
      r.backendPool.Dark (t.pools r.backendPool.id) draw.now := by
  rw [← BackendPool.selectBackendExcluding_eq_none_iff]
  unfold selectFrom
  rw [Option.map_eq_none_iff]

theorem url_mem_of_selectFrom (h : t.selectFrom draw exclude r = some (lease, t')) :
    lease.url ∈ r.backendPool.backends := by
  rcases selectFrom_eq_some_iff.mp h with ⟨i, st, hselect, rfl, -⟩
  have hlt := (BackendPool.selectBackendExcluding_cases hselect).1
  rw [List.getD_eq_getElem?_getD, List.getElem?_eq_getElem hlt, Option.getD_some]
  exact List.getElem_mem hlt

end RoutingTable

theorem getBackendWithAclExcluding_found {info : BackendInfo}
    (h : getBackendWithAclExcluding parseUrl t draw host path port acl exclude =
      (.found info, t')) :
    refusesHost acl host = false ∧ refusesPort ClientAcl.allowsPort acl port = false ∧
      ∃ r i lease, IsMatch t.routes .http (acceptsRequest host path) i r ∧
        t.selectFrom draw exclude r = some (lease, t') ∧
        refusesPort ClientAcl.allowsBackendPort acl (backendPort parseUrl lease.url) = false ∧
        info = backendInfo parseUrl r lease := by
  revert h
  fun_cases getBackendWithAclExcluding parseUrl t draw host path port acl exclude with
  | case6 hh hp r i hmat lease _ hselect hbac =>
    rintro ⟨⟩
    exact ⟨by simpa using hh, by simpa using hp, r, i, lease,
      bestMatch_eq_some_iff.mp hmat, hselect, by simpa using hbac, rfl⟩
  | _ => rintro ⟨⟩

theorem getPassthroughBackend_found {sni : List Char}
    (h : getPassthroughBackend t draw sni = (.found lease, t')) :
    ∃ r i, IsMatch t.routes .passthrough (acceptsSession sni) i r ∧
      t.selectFrom draw [] r = some (lease, t') := by
  revert h
  fun_cases getPassthroughBackend t draw sni with
  | case3 r i hmat _ _ hselect =>
    rintro ⟨⟩
    exact ⟨r, i, bestMatch_eq_some_iff.mp hmat, hselect⟩
  | _ => rintro ⟨⟩

variable {port : UInt16}

theorem resolveBackend_some {sni : Option (List Char)} {addr : String}
    (h : resolveBackend parseUrl t draw sni acl = (some (addr, port, lease), t')) :
    ∃ name, sni = some name ∧ refusesHost acl name = false ∧
      (∃ r i, IsMatch t.routes .passthrough (acceptsSession name) i r ∧
        t.selectFrom draw [] r = some (lease, t')) ∧
      refusesPort ClientAcl.allowsBackendPort acl (backendPort parseUrl lease.url) = false ∧
      parseBackendAddr parseUrl lease.url = some (addr, port) := by
  revert h
  fun_cases resolveBackend parseUrl t draw sni acl with
  | case5 name hh _ _ hfound hbac _ _ ha =>
    rintro ⟨⟩
    exact ⟨name, rfl, by simpa using hh, getPassthroughBackend_found hfound,
      by simpa using hbac, ha⟩
  | _ => rintro ⟨⟩

theorem getL4Backend_found {mode : RouteMode}
    (h : getL4Backend t draw host port mode = (.found info, t')) :
    ∃ r i, IsMatch t.routes mode (acceptsFlow host port) i r ∧
      t.selectFrom draw [] r = some (info.lease, t') ∧ info.backend = info.lease.url := by
  revert h
  fun_cases getL4Backend t draw host port mode with
  | case3 r i hmat _ _ hselect =>
    rintro ⟨⟩
    exact ⟨r, i, bestMatch_eq_some_iff.mp hmat, hselect, rfl⟩
  | _ => rintro ⟨⟩

theorem serveStream_dial {proto : L4Proto} {admitted : Bool}
    (h : serveStream t draw proto host port acl admitted = (.inr info, t')) :
    (∀ a ∈ acl, a.allowsTarget host port = true) ∧
      ∃ r i, IsMatch t.routes (.fromL4Proto proto)
          (acceptsFlow host port) i r ∧
        t.selectFrom draw [] r = some (info.lease, t') ∧ info.backend = info.lease.url := by
  revert h
  fun_cases serveStream t draw proto host port acl admitted with
  | case4 htar _ _ hfound =>
    rintro ⟨⟩
    refine ⟨?_, getL4Backend_found hfound⟩
    intro a ha
    cases ha
    simpa [refusesTarget] using htar
  | _ => rintro ⟨⟩

end

end Nexapipe
