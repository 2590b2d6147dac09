import Nexapipe.Routes.Lookup

/-!
# What an access list lets through

A client with an access list asks for backends in three ways, and `grant` is what it
gets of any of them: an address out of the table, and the host and port that address
is dialled on. `Authorized` is what the list is meant to guarantee of it.

For sessions and flows it does. For requests it does as far as the two readings of an address
agree: the check of a strict list reads the port of a backend with one parser, and the request is
dialled by the reading of the other.

The same check decides whether a refusal gives anything away. A client that may not
reach the port of a backend is told that nothing serves the name, but it is told so
after the pool was asked. When the pool has nothing to hand out the answer is that
the backends are down, and a client learns of a route it has no access to
(`denied_lookup_iff`).
-/

namespace Nexapipe

open Option RoutingTable

/-! ### Grants -/

inductive Ask where
  | request (host path : List Char) (port : Option UInt16) (exclude : List String)
  | session (sni : Option (List Char))
  | flow (proto : L4Proto) (host : List Char) (port : UInt16) (admitted : Bool)

structure Grant where
  address : String
  dialled : Option (String × UInt16)
deriving DecidableEq

namespace Ask

def mode : Ask → RouteMode
  | request .. => .http
  | session _ => .passthrough
  | flow proto .. => .fromL4Proto proto

def host : Ask → Option (List Char)
  | request host .. => some host
  | session sni => sni
  | flow _ host .. => some host

def port : Ask → Option UInt16
  | request _ _ port _ => port
  | session _ => none
  | flow _ _ port _ => some port

end Ask

section

variable (parseUrl : UrlParser)

def dialTarget (mode : RouteMode) (address : String) : Option (String × UInt16) :=
  match mode with
  | .http =>
    match originOf parseUrl address with
    | .ok origin => some (origin.host, origin.port)
    | .error _ => none
  | .passthrough => parseBackendAddr parseUrl address
  | .tcp | .udp => parseTunnelAddr parseUrl address

def grant (t : RoutingTable) (draw : Draw) (acl : Option ClientAcl) : Ask → Option Grant
  | .request host path port exclude =>
    match (getBackendWithAclExcluding parseUrl t draw host path port acl exclude).1 with
    | .found info =>
      some
        { address := info.url
          dialled := match info.origin with
            | .ok origin => some (origin.host, origin.port)
            | .error _ => none }
    | _ => none
  | .session sni =>
    match (resolveBackend parseUrl t draw sni acl).1 with
    | some (host, port, lease) => some { address := lease.url, dialled := some (host, port) }
    | none => none
  | .flow proto host port admitted =>
    match (serveStream t draw proto host port acl admitted).1 with
    | .inr info =>
      some { address := info.backend, dialled := parseTunnelAddr parseUrl info.backend }
    | .inl _ => none

structure Authorized (routes : List Route) (acl : ClientAcl) (ask : Ask) (g : Grant) : Prop where
  host : ∀ host ∈ ask.host, acl.allows host = true
  port : ∀ port ∈ ask.port, acl.allowsPort port = true
  /-- The port of the backend, for requests and sessions under a strict list. -/
  dialled : ask.mode = .http ∨ ask.mode = .passthrough → acl.strictPorts = true →
    ∀ target ∈ g.dialled, acl.allowsPort target.2 = true
  /-- The address is one a route of the mode lists, for a host the route is for. -/
  listed : ∃ host ∈ ask.host, ∃ r ∈ routes, r.serves ask.mode = true ∧
    r.servesHost (Host.normalizeHost host) = true ∧ g.address ∈ r.backendPool.backends
  /-- Nothing but that address says what is dialled. -/
  target : g.dialled = dialTarget parseUrl ask.mode g.address

/-- The backend a request is given is dialled on the port that was checked, or on one that the
    client named itself or may use all the same. Without a strict list nothing is asked of it. -/
def CheckedAsDialled (acl : ClientAcl) (address : String) : Ask → Prop
  | .request _ _ port _ => acl.strictPorts = true → ∀ d, dialledPort parseUrl address = some d →
      backendPort parseUrl address = some d ∨ port = some d ∨ acl.allowsPort d = true
  | .session _ | .flow .. => True

end

/-! ### Grants are authorized -/

section

variable {parseUrl : UrlParser} {t : RoutingTable} {draw : Draw} {acl : ClientAcl} {g : Grant}

open ClientAcl

theorem ClientAcl.allowsPort_of_allowsBackendPort {port : UInt16}
    (h : acl.allowsBackendPort port = true) (hstr : acl.strictPorts = true) :
    acl.allowsPort port = true := by
  simpa [allowsBackendPort, hstr] using h

theorem dialTarget_http (address : String) :
    (dialTarget parseUrl .http address).map Prod.snd = dialledPort parseUrl address := by
  simp only [dialTarget, dialledPort]
  cases originOf parseUrl address <;> rfl

variable {exclude : List String} {host path : List Char} {port : Option UInt16}
  {routes : List Route}

theorem grant_request
    (h : grant parseUrl t draw (some acl) (.request host path port exclude) = some g) :
    acl.allows host = true ∧ (∀ p ∈ port, acl.allowsPort p = true) ∧
      ∃ r i, IsMatch t.routes .http (acceptsRequest host path) i r ∧
        g.address ∈ r.backendPool.backends ∧
        (∀ p ∈ backendPort parseUrl g.address, acl.allowsBackendPort p = true) ∧
        g.dialled = dialTarget parseUrl .http g.address := by
  simp only [grant] at h
  cases hlk : getBackendWithAclExcluding parseUrl t draw host path port (some acl) exclude with
  | mk answer t' =>
    rw [hlk] at h
    cases answer with
    | noRoute | unavailable => cases h
    | found info =>
      rcases getBackendWithAclExcluding_found hlk with
        ⟨hho, hpo, r, i, lease, hmat, hselect, hbac, rfl⟩
      cases h
      rw [refusesHost_eq_false] at hho
      rw [refusesPort_eq_false] at hpo hbac
      exact ⟨hho acl rfl, hpo acl rfl, r, i, hmat,
        url_mem_of_selectFrom hselect, hbac acl rfl, rfl⟩

theorem authorized_session {sni : Option (List Char)}
    (h : grant parseUrl t draw (some acl) (.session sni) = some g) :
    Authorized parseUrl t.routes acl (.session sni) g := by
  simp only [grant] at h
  cases hlk : resolveBackend parseUrl t draw sni (some acl) with
  | mk answer t' =>
    rw [hlk] at h
    rcases answer with _ | found
    · cases h
    rcases found with ⟨addr, port, lease⟩
    rcases resolveBackend_some hlk with
      ⟨name, rfl, hho, ⟨r, i, hmat, hselect⟩, hbac, had⟩
    cases h
    rw [refusesHost_eq_false] at hho
    rw [refusesPort_eq_false] at hbac
    -- The check and the dial read the address with one parser.
    have hpo : backendPort parseUrl lease.url = some port := by
      unfold backendPort
      rw [had, map_some]
    refine ⟨?_, fun _ hp => absurd hp (not_mem_none _), ?_, ?_, had.symm⟩
    · intro host hna
      cases hna
      exact hho acl rfl
    · intro _ hstr target htar
      cases htar
      exact allowsPort_of_allowsBackendPort (hbac acl rfl port hpo) hstr
    · exact ⟨name, rfl, r, hmat.mem, hmat.serves, hmat.accepted,
        url_mem_of_selectFrom hselect⟩

theorem authorized_flow {proto : L4Proto} {port : UInt16} {admitted : Bool}
    (h : grant parseUrl t draw (some acl) (.flow proto host port admitted) = some g) :
    Authorized parseUrl t.routes acl (.flow proto host port admitted) g := by
  simp only [grant] at h
  cases hlk : serveStream t draw proto host port (some acl) admitted with
  | mk answer t' =>
    rw [hlk] at h
    rcases answer with status | info
    · cases h
    rcases serveStream_dial hlk with ⟨htar, r, i, hmat, hselect, hbac⟩
    cases h
    have hall := Bool.and_eq_true_iff.mp (htar acl rfl)
    refine ⟨?_, ?_, ?_, ?_, ?_⟩
    · intro name hna
      cases hna
      exact hall.1
    · intro p hp
      cases hp
      exact hall.2
    · intro hmo
      cases proto <;> simp [Ask.mode, RouteMode.fromL4Proto] at hmo
    · rw [hbac]
      exact ⟨host, rfl, r, hmat.mem, hmat.serves,
        Route.servesHost_of_servesL4 hmat.accepted,
        url_mem_of_selectFrom hselect⟩
    · cases proto <;> rfl

theorem authorized_request_iff
    (h : grant parseUrl t draw (some acl) (.request host path port exclude) = some g) :
    Authorized parseUrl t.routes acl (.request host path port exclude) g ↔
      CheckedAsDialled parseUrl acl g.address (.request host path port exclude) := by
  rcases grant_request h with ⟨hho, hpo, r, i, hmat, hli, hbac, htar⟩
  constructor
  · intro hauth hstr d hd
    rw [← dialTarget_http, ← htar, map_eq_some_iff] at hd
    obtain ⟨target, htarget, rfl⟩ := hd
    exact .inr (.inr (hauth.dialled (.inl rfl) hstr target htarget))
  intro hch
  refine ⟨?_, hpo, ?_, ?_, htar⟩
  · intro name hna
    cases hna
    exact hho
  · intro _ hstr target hdi
    have hd : dialledPort parseUrl g.address = some target.2 := by
      rw [← dialTarget_http, ← htar, mem_def.mp hdi, map_some]
    rcases hch hstr target.2 hd with hread | hnam | hall
    · exact allowsPort_of_allowsBackendPort (hbac _ hread) hstr
    · exact hpo _ hnam
    · exact hall
  · exact ⟨host, rfl, r, hmat.mem, hmat.serves,
      Route.servesHost_of_servesRequest hmat.accepted, hli⟩

/-- What a lookup gives out is what the access list allows exactly when the port of the backend
    given out was checked as it is dialled. -/
theorem lookups_authorized_iff (parseUrl : UrlParser) (t : RoutingTable) (draw : Draw)
    (acl : ClientAcl) (ask : Ask) :
    (∀ g, grant parseUrl t draw (some acl) ask = some g →
        Authorized parseUrl t.routes acl ask g) ↔
      ∀ g, grant parseUrl t draw (some acl) ask = some g →
        CheckedAsDialled parseUrl acl g.address ask := by
  refine forall_congr' fun g => forall_congr' fun h => ?_
  cases ask with
  | session sni => exact iff_of_true (authorized_session h) trivial
  | flow proto host port admitted => exact iff_of_true (authorized_flow h) trivial
  | request host path port exclude => exact authorized_request_iff h

def allUp (up : Bool) : PoolState :=
  { entry := fun _ => { BackendState.new none with healthy := up }, roundRobinIndex := 0 }

def appRoute (backends : List String) : Route :=
  { Route.simple "app.example.com" true 0 with
    backendPool := { id := 0, strategy := .roundRobin, backends := backends } }

def only8080 : ClientAcl :=
  { hosts := none, ports := some [8080], strictPorts := true }

/-- An address that leaves out a slash. One parser reads port 80, the other reads none,
    and the client is let through to a port its list does not have. -/
theorem unread_port_granted :
    ∃ g, grant plainUrl { routes := [appRoute ["http:/app"]], pools := fun _ => allUp true }
        { now := 0, random := 0 } (some only8080)
        (.request "app.example.com".toList "/".toList none []) = some g ∧
      g = { address := "http:/app", dialled := some ("app", 80) } ∧
      ¬Authorized plainUrl [appRoute ["http:/app"]] only8080
        (.request "app.example.com".toList "/".toList none []) g := by
  refine ⟨{ address := "http:/app", dialled := some ("app", 80) }, by decide +kernel, rfl, ?_⟩
  intro hauth
  have hall := hauth.dialled (.inl rfl) rfl ("app", 80) rfl
  exact absurd hall (by decide)

end

/-! ### Refusals -/

section

variable (parseUrl : UrlParser) (acl : ClientAcl) (host path : List Char) (port : Option UInt16)

def Denied : Prop :=
  acl.allows host = false ∨ ∃ p ∈ port, acl.allowsPort p = false

def Hidden (routes : List Route) : Prop :=
  ∀ r ∈ routes, r.serves .http = true →
    acceptsRequest host path r = true → ∀ url ∈ r.backendPool.backends,
      ∃ p, backendPort parseUrl url = some p ∧ acl.allowsBackendPort p = false

def Outage (t : RoutingTable) (now : Nat) : Prop :=
  ∃ i r, IsMatch t.routes .http (acceptsRequest host path) i r ∧
    r.backendPool.Dark (t.pools r.backendPool.id) now

def answer (t : RoutingTable) (draw : Draw) (exclude : List String) : BackendLookup BackendInfo :=
  (getBackendWithAclExcluding parseUrl t draw host path port (some acl) exclude).1

end

section

variable {parseUrl : UrlParser} {acl : ClientAcl} {host path : List Char} {port : Option UInt16}
  {t : RoutingTable} {draw : Draw} {exclude : List String}

theorem denied_iff :
    Denied acl host port ↔ refusesHost (some acl) host = true ∨
      refusesPort ClientAcl.allowsPort (some acl) port = true := by
  unfold Denied
  rcases port with _ | p
  · simp [refusesHost, refusesPort]
  · simp [refusesHost, refusesPort]

theorem answer_of_denied (h : Denied acl host port) :
    answer parseUrl acl host path port t draw exclude = .noRoute := by
  unfold answer getBackendWithAclExcluding
  rcases denied_iff.mp h with hh | hp
  · rw [if_pos hh]
  · rw [if_pos hp]
    split <;> rfl

theorem answer_of_hidden (draw : Draw) (exclude : List String) (hden : ¬Denied acl host port)
    (hhid : Hidden parseUrl acl host path t.routes) :
    (Outage host path t draw.now →
        answer parseUrl acl host path port t draw exclude = .unavailable) ∧
      (¬Outage host path t draw.now →
        answer parseUrl acl host path port t draw exclude = .noRoute) := by
  rw [denied_iff, not_or, Bool.not_eq_true, Bool.not_eq_true] at hden
  unfold answer getBackendWithAclExcluding
  simp only [hden.1, hden.2, Bool.false_eq_true, if_false]
  rcases hbe : bestMatch t.routes .http (acceptsRequest host path) with _ | found
  · refine ⟨?_, fun _ => rfl⟩
    rintro ⟨i, r, hmat, -⟩
    rw [bestMatch_eq_some_iff.mpr hmat] at hbe
    cases hbe
  · rcases found with ⟨r, i⟩
    have hmat := bestMatch_eq_some_iff.mp hbe
    rcases hselect : t.selectFrom draw exclude r with _ | leased
    · have hda := selectFrom_eq_none_iff.mp hselect
      exact ⟨fun _ => by simp [hselect], fun hno => absurd ⟨i, r, hmat, hda⟩ hno⟩
    rcases leased with ⟨lease, t'⟩
    obtain ⟨p, hp, hfor⟩ := hhid r hmat.mem hmat.serves hmat.accepted
      lease.url (url_mem_of_selectFrom hselect)
    refine ⟨?_, fun _ => by simp [hselect, hp, refusesPort, hfor]⟩
    -- The route of an outage is the one matched, and its pool gave a lease.
    rintro ⟨j, s, hmat', hda⟩
    rcases hmat.unique hmat' with ⟨-, rfl⟩
    rw [selectFrom_eq_none_iff.mpr hda] at hselect
    cases hselect

/-- Two tables that hide everything from a client answer it alike exactly when both or
    neither of them has an outage to report, unless the list denies the request itself. -/
theorem denied_lookup_iff (parseUrl : UrlParser) (acl : ClientAcl) (host path : List Char)
    (port : Option UInt16) (exclude : List String) (t t' : RoutingTable) (draw draw' : Draw) :
    (Denied acl host port ∨
        Hidden parseUrl acl host path t.routes ∧ Hidden parseUrl acl host path t'.routes →
      answer parseUrl acl host path port t draw exclude =
        answer parseUrl acl host path port t' draw' exclude) ↔
      (¬Denied acl host port → Hidden parseUrl acl host path t.routes →
        Hidden parseUrl acl host path t'.routes →
        (Outage host path t draw.now ↔ Outage host path t' draw'.now)) := by
  constructor
  · intro hsame hde hhid hhid'
    have heq := hsame (.inr ⟨hhid, hhid'⟩)
    have hans := answer_of_hidden draw exclude hde hhid
    have hans' := answer_of_hidden draw' exclude hde hhid'
    by_cases hout : Outage host path t draw.now
    · by_cases hout' : Outage host path t' draw'.now
      · exact ⟨fun _ => hout', fun _ => hout⟩
      · simp [hans.1 hout, hans'.2 hout'] at heq
    by_cases hout' : Outage host path t' draw'.now
    · simp [hans.2 hout, hans'.1 hout'] at heq
    · exact ⟨fun h => absurd h hout, fun h => absurd h hout'⟩
  · intro hout hany
    by_cases hde : Denied acl host port
    · rw [answer_of_denied hde, answer_of_denied hde]
    rcases hany with hden | ⟨hhid, hhid'⟩
    · exact absurd hden hde
    have hiff := hout hde hhid hhid'
    by_cases h : Outage host path t draw.now
    · rw [(answer_of_hidden _ _ hde hhid).1 h,
        (answer_of_hidden _ _ hde hhid').1 (hiff.mp h)]
    · rw [(answer_of_hidden _ _ hde hhid).2 h,
        (answer_of_hidden _ _ hde hhid').2 fun h' => h (hiff.mpr h')]

/-- The backends of the one route there is are on a port the client may not use, and
    they are down. The client is told so, where an empty table tells it of no route. -/
theorem outage_disclosed :
    let down : RoutingTable :=
      { routes := [appRoute ["http://app:9090", "http://app:9091"]], pools := fun _ => allUp false }
    let empty : RoutingTable := { routes := [], pools := fun _ => allUp true }
    Hidden plainUrl only8080 "app.example.com".toList "/".toList down.routes ∧
      Hidden plainUrl only8080 "app.example.com".toList "/".toList empty.routes ∧
      answer plainUrl only8080 "app.example.com".toList "/".toList none down
          { now := 0, random := 0 } [] ≠
        answer plainUrl only8080 "app.example.com".toList "/".toList none empty
          { now := 0, random := 0 } [] := by
  refine ⟨?_, ?_, ?_⟩
  · intro r hr _ _ url hurl
    rw [List.mem_singleton.mp hr] at hurl
    rcases List.mem_pair.mp hurl with rfl | rfl
    · exact ⟨9090, by decide +kernel, by decide⟩
    · exact ⟨9091, by decide +kernel, by decide⟩
  · intro r hr
    exact absurd hr List.not_mem_nil
  · intro hsame
    have hst := congrArg BackendLookup.status hsame
    exact absurd hst (by decide +kernel)

end

end Nexapipe
