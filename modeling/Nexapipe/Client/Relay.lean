import Nexapipe.Lib.Text

/-!
# The one relay of an operator

A client that is given a relay of its operator's uses that relay and no other, and does not dial a
peer that names another. One relay has many spellings: the scheme it is written with is not the one
it is dialled with, its host may end in a dot, and the parser erases a port that is the scheme's
own. `target` is where a relay is dialled.

Every relay of a peer that is accepted has the target of the client's own, so n0 runs none of them.
A peer with that target is accepted as well, but for the schemes `ftp` and `file`. What the parser
erases there is not what the dialled scheme leaves out, so one target is written in two ways.
-/

namespace Nexapipe.Relay

open List

inductive DialScheme where
  | ws
  | wss
deriving DecidableEq

def DialScheme.port : DialScheme → UInt16
  | ws => 80
  | wss => 443

def defaultPort (scheme : String) : Option UInt16 :=
  if scheme ∈ ["http", "ws"] then some 80
  else if scheme ∈ ["https", "wss"] then some 443
  else if scheme = "ftp" then some 21
  else none

/-- The address of a relay as the parser leaves it. A scheme that has a port of its own has a host
    too, and the port is not written. -/
structure RelayUrl where
  text : String
  scheme : String
  host : Option (List Char)
  port : Option UInt16
  hosted : defaultPort scheme ≠ none → host ≠ none
  erased : ∀ p, port = some p → defaultPort scheme ≠ some p

structure EndpointAddr where
  relayUrls : List RelayUrl
  ipAddrs : List String

structure RelayRestriction where
  relay : RelayUrl
  mayLookUp : Bool

def dialScheme (url : RelayUrl) : Option DialScheme :=
  if url.scheme ∈ ["http", "ws"] then some .ws
  else if url.scheme ∈ ["https", "wss", "ftp", "file"] then some .wss
  else none

def foldedHost (url : RelayUrl) : Option (List Char) :=
  url.host.map fun host => (host.rdropWhile (· = '.')).map Char.toLower

def n0RelaySuffix : List Char :=
  ".relay.n0.iroh.link".toList

def isN0Relay (url : RelayUrl) : Bool :=
  (foldedHost url).any fun host =>
    host = n0RelaySuffix.dropWhile (· = '.') || n0RelaySuffix.isSuffixOf host

def sameRelay (a b : RelayUrl) : Bool :=
  match dialScheme a, dialScheme b with
  | some schemeA, some schemeB =>
    schemeA = schemeB && foldedHost a = foldedHost b && a.port = b.port
  -- A URL that cannot be dialled names no relay, not even its own.
  | _, _ => false

/-- The relay and its token. `parse` is the parser of addresses, `debug` quotes a string. -/
def custom (parse : String → Except String RelayUrl) (debug : String → String) (url : String)
    (authToken : Option (List Char)) : Except String (RelayUrl × Option (List Char)) :=
  match parse url with
  | .error e => .error s!"invalid relay_url {debug url} ({e})"
  | .ok relay =>
    if isN0Relay relay then
      .error (s!"relay_url {relay.text} is an n0-operated relay; use relay_mode = \"pinned\" or " ++
        "\"default\" instead of \"custom\", so the configuration still says which relays are " ++
        "in play")
    else .ok (relay, (authToken.map Text.trim).filter (· ≠ []))

def permits (r : RelayRestriction) (addr : EndpointAddr) : Except String Unit :=
  if addr.relayUrls ≠ [] then
    if addr.relayUrls.all (sameRelay · r.relay) then .ok ()
    else
      let named := ", ".intercalate (addr.relayUrls.map (·.text))
      .error s!"the peer names {named}, and this endpoint only uses {r.relay.text}"
  else if addr.ipAddrs ≠ [] then .ok ()
  else if r.mayLookUp then .ok ()
  else .error ("the peer is named only by a Node ID, and finding its address means asking n0, " ++
    s!"which may answer with an n0 relay; this endpoint only uses {r.relay.text}")

/-- Where a relay is dialled, if it can be. -/
def target (url : RelayUrl) : Option (DialScheme × List Char × UInt16) :=
  (dialScheme url).bind fun scheme =>
    (foldedHost url).map fun host => (scheme, host, url.port.getD scheme.port)

variable {a b relay : RelayUrl} {scheme : DialScheme}

theorem sameRelay_iff : sameRelay a b = true ↔
    dialScheme a ≠ none ∧ dialScheme a = dialScheme b ∧ foldedHost a = foldedHost b ∧
      a.port = b.port := by
  unfold sameRelay
  split
  · rename_i ha hb
    simp [ha, hb, and_assoc]
  · rename_i hnot
    refine iff_of_false Bool.false_ne_true ?_
    rintro ⟨hne, heq, -⟩
    obtain ⟨scheme, hs⟩ := Option.ne_none_iff_exists'.mp hne
    exact hnot scheme scheme hs (heq ▸ hs)

theorem eq_of_sameRelay (h : sameRelay a b = true) :
    target a = target b ∧ isN0Relay a = isN0Relay b := by
  obtain ⟨-, hscheme, hhost, hport⟩ := sameRelay_iff.mp h
  simp only [target, isN0Relay, hscheme, hhost, hport, and_self]

theorem permits_iff (relay : RelayUrl) (addr : EndpointAddr) :
    permits ⟨relay, false⟩ addr = .ok () ↔ (addr.relayUrls ≠ [] ∨ addr.ipAddrs ≠ []) ∧
      ∀ a ∈ addr.relayUrls, sameRelay a relay = true := by
  unfold permits
  split_ifs <;> simp_all

theorem defaultPort_of_dialScheme (hweb : a.scheme ∉ ["ftp", "file"])
    (h : dialScheme a = some scheme) : defaultPort a.scheme = some scheme.port := by
  unfold dialScheme at h
  unfold defaultPort
  split_ifs at h ⊢ <;> cases h <;> simp_all [DialScheme.port]

theorem port_eq_of_getD (ha : a.scheme ∉ ["ftp", "file"]) (hb : b.scheme ∉ ["ftp", "file"])
    (hsa : dialScheme a = some scheme) (hsb : dialScheme b = some scheme)
    (h : a.port.getD scheme.port = b.port.getD scheme.port) :
    a.port = b.port := by
  -- The parser has erased the port that `getD` puts in, so neither URL has it written.
  have hda := a.erased scheme.port
  have hdb := b.erased scheme.port
  rw [defaultPort_of_dialScheme ha hsa] at hda
  rw [defaultPort_of_dialScheme hb hsb] at hdb
  rcases hpa : a.port with _ | p <;> rcases hpb : b.port with _ | q <;> simp_all

theorem sameRelay_iff_target (ha : a.scheme ∉ ["ftp", "file"]) (hb : b.scheme ∉ ["ftp", "file"]) :
    sameRelay a b = true ↔ target a ≠ none ∧ target a = target b := by
  constructor
  · intro h
    obtain ⟨scheme, hs⟩ := Option.ne_none_iff_exists'.mp (sameRelay_iff.mp h).1
    have hosted := a.hosted (by simp [defaultPort_of_dialScheme ha hs])
    exact ⟨by simp [target, foldedHost, hs, hosted], (eq_of_sameRelay h).1⟩
  · rintro ⟨hne, heq⟩
    obtain ⟨⟨scheme, host, port⟩, ht⟩ := Option.ne_none_iff_exists'.mp hne
    rw [ht] at heq
    simp only [target, Option.bind_eq_some_iff, Option.map_eq_some_iff, eq_comm (a := some _),
      Prod.mk.injEq] at ht heq
    obtain ⟨_, hsa, _, hha, rfl, rfl, rfl⟩ := ht
    obtain ⟨_, hsb, _, hhb, rfl, rfl, hport⟩ := heq
    have hports := port_eq_of_getD ha hb hsa hsb hport.symm
    simp [sameRelay_iff, *]

/-- A relay of a peer that is accepted is dialled where the client's own is, and is not run by n0.
    Apart from `ftp` and `file`, no other peer with an address is refused. -/
theorem custom_is_only_relay {parse : String → Except String RelayUrl} {debug : String → String}
    {url : String} {authToken token : Option (List Char)}
    (h : custom parse debug url authToken = .ok (relay, token)) (addr : EndpointAddr) :
    (permits ⟨relay, false⟩ addr = .ok () →
      ∀ a ∈ addr.relayUrls, target a = target relay ∧ isN0Relay a = false) ∧
    ((∀ a ∈ relay :: addr.relayUrls, a.scheme ∉ ["ftp", "file"]) →
      (permits ⟨relay, false⟩ addr = .ok () ↔ (addr.relayUrls ≠ [] ∨ addr.ipAddrs ≠ []) ∧
        ∀ a ∈ addr.relayUrls, target a ≠ none ∧ target a = target relay)) := by
  have hown : isN0Relay relay = false := by
    unfold custom at h
    split at h
    · cases h
    split_ifs at h with hn0
    cases h
    exact Bool.eq_false_iff.mpr hn0
  rw [permits_iff]
  refine ⟨fun hok a ha => ?_, fun hweb => and_congr_right' (forall₂_congr fun a ha => ?_)⟩
  · exact (eq_of_sameRelay (hok.2 a ha)).imp_right (·.trans hown)
  · exact sameRelay_iff_target (hweb a (mem_cons_of_mem _ ha)) (hweb relay mem_cons_self)

def ownRelay : RelayUrl :=
  { text := "https://relay.example.com/"
    scheme := "https"
    host := some "relay.example.com".toList
    port := none
    hosted := by simp
    erased := by simp }

theorem own_relay_permitted : permits ⟨ownRelay, false⟩ ⟨[ownRelay], ["192.0.2.1"]⟩ = .ok () :=
  ((@custom_is_only_relay ownRelay (fun _ => .ok ownRelay) id "" none none rfl _).2
    (by decide +kernel)).mpr ⟨.inr (by simp), by decide +kernel⟩

def viaFtp : RelayUrl :=
  { text := "ftp://relay.example.com:443/"
    scheme := "ftp"
    host := some "relay.example.com".toList
    port := some 443
    hosted := by simp
    erased := by
      rintro _ ⟨⟩
      decide }

/-- Both are dialled at the port of `wss`, and only one has it written. -/
theorem ftp_relay_refused :
    target viaFtp = target ownRelay ∧ target ownRelay ≠ none ∧
      (permits ⟨ownRelay, false⟩ ⟨[viaFtp], []⟩).isOk = false := by
  decide +kernel

end Nexapipe.Relay
