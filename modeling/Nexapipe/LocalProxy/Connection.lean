import Nexapipe.Client.Group
import Nexapipe.Lib.Trim
import Nexapipe.LocalProxy.Body
import Nexapipe.Proto.Tls

/-!
# A connection of the local proxy

What the local proxy does with a connection of an application, from the first read on: it finds the
head, checks the host it names against the list of proxied domains, and opens a stream through the
tunnel for an ordinary request or for a WebSocket. What it writes there is not the request it
checked but the bytes it was parsed from, less the lines the filter drops.

The check and the server behind the tunnel do not read those bytes alike. A line ends for the check
in two bytes, and a line feed by itself is white space that is trimmed from a value. The filter
drops what `Connection` nominates, and a name with white space around it is the header without it
to the check only.

## Main definitions

* `Handled`: What becomes of a connection.
* `handlePlainRequest`, `handleWebsocketUpgrade`: The two paths that open a stream.
* `handleLocalConnection`: The handler, from the first read on.
* `Checked`: A head that was found, parsed and let through.
* `hostsRead`: The hosts a head names to a reader that takes bare line feeds.

## Theorems

* `handleLocalConnection_cases`: What the handler can do.
* `handleLocalConnection_eq_plain`: What is written for an ordinary request.
-/

namespace Nexapipe.LocalProxy

open List Option Nat

/-! ### The handler -/

def requestLineEnd (request : List UInt8) : Nat :=
  (request.findIdx? (· = 10)).getD 0

/-- Whether the first `Upgrade` and `Connection` ask for a WebSocket. -/
def isWebsocketRequestStatic (headers : List Header) : Bool :=
  match (getAll "upgrade" headers).head?.bind toStr with
  | some upgrade =>
    if upgrade.map Char.toLower = "websocket".toList then
      match (getAll "connection" headers).head?.bind toStr with
      | some connection =>
        (Lines.position "upgrade".toList (connection.map Char.toLower)).isSome
      | none => false
    else false
  | none => false

inductive Handled where
  /-- It is closed without an answer. -/
  | closed
  /-- It is answered with `400 Bad Request`. -/
  | refused
  /-- It is a tunnel, for a `CONNECT` or a TLS connection. -/
  | tunnel
  /-- A stream is opened for a request: its head, and what follows it. -/
  | plain (host : List Char) (head body : List UInt8)
  /-- A stream is opened for a WebSocket: the head of the request, and what follows it. -/
  | upgrade (host : List Char) (head after : List UInt8)
deriving DecidableEq

/-- The bytes that came with the head are the body's, or the request is refused. -/
def handlePlainRequest (request : Request) (requestBuf : List UInt8) (headerEnd : Nat)
    (reads : List (List UInt8)) (host : List Char) : Handled :=
  let body := Body.declared request.headers
  let carried := requestBuf.drop headerEnd
  if (body.take carried).1 < carried.length then .refused
  else
    .plain host (filterRequestHeaders (requestBuf.take headerEnd) false)
      (carried ++ relay (body.take carried).2 reads)

/-- The line a WebSocket request is sent with, without its end. The version is the one the parser
    gives every request. -/
def upgradeLine (request : Request) (host : List Char) : List UInt8 :=
  asBytes request.method ++ asBytes " http://".toList ++ asBytes host ++ request.path
    ++ asBytes " HTTP/1.1".toList

def handleWebsocketUpgrade (request : Request) (requestBuf : List UInt8)
    (headerEnd firstLineEnd : Nat) (reads : List (List UInt8)) (host : List Char) : Handled :=
  let restStart := firstLineEnd + 1
  .upgrade host
    (upgradeLine request host ++ [13, 10] ++
      if restStart < headerEnd then
        filterRequestHeaders ((requestBuf.take headerEnd).drop restStart) true
      else [])
    (requestBuf.drop headerEnd ++ sent reads)

/-- The first `Host` that can be read and is on the list, without its port. -/
def targetHost (proxyDomains : List String) (headers : List Header) : Option (List Char) :=
  (hostValues headers).findSome? fun value =>
    (toStr value).bind fun text =>
      let (host, _) := hostAndPort text
      if Client.shouldProxyDomain host proxyDomains then some host else none

/-- A connection of an application, given the reads that it makes. -/
def handleLocalConnection (uris : Uris) (proxyDomains : List String) :
    List (List UInt8) → Handled
  | [] => .closed
  | [] :: _ => .closed
  | (b :: chunk) :: reads =>
    if b = Tls.tlsHandshake then .tunnel
    else
      match readHttpHeader (b :: chunk) reads with
      | (.closed, _) => .closed
      | (.complete headerEnd, requestBuf, reads) =>
        match parseHttpRequestLegacy uris (requestBuf.take headerEnd) with
        | none => .closed
        | some request =>
          if request.method = "CONNECT".toList then .tunnel
          else if 1 < (hostValues request.headers).length then .refused
          else
            match targetHost proxyDomains request.headers with
            | none => .closed
            | some host =>
              let firstLineEnd := requestLineEnd (requestBuf.take headerEnd)
              if isWebsocketRequestStatic request.headers = true ∧ 0 < firstLineEnd then
                handleWebsocketUpgrade request requestBuf headerEnd firstLineEnd reads host
              else handlePlainRequest request requestBuf headerEnd reads host

/-! ### The two paths -/

section Paths

variable {uris : Uris} {proxyDomains : List String} {reads : List (List UInt8)}

/-- The stream has a head that the parser reads. -/
structure Checked (uris : Uris) (stream : List UInt8) (request : Request) : Prop where
  ends : ∃ pos, Lines.position terminator stream = some pos
  parsed : parseHttpRequestLegacy uris (headOf stream) = some request

theorem handleLocalConnection_cases (uris : Uris) (proxyDomains : List String)
    (reads : List (List UInt8)) :
    handleLocalConnection uris proxyDomains reads = .closed
    ∨ handleLocalConnection uris proxyDomains reads = .refused
    ∨ handleLocalConnection uris proxyDomains reads = .tunnel
    ∨ ∃ request host headerEnd requestBuf rest,
        Checked uris (sent reads) request
        ∧ requestBuf.take headerEnd = headOf (sent reads)
        ∧ requestBuf.drop headerEnd ++ sent rest = afterHead (sent reads)
        ∧ handleLocalConnection uris proxyDomains reads =
            if isWebsocketRequestStatic request.headers = true
                ∧ 0 < requestLineEnd (headOf (sent reads)) then
              handleWebsocketUpgrade request requestBuf headerEnd
                (requestLineEnd (headOf (sent reads))) rest host
            else handlePlainRequest request requestBuf headerEnd rest host := by
  match reads with
  | [] => exact .inl rfl
  | [] :: _ => exact .inl rfl
  | (b :: chunk) :: reads =>
    rw [handleLocalConnection]
    split
    · exact .inr (.inr (.inl rfl))
    split
    · exact .inl rfl
    rename_i headerEnd requestBuf rest hread
    obtain ⟨hhead, haft, hends⟩ := readHttpHeader_complete hread
    rw [hhead]
    split
    · exact .inl rfl
    rename_i request hpar
    split
    · exact .inr (.inr (.inl rfl))
    split
    · exact .inr (.inl rfl)
    split
    · exact .inl rfl
    rename_i host _
    exact .inr (.inr (.inr ⟨request, host, headerEnd, requestBuf, rest, ⟨hends, hpar⟩, hhead, haft,
      rfl⟩))

variable {head : List UInt8} {host : List Char}

theorem handleLocalConnection_eq_plain {body : List UInt8}
    (h : handleLocalConnection uris proxyDomains reads = .plain host head body) :
    ∃ request, Checked uris (sent reads) request
      ∧ head = filterRequestHeaders (headOf (sent reads)) false
      ∧ body = (Body.declared request.headers).part (afterHead (sent reads)) := by
  rcases handleLocalConnection_cases uris proxyDomains reads with hc | hc | hc |
    ⟨request, host', headerEnd, requestBuf, rest, hch, hhe, haft, hc⟩
  iterate 3 exact absurd (hc.symm.trans h) (by simp)
  · rw [hc] at h
    split at h
    · exact absurd h (by simp [handleWebsocketUpgrade])
    unfold handlePlainRequest at h
    simp only at h
    split at h
    · exact absurd h (by simp)
    rename_i hfi
    obtain ⟨rfl, rfl, rfl⟩ := Handled.plain.inj h
    refine ⟨request, hch, by rw [hhe], ?_⟩
    have hfi : (Body.declared request.headers).Fits (requestBuf.drop headerEnd) :=
      le_antisymm (Body.take_le _ _) (not_lt.mp hfi)
    rw [relay_eq_part, ← Body.part_append hfi, haft]

end Paths

/-! ### The hosts a head names -/

def hostFields (fields : List (List UInt8)) : List (List UInt8) :=
  fields.filterMap fun line => headerValue line (asBytes "host".toList)

def hostsOf : Option (List (List UInt8)) → List (List UInt8)
  | some (_ :: fields) => hostFields fields
  | _ => []

/-- The hosts a head names to a reader for which a line ends in a line feed, with or without a
    carriage return before it. -/
def hostsRead (head : List UInt8) : List (List UInt8) :=
  hostsOf ((Lines.head 13 10 true [] [] head).map Prod.fst)

/-! ### A parser of request targets -/

/-- A parser that takes the targets of visible characters which begin with a slash. -/
def pathsOnly : Uris where
  pathAndQuery target :=
    if target.head? = some '/' ∧ target.all (fun c => 33 ≤ c.toNat && c.toNat < 127) then
      some (asBytes target)
    else none

end Nexapipe.LocalProxy
