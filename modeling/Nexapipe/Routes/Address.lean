import Mathlib.Data.List.Infix
import Nexapipe.Lib.Split
import Nexapipe.Lib.Text

/-!
# Where a backend is reached

A backend is written as a URL or as a bare `host:port`, and the address is read in
two ways. The request path takes it apart with the URL parser when the pool is
built (`originOf`), and dials the port that parser names, or the scheme's own, or
80. The session and tunnel paths use `parseBackendAddr`, which gives the text to the
URL parser only when it holds `://` and otherwise cuts it at the last colon.

The check of the port a request is served from asks the second parser, and the
request is dialled by the first. The two read an address alike when it is spelled
in full. They differ where a scheme is followed by fewer than two slashes: the URL
parser skips the missing ones, and the other one finds a port that is not a number.

The URL parser is a third-party crate's and stays a parameter.
-/

namespace Nexapipe

/-! ### The URL parser -/

/-- What the URL parser says of a text it accepts. The port is the one written,
    unless it is the scheme's own. -/
structure Url where
  scheme : String
  hostStr : Option String
  port : Option UInt16

def Url.portOrKnownDefault (url : Url) : Option UInt16 :=
  match url.port with
  | some port => some port
  | none =>
    if url.scheme = "http" ∨ url.scheme = "ws" then some 80
    else if url.scheme = "https" ∨ url.scheme = "wss" then some 443
    else if url.scheme = "ftp" then some 21
    else none

abbrev UrlParser : Type :=
  String → Except String Url

/-! ### The address parser -/

inductive PortDefault where
  | required
  | schemeOrBare (bare : UInt16)

def parsePort (s : List Char) : Option UInt16 :=
  (Text.parseNat 65535 s).map UInt16.ofNat

def stripIpv6Brackets (host : String) : String :=
  String.ofList
    ((host.toList.dropWhile fun c => c = '[' ∨ c = ']').rdropWhile fun c => c = '[' ∨ c = ']')

/-- The host and the port of an address that names no scheme: a bracketed literal,
    or what stands around the last colon. -/
def parseBareAddr (backend : List Char) (default : PortDefault) : Option (String × UInt16) :=
  match backend with
  | '[' :: rest =>
    (Text.splitOnce ']' rest).bind fun p =>
      if p.1 = [] then none
      else
        match p.2 with
        | ':' :: port => (parsePort port).map fun port => (String.ofList p.1, port)
        | _ =>
          match default with
          | .required => none
          | .schemeOrBare bare => some (String.ofList p.1, bare)
  | _ =>
    match Text.rsplitOnce ':' backend with
    | some (host, port) =>
      if host = [] then none else (parsePort port).map fun port => (String.ofList host, port)
    | none =>
      match default with
      | .required => none
      | .schemeOrBare bare => some (String.ofList backend, bare)

section

variable (parseUrl : UrlParser)

def parseBackendAddrWith (backend : String) (default : PortDefault) : Option (String × UInt16) :=
  let backend := Text.trim backend.toList
  if backend = [] then none
  else if "://".toList <:+: backend then
    match parseUrl (String.ofList backend) with
    | .error _ => none
    | .ok url =>
      match url.hostStr with
      | none => none
      | some host =>
        if host = "" then none
        else
          let port := match url.port with
            | some port => some port
            | none =>
              match default with
              | .required => none
              | .schemeOrBare _ => url.portOrKnownDefault
          port.map fun port => (stripIpv6Brackets host, port)
  else parseBareAddr backend default

def parseBackendAddr (backend : String) : Option (String × UInt16) :=
  parseBackendAddrWith parseUrl backend (.schemeOrBare 443)

def parseTunnelAddr (backend : String) : Option (String × UInt16) :=
  parseBackendAddrWith parseUrl backend .required

def backendPort (url : String) : Option UInt16 :=
  (parseBackendAddr parseUrl url).map Prod.snd

structure Origin where
  scheme : String
  host : String
  port : UInt16

def originOf (url : String) : Except String Origin :=
  match parseUrl url with
  | .error e => .error s!"invalid backend URL: {e}"
  | .ok parsed =>
    match parsed.hostStr with
    | none => .error "backend URL missing host"
    | some host =>
      .ok { scheme := parsed.scheme, host := host, port := parsed.portOrKnownDefault.getD 80 }

def dialledPort (url : String) : Option UInt16 :=
  match originOf parseUrl url with
  | .ok origin => some origin.port
  | .error _ => none

end

/-! ### A parser for plain addresses -/

/-- A URL parser for `http`, `https` and the like: the scheme, any number of slashes,
    and a host with or without a port. -/
def plainUrl : UrlParser := fun text =>
  match Text.splitOnce ':' text.toList with
  | none => .error "relative URL without a base"
  | some (scheme, rest) =>
    let authority := (rest.dropWhile (· = '/')).takeWhile (· ≠ '/')
    let url (host : List Char) (port : Option UInt16) : Url :=
      { scheme := String.ofList scheme, hostStr := some (String.ofList host), port := port }
    match Text.splitOnce ':' authority with
    | none => .ok (url authority none)
    | some (host, port) =>
      match parsePort port with
      | none => .error "invalid port number"
      | some port =>
        -- The port the scheme is known for is left out, as the URL parser leaves it out.
        if (url host none).portOrKnownDefault = some port then .ok (url host none)
        else .ok (url host (some port))

end Nexapipe
