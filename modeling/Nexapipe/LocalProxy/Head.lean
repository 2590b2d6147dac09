import Nexapipe.Http.Headers
import Nexapipe.Lib.Ascii
import Nexapipe.Lib.Lines
import Nexapipe.Lib.Lossy

/-!
# The head of a request

What the local proxy does with the head of a request: it reads the stream up to the empty line,
parses what it read, and takes out the header lines that are not to be forwarded. The three read
the same bytes in three ways. The reader looks for the four bytes that end a head, the parser
decodes the head as text and takes the white space off a name and a value, and the filter cuts the
bytes into lines and compares names as they stand.
-/

namespace Nexapipe.LocalProxy

open List Option Lines Lossy

/-! ### Reading -/

def maxRequestHeader : Nat := 64 * 1024

def terminator : List UInt8 := [13, 10, 13, 10]

def headerOverLimit (request : List UInt8) (headerEnd : Option Nat) : Bool :=
  maxRequestHeader < headerEnd.getD request.length

/-- What reading a head comes to. Every way it fails is answered by closing the connection. -/
inductive HeaderOutcome where
  | complete (headerEnd : Nat)
  | closed
deriving DecidableEq

/-- The loop of `read_http_header`, with the caller's buffer and the reads that are left when it
    returns. A read of no bytes is the end of the stream, and reads that are not there are ones
    that failed or came too late. -/
def readMore (requestBuf : List UInt8) :
    List (List UInt8) → HeaderOutcome × List UInt8 × List (List UInt8)
  | [] => (.closed, requestBuf, [])
  | [] :: reads => (.closed, requestBuf, reads)
  | (b :: chunk) :: reads =>
    let searchStart := requestBuf.length - 3
    let buf := requestBuf ++ b :: chunk
    let headerEnd := (Lines.position terminator (buf.drop searchStart)).map fun pos =>
      searchStart + pos + 4
    if headerOverLimit buf headerEnd then (.closed, buf, reads)
    else
      match headerEnd with
      | some headerEnd => (.complete headerEnd, buf, reads)
      | none => readMore buf reads

def readHttpHeader (requestBuf : List UInt8) (reads : List (List UInt8)) :
    HeaderOutcome × List UInt8 × List (List UInt8) :=
  let headerEnd := (Lines.position terminator requestBuf).map (· + 4)
  if headerOverLimit requestBuf headerEnd then (.closed, requestBuf, reads)
  else
    match headerEnd with
    | some headerEnd => (.complete headerEnd, requestBuf, reads)
    | none => readMore requestBuf reads

/-- The bytes of the reads up to the end of the stream. -/
def sent : List (List UInt8) → List UInt8
  | [] => []
  | [] :: _ => []
  | (b :: chunk) :: reads => b :: chunk ++ sent reads

def headOf (stream : List UInt8) : List UInt8 :=
  match Lines.position terminator stream with
  | some pos => stream.take (pos + 4)
  | none => []

def afterHead (stream : List UInt8) : List UInt8 :=
  stream.drop (headOf stream).length

/-! ### Parsing -/

def isToken (c : Char) : Bool :=
  c.isAlphanum || c ∈ "!#$%&'*+-.^_|~".toList || c.toNat = 96

def isValueByte (b : UInt8) : Bool :=
  (32 ≤ b && b ≠ 127) || b = 9

/-- The targets the `http` crate accepts, with the path and query of each. -/
structure Uris where
  pathAndQuery : List Char → Option (List UInt8)

structure Request where
  method : List Char
  path : List UInt8
  headers : List Header

/-- The header a line of the head is. A line without a colon is passed over, and a name or a value
    that is none spoils the request. -/
def fieldOf (line : List Char) : Option (Option Header) :=
  match Text.splitOnce ':' line with
  | none => some none
  | some (name, value) =>
    let name := Text.trim name
    let value := Ascii.utf8 (String.ofList (Text.trim value))
    if name ≠ [] ∧ name.all isToken = true ∧ value.all isValueByte = true then
      some (some ⟨name.map Char.toLower, value, Ascii.map_toLower_map_toLower name⟩)
    else none

def fieldsOf : List (List Char) → Option (List Header)
  | [] => some []
  | line :: lines =>
    (fieldOf line).bind fun field => (fieldsOf lines).map fun fields => field.toList ++ fields

def parseHttpRequestLegacy (uris : Uris) (buf : List UInt8) : Option Request :=
  match Lines.split '\r' '\n' false (Lossy.lossy buf) with
  | [] => none
  | requestLine :: lines =>
    match Text.splitWhitespace requestLine with
    | method :: target :: _ =>
      if method.all isToken then
        (uris.pathAndQuery target).bind fun path =>
          (fieldsOf (lines.takeWhile (· ≠ []))).map fun headers => ⟨method, path, headers⟩
      else none
    | _ => none

/-! ### Filtering -/

def blockLines (block : List UInt8) : List (List UInt8) :=
  Lines.lines 13 10 false block

def isAsciiWhitespace (b : UInt8) : Bool :=
  b = 32 || b = 9 || b = 10 || b = 12 || b = 13

def lowerBytes (bytes : List UInt8) : List UInt8 :=
  bytes.map Ascii.lowerByte

def cutColon (line : List UInt8) : Option (List UInt8 × List UInt8) :=
  if 58 ∈ line then some (line.takeWhile (· ≠ 58), (line.dropWhile (· ≠ 58)).tail) else none

def headerName (line : List UInt8) : Option (List UInt8) :=
  (cutColon line).bind fun (name, _) =>
    if name = [] ∨ name.any isAsciiWhitespace = true then none else some (lowerBytes name)

def headerValue (line name : List UInt8) : Option (List UInt8) :=
  (cutColon line).bind fun (found, value) =>
    if lowerBytes found = lowerBytes name then some value else none

def nominatedHopByHop (block : List UInt8) : List (List UInt8) :=
  (blockLines block).flatMap fun line =>
    match headerValue line (asBytes "connection".toList) with
    | some value =>
      ((value.splitOnP (· = 44)).map fun token =>
        token.filter fun b => !isAsciiWhitespace b).filter (· ≠ []) |>.map lowerBytes
    | none => []

def startsWithIgnoreCase (line start : List UInt8) : Bool :=
  decide (start.length ≤ line.length) && lowerBytes (line.take start.length) = lowerBytes start

def isCacheValidationHeader (line : List UInt8) : Bool :=
  startsWithIgnoreCase line (asBytes "if-modified-since:".toList)
    || startsWithIgnoreCase line (asBytes "if-none-match:".toList)

/-- The headers that are never forwarded. `Transfer-Encoding` is not among them. -/
def hopByHopHeaders : List String :=
  ["connection", "keep-alive", "proxy-authenticate", "proxy-authorization", "proxy-connection",
    "te", "trailer", "upgrade"]

def isDroppedHeader (line : List UInt8) (keepUpgrade : Bool) (nominated : List (List UInt8)) :
    Bool :=
  if isCacheValidationHeader line then true
  else
    match headerName line with
    | none => false
    | some name =>
      if keepUpgrade = true
          ∧ (name = asBytes "upgrade".toList ∨ name = asBytes "connection".toList) then false
      else if hopByHopHeaders.any (fun hop => name = asBytes hop.toList) then true
      else nominated.any fun token => token = name

def keptLines (block : List UInt8) (keepUpgrade : Bool) : List (List UInt8) :=
  (blockLines block).filter fun line =>
    !isDroppedHeader line keepUpgrade (nominatedHopByHop block)

def filterRequestHeaders (block : List UInt8) (keepUpgrade : Bool) : List UInt8 :=
  Lines.unlines 13 10 (keptLines block keepUpgrade)

theorem isDroppedHeader_nil (keepUpgrade : Bool) (nominated : List (List UInt8)) :
    isDroppedHeader [] keepUpgrade nominated = false := by
  have hval : isCacheValidationHeader [] = false := by decide
  have hn : headerName [] = none := by decide
  simp [isDroppedHeader, hval, hn]

theorem keptLines_of_blockLines {block : List UInt8} {lines : List (List UInt8)}
    (keepUpgrade : Bool) (h : blockLines block = lines ++ [[]]) :
    keptLines block keepUpgrade = (lines.filter fun line =>
      !isDroppedHeader line keepUpgrade (nominatedHopByHop block)) ++ [[]] := by
  rw [keptLines, h, filter_append]
  simp [isDroppedHeader_nil]

/-! ### What the reader reads -/

section Reading

variable {requestBuf buf : List UInt8} {reads rest : List (List UInt8)} {headerEnd : Nat}

theorem terminator_ne_nil : terminator ≠ [] := by decide

theorem le_of_position {text : List UInt8} {pos : Nat}
    (h : Lines.position terminator text = some pos) : pos + 4 ≤ text.length := by
  have hat := ((position_eq_some_iff terminator_ne_nil).mp h).1.length_le
  rw [length_drop] at hat
  simp only [terminator, length_cons, length_nil] at hat
  omega

theorem position_resume (hn : Lines.position terminator requestBuf = none)
    (chunk : List UInt8) : Lines.position terminator (requestBuf ++ chunk)
      = (Lines.position terminator ((requestBuf ++ chunk).drop (requestBuf.length - 3))).map
        (requestBuf.length - 3 + ·) := by
  rw [drop_append_of_le_length (by omega)]
  by_cases hsh : requestBuf.length < 3
  · simp [show requestBuf.length - 3 = 0 by omega]
  · exact position_append terminator_ne_nil hn
      (by simp only [terminator, length_cons, length_nil]; omega) _

theorem readMore_complete (hno : Lines.position terminator requestBuf = none)
    (h : readMore requestBuf reads = (.complete headerEnd, buf, rest)) :
    buf ++ sent rest = requestBuf ++ sent reads
      ∧ ∃ pos, Lines.position terminator buf = some pos ∧ headerEnd = pos + 4
        ∧ headerEnd ≤ maxRequestHeader := by
  induction reads generalizing requestBuf with
  | nil => exact absurd h (by simp [readMore])
  | cons chunk reads ih =>
    rcases chunk with _ | ⟨b, chunk⟩
    · exact absurd h (by simp [readMore])
    have hfound := position_resume hno (b :: chunk)
    rw [readMore] at h
    split at h
    · exact absurd h (by simp)
    rename_i hlim
    split at h
    · rename_i pos hpos
      cases h
      obtain ⟨at', hat, rfl⟩ := map_eq_some_iff.mp hpos
      refine ⟨by simp [sent], requestBuf.length - 3 + at', ?_, rfl, ?_⟩
      · rw [hfound, hat]
        rfl
      · simpa [hat, headerOverLimit] using hlim
    · rename_i hpos
      rw [map_eq_none_iff] at hpos
      obtain ⟨hsent, hend⟩ := ih (by rw [hfound, hpos]; rfl) h
      refine ⟨?_, hend⟩
      rw [hsent]
      simp [sent]

theorem readHttpHeader_sent
    (h : readHttpHeader requestBuf reads = (.complete headerEnd, buf, rest)) :
    buf ++ sent rest = requestBuf ++ sent reads
      ∧ ∃ pos, Lines.position terminator buf = some pos ∧ headerEnd = pos + 4
        ∧ headerEnd ≤ maxRequestHeader := by
  unfold readHttpHeader at h
  simp only at h
  split at h
  · exact absurd h (by simp)
  rename_i hlim
  split at h
  · rename_i hpos
    cases h
    obtain ⟨pos, hat, rfl⟩ := map_eq_some_iff.mp hpos
    exact ⟨rfl, pos, hat, rfl, by simpa [hat, headerOverLimit] using hlim⟩
  · rename_i hpos
    exact readMore_complete (map_eq_none_iff.mp hpos) h

theorem readHttpHeader_complete
    (h : readHttpHeader requestBuf reads = (.complete headerEnd, buf, rest)) :
    buf.take headerEnd = headOf (requestBuf ++ sent reads)
      ∧ buf.drop headerEnd ++ sent rest = afterHead (requestBuf ++ sent reads)
      ∧ ∃ pos, Lines.position terminator (requestBuf ++ sent reads) = some pos := by
  obtain ⟨hsent, pos, hpos, rfl, -⟩ := readHttpHeader_sent h
  have hstr := position_append_of_some terminator_ne_nil hpos (sent rest)
  have hlen := le_of_position hpos
  rw [hsent] at hstr
  have hhe : headOf (requestBuf ++ sent reads) = buf.take (pos + 4) := by
    rw [headOf, hstr, ← hsent]
    exact take_append_of_le_length hlen
  have hh : (headOf (requestBuf ++ sent reads)).length = pos + 4 := by
    rw [hhe, length_take, Nat.min_eq_left hlen]
  refine ⟨hhe.symm, ?_, pos, hstr⟩
  rw [afterHead, hh, ← hsent, drop_append_of_le_length hlen]

end Reading

/-! ### What the parser reads -/

theorem lossy_unlines (ls : List (List UInt8)) (rest : List UInt8) :
    Lossy.lossy (Lines.unlines 13 10 ls ++ rest)
      = Lines.unlines '\r' '\n' (ls.map Lossy.lossy) ++ Lossy.lossy rest := by
  induction ls with
  | nil => rfl
  | cons line ls ih =>
    have hcr := lossy_append (b := 13) (by decide) line
      (10 :: (unlines 13 10 ls ++ rest))
    have hlf := lossy_append (b := 10) (by decide) [] (unlines 13 10 ls ++ rest)
    rw [nil_append, lossy_nil, nil_append, ih] at hlf
    rw [hlf] at hcr
    simpa [unlines] using hcr

theorem lines_lossy {line : List UInt8} (h : Lines.lines 13 10 false line = []) :
    Lines.lines '\r' '\n' false (Lossy.lossy line) = [] := by
  rcases hls : lines '\r' '\n' false (lossy line) with _ | ⟨first, more⟩
  · rfl
  -- The two characters of a line end come of the two bytes of one.
  have hj := unlines_lines '\r' '\n' (lossy line)
  rw [hls, unlines, flatMap_cons, append_assoc, append_assoc] at hj
  obtain ⟨front, b, back, rfl, hb, -, hba⟩ :=
    exists_of_lossy (c := '\r') (by decide) hj.symm
  obtain ⟨front', b', back', rfl, hb', hfr', -⟩ :=
    exists_of_lossy (x := []) (c := '\n') (by decide) hba
  obtain rfl : b = 13 := UInt8.toNat_inj.mp hb
  obtain rfl : b' = 10 := UInt8.toNat_inj.mp hb'
  rw [lossy_eq_nil_iff.mp hfr'] at h
  exact absurd h (lines_ne_nil (by decide) front back')

theorem split_lossy (bytes : List UInt8) :
    Lines.split '\r' '\n' false (Lossy.lossy bytes)
      = (Lines.split 13 10 false bytes).map Lossy.lossy := by
  have hs : (∀ line ∈ lines 13 10 false bytes, lines 13 10 false line = [])
      ∧ lines 13 10 false (scan 13 10 false [] bytes).2.reverse = [] :=
    lines_of_scan [] rfl bytes
  have hj := unlines_lines (13 : UInt8) 10 bytes
  rw [← hj, lossy_unlines, hj, split_unlines (by decide) ?_ (lines_lossy hs.2)]
  · simp [split]
  · intro line hl
    obtain ⟨line, hmem, rfl⟩ := mem_map.mp hl
    exact lines_lossy (hs.1 line hmem)

variable {request : Request}

theorem parseHttpRequestLegacy_eq_some {uris : Uris} {buf : List UInt8}
    (h : parseHttpRequestLegacy uris buf = some request) :
    ∃ requestLine lines, Lines.split '\r' '\n' false (Lossy.lossy buf) = requestLine :: lines
      ∧ requestLine ≠ [] := by
  revert h
  fun_cases parseHttpRequestLegacy uris buf with
  | case2 requestLine lines hsp method target parts hpar =>
    intro _
    refine ⟨requestLine, lines, hsp, ?_⟩
    rintro rfl
    exact absurd hpar (by simp [Text.splitWhitespace])
  | _ => rintro ⟨⟩

theorem lines_of_parseHttpRequestLegacy {uris : Uris} {stream : List UInt8} {pos : Nat}
    (hpos : Lines.position terminator stream = some pos)
    (h : parseHttpRequestLegacy uris (headOf stream) = some request) :
    ∃ first more, blockLines (headOf stream) = first :: more ++ [[]]
      ∧ ∀ line ∈ first :: more, line ≠ [] := by
  have hhe : headOf stream = stream.take (pos + 4) := by rw [headOf, hpos]
  obtain ⟨first, more, hlin, hmo, hjo⟩ :=
    lines_take_position (13 : UInt8) 10 (by decide) hpos
  rw [← hhe] at hlin hjo
  -- Nothing follows the empty line.
  have hla : (scan 13 10 false [] (headOf stream)).2 = [] := by
    rw [hjo, scan_line_crlf (by decide)]
  have hsp := split_lossy (headOf stream)
  rw [split, split, hlin, hla] at hsp
  obtain ⟨requestLine, lines, hsp', hfst⟩ := parseHttpRequestLegacy_eq_some h
  rw [split] at hsp'
  rw [hsp'] at hsp
  obtain ⟨rfl, rfl⟩ := cons_eq_cons.mp hsp
  refine ⟨first, more, hlin, ?_⟩
  rw [forall_mem_cons]
  exact ⟨fun hnil => hfst (lossy_eq_nil_iff.mpr hnil), hmo⟩

end Nexapipe.LocalProxy
