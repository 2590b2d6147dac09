import Nexapipe.Desktop.Handshake

/-!
# The lines a service reads

The elevated service takes one message from each line its caller sends. A line is read chunk by
chunk into a buffer that never holds more than `maxIpcLine`, which is part of its type here, and a
chunk that would not fit is reported and left where it is.

Up to such a report, whatever the chunks are, the messages are the lines of the stream in order,
and perhaps what follows the last line end (`Reads`). After one it is otherwise: the loop of an
authenticated caller clears the buffer and goes on with the chunk that was left, so the end of a
line that was too long is taken for a line.
-/

namespace Nexapipe.Ipc

open List Machine

def maxIpcLine : Nat :=
  64 * 1024

abbrev Buffer : Type :=
  { bytes : List UInt8 // bytes.length ≤ maxIpcLine }

namespace Buffer

def empty : Buffer :=
  ⟨[], Nat.zero_le _⟩

def extend (buf : Buffer) (bytes : List UInt8) (h : bytes.length ≤ maxIpcLine - buf.1.length) :
    Buffer :=
  ⟨buf.1 ++ bytes, by
    have hbuf := buf.2
    rw [length_append]
    omega⟩

def pop (buf : Buffer) (byte : UInt8) : Buffer :=
  if buf.1.getLast? = some byte then
    ⟨buf.1.dropLast, Nat.le_trans (dropLast_sublist _).length_le buf.2⟩
  else buf

end Buffer

/-- What a line leaves in the buffer, or how long it would have grown, and the rest of the stream.
    The stream is in chunks, each what there is when the reader asks. -/
def readIpcLine (buf : Buffer) : List (List UInt8) → Except Nat Buffer × List (List UInt8)
  | [] => (.ok buf, [])
  | available :: coming =>
    let stop := if 10 ∈ available then available.idxOf 10 + 1 else available.length
    if h : stop ≤ maxIpcLine - buf.1.length then
      let buf := buf.extend (available.take stop) (Nat.le_trans (length_take_le ..) h)
      if 10 ∈ available then (.ok ((buf.pop 10).pop 13), available.drop stop :: coming)
      else readIpcLine buf coming
    -- Nothing is consumed: the next call finds the chunk that did not fit.
    else (.error (buf.1.length + stop), available :: coming)

structure Client where
  conn : Conn
  stream : List (List UInt8)
  delivered : List Buffer
  /-- A line was reported as too long. -/
  overLong : Bool

def Client.start (nonce : List Char) (stream : List (List UInt8)) : Client :=
  ⟨⟨nonce, false, false⟩, stream, [], false⟩

/-- What else a turn of the loop depends on. -/
structure Around where
  known : Option (List TokenCandidate)
  peer : Option AccountId
  late : Bool

section

variable {ρ : Type} (hmac : String → List Char → List Char) (installedBy : Option AccountId)
  (parse : List UInt8 → Option (IpcMessage ρ))

/-- What the loop makes of a line, which it takes for the end of the stream if it is empty. -/
def readOf (line : List UInt8) : Read ρ :=
  if line = [] then .gone else ((parse line).map Read.message).getD .malformed

def Client.step (c : Client) (around : Around) : Option Client :=
  let handled (read : Read ρ) :=
    (handleLine hmac installedBy around.known around.peer c.conn read).conn
  if c.conn.closed then none
  else if around.late then
    if c.conn.authenticated then none else some { c with conn := handled .late }
  else
    match readIpcLine .empty c.stream with
    | (.error _, stream) =>
      some { c with conn := handled .unreadable, stream := stream, overLong := true }
    | (.ok line, stream) =>
      some { c with
        conn := handled (readOf parse line.1)
        stream := stream
        delivered := if line.1 = [] then c.delivered else c.delivered ++ [line] }

end

/-- The text of a line, without the carriage return in front of its end. -/
def lineText (body : List UInt8) : List UInt8 :=
  if body.getLast? = some 13 then body.dropLast else body

/-- The stream is these messages and what is left: a message is a line, or the end of a stream that
    does not end a line. -/
inductive Reads (bytes : List UInt8) : List (List UInt8) → List UInt8 → Prop where
  | start : Reads bytes [] bytes
  | line {messages body left} : Reads bytes messages (body ++ 10 :: left) → 10 ∉ body →
      Reads bytes (messages ++ [lineText body]) left
  | rest {messages rest} : Reads bytes messages rest → rest ≠ [] → 10 ∉ rest →
      Reads bytes (messages ++ [rest]) []

def Whole (bytes : List UInt8) (c : Client) : Prop :=
  c.overLong = false → ∃ left, Reads bytes (c.delivered.map (·.1)) left ∧
    (c.conn.closed = false → left = c.stream.flatten)

variable {buf line : Buffer} {stream stream' : List (List UInt8)} {bytes : List UInt8}
  {c c' : Client}

theorem pop_line {body : List UInt8} (h : buf.1 = body ++ [10]) :
    ((buf.pop 10).pop 13).1 = lineText body := by
  have hlf : (buf.pop 10).1 = body := by simp [Buffer.pop, h]
  rw [← hlf]
  generalize buf.pop 10 = popped
  unfold Buffer.pop lineText
  split <;> rfl

/-- A call reads up to the next line end, however the chunks lie, or to the end of the stream. -/
theorem readIpcLine_ok (h : readIpcLine buf stream = (.ok line, stream')) (hbuf : 10 ∉ buf.1) :
    (∃ body, 10 ∉ body ∧ line.1 = lineText body ∧
      buf.1 ++ stream.flatten = body ++ 10 :: stream'.flatten) ∨
    10 ∉ line.1 ∧ line.1 = buf.1 ++ stream.flatten ∧ stream' = [] := by
  induction stream generalizing buf with
  | nil =>
    cases h
    exact .inr ⟨hbuf, (append_nil _).symm, rfl⟩
  | cons available coming ih =>
    by_cases hin : 10 ∈ available
    · obtain ⟨before, after, rfl, hno⟩ := eq_append_cons_of_mem hin
      have hstop : (before ++ 10 :: after).idxOf 10 = before.length := by
        rw [idxOf_append, if_neg hno, idxOf_cons_self, Nat.zero_add]
      simp only [readIpcLine, hin, if_true, hstop] at h
      split at h
      · cases h
        refine .inl ⟨buf.1 ++ before, by simp [hbuf, hno], pop_line ?_, ?_⟩
        · simp [Buffer.extend, take_length_add_append]
        · simp [drop_length_add_append]
      · cases h
    · simp only [readIpcLine, hin, if_false, take_length] at h
      split at h
      · rw [flatten_cons, ← append_assoc]
        exact ih h (by simp [Buffer.extend, hbuf, hin])
      · cases h

variable {ρ : Type} {hmac : String → List Char → List Char} {installedBy : Option AccountId}
  {parse : List UInt8 → Option (IpcMessage ρ)} {around : Around}

theorem Whole.step (h : Whole bytes c)
    (hstep : c.step hmac installedBy parse around = some c') : Whole bytes c' := by
  unfold Client.step at hstep
  simp only at hstep
  split_ifs at hstep with hclosed
  · cases hstep
    intro hover
    obtain ⟨left, hreads, hleft⟩ := h hover
    exact ⟨left, hreads, fun _ => hleft (Bool.eq_false_iff.mpr hclosed)⟩
  · split at hstep
    · cases hstep
      rintro ⟨⟩
    · rename_i line stream hread
      cases hstep
      intro hover
      obtain ⟨left, hreads, hleft⟩ := h hover
      obtain rfl := hleft (Bool.eq_false_iff.mpr hclosed)
      by_cases hnil : line.1 = []
      · refine ⟨_, by simpa only [if_pos hnil] using hreads, fun hopen => ?_⟩
        -- The line is taken for the end of the stream, and the connection is closed.
        simp [readOf, hnil, handleLine, Conn.drop] at hopen
      · simp only [if_neg hnil, map_append, map_singleton]
        rcases readIpcLine_ok hread not_mem_nil with ⟨body, hno, htext, heq⟩ | ⟨hno, hrest, rfl⟩
        · rw [htext]
          exact ⟨_, .line (heq ▸ hreads) hno, fun _ => rfl⟩
        · exact ⟨[], .rest (hrest ▸ hreads) hnil hno, fun _ => rfl⟩

/-- As long as no line was too long, the messages are the lines of the stream in order, and perhaps
    what follows the last of them. -/
theorem messages_are_lines {nonce : List Char} {arounds : List Around}
    (hrun : run (Client.step hmac installedBy parse) (.start nonce stream) arounds = some c)
    (hfit : c.overLong = false) :
    ∃ left, Reads stream.flatten (c.delivered.map (·.1)) left := by
  have hstart : Whole stream.flatten (.start nonce stream) := fun _ => ⟨_, .start, fun _ => rfl⟩
  obtain ⟨left, hreads, -⟩ :=
    invariant (Whole stream.flatten) (fun _ _ _ h hs => h.step hs) hstart hrun hfit
  exact ⟨left, hreads⟩

theorem messages_are_lines_one : ∃ left, Reads [120, 10] [[120]] left :=
  @messages_are_lines [[120, 10]] ⟨⟨[], false, true⟩, [[]], [⟨[120], by decide⟩], false⟩ Unit
    (fun _ _ => []) none (fun _ => none) [] [⟨none, none, false⟩] rfl rfl

/-- The loop of a caller that has authenticated goes on behind a line that is too long. -/
theorem Client.step_tooLong {len : Nat} (hopen : c.conn.closed = false)
    (hauth : c.conn.authenticated = true) (hlate : around.late = false)
    (h : readIpcLine .empty c.stream = (.error len, stream)) :
    c.step hmac installedBy parse around = some { c with stream := stream, overLong := true } := by
  simp [Client.step, handleLine, hopen, hauth, hlate, h]

def holder : Around :=
  ⟨some [⟨"", .unix 0⟩], some (.unix 0), false⟩

def hello (line : List UInt8) : Option (IpcMessage Unit) :=
  if line = [97] then some (.auth [] []) else none

/-- The caller of `hello`, once its line is read. -/
def greeted (stream : List (List UInt8)) (overLong : Bool) : Client :=
  ⟨⟨[], true, false⟩, stream, [⟨[97], by decide⟩], overLong⟩

/-- A caller that has authenticated sends a line of one byte more than fits, and its last byte is
    delivered as a message. -/
theorem tail_of_long_line_delivered :
    ∃ c, run (Client.step (fun _ _ => []) none hello)
        (.start [] [[97, 10], replicate maxIpcLine 120, [120, 10]]) [holder, holder, holder] =
        some c ∧ c.delivered.map (·.1) = [[97], [120]] := by
  have hlong : readIpcLine .empty [[], replicate maxIpcLine 120, [120, 10]] =
      (.error (maxIpcLine + 2), [[120, 10]]) := by
    have hat : [120, 10].idxOf (10 : UInt8) = 1 := by decide
    simp [readIpcLine, Buffer.empty, Buffer.extend, hat]
  have hreport : (greeted [[], replicate maxIpcLine 120, [120, 10]] false).step (fun _ _ => []) none
      hello holder = some (greeted [[120, 10]] true) := Client.step_tooLong rfl rfl rfl hlong
  refine ⟨{ greeted [[]] true with delivered := [⟨[97], by decide⟩, ⟨[120], by decide⟩] }, ?_, rfl⟩
  exact run_cons_eq_some.mpr ⟨_, rfl, run_cons_eq_some.mpr ⟨_, hreport, rfl⟩⟩

end Nexapipe.Ipc
