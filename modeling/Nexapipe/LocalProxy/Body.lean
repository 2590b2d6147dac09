import Nexapipe.LocalProxy.Head
import Mathlib.Algebra.GroupWithZero.Nat

/-!
# The body of a request

What the head of a request says about the bytes that follow it, and how many of them are therefore
the body's. A body has no length it is checked against at the end: it takes bytes as they come and
says of each read how many of them are its own. The rest would be another request.
-/

namespace Nexapipe.LocalProxy

open List Nat

def maxChunkSizeLine : Nat := 1024

def maxTrailerLine : Nat := 64 * 1024

inductive ChunkState where
  | size
  | data (left : Nat)
  | chunkEnd
  | trailer
  | done
deriving DecidableEq

structure Chunked where
  state : ChunkState
  line : List UInt8
deriving DecidableEq

def hexDigitsVal : Nat → List Char → Option Nat
  | acc, [] => some acc
  | acc, c :: rest => (Text.hexVal c).bind fun d => hexDigitsVal (16 * acc + d) rest

/-- An unsigned number of 64 bits in hex. One leading plus sign is accepted. -/
def parseHex (s : List Char) : Option Nat :=
  let digits := match s with
    | '+' :: rest => rest
    | _ => s
  match digits with
  | [] => none
  | _ :: _ => (hexDigitsVal 0 digits).filter (· < 2 ^ 64)

def stripLineEnd (line : List UInt8) : Option (List UInt8) :=
  if line.getLast? = some 10 then
    some (if line.dropLast.getLast? = some 13 then line.dropLast.dropLast else line.dropLast)
  else none

def chunkSize (line : List UInt8) : Option Nat :=
  (stripLineEnd line).bind fun line =>
    (Ascii.fromUtf8 (line.takeWhile (· ≠ 59))).bind fun text => parseHex (Text.trim text.toList)

def isEmptyLine (line : List UInt8) : Bool :=
  line = [13, 10] || line = [10]

namespace Chunked

def start : Chunked := ⟨.size, []⟩

def feed (c : Chunked) (byte : UInt8) : Chunked :=
  match c.state with
  | .size =>
    let line := c.line ++ [byte]
    if byte = 10 then
      match chunkSize line with
      | some 0 => ⟨.trailer, []⟩
      | some size => ⟨.data size, []⟩
      | none => ⟨.done, line⟩
    else if maxChunkSizeLine < line.length then ⟨.done, line⟩
    else ⟨.size, line⟩
  | .data left => if left - 1 = 0 then ⟨.chunkEnd, c.line⟩ else ⟨.data (left - 1), c.line⟩
  | .chunkEnd => if byte = 10 then ⟨.size, c.line⟩ else c
  | .trailer =>
    let line := c.line ++ [byte]
    if byte = 10 then
      if isEmptyLine line then ⟨.done, line⟩ else ⟨.trailer, []⟩
    else if maxTrailerLine < line.length then ⟨.done, line⟩
    else ⟨.trailer, line⟩
  | .done => c

def take (c : Chunked) : List UInt8 → Nat × Chunked
  | [] => (0, c)
  | byte :: bytes =>
    if c.state = .done then (0, c)
    else (((c.feed byte).take bytes).1 + 1, ((c.feed byte).take bytes).2)

end Chunked

inductive Body where
  | none
  | length (left : Nat)
  | chunked (c : Chunked)
deriving DecidableEq

namespace Body

def agreed (length : Option Nat) : List (List UInt8) → Option Nat
  | [] => length
  | value :: values =>
    ((toStr value).bind fun text =>
      Text.parseNat (2 ^ 64 - 1) (Text.trim text)).bind fun number =>
      match length with
      | some seen => if seen ≠ number then Option.none else agreed (some number) values
      | Option.none => agreed (some number) values

/-- What the headers of a request declare about the bytes that may follow its head. Lengths that
    cannot be read and lengths that disagree are no length. -/
def declared (headers : List Header) : Body :=
  if getAll "transfer-encoding" headers ≠ [] then .chunked Chunked.start
  else
    match agreed Option.none (getAll "content-length" headers) with
    | some left => .length left
    | Option.none => .none

def take (body : Body) (bytes : List UInt8) : Nat × Body :=
  match body with
  | .none => (0, .none)
  | .length left => (min left bytes.length, .length (left - min left bytes.length))
  | .chunked c => ((c.take bytes).1, .chunked (c.take bytes).2)

def isComplete : Body → Bool
  | .none => true
  | .length left => left = 0
  | .chunked c => c.state = .done

def part (body : Body) (bytes : List UInt8) : List UInt8 :=
  bytes.take (body.take bytes).1

def Fits (body : Body) (bytes : List UInt8) : Prop :=
  (body.take bytes).1 = bytes.length

instance (body : Body) (bytes : List UInt8) : Decidable (body.Fits bytes) :=
  inferInstanceAs (Decidable ((body.take bytes).1 = bytes.length))

end Body

/-- The loop of the plain path that passes the body on: what it writes. A write that fails ends it
    as a read that fails does. -/
def relay (body : Body) : List (List UInt8) → List UInt8
  | [] => []
  | chunk :: reads =>
    if body.isComplete then []
    else if chunk = [] then []
    else
      let taken := (body.take chunk).1
      chunk.take taken ++
        if taken < chunk.length then [] else relay (body.take chunk).2 reads

/-! ### Taking bytes in parts -/

theorem Chunked.take_of_done {c : Chunked} (h : c.state = .done) (x : List UInt8) :
    c.take x = (0, c) := by
  cases x with
  | nil => rfl
  | cons byte x => rw [Chunked.take, if_pos h]

theorem Chunked.take_append (c : Chunked) (x y : List UInt8) :
    c.take (x ++ y) =
      ((c.take x).1 + ((c.take x).2.take y).1, ((c.take x).2.take y).2) := by
  induction x generalizing c with
  | nil => simp [Chunked.take]
  | cons byte x ih =>
    rw [cons_append, Chunked.take, Chunked.take]
    split
    · rename_i hd
      simp [take_of_done hd]
    · simp [ih, Nat.add_right_comm]

theorem Chunked.done_of_take_ne {c : Chunked} {x : List UInt8} (h : (c.take x).1 ≠ x.length) :
    (c.take x).2.state = .done := by
  induction x generalizing c with
  | nil => exact absurd rfl h
  | cons byte x ih =>
    rw [Chunked.take] at h ⊢
    split
    · assumption
    · rename_i hd
      rw [if_neg hd] at h
      exact ih fun heq => h (congrArg Nat.succ heq)

theorem Chunked.take_le (c : Chunked) (x : List UInt8) : (c.take x).1 ≤ x.length := by
  induction x generalizing c with
  | nil => exact le_refl 0
  | cons byte x ih =>
    rw [Chunked.take]
    split
    · exact zero_le _
    · exact succ_le_succ (ih _)

namespace Body

variable (body : Body) (x : List UInt8)

theorem take_le : (body.take x).1 ≤ x.length := by
  cases body with
  | none => exact zero_le _
  | length left => exact min_le_right _ _
  | chunked c => exact c.take_le x

theorem take_append (y : List UInt8) : body.take (x ++ y) =
    ((body.take x).1 + ((body.take x).2.take y).1, ((body.take x).2.take y).2) := by
  cases body with
  | none => rfl
  | length left =>
    simp only [take, length_append, Prod.mk.injEq, Body.length.injEq]
    omega
  | chunked c => simp [take, Chunked.take_append]

theorem take_of_isComplete {body : Body} (h : body.isComplete = true) (x : List UInt8) :
    body.take x = (0, body) := by
  cases body with
  | none => rfl
  | length left =>
    simp only [isComplete, decide_eq_true_eq] at h
    simp [take, h]
  | chunked c =>
    simp only [isComplete, decide_eq_true_eq] at h
    simp [take, Chunked.take_of_done h]

theorem isComplete_of_not_fits {body : Body} {x : List UInt8} (h : ¬body.Fits x) :
    (body.take x).2.isComplete = true := by
  unfold Fits at h
  cases body with
  | none => rfl
  | length left =>
    simp only [take, isComplete, decide_eq_true_eq] at h ⊢
    omega
  | chunked c => exact decide_eq_true (Chunked.done_of_take_ne h)

theorem part_append {body : Body} {x : List UInt8} (h : body.Fits x) (y : List UInt8) :
    body.part (x ++ y) = x ++ (body.take x).2.part y := by
  unfold part
  rw [take_append, show (body.take x).1 = x.length from h, take_length_add_append]

theorem part_append_of_not_fits {body : Body} {x : List UInt8} (h : ¬body.Fits x)
    (y : List UInt8) : body.part (x ++ y) = body.part x := by
  unfold part
  rw [take_append, take_of_isComplete (isComplete_of_not_fits h), Nat.add_zero,
    take_append_of_le_length (body.take_le x)]

end Body

theorem relay_eq_part (body : Body) (reads : List (List UInt8)) :
    relay body reads = body.part (sent reads) := by
  induction reads generalizing body with
  | nil => simp [relay, sent, Body.part]
  | cons chunk reads ih =>
    rw [relay]
    split
    · rename_i hdo
      rw [Body.part, Body.take_of_isComplete hdo, take_zero]
    split
    · rename_i hend
      subst hend
      simp [sent, Body.part]
    rename_i hso
    obtain ⟨b, bytes, rfl⟩ := exists_cons_of_ne_nil hso
    rw [sent]
    simp only
    split
    · rename_i hless
      rw [Body.part_append_of_not_fits (Nat.ne_of_lt hless), append_nil, Body.part]
    rename_i hall
    have hle := body.take_le (b :: bytes)
    have hfi : body.Fits (b :: bytes) := le_antisymm hle (not_lt.mp hall)
    rw [Body.part_append hfi, ih, take_of_length_le (not_lt.mp hall)]

end Nexapipe.LocalProxy
