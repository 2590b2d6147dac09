import Nexapipe.LocalProxy.Body

/-!
# The meter of a body

Between two calls the meter keeps all it needs, so a body is counted the same in any calls. One that
is well formed is counted up to its last byte, with which it is complete.

Of another one more is counted than up to where it goes wrong: a size line that cannot be read to
its end, and what stands between the data of a chunk and the next line feed.

The grammar of chunked bodies has the lengths of its lines for parameters. The meter has limits
for them, and a server may have others or none.

## Main definitions

* `Body.takeAll`, `Body.Metered`: The meter call by call, and what it means to be exact.
* `ShortLine`, `SizeLine`, `Chunk`, `ChunkedBody`: The grammar of a chunked body.
* `Chunked.Reads`: All of some bytes are counted, and where that leads.

## Theorems

* `Body.metered_of_take`: What is counted in one call is counted in any.
* `SizeLine.chunkSize_eq`: The code reads the size that a size line spells.
* `Chunked.reads_chunks`, `Chunked.reads_body`: Chunks and whole bodies are read to their end.
* `bodies_metered`: Well-formed bodies are metered exactly.
-/

namespace Nexapipe.LocalProxy

open List

/-- One call after the other. -/
def Body.takeAll (body : Body) : List (List UInt8) → Nat × Body
  | [] => (0, body)
  | bytes :: calls =>
    ((body.take bytes).1 + ((body.take bytes).2.takeAll calls).1,
      ((body.take bytes).2.takeAll calls).2)

/-- The bytes are metered as the body: however they and what follows them come, all of them are
    counted and nothing else, and the body is complete when they are. -/
def Body.Metered (body : Body) (bytes : List UInt8) : Prop :=
  ∀ rest calls, calls.flatten <+: bytes ++ rest →
    (body.takeAll calls).1 = min calls.flatten.length bytes.length ∧
      ((body.takeAll calls).2.isComplete = true ↔ bytes.length ≤ calls.flatten.length)

/-- A line of a chunked body that the meter holds: one line, within a limit. -/
structure ShortLine (limit : Nat) where
  text : List UInt8
  one_line : 10 ∉ text
  short : text.length ≤ limit

/-- A size in hex digits, and what may follow it behind a semicolon. -/
structure SizeLine (limit : Nat) extends ShortLine limit where
  digits : List Char
  extension : List UInt8
  size : Nat
  spelled : text = asBytes digits ++ extension ++ [13]
  digits_ne : digits ≠ []
  value : hexDigitsVal 0 digits = some size
  bounded : size < 2 ^ 64
  behind : extension = [] ∨ extension.head? = some 59

/-- A size and as many bytes of data. -/
structure Chunk (limit : Nat) extends SizeLine limit where
  data : List UInt8
  data_ne : data ≠ []
  data_length : data.length = size

def Chunk.bytes {limit : Nat} (c : Chunk limit) : List UInt8 :=
  c.text ++ [10] ++ c.data ++ [13, 10]

/-- Chunks, a size of zero and the trailers, which end in an empty line. -/
structure ChunkedBody (sizeLimit trailerLimit : Nat) where
  chunks : List (Chunk sizeLimit)
  last : SizeLine sizeLimit
  last_size : last.size = 0
  trailers : List (ShortLine trailerLimit)
  not_empty : ∀ t ∈ trailers, t.text ≠ [] ∧ t.text ≠ [13]

def ChunkedBody.bytes {sizeLimit trailerLimit : Nat} (b : ChunkedBody sizeLimit trailerLimit) :
    List UInt8 :=
  b.chunks.flatMap Chunk.bytes ++ (b.last.text ++ [10] ++
    (b.trailers.flatMap (fun t => t.text ++ [10]) ++ [13, 10]))

/-! ### What is counted in one call -/

theorem Body.take_nil (body : Body) : body.take [] = (0, body) := by
  cases body <;> simp [take, Chunked.take]

theorem Body.takeAll_eq (body : Body) (calls : List (List UInt8)) :
    body.takeAll calls = body.take calls.flatten := by
  induction calls generalizing body with
  | nil => rw [takeAll, flatten_nil, take_nil]
  | cons bytes calls ih => rw [takeAll, ih, flatten_cons, take_append]

theorem Body.metered_of_take {body body' : Body} {bytes : List UInt8}
    (h : body.take bytes = (bytes.length, body')) (hdo : body'.isComplete = true) :
    body.Metered bytes := by
  intro rest calls hcal
  rw [takeAll_eq]
  generalize calls.flatten = part at hcal ⊢
  rcases le_total part.length bytes.length with hle | hle
  · obtain ⟨more, rfl⟩ := prefix_of_prefix_length_le hcal (prefix_append _ _) hle
    have hpa := body.take_le part
    have hmo := (body.take part).2.take_le more
    rw [take_append, Prod.mk.injEq, length_append] at h
    rw [length_append]
    refine ⟨by omega, fun hcom => ?_, fun hall => ?_⟩
    · -- A body that is complete takes nothing more, so nothing of it is left.
      rw [take_of_isComplete hcom] at h
      omega
    · obtain rfl : more = [] := length_eq_zero_iff.mp (by omega)
      rwa [← h.2, take_nil] at hdo
  · obtain ⟨more, rfl⟩ := prefix_of_prefix_length_le (prefix_append _ _) hcal hle
    rw [take_append, h, take_of_isComplete hdo]
    simp [hdo]

namespace Chunked

variable {c c' c'' : Chunked} {x y acc line : List UInt8}

/-- All the bytes are counted, and this is where they lead. -/
def Reads (c : Chunked) (bytes : List UInt8) (c' : Chunked) : Prop :=
  c.take bytes = (bytes.length, c')

theorem Reads.append (h : c.Reads x c') (h' : c'.Reads y c'') : c.Reads (x ++ y) c'' := by
  unfold Reads at *
  rw [take_append, h, h', length_append]

theorem Reads.flatMap {α : Type} {f : α → List UInt8} {xs : List α}
    (h : ∀ a ∈ xs, c.Reads (f a) c) : c.Reads (xs.flatMap f) c := by
  induction xs with
  | nil => rfl
  | cons a xs ih =>
    rw [forall_mem_cons] at h
    exact h.1.append (ih h.2)

theorem reads_singleton (h : c.state ≠ .done) (byte : UInt8) : c.Reads [byte] (c.feed byte) := by
  rw [Reads, take, if_neg h]
  rfl

theorem reads_line {state : ChunkState} {limit : Nat} (hst : state ≠ .done)
    (hf : ∀ acc b, b ≠ 10 → acc.length + 1 ≤ limit → feed ⟨state, acc⟩ b = ⟨state, acc ++ [b]⟩)
    (hl : 10 ∉ line) (hsh : (acc ++ line).length ≤ limit) :
    Reads ⟨state, acc⟩ line ⟨state, acc ++ line⟩ := by
  induction line generalizing acc with
  | nil =>
    rw [append_nil]
    rfl
  | cons b line ih =>
    rw [mem_cons, not_or] at hl
    have hr : Reads ⟨state, acc ++ [b]⟩ line ⟨state, acc ++ [b] ++ line⟩ :=
      ih hl.2 (by simpa using hsh)
    rw [length_append, length_cons] at hsh
    rw [← hf acc b (Ne.symm hl.1) (by omega), append_assoc] at hr
    exact (reads_singleton hst b).append hr

theorem reads_data {data : List UInt8} (hd : data ≠ []) :
    Reads ⟨.data data.length, acc⟩ data ⟨.chunkEnd, acc⟩ := by
  induction data with
  | nil => exact absurd rfl hd
  | cons b data ih =>
    refine (reads_singleton (by simp) b).append (y := data) ?_
    rcases data with _ | ⟨b', data⟩
    · rfl
    · exact ih (by simp)

theorem reads_chunkEnd (hl : 10 ∉ line) :
    Reads ⟨.chunkEnd, acc⟩ (line ++ [10]) ⟨.size, acc⟩ := by
  have hs : Reads ⟨.chunkEnd, acc⟩ (line.flatMap fun b => [b]) ⟨.chunkEnd, acc⟩ := by
    refine Reads.flatMap fun b hb => ?_
    have hb : b ≠ 10 := fun heq => hl (heq ▸ hb)
    simpa [feed, hb] using reads_singleton (c := ⟨.chunkEnd, acc⟩) (by simp) b
  rw [flatMap_singleton'] at hs
  exact hs.append rfl

end Chunked

/-! ### Sizes -/

theorem hexDigits_range {digits : List Char} {start size : Nat}
    (h : hexDigitsVal start digits = some size) :
    ∀ ch ∈ digits, 48 ≤ ch.toNat ∧ ch.toNat ≤ 102 ∧ ch.toNat ≠ 59 := by
  induction digits generalizing start with
  | nil => simp
  | cons ch digits ih =>
    obtain ⟨d, hd, h⟩ := Option.bind_eq_some_iff.mp h
    refine forall_mem_cons.mpr ⟨?_, ih h⟩
    revert hd
    fun_cases Text.hexVal ch with
    | case1 hin | case2 _ hin | case3 _ _ hin =>
      obtain ⟨hlow, hhi⟩ := hin
      change _ ≤ ch.toNat at hlow
      change ch.toNat ≤ _ at hhi
      simp at hlow hhi
      omega
    | case4 => rintro ⟨⟩

theorem SizeLine.chunkSize_eq {limit : Nat} (l : SizeLine limit) :
    chunkSize (l.text ++ [10]) = some l.size := by
  have hhex := hexDigits_range l.value
  have hstr : stripLineEnd (l.text ++ [10]) = some (asBytes l.digits ++ l.extension) := by
    rw [l.spelled]
    simp [stripLineEnd]
  have hcut : (asBytes l.digits ++ l.extension).takeWhile (· ≠ 59) = asBytes l.digits := by
    have hdig : ∀ b ∈ asBytes l.digits, decide (b ≠ 59) = true := by
      intro b hb
      obtain ⟨ch, hch, rfl⟩ := mem_map.mp hb
      have hran := hhex ch hch
      refine decide_eq_true fun heq => ?_
      rw [← UInt8.toNat_inj, UInt8.toNat_ofNat'] at heq
      change ch.toNat % 256 = 59 at heq
      omega
    rw [takeWhile_append_of_pos hdig]
    rcases hext : l.extension with _ | ⟨b, more⟩
    · simp
    · have hbehind := l.behind
      simp only [hext, reduceCtorEq, head?_cons, Option.some.injEq, false_or] at hbehind
      simp [hbehind]
  have hut : Ascii.fromUtf8 (asBytes l.digits) = some (String.ofList l.digits) := by
    rw [Ascii.fromUtf8_eq_some_iff, Ascii.utf8_ofList]
    exact Ascii.flatMap_utf8EncodeChar fun ch hch => (hhex ch hch).2.1.trans_lt (by decide)
  have htr : Text.trim l.digits = l.digits := by
    refine Text.trim_of_forall_not fun ch hch => ?_
    have hran := hhex ch hch
    simp [Text.isWhitespace]
    omega
  have hpar : parseHex l.digits = some l.size := by
    unfold parseHex
    split
    · rename_i rest hpl
      exact absurd (hhex '+' (by simp [hpl])) (by decide)
    · obtain ⟨ch, rest, hdig⟩ := exists_cons_of_ne_nil l.digits_ne
      have hval := l.value
      rw [hdig] at hval ⊢
      simpa [hval] using l.bounded
  simp only [chunkSize, hstr, Option.bind_some, hcut, hut, String.toList_ofList, htr, hpar]

/-! ### Bodies -/

namespace Chunked

theorem reads_size (l : ShortLine maxChunkSizeLine) :
    start.Reads (l.text ++ [10]) (feed ⟨.size, l.text⟩ 10) := by
  have ht : start.Reads l.text ⟨.size, [] ++ l.text⟩ :=
    reads_line (by simp) (fun acc b hb hle => by simpa [feed, hb] using hle) l.one_line l.short
  exact ht.append (reads_singleton (by simp) 10)

theorem reads_chunk (c : Chunk maxChunkSizeLine) : start.Reads c.bytes start := by
  have hsize : feed ⟨.size, c.text⟩ 10 = ⟨.data c.data.length, []⟩ := by
    have hpos := length_pos_iff.mpr c.data_ne
    simp only [feed, if_true, c.chunkSize_eq, ← c.data_length]
    split <;> simp_all
  have ht := reads_size c.toShortLine
  rw [hsize] at ht
  have hcr : 10 ∉ [(13 : UInt8)] := by decide
  exact (ht.append (reads_data c.data_ne)).append (reads_chunkEnd hcr)

theorem reads_chunks (chunks : List (Chunk maxChunkSizeLine)) :
    start.Reads (chunks.flatMap Chunk.bytes) start :=
  Reads.flatMap fun c _ => reads_chunk c

theorem reads_trailer (t : ShortLine maxTrailerLine) (ht : t.text ≠ [] ∧ t.text ≠ [13]) :
    Reads ⟨.trailer, []⟩ (t.text ++ [10]) ⟨.trailer, []⟩ := by
  have hte : Reads ⟨.trailer, []⟩ t.text ⟨.trailer, [] ++ t.text⟩ :=
    reads_line (by simp) (fun acc b hb hle => by simpa [feed, hb] using hle) t.one_line t.short
  have hl : feed ⟨.trailer, t.text⟩ 10 = ⟨.trailer, []⟩ := by
    have hc : t.text ++ [10] ≠ [13] ++ [10] := fun heq => ht.2 (append_cancel_right heq)
    simp_all [feed, isEmptyLine]
  exact hl ▸ hte.append (reads_singleton (by simp) 10)

theorem reads_body (b : ChunkedBody maxChunkSizeLine maxTrailerLine) :
    start.Reads b.bytes ⟨.done, [13, 10]⟩ := by
  have hl : feed ⟨.size, b.last.text⟩ 10 = ⟨.trailer, []⟩ := by
    simp [feed, b.last.chunkSize_eq, b.last_size]
  have hsize := reads_size b.last.toShortLine
  rw [hl] at hsize
  have htr : Reads ⟨.trailer, []⟩ (b.trailers.flatMap fun t => t.text ++ [10])
      ⟨.trailer, []⟩ := Reads.flatMap fun t ht => reads_trailer t (b.not_empty t ht)
  exact (reads_chunks b.chunks).append (hsize.append (htr.append rfl))

theorem Reads.metered {c c' : Chunked} {bytes : List UInt8} (h : c.Reads bytes c')
    (hd : c'.state = .done) : (Body.chunked c).Metered bytes := by
  have ht : (Body.chunked c).take bytes = (bytes.length, .chunked c') := by
    rw [Body.take, show c.take bytes = _ from h]
  exact Body.metered_of_take ht (decide_eq_true hd)

end Chunked

/-- A line that is read for a size and has none. -/
structure UnreadableLine extends ShortLine maxChunkSizeLine where
  unread : chunkSize (text ++ [10]) = none

/-- A well-formed body is metered exactly, in any calls and whatever follows it. One with a size
    line within the limit that cannot be read is metered up to the end of that line. -/
theorem bodies_metered :
    (∀ b : ChunkedBody maxChunkSizeLine maxTrailerLine, (Body.chunked .start).Metered b.bytes) ∧
      (∀ bytes : List UInt8, (Body.length bytes.length).Metered bytes) ∧
      ∀ (chunks : List (Chunk maxChunkSizeLine)) (l : UnreadableLine),
        (Body.chunked .start).Metered (chunks.flatMap Chunk.bytes ++ (l.text ++ [10])) := by
  refine ⟨fun b => (Chunked.reads_body b).metered rfl, fun bytes => ?_, fun chunks l => ?_⟩
  · have ht : (Body.length bytes.length).take bytes = (bytes.length, .length 0) := by
      rw [Body.take, min_self, Nat.sub_self]
    exact Body.metered_of_take ht rfl
  · have hsize := Chunked.reads_size l.toShortLine
    refine ((Chunked.reads_chunks chunks).append hsize).metered ?_
    simp [Chunked.feed, l.unread]

/-- A body of one byte, with an extension to its size and a trailer. -/
def oneByte : ChunkedBody maxChunkSizeLine maxTrailerLine where
  chunks := [{
    text := asBytes "1;x\r".toList
    one_line := by decide
    short := by decide
    digits := "1".toList
    extension := asBytes ";x".toList
    size := 1
    spelled := by decide
    digits_ne := by decide
    value := by decide
    bounded := by decide
    behind := by decide
    data := asBytes "a".toList
    data_ne := by decide
    data_length := by decide }]
  last := {
    text := asBytes "0\r".toList
    one_line := by decide
    short := by decide
    digits := "0".toList
    extension := []
    size := 0
    spelled := by decide
    digits_ne := by decide
    value := by decide
    bounded := by decide
    behind := by decide }
  last_size := rfl
  trailers := [⟨asBytes "t: 1\r".toList, by decide, by decide⟩]
  not_empty := by decide

example : oneByte.bytes = asBytes "1;x\r\na\r\n0\r\nt: 1\r\n\r\n".toList := by decide

/-- A size that is no number is counted up to its line feed, and so is a request that follows the
    data of a chunk. -/
theorem counted_past_the_fault :
    (Chunked.start.take (asBytes "zz\r\n".toList)).1 = 4 ∧
      (Chunked.start.take (asBytes "1\r\naGET / HTTP/1.1\r\n".toList)).1 = 20 := by
  decide +kernel

end Nexapipe.LocalProxy
