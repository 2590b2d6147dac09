import Nexapipe.LocalProxy.Head

/-!
# A head in pieces

The head arrives in reads, and the reader looks for its end from three bytes before each read. It
therefore finds the end where the stream has it, whatever the reads are. Before a read the buffer is
within the limit, so a head that ends within it is never refused for what was read before.

Nothing that was read is lost. The reader returns the buffer and the reads it has not made, and
the buffer is the one it was given with the others behind it, whatever the outcome.

## Main definitions

* `inTime`: The reads that are made by the deadline.
* `Kept`: What the reader leaves of the buffer and the reads.

## Theorems

* `readMore_of_position`, `readHttpHeader_iff`: The head ends where the stream has its end.
* `kept_readMore`, `kept_readHttpHeader`: Every read is in the buffer or still to be made.
* `head_found_whatever_the_packets`: Both, with the deadline.
-/

namespace Nexapipe.LocalProxy

open List Lines

/-- What is read by the deadline. A read that is ready at that moment is still made. -/
def inTime (deadline : Nat) (arrivals : List (Nat × List UInt8)) : List (List UInt8) :=
  (arrivals.takeWhile fun a => a.1 ≤ deadline).map Prod.snd

section

variable {requestBuf chunk buf : List UInt8} {reads rest : List (List UInt8)} {pos p : Nat}

theorem position_of_append {s t : List UInt8} (h : position terminator (s ++ t) = some pos)
    (hs : pos + 4 ≤ s.length) : position terminator s = some pos := by
  obtain ⟨hat, hfst⟩ := (position_eq_some_iff terminator_ne_nil).mp h
  rw [drop_append_of_le_length (by omega)] at hat
  refine (position_eq_some_iff terminator_ne_nil).mpr ⟨?_, fun m hm hbef => hfst m hm ?_⟩
  · refine prefix_of_prefix_length_le hat (prefix_append _ _) ?_
    simp only [terminator, length_cons, length_nil, length_drop]
    omega
  · rw [drop_append_of_le_length (by omega)]
    exact hbef.trans (prefix_append _ _)

theorem readMore_of_position (hno : position terminator requestBuf = none)
    (hpos : position terminator (requestBuf ++ sent reads) = some pos)
    (hlim : pos + 4 ≤ maxRequestHeader) :
    ∃ buf rest, readMore requestBuf reads = (.complete (pos + 4), buf, rest) := by
  induction reads generalizing requestBuf with
  | nil => simp [sent, hno] at hpos
  | cons chunk reads ih =>
    rcases chunk with _ | ⟨b, chunk⟩
    · simp [sent, hno] at hpos
    have hfound := position_resume hno (b :: chunk)
    rw [sent, ← append_assoc] at hpos
    rw [readMore]
    rcases hat : position terminator (requestBuf ++ b :: chunk) with _ | at'
    · -- Nothing yet: what has been read is less than the head.
      have hsh : (requestBuf ++ b :: chunk).length ≤ maxRequestHeader := by
        by_contra hlo
        rw [position_of_append hpos (by omega)] at hat
        cases hat
      rw [hat] at hfound
      simp only [Option.map_eq_none_iff.mp hfound.symm, Option.map_none, headerOverLimit,
        Option.getD_none, decide_eq_true_eq, if_neg (not_lt.mpr hsh)]
      exact ih hat hpos
    · rw [position_append_of_some terminator_ne_nil hat] at hpos
      cases hpos
      rw [hat] at hfound
      obtain ⟨k, hk, rfl⟩ := Option.map_eq_some_iff.mp hfound.symm
      simp only [hk, Option.map_some, headerOverLimit, Option.getD_some, decide_eq_true_eq,
        if_neg (not_lt.mpr hlim)]
      exact ⟨_, _, rfl⟩

theorem readHttpHeader_iff (p : Nat) :
    (∃ buf rest, readHttpHeader requestBuf reads = (.complete p, buf, rest)) ↔
      ∃ pos, position terminator (requestBuf ++ sent reads) = some pos ∧ p = pos + 4 ∧
        p ≤ maxRequestHeader := by
  constructor
  · rintro ⟨buf, rest, h⟩
    obtain ⟨hsent, pos, hpos, hp, hlim⟩ := readHttpHeader_sent h
    refine ⟨pos, ?_, hp, hlim⟩
    rw [← hsent]
    exact position_append_of_some terminator_ne_nil hpos _
  · rintro ⟨pos, hpos, rfl, hlim⟩
    unfold readHttpHeader
    rcases hat : position terminator requestBuf with _ | at'
    · have hsh : requestBuf.length ≤ maxRequestHeader := by
        by_contra hlo
        rw [position_of_append hpos (by omega)] at hat
        cases hat
      simp only [Option.map_none, headerOverLimit, Option.getD_none, decide_eq_true_eq,
        if_neg (not_lt.mpr hsh)]
      exact readMore_of_position hat hpos hlim
    · rw [position_append_of_some terminator_ne_nil hat] at hpos
      cases hpos
      simp only [Option.map_some, headerOverLimit, Option.getD_some, decide_eq_true_eq,
        if_neg (not_lt.mpr hlim)]
      exact ⟨_, _, rfl⟩

/-- The reads that were made are in the buffer, in order and behind what was there, and the others
    are left. A head that was found is in the buffer. Reading was given up because nothing more
    came, at the end of the stream or past the limit. Before the last read the buffer was within
    the limit. -/
structure Kept (requestBuf : List UInt8) (reads : List (List UInt8)) (outcome : HeaderOutcome)
    (buf : List UInt8) (made rest : List (List UInt8)) : Prop where
  reads_eq : reads = made ++ rest
  buf_eq : buf = requestBuf ++ made.flatten
  found : ∀ p, outcome = .complete p → p ≤ buf.length
  givenUp : outcome = .closed →
    rest = [] ∨ made.getLast? = some [] ∨ maxRequestHeader < buf.length
  bounded : ∀ last, made.getLast? = some last → buf.length ≤ maxRequestHeader + last.length

theorem headerOverLimit_length {headerEnd : Option Nat} (hle : ∀ e ∈ headerEnd, e ≤ buf.length)
    (h : headerOverLimit buf headerEnd = true) : maxRequestHeader < buf.length := by
  rw [headerOverLimit, decide_eq_true_eq] at h
  rcases headerEnd with _ | e
  · exact h
  · exact Nat.lt_of_lt_of_le h (hle e rfl)

theorem kept_readMore (hsh : requestBuf.length ≤ maxRequestHeader) :
    ∃ made, Kept requestBuf reads (readMore requestBuf reads).1 (readMore requestBuf reads).2.1
      made (readMore requestBuf reads).2.2 := by
  induction reads generalizing requestBuf with
  | nil =>
    exact ⟨[], rfl, (append_nil _).symm, (fun _ h => by cases h), fun _ => .inl rfl,
      (fun _ h => by cases h)⟩
  | cons chunk reads ih =>
    rcases chunk with _ | ⟨b, chunk⟩
    · refine ⟨[[]], rfl, (append_nil _).symm, (fun _ h => by cases h), fun _ => .inr (.inl rfl), ?_⟩
      rintro _ ⟨⟩
      exact hsh
    have hlen : (requestBuf ++ b :: chunk).length ≤ maxRequestHeader + (b :: chunk).length := by
      rw [length_append]
      omega
    have hone : requestBuf ++ b :: chunk = requestBuf ++ [b :: chunk].flatten := by
      rw [flatten_singleton]
    -- An end that was found lies in the buffer.
    have hin : ∀ e ∈ (position terminator ((requestBuf ++ b :: chunk).drop
        (requestBuf.length - 3))).map (fun pos => requestBuf.length - 3 + pos + 4),
        e ≤ (requestBuf ++ b :: chunk).length := by
      intro e he
      obtain ⟨pos, hpos, rfl⟩ := Option.map_eq_some_iff.mp he
      have hle := le_of_position hpos
      rw [length_drop] at hle
      omega
    rw [readMore]
    revert hin
    generalize Option.map _ (position terminator _) = headerEnd
    intro hin
    by_cases hover : headerOverLimit (requestBuf ++ b :: chunk) headerEnd = true
    · rw [if_pos hover]
      refine ⟨[b :: chunk], rfl, hone, (fun _ h => by cases h), ?_, by rintro _ ⟨⟩; exact hlen⟩
      exact fun _ => .inr (.inr (headerOverLimit_length hin hover))
    rw [if_neg hover]
    rcases headerEnd with _ | headerEnd
    · have hsh : (requestBuf ++ b :: chunk).length ≤ maxRequestHeader := by
        simpa [headerOverLimit] using hover
      obtain ⟨made, hk⟩ := ih hsh
      refine ⟨(b :: chunk) :: made, ?_, ?_, hk.found, fun hcl => ?_, fun last hla => ?_⟩
      · exact congrArg (cons (b :: chunk)) hk.reads_eq
      · rw [flatten_cons, ← append_assoc]
        exact hk.buf_eq
      · rcases hk.givenUp hcl with hrest | hend | hlim
        · exact .inl hrest
        · exact .inr (.inl (by rw [getLast?_cons, hend]; rfl))
        · exact .inr (.inr hlim)
      · rw [getLast?_cons] at hla
        rcases hmade : made.getLast? with _ | last'
        · rw [hmade] at hla
          cases hla
          rw [getLast?_eq_none_iff] at hmade
          rw [hk.buf_eq, hmade, flatten_nil, append_nil]
          exact hlen
        · rw [hmade] at hla
          cases hla
          exact hk.bounded last' hmade
    · refine ⟨[b :: chunk], rfl, hone, ?_, (fun h => by cases h), by rintro _ ⟨⟩; exact hlen⟩
      rintro _ ⟨⟩
      exact hin headerEnd rfl

theorem kept_readHttpHeader (requestBuf : List UInt8) (reads : List (List UInt8)) :
    ∃ made, Kept requestBuf reads (readHttpHeader requestBuf reads).1
      (readHttpHeader requestBuf reads).2.1 made (readHttpHeader requestBuf reads).2.2 := by
  have hin : ∀ e ∈ (position terminator requestBuf).map (· + 4), e ≤ requestBuf.length := by
    intro e he
    obtain ⟨pos, hpos, rfl⟩ := Option.map_eq_some_iff.mp he
    exact le_of_position hpos
  unfold readHttpHeader
  revert hin
  generalize Option.map _ (position terminator requestBuf) = headerEnd
  intro hin
  by_cases hover : headerOverLimit requestBuf headerEnd = true
  · simp only [if_pos hover]
    refine ⟨[], rfl, (append_nil _).symm, (fun _ h => by cases h), fun _ => ?_,
      (fun _ h => by cases h)⟩
    exact .inr (.inr (headerOverLimit_length hin hover))
  simp only [if_neg hover]
  rcases headerEnd with _ | headerEnd
  · exact kept_readMore (by simpa [headerOverLimit] using hover)
  · refine ⟨[], rfl, (append_nil _).symm, ?_, (fun h => by cases h), (fun _ h => by cases h)⟩
    rintro _ ⟨⟩
    exact hin headerEnd rfl

theorem exists_sent_append (reads more : List (List UInt8)) :
    ∃ later, sent (reads ++ more) = sent reads ++ later := by
  induction reads with
  | nil => exact ⟨sent more, rfl⟩
  | cons chunk reads ih =>
    obtain ⟨later, hlat⟩ := ih
    rcases chunk with _ | ⟨b, chunk⟩
    · exact ⟨[], rfl⟩
    · exact ⟨later, by simp [sent, hlat]⟩

theorem inTime_split (deadline : Nat) (arrivals : List (Nat × List UInt8)) :
    ∃ early late, arrivals = early ++ late ∧ inTime deadline arrivals = early.map Prod.snd ∧
      (∀ a ∈ early, a.1 ≤ deadline) ∧ ∀ a ∈ late.head?, deadline < a.1 := by
  refine ⟨_, _, takeWhile_append_dropWhile.symm, rfl, fun a ha => ?_, fun a ha => ?_⟩
  · simpa using mem_takeWhile_imp ha
  · have hnot := head?_dropWhile_not (fun a : Nat × List UInt8 => decide (a.1 ≤ deadline)) arrivals
    rw [ha] at hnot
    simpa using hnot

/-- For every stream and every way it is cut into reads: the reader reports the head that ends where
    the first empty line of the stream does, if that is within the limit and is there with some
    of the reads, none of which comes after the deadline or behind the end of the stream. The
    buffer it leaves holds what was read, in order, and is past the limit by no more than its
    last read. -/
theorem head_found_whatever_the_packets (requestBuf : List UInt8) (deadline : Nat)
    (arrivals : List (Nat × List UInt8)) :
    ∃ outcome buf rest,
      readHttpHeader requestBuf (inTime deadline arrivals) = (outcome, buf, rest) ∧
      (∀ p, outcome = .complete p ↔
        (∃ pos, position terminator (requestBuf ++ sent (arrivals.map Prod.snd)) = some pos ∧
          p = pos + 4) ∧ p ≤ maxRequestHeader ∧
        ∃ k, (∀ a ∈ arrivals.take k, a.1 ≤ deadline) ∧
          p ≤ (requestBuf ++ sent ((arrivals.take k).map Prod.snd)).length) ∧
      ∃ k, (∀ a ∈ arrivals.take k, a.1 ≤ deadline) ∧
        (rest = [] → ∀ a ∈ arrivals[k]?, deadline < a.1) ∧
        Kept requestBuf (inTime deadline arrivals) outcome buf ((arrivals.take k).map Prod.snd)
          rest := by
  obtain ⟨early, late, hsplit, hread, hearly, hlate⟩ := inTime_split deadline arrivals
  refine ⟨_, _, (readHttpHeader requestBuf (inTime deadline arrivals)).2.2, rfl, ?_, ?_⟩
  · intro p
    have hiff := @readHttpHeader_iff requestBuf (inTime deadline arrivals) p
    obtain ⟨later, hlat⟩ := exists_sent_append (inTime deadline arrivals) (late.map Prod.snd)
    rw [hread, ← map_append, ← hsplit, ← hread] at hlat
    rw [hlat, ← append_assoc]
    constructor
    · intro hp
      obtain ⟨pos, hpos, rfl, hlim⟩ := hiff.mp ⟨_, _, Prod.ext hp rfl⟩
      have hwh := position_append_of_some terminator_ne_nil hpos later
      refine ⟨⟨pos, hwh, rfl⟩, hlim, early.length, ?_⟩
      rw [hread] at hpos
      rw [hsplit, take_left]
      exact ⟨hearly, le_of_position hpos⟩
    · rintro ⟨⟨pos, hpos, rfl⟩, hlim, k, hk, hlen⟩
      -- What is there by the deadline begins with these reads.
      obtain ⟨more, hmore⟩ : ∃ more, inTime deadline arrivals =
          (arrivals.take k).map Prod.snd ++ more := by
        refine ⟨inTime deadline (arrivals.drop k), ?_⟩
        conv_lhs => rw [inTime, ← take_append_drop k arrivals]
        rw [takeWhile_append_of_pos fun a ha => decide_eq_true (hk a ha), map_append, inTime]
      obtain ⟨behind, hbehind⟩ := exists_sent_append ((arrivals.take k).map Prod.snd) more
      rw [← hmore] at hbehind
      have hle : pos + 4 ≤ (requestBuf ++ sent (inTime deadline arrivals)).length := by
        rw [hbehind]
        simp only [length_append] at hlen ⊢
        omega
      obtain ⟨buf, rest, h⟩ := hiff.mpr ⟨pos, position_of_append hpos hle, rfl, hlim⟩
      exact congrArg Prod.fst h
  · obtain ⟨made, hkept⟩ := kept_readHttpHeader requestBuf (inTime deadline arrivals)
    have hreads := hread.symm.trans hkept.reads_eq
    have hlen := congrArg length hreads
    rw [length_map, length_append] at hlen
    have htake : arrivals.take made.length = early.take made.length := by
      rw [hsplit, take_append_of_le_length (by omega)]
    have hmade : (arrivals.take made.length).map Prod.snd = made := by
      rw [htake, map_take, hreads, take_left]
    refine ⟨made.length, ?_, fun hnil a ha => ?_, by rw [hmade]; exact hkept⟩
    · rw [htake]
      exact fun a ha => hearly a (mem_of_mem_take ha)
    · rw [hnil, length_nil] at hlen
      rw [hsplit, getElem?_append_right (by omega), show made.length - early.length = 0 by omega,
        ← head?_eq_getElem?] at ha
      exact hlate a ha

end

end Nexapipe.LocalProxy
