import Nexapipe.Proto.Preface
import Nexapipe.Proto.Udp

/-!
# Datagrams through the tunnel

The two loops that take datagrams off a tunnel. On the server `clientToBackend` reads the client's
stream and sends to the backend's socket; on the client `runUdpFlow` reads the tunnel and hands
datagrams to the TUN, with the application's own datagrams going the other way through the same
loop. Both decode every whole frame they hold before they read again (`drainFrames`), and both have
a ceiling on what they hold and an exit for a peer that goes past it.

What either loop keeps true is `Framing.Held`: the datagrams passed on, what it holds and what is
yet to come are the stream.
-/

namespace Nexapipe.Udp

open List Nat

/-! ### The loops -/

inductive PumpExit where
  | oversize
  | overflow
  | sinkGone
  | ended
  | failed
  | idle
  | cancelled
  | stopped
  | replaced

/-- A pump between two reads: what it holds undecoded, the datagrams it passed on, the most it
    has held so far, the bytes it wrote into the tunnel, and why it ended, if it did. -/
structure Pump where
  held : List UInt8
  passed : List (List UInt8)
  peak : Nat
  written : List UInt8
  exit : Option PumpExit

/-- Decodes whole frames from a cursor on: the cursor behind the last one, what was passed on
    and the exit taken, if one was. Every frame has bytes, so as many turns as there are
    bytes are enough. -/
def drainFrames (sink : List UInt8 → Bool) :
    Nat → List UInt8 → Nat → List (List UInt8) → Nat × List (List UInt8) × Option PumpExit
  | 0, _, offset, passed => (offset, passed, none)
  | turns + 1, pending, offset, passed =>
    match decodeFrame (pending.drop offset) with
    | .incomplete => (offset, passed, none)
    | .ready payload consumed =>
      if !payloadFitsDatagram payload then (offset, passed, some .oversize)
      else if !sink payload then (offset, passed, some .sinkGone)
      else drainFrames sink turns pending (offset + consumed) (passed ++ [payload])

/-- What a read of the client's stream came to. No bytes are the end of the stream. -/
inductive StreamRead where
  | data (bytes : List UInt8)
  | failed
  | idle

def udpSendBufferBytes : Nat := 4 * 1024

/-- What the server holds of a frame at most: the length, the largest payload a length can
    announce, and one read. -/
def udpPendingBufferBytes : Nat := frameHeaderLen + 65535 + udpSendBufferBytes

def clientToBackend (send : List UInt8 → Bool) :
    List StreamRead → List UInt8 → List (List UInt8) → Nat → Pump
  | reads, pending, passed, peak =>
    match drainFrames send pending.length pending 0 passed with
    | (_, passed, some exit) => ⟨pending, passed, peak, [], some exit⟩
    | (offset, passed, none) =>
      let pending := pending.drop offset
      match reads with
      | [] => ⟨pending, passed, peak, [], none⟩
      | .data [] :: _ => ⟨pending, passed, peak, [], some .ended⟩
      | .data (byte :: more) :: reads =>
        -- The ceiling is checked before the read is taken in.
        if pending.length + (byte :: more).length > udpPendingBufferBytes then
          ⟨pending, passed, peak, [], some .overflow⟩
        else
          let pending := pending ++ byte :: more
          clientToBackend send reads pending passed (max peak pending.length)
      | .failed :: _ => ⟨pending, passed, peak, [], some .failed⟩
      | .idle :: _ => ⟨pending, passed, peak, [], some .idle⟩

def tunnelReadBytes : Nat := maxUdpPayload + frameHeaderLen

def maxUdpPartial : Nat := 2 * (maxUdpPayload + frameHeaderLen)

/-- What the client's loop woke up for. A datagram of the application comes with whether the
    tunnel took its frame. -/
inductive Activity where
  | application (datagram : List UInt8) (written : Bool)
  | applicationGone
  | tunnel (bytes : List UInt8)
  | tunnelEnd
  | tunnelFailed
  | cancelled
  | stopped
  | idle

def Pump.takeTunnel (sink : List UInt8 → Bool) (p : Pump) (bytes : List UInt8) : Pump :=
  let held := p.held ++ bytes
  let peak := max p.peak held.length
  if held.length > maxUdpPartial then { p with held, peak, exit := some .overflow }
  else
    match drainFrames sink held.length held 0 p.passed with
    | (consumed, passed, exit) => { p with held := held.drop consumed, peak, passed, exit }

def Pump.turn (sink : List UInt8 → Bool) (p : Pump) : Activity → Pump
  | .applicationGone => { p with exit := some .replaced }
  | .application datagram written =>
    match encodeFrame datagram [] with
    -- A datagram too large for a frame is dropped, and the flow goes on.
    | (.error _, _) => p
    | (.ok (), encoded) =>
      if written then { p with written := p.written ++ encoded }
      else { p with exit := some .failed }
  | .tunnelEnd => { p with exit := some .ended }
  -- A read that returned no bytes is not an end of stream.
  | .tunnel [] => p
  | .tunnel (byte :: more) => p.takeTunnel sink (byte :: more)
  | .tunnelFailed => { p with exit := some .failed }
  | .cancelled => { p with exit := some .cancelled }
  | .stopped => { p with exit := some .stopped }
  | .idle => { p with exit := some .idle }

def runUdpFlow (sink : List UInt8 → Bool) : List Activity → Pump → Pump
  | [], p => p
  | activity :: activities, p =>
    let p := p.turn sink activity
    if p.exit.isSome then p else runUdpFlow sink activities p

def Pump.fresh : Pump :=
  ⟨[], [], 0, [], none⟩

structure TunnelReader where
  leftover : List UInt8
  offset : Nat

/-- A read into a buffer of `cap` bytes, while there is something left over. Afterwards the
    stream itself is read. -/
def TunnelReader.read (cap : Nat) (r : TunnelReader) : Option (List UInt8 × TunnelReader) :=
  if r.offset < r.leftover.length then
    let n := min cap (r.leftover.length - r.offset)
    some ((r.leftover.drop r.offset).take n, { r with offset := r.offset + n })
  else none

def TunnelReader.pieces (cap : Nat) : Nat → TunnelReader → List (List UInt8)
  | 0, _ => []
  | turns + 1, r =>
    match r.read cap with
    | none => []
    | some (piece, r) => piece :: pieces cap turns r

/-! ### Decoding -/

section Stream

variable {sink : List UInt8 → Bool} {datagrams : List (List UInt8)}

variable {coming held : List UInt8} {passed : List (List UInt8)}

theorem drainFrames_held (hsize : ∀ d ∈ datagrams, d.length ≤ maxUdpPayload)
    (hsi : ∀ d ∈ datagrams, sink d = true) (turns : Nat) (pending : List UInt8) (offset : Nat)
    (htur : (pending.drop offset).length ≤ turns)
    (hhe : Framing.Held frame datagrams passed (pending.drop offset) coming) :
    ∃ offset' passed', drainFrames sink turns pending offset passed = (offset', passed', none) ∧
      Framing.Held frame datagrams passed' (pending.drop offset') coming ∧
      decodeFrame (pending.drop offset') = .incomplete := by
  induction turns generalizing offset passed with
  | zero =>
    refine ⟨offset, passed, rfl, hhe, ?_⟩
    rw [length_eq_zero_iff.mp (le_zero.mp htur)]
    rfl
  | succ turns ih =>
    rcases framed.next hsize hhe with ⟨d, hd, hfound, hle, hne⟩ | ⟨hno, -⟩
    · -- The next datagram is whole. It is legal, so it is passed on and the cursor moves.
      have hread := Frame.found_eq_some.mp hfound
      have hfi : payloadFitsDatagram d = true := decide_eq_true (hsize d hd)
      have hst : drainFrames sink (turns + 1) pending offset passed =
          drainFrames sink turns pending (offset + (frame d).length) (passed ++ [d]) := by
        rw [drainFrames, hread]
        simp only [hfi, hsi d hd, Bool.not_true, Bool.false_eq_true, if_false]
      have hhea : frameHeaderLen = 2 := rfl
      have hlen := length_frame d
      rw [hst]
      rw [drop_drop] at hne
      refine ih _ ?_ hne
      rw [length_drop] at htur ⊢
      omega
    · refine ⟨offset, passed, ?_, hhe, Frame.found_eq_none.mp hno⟩
      rw [drainFrames, Frame.found_eq_none.mp hno]

theorem held_lt (hsize : ∀ d ∈ datagrams, d.length ≤ maxUdpPayload)
    (hh : Framing.Held frame datagrams passed held coming)
    (hn : decodeFrame held = .incomplete) : held.length < tunnelReadBytes := by
  have hread : tunnelReadBytes = maxUdpPayload + frameHeaderLen := rfl
  have hhe : frameHeaderLen = 2 := rfl
  rcases framed.next hsize hh with ⟨d, -, hfound, -⟩ | ⟨-, hnil | ⟨d, hd, hlt⟩⟩
  · rw [hn] at hfound
    cases hfound
  · rw [hnil, length_nil]
    omega
  have hd' := hsize d hd
  rw [length_frame] at hlt
  omega

theorem held_nil (hsize : ∀ d ∈ datagrams, d.length ≤ maxUdpPayload)
    (hh : Framing.Held frame datagrams passed held []) (hn : decodeFrame held = .incomplete) :
    held = [] ∧ passed = datagrams :=
  framed.all_taken hsize hh (Frame.found_eq_none.mpr hn)

/-! ### The server's pump -/

theorem clientToBackend_passes (hsize : ∀ d ∈ datagrams, d.length ≤ maxUdpPayload)
    (hsi : ∀ d ∈ datagrams, sink d = true) {chunks : List (List UInt8)}
    (hch : ∀ c ∈ chunks, c ≠ [] ∧ c.length ≤ udpSendBufferBytes) {pending : List UInt8}
    (peak : Nat) (hhe : Framing.Held frame datagrams passed pending chunks.flatten) :
    ∃ most, clientToBackend sink (chunks.map .data) pending passed peak =
        ⟨[], datagrams, most, [], none⟩ ∧ most ≤ max peak udpPendingBufferBytes := by
  have hbo : udpPendingBufferBytes = 69633 := rfl
  have hbuf : udpSendBufferBytes = 4096 := rfl
  have hread : tunnelReadBytes = 65509 := rfl
  induction chunks generalizing pending passed peak with
  | nil =>
    rcases drainFrames_held hsize hsi pending.length pending 0 (le_refl _) hhe with
      ⟨offset, passed', hdr, hre, hno⟩
    rcases held_nil hsize hre hno with ⟨hnil, hall⟩
    refine ⟨peak, ?_, le_max_left _ _⟩
    rw [map_nil, clientToBackend]
    simp only [hdr, hnil, hall]
  | cons chunk chunks ih =>
    rw [forall_mem_cons] at hch
    rcases hch with ⟨⟨hne, hsm⟩, hch⟩
    rcases drainFrames_held hsize hsi pending.length pending 0 (le_refl _) hhe with
      ⟨offset, passed', hdr, hre, hno⟩
    -- Less than a frame is held, so the read finds room.
    have hless := held_lt hsize hre hno
    rcases chunk with _ | ⟨byte, more⟩
    · exact absurd rfl hne
    have hroom : ¬(pending.drop offset).length + (byte :: more).length >
        udpPendingBufferBytes := by
      omega
    rcases ih hch (max peak (pending.drop offset ++ byte :: more).length)
      hre.read with ⟨most, hrun, hmo⟩
    refine ⟨most, ?_, ?_⟩
    · rw [map_cons, clientToBackend, hdr]
      simp only [if_neg hroom]
      exact hrun
    · rw [length_append] at hmo
      omega

/-! ### The client's loop -/

theorem takeTunnel_held (hsize : ∀ d ∈ datagrams, d.length ≤ maxUdpPayload)
    (hsi : ∀ d ∈ datagrams, sink d = true) {p : Pump} {bytes : List UInt8}
    (hbyt : bytes.length ≤ tunnelReadBytes) (hno : decodeFrame p.held = .incomplete)
    (hhe : Framing.Held frame datagrams p.passed p.held (bytes ++ coming)) :
    ∃ held passed, p.takeTunnel sink bytes =
        { p with held, passed, peak := max p.peak (p.held ++ bytes).length, exit := none } ∧
      Framing.Held frame datagrams passed held coming ∧ decodeFrame held = .incomplete ∧
      (p.held ++ bytes).length ≤ maxUdpPartial := by
  have hbo : maxUdpPartial = 2 * tunnelReadBytes := rfl
  have hless := held_lt hsize hhe hno
  -- Less than a frame was held, and the read is no larger than one.
  have hlen : (p.held ++ bytes).length ≤ maxUdpPartial := by
    rw [length_append]
    omega
  rcases drainFrames_held hsize hsi (p.held ++ bytes).length (p.held ++ bytes) 0 (le_refl _)
    hhe.read with ⟨consumed, passed, hdr, hre, hle⟩
  refine ⟨_, passed, ?_, hre, hle, hlen⟩
  simp only [Pump.takeTunnel, hdr, if_neg (not_lt.mpr hlen)]

def Activity.bytes : Activity → List UInt8
  | .tunnel bytes => bytes
  | _ => []

/-- A turn that does not end the flow: a read into the client's buffer, or a datagram of the
    application whose frame the tunnel takes. -/
def Activity.Carries : Activity → Prop
  | .tunnel bytes => bytes.length ≤ tunnelReadBytes
  | .application _ written => written = true
  | _ => False

instance : DecidablePred Activity.Carries
  | .tunnel bytes => inferInstanceAs (Decidable (bytes.length ≤ tunnelReadBytes))
  | .application _ written => inferInstanceAs (Decidable (written = true))
  | .applicationGone | .tunnelEnd | .tunnelFailed | .cancelled | .stopped | .idle =>
    inferInstanceAs (Decidable False)

theorem turn_application (sink : List UInt8 → Bool) (p : Pump) (datagram : List UInt8) :
    ∃ written, p.turn sink (.application datagram true) = { p with written } := by
  unfold Pump.turn encodeFrame
  by_cases hsize : datagram.length > maxUdpPayload
  · exact ⟨p.written, by simp only [if_pos hsize]⟩
  · exact ⟨_, by simp only [if_neg hsize, if_true]; rfl⟩

theorem runUdpFlow_passes (hsize : ∀ d ∈ datagrams, d.length ≤ maxUdpPayload)
    (hsi : ∀ d ∈ datagrams, sink d = true) {activities : List Activity}
    (hcar : ∀ a ∈ activities, a.Carries) {p : Pump} (hexi : p.exit = none)
    (hno : decodeFrame p.held = .incomplete)
    (hhe : Framing.Held frame datagrams p.passed p.held
      (activities.map Activity.bytes).flatten) :
    (runUdpFlow sink activities p).passed = datagrams ∧
      (runUdpFlow sink activities p).held = [] ∧ (runUdpFlow sink activities p).exit = none ∧
      (runUdpFlow sink activities p).peak ≤ max p.peak maxUdpPartial := by
  induction activities generalizing p with
  | nil =>
    rcases held_nil hsize hhe hno with ⟨hnil, hall⟩
    exact ⟨hall, hnil, hexi, le_max_left _ _⟩
  | cons activity activities ih =>
    rw [forall_mem_cons] at hcar
    rcases hcar with ⟨hact, hcar⟩
    have hst : ∀ q, p.turn sink activity = q → q.exit = none →
        runUdpFlow sink (activity :: activities) p = runUdpFlow sink activities q := by
      intro q hq hgo
      simp only [runUdpFlow, hq, hgo, Option.isSome_none, Bool.false_eq_true, if_false]
    cases activity with
    | application datagram written =>
      cases hact
      rcases turn_application sink p datagram with ⟨written, htu⟩
      rw [hst _ htu hexi]
      exact ih hcar hexi hno hhe
    | tunnel bytes =>
      rcases bytes with _ | ⟨byte, more⟩
      · rw [hst p rfl hexi]
        exact ih hcar hexi hno hhe
      rcases takeTunnel_held hsize hsi hact hno hhe with
        ⟨held, passed, hta, hre, hle, hpe⟩
      rw [hst _ hta rfl]
      rcases ih (p := Pump.mk held passed _ p.written none) hcar rfl hle hre with
        ⟨hall, hnil, hgo, hmo⟩
      refine ⟨hall, hnil, hgo, le_trans hmo ?_⟩
      simp only
      omega
    | _ => cases hact

/-! ### What was left over -/

theorem TunnelReader.read_cases {cap : Nat} (hcap : 0 < cap) (r : TunnelReader) :
    r.read cap = none ∧ r.leftover.drop r.offset = [] ∨
      ∃ piece offset, r.read cap = some (piece, { r with offset }) ∧ 0 < piece.length ∧
        piece.length ≤ cap ∧ r.leftover.drop r.offset = piece ++ r.leftover.drop offset := by
  fun_cases r.read cap with
  | case1 =>
    refine Or.inr ⟨_, _, rfl, ?_, ?_, ?_⟩
    · rw [length_take, length_drop]
      omega
    · rw [length_take]
      omega
    · rw [← drop_drop, take_append_drop]
  | case2 => exact Or.inl ⟨rfl, drop_eq_nil_of_le (by omega)⟩

theorem TunnelReader.pieces_spec (cap : Nat) (hcap : 0 < cap) (turns : Nat) (r : TunnelReader)
    (htur : (r.leftover.drop r.offset).length ≤ turns) :
    (r.pieces cap turns).flatten = r.leftover.drop r.offset ∧
      ∀ piece ∈ r.pieces cap turns, piece.length ≤ cap := by
  induction turns generalizing r with
  | zero =>
    rw [length_eq_zero_iff.mp (le_zero.mp htur)]
    exact ⟨rfl, fun piece h => absurd h not_mem_nil⟩
  | succ turns ih =>
    rcases r.read_cases hcap with ⟨hread, hnil⟩ | ⟨piece, offset, hread, hpos, hsm, hsp⟩
    · rw [pieces, hread, hnil]
      exact ⟨rfl, fun piece h => absurd h not_mem_nil⟩
    have hre : (r.leftover.drop offset).length ≤ turns := by
      rw [hsp, length_append] at htur
      omega
    rcases ih { r with offset } hre with ⟨hfl, hall⟩
    rw [pieces, hread]
    refine ⟨?_, forall_mem_cons.mpr ⟨hsm, hall⟩⟩
    rw [flatten_cons, hfl, hsp]

def firstBytes : Nat := 8192

def readMoreBytes : Nat := 4096

theorem leftover_readPreface {ending : Ending} {reads : List (List UInt8)} {buf : List UInt8}
    {preface : Preface} {leftover : List UInt8} {unread : List (List UInt8)}
    (hbuf : buf.length ≤ firstBytes) (hread : ∀ c ∈ reads, c.length ≤ readMoreBytes)
    (h : readPreface ending reads buf = (.ok (preface, leftover), unread)) :
    leftover.length < udpPendingBufferBytes := by
  have hfst : firstBytes = 8192 := rfl
  have hmo : readMoreBytes = 4096 := rfl
  have hmax : maxPrefaceLen = 261 := rfl
  have hbo : udpPendingBufferBytes = 69633 := rfl
  induction reads generalizing buf with
  | nil =>
    rw [readPreface] at h
    rcases hdec : Preface.decode buf with e | (_ | ⟨p, n⟩) <;> rw [hdec] at h <;> cases h
    rw [length_drop]
    omega
  | cons chunk reads ih =>
    rw [readPreface] at h
    rw [forall_mem_cons] at hread
    rcases hdec : Preface.decode buf with e | (_ | ⟨p, n⟩) <;> rw [hdec] at h
    · cases h
    · -- Another read is made only while less than a preface has arrived.
      have hsh := Preface.length_lt_of_incomplete hdec
      refine ih ?_ hread.2 h
      rw [length_append]
      omega
    · cases h
      rw [length_drop]
      omega

/-- The port comes with a second read, and a byte behind it. -/
theorem leftover_readPreface_byte : [(0x2a : UInt8)].length < udpPendingBufferBytes :=
  @leftover_readPreface .quiet [[0x00, 0x50, 0x2a]] [0x05, 0x01, 0x01, 0x01, 0x61]
    ⟨.tcp, "a", 80⟩ _ [] (by decide) (by decide) (by decide +kernel)

/-! ### End to end -/

def encodeFrames (datagrams : List (List UInt8)) : List UInt8 :=
  datagrams.foldl (fun out datagram => (encodeFrame datagram out).2) []

theorem encodeFrames_eq (hsize : ∀ d ∈ datagrams, d.length ≤ maxUdpPayload) :
    encodeFrames datagrams = (datagrams.map frame).flatten := by
  suffices h : ∀ out, datagrams.foldl (fun out datagram => (encodeFrame datagram out).2) out =
      out ++ (datagrams.map frame).flatten by
    rw [encodeFrames, h, nil_append]
  induction datagrams with
  | nil => exact fun out => (append_nil out).symm
  | cons d datagrams ih =>
    intro out
    rw [forall_mem_cons] at hsize
    have henc : (encodeFrame d out).2 = out ++ frame d := by
      rw [encodeFrame, if_neg (not_lt.mpr hsize.1)]
    rw [foldl_cons, henc, ih hsize.2, map_cons, flatten_cons,
      append_assoc]

def Activity.tunnelRead : Activity → Option (List UInt8)
  | .tunnel bytes => some bytes
  | _ => none

theorem flatten_bytes (activities : List Activity) :
    (activities.map Activity.bytes).flatten =
      (activities.filterMap Activity.tunnelRead).flatten := by
  induction activities with
  | nil => rfl
  | cons activity activities ih =>
    rw [map_cons, flatten_cons, ih]
    cases activity <;> rfl

/-- A list of legal datagrams passes both pumps. However their frames are cut into reads
    that fit the buffers, and however much of them was left over from an earlier read, each
    pump passes on exactly the datagrams in order, is still running with nothing undecoded
    when the reads are done, and has held no more than its bound allows or was handed. -/
theorem datagrams_pass_both_pumps (datagrams : List (List UInt8))
    (hsize : ∀ d ∈ datagrams, d.length ≤ maxUdpPayload) (sink : List UInt8 → Bool)
    (hsink : ∀ d ∈ datagrams, sink d = true) (leftover : List UInt8)
    (chunks : List (List UInt8)) (hcut : leftover ++ chunks.flatten = encodeFrames datagrams) :
    ((∀ c ∈ chunks, c ≠ [] ∧ c.length ≤ udpSendBufferBytes) →
      (clientToBackend sink (chunks.map .data) leftover [] leftover.length).passed = datagrams ∧
      (clientToBackend sink (chunks.map .data) leftover [] leftover.length).held = [] ∧
      (clientToBackend sink (chunks.map .data) leftover [] leftover.length).exit = none ∧
      (clientToBackend sink (chunks.map .data) leftover [] leftover.length).peak ≤
        max leftover.length udpPendingBufferBytes) ∧
    ∀ activities : List Activity, (∀ a ∈ activities, a.Carries) →
      activities.filterMap Activity.tunnelRead =
        (TunnelReader.mk leftover 0).pieces tunnelReadBytes leftover.length ++ chunks →
      (runUdpFlow sink activities .fresh).passed = datagrams ∧
      (runUdpFlow sink activities .fresh).held = [] ∧
      (runUdpFlow sink activities .fresh).exit = none ∧
      (runUdpFlow sink activities .fresh).peak ≤ maxUdpPartial := by
  rw [encodeFrames_eq hsize] at hcut
  refine ⟨?_, ?_⟩
  · intro hch
    rcases clientToBackend_passes hsize hsink hch leftover.length (.start hcut) with
      ⟨most, hrun, hmo⟩
    rw [hrun]
    exact ⟨rfl, rfl, rfl, hmo⟩
  · intro activities hcar hread
    -- The reads of what was left over come first, and together they are the stream again.
    have hpi := (TunnelReader.mk leftover 0).pieces_spec tunnelReadBytes (by decide)
      leftover.length (le_refl _)
    have hstr : (activities.map Activity.bytes).flatten = (datagrams.map frame).flatten := by
      rw [flatten_bytes, hread, flatten_append, hpi.1, ← hcut]
      rfl
    have hrun := runUdpFlow_passes hsize hsink hcar (p := .fresh) rfl rfl
      (.start (by rw [hstr]; rfl))
    refine ⟨hrun.1, hrun.2.1, hrun.2.2.1, le_trans hrun.2.2.2 ?_⟩
    have hze : Pump.fresh.peak = 0 := rfl
    omega

/-- An empty datagram and one of two bytes, cut in the middle of the first length and of the second
    frame. -/
theorem datagrams_pass_both_pumps_cut :
    (clientToBackend (fun _ => true) [.data [0, 0, 2, 7], .data [8]] [0] [] 1).passed =
        [[], [7, 8]] ∧
      (runUdpFlow (fun _ => true)
        [.tunnel [0], .application [1] true, .tunnel [0, 0, 2, 7], .tunnel [8]] .fresh).passed =
        [[], [7, 8]] := by
  have h := datagrams_pass_both_pumps [[], [7, 8]] (by decide) (fun _ => true) (by decide) [0]
    [[0, 0, 2, 7], [8]] (by decide)
  exact ⟨(h.1 (by decide)).1, (h.2 _ (by decide) (by decide)).1⟩

end Stream

end Nexapipe.Udp
