import Nexapipe.Lib.Bytes
import Nexapipe.Lib.Framing

/-!
# Datagram frames

The framing of the UDP half of the L4 tunnel. A bi-stream has no message boundaries, so a
datagram travels as its length in two bytes and its payload. The length can announce more
than a datagram may carry, which is why a reader asks `payloadFitsDatagram` of what it
decoded and the writer refuses such a payload.
-/

namespace Nexapipe.Udp

open List

def maxUdpPayload : Nat := 65507

def frameHeaderLen : Nat := 2

inductive FrameError where
  | payloadTooLarge

def frame (payload : List UInt8) : List UInt8 :=
  Bytes.be 2 payload.length ++ payload

def encodeFrame (payload out : List UInt8) : Except FrameError Unit × List UInt8 :=
  if payload.length > maxUdpPayload then (.error .payloadTooLarge, out)
  else (.ok (), out ++ frame payload)

def payloadFitsDatagram (payload : List UInt8) : Bool :=
  payload.length ≤ maxUdpPayload

inductive Frame where
  | incomplete
  | ready (payload : List UInt8) (consumed : Nat)

def decodeFrame (buf : List UInt8) : Frame :=
  if buf.length < frameHeaderLen then .incomplete
  else
    let len := Bytes.ofBe (buf.take frameHeaderLen)
    let total := frameHeaderLen + len
    if buf.length < total then .incomplete
    else .ready ((buf.take total).drop frameHeaderLen) total

def Frame.found : Frame → Option (List UInt8 × Nat)
  | .incomplete => none
  | .ready payload consumed => some (payload, consumed)

theorem Frame.found_eq_none {f : Frame} : f.found = none ↔ f = .incomplete := by
  cases f with
  | incomplete => exact ⟨fun _ => rfl, fun _ => rfl⟩
  | ready payload consumed => exact ⟨nofun, nofun⟩

variable {payload : List UInt8}

theorem Frame.found_eq_some {f : Frame} {consumed : Nat} :
    f.found = some (payload, consumed) ↔ f = .ready payload consumed := by
  cases f with
  | incomplete => exact ⟨nofun, nofun⟩
  | ready payload' consumed' =>
    simp only [found, Option.some.injEq, Prod.mk.injEq, Frame.ready.injEq]

@[simp] theorem length_frame (payload : List UInt8) :
    (frame payload).length = frameHeaderLen + payload.length := by
  rw [frame, length_append, Bytes.length_be]
  rfl

theorem ofBe_take_frame (h : payload.length ≤ maxUdpPayload) (rest : List UInt8) :
    Bytes.ofBe ((frame payload ++ rest).take frameHeaderLen) = payload.length := by
  have hh : (frame payload ++ rest).take frameHeaderLen = Bytes.be 2 payload.length := by
    exact take_left' (Bytes.length_be 2 _)
  have hmax : maxUdpPayload = 65507 := rfl
  rw [hh, Bytes.ofBe_be (by omega)]

theorem decodeFrame_frame (h : payload.length ≤ maxUdpPayload) (rest : List UInt8) :
    decodeFrame (frame payload ++ rest) = .ready payload (frame payload).length := by
  have hlen : (frame payload ++ rest).length = frameHeaderLen + payload.length + rest.length := by
    rw [length_append, length_frame]
  have hb : ((frame payload ++ rest).take (frameHeaderLen + payload.length)).drop
      frameHeaderLen = payload := by
    rw [take_left' (length_frame payload), frame]
    exact drop_left' (Bytes.length_be 2 _)
  unfold decodeFrame
  rw [if_neg (by omega), ofBe_take_frame h]
  simp only [hb, length_frame]
  rw [if_neg (by omega)]

theorem decodeFrame_short {p : List UInt8} (h : payload.length ≤ maxUdpPayload)
    (hp : p <+: frame payload) (hne : p ≠ frame payload) : decodeFrame p = .incomplete := by
  have hlt : p.length < (frame payload).length := by
    refine Nat.lt_of_le_of_ne hp.length_le ?_
    intro hlen
    exact hne (hp.eq_of_length hlen)
  rw [length_frame] at hlt
  unfold decodeFrame
  by_cases hhe : p.length < frameHeaderLen
  · rw [if_pos hhe]
  -- The length has arrived, and with it how much of the payload is missing.
  have hlen : Bytes.ofBe (p.take frameHeaderLen) = payload.length := by
    rcases hp with ⟨rest, hre⟩
    have hwh := ofBe_take_frame h []
    rw [append_nil, ← hre, take_append_of_le_length (by omega)] at hwh
    exact hwh
  rw [if_neg hhe]
  simp only [hlen]
  rw [if_pos hlt]

theorem framed :
    Framing.Framed frame (fun buf => (decodeFrame buf).found)
      fun payload => payload.length ≤ maxUdpPayload where
  whole _ rest h := Frame.found_eq_some.mpr (decodeFrame_frame h rest)
  short _ _ h hp hne := Frame.found_eq_none.mpr (decodeFrame_short h hp hne)
  empty := rfl

end Nexapipe.Udp
