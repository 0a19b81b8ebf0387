import NVSwitchFabric.Correctness.FrameRoundTrip

/-!
# `Correctness.FrameDecoders` — `decodeFrame` and `FrameStream` take the same frames

The header and both checksums are checked twice, in different orders: `decodeFrame` checks the header's checksum before
it looks whether the frame is all there, the stream after. Each takes a frame exactly if all checks hold (`Framed`), so
they take the same ones (`decodeFrame_iff_feed`). Where one does not, they differ: `decodeFrame` refuses what is not all
there, and the stream waits.
-/

namespace NVSwitchFabric

open Lib

/-- A frame is at the start of `buf`: its header fields are acceptable, both checksums are right, and it is all there. -/
structure Framed (buf : List UInt8) (f : Frame) (length : Nat) : Prop where
  whole   : kHeader + length + 4 ≤ buf.length
  fields  : frameFields buf = .ok (f.type, length)
  header  : headerCrcOk buf = true
  body    : payloadCrcOk buf length = true
  payload : f.payload = framePayload buf length

variable {buf : List UInt8} {f : Frame}

/-- What `decodeFrame` checks. -/
theorem decodeFrame_ok_iff : decodeFrame buf = .ok f ↔ ∃ length, Framed buf f length := by
  constructor
  · intro h
    unfold decodeFrame at h
    split at h
    · exact absurd h (by simp)
    split at h
    · exact absurd h (by simp)
    next type length hfields =>
    split at h
    · exact absurd h (by simp)
    next hhdr =>
    split at h
    · exact absurd h (by simp)
    next hwhole =>
    split at h
    · exact absurd h (by simp)
    next hpay =>
    obtain rfl := Except.ok.inj h
    exact ⟨length, by omega, hfields, by simpa using hhdr, by simpa using hpay, rfl⟩
  · rintro ⟨length, hwhole, hfields, hhdr, hpay, hpayload⟩
    unfold decodeFrame
    rw [if_neg (by omega), hfields]
    dsimp only
    rw [hhdr, hpay, if_neg (by simp), if_neg (by omega), if_neg (by simp), ← hpayload]

/-- What the stream checks in one round. -/
theorem frameHead_item_iff : (∃ rest, frameHead buf = .item f rest) ↔ ∃ length, Framed buf f length := by
  constructor
  · rintro ⟨rest, h⟩
    obtain ⟨length, hwhole, hfields, hhdr, hpay, hpayload, -⟩ := frameHead_item h
    exact ⟨length, hwhole, hfields, hhdr, hpay, hpayload⟩
  · rintro ⟨length, hwhole, hfields, hhdr, hpay, hpayload⟩
    refine ⟨buf.drop (kHeader + length + 4), ?_⟩
    rw [frameHead_of_frame hwhole hfields hhdr hpay, ← hpayload]

/-- **An encoded frame decodes**, whatever follows it. -/
theorem decodeFrame_encodeFrame (h : f.payload.length ≤ Limits.kMaxFrameBytes) (later : List UInt8) :
    decodeFrame (encodeFrame f ++ later) = .ok f :=
  decodeFrame_ok_iff.mpr (frameHead_item_iff.mp ⟨later, frameHead_encodeFrame h later⟩)

/-- **The two decoders agree.** `decodeFrame` gives a frame exactly if a fresh stream that is fed the bytes puts it out
    first. -/
theorem decodeFrame_iff_feed (buf : List UInt8) (f : Frame) :
    decodeFrame buf = .ok f ↔ (FrameStream.feed {} buf).1.head? = some f := by
  rw [FrameStream.feed_fresh, Framing.drain_first_iff, decodeFrame_ok_iff]
  exact frameHead_item_iff.symm

end NVSwitchFabric
