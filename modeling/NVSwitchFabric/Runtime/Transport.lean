import NVSwitchFabric.Lib.Framing
import NVSwitchFabric.Runtime.Messages

/-!
# `Runtime.Transport` — reading frames

`decodeFrame` and `FrameStream` of transport.cpp. Both check the same fields of a header (`frameFields`) and the same two
checksums, in different orders: the stream can only tell a checksum once the whole frame has arrived, and checks the
other fields before. The stream is the incremental parser of `Lib.Framing` whose `head` is one round of `feed`'s loop
(`frameHead`); its proof fields are what the chunk independence of the stream rests on.

Left out: the sockets.
-/

namespace NVSwitchFabric

open Lib

/-! ## Fields of a frame -/

def validMsgType (v : UInt8) : Bool := 1 ≤ v && v ≤ 10

/-- The cast of a valid byte. -/
def MsgType.ofByte : UInt8 → MsgType
  | 1 => hello | 2 => register | 3 => publishTopology | 4 => publishMeasurement | 5 => queryRoute
  | 6 => routeResult | 7 => workerReady | 8 => ping | 9 => pong | _ => error

/-- The length of a frame up to its payload. -/
def kHeader : Nat := 16

/-- The 32-bit word at an offset, little-endian. -/
def wordAt (data : List UInt8) (i : Nat) : UInt32 := UInt32.ofNat (leValue ((data.drop i).take 4))

/-- The type and the payload length of a frame, if its header fields are acceptable. -/
def frameFields (data : List UInt8) : Result (MsgType × Nat) :=
  let magic := wordAt data 0
  let ver := data.getD 4 0
  let type := data.getD 5 0
  let length := wordAt data 8
  if magic ≠ kFrameMagic then .error ⟨.protocolError, "bad frame magic"⟩
  else if ver ≠ kFrameVersion then .error ⟨.protocolError, "unsupported frame version"⟩
  else if !validMsgType type then .error ⟨.protocolError, "invalid frame type"⟩
  else if Limits.kMaxFrameBytes < length.toNat then .error ⟨.resourceLimit, "frame length absurd"⟩
  else .ok (.ofByte type, length.toNat)

/-- The stored header CRC is that of the twelve bytes before it. -/
def headerCrcOk (data : List UInt8) : Bool := crc32 (data.take 12) = wordAt data 12

def framePayload (data : List UInt8) (length : Nat) : List UInt8 := (data.drop kHeader).take length

/-- The CRC stored after the payload is that of the payload. -/
def payloadCrcOk (data : List UInt8) (length : Nat) : Bool :=
  crc32 (framePayload data length) = wordAt data (kHeader + length)

/-! ## Decoding -/

/-- `decodeFrame`. What follows the frame is ignored. -/
def decodeFrame (data : List UInt8) : Result Frame :=
  if data.length < kHeader then .error ⟨.protocolError, "frame too short"⟩
  else match frameFields data with
    | .error e => .error e
    | .ok (type, length) =>
      if !headerCrcOk data then .error ⟨.integrityFailure, "frame header crc"⟩
      else if data.length < kHeader + length + 4 then .error ⟨.protocolError, "truncated frame"⟩
      else if !payloadCrcOk data length then .error ⟨.integrityFailure, "frame payload crc"⟩
      else .ok { type := type, payload := framePayload data length }

/-- One round of the loop of `FrameStream::feed`. -/
def frameHead (buf : List UInt8) : Head UInt8 Frame Error :=
  if buf.length < kHeader then .more
  else match frameFields buf with
    | .error e => .bad e
    | .ok (type, length) =>
      let total := kHeader + length + 4
      if buf.length < total then .more
      else if !headerCrcOk buf then .bad ⟨.integrityFailure, "frame header crc"⟩
      else if !payloadCrcOk buf length then .bad ⟨.integrityFailure, "frame payload crc"⟩
      else .item { type := type, payload := framePayload buf length } (buf.drop total)

/-! ## What comes after -/

section
variable {data : List UInt8} (later : List UInt8)

theorem wordAt_append {i : Nat} (h : i + 4 ≤ data.length) : wordAt (data ++ later) i = wordAt data i := by
  unfold wordAt
  rw [List.drop_append_of_le_length (by omega), List.take_append_of_le_length (by rw [List.length_drop]; omega)]

theorem frameFields_append (h : kHeader ≤ data.length) : frameFields (data ++ later) = frameFields data := by
  have hlen : 16 ≤ data.length := h
  have hbyte : ∀ i, i < data.length → (data ++ later).getD i 0 = data.getD i 0 := by
    intro i hi
    rw [List.getD_eq_getElem?_getD, List.getD_eq_getElem?_getD, List.getElem?_append_left hi]
  unfold frameFields
  rw [wordAt_append later (by omega), wordAt_append later (by omega), hbyte 4 (by omega), hbyte 5 (by omega)]

theorem headerCrcOk_append (h : kHeader ≤ data.length) : headerCrcOk (data ++ later) = headerCrcOk data := by
  have hlen : 16 ≤ data.length := h
  unfold headerCrcOk
  rw [wordAt_append later (by omega), List.take_append_of_le_length (by omega)]

theorem framePayload_append {length : Nat} (h : kHeader + length + 4 ≤ data.length) :
    framePayload (data ++ later) length = framePayload data length := by
  unfold framePayload
  rw [List.drop_append_of_le_length (by omega), List.take_append_of_le_length (by rw [List.length_drop]; omega)]

theorem payloadCrcOk_append {length : Nat} (h : kHeader + length + 4 ≤ data.length) :
    payloadCrcOk (data ++ later) length = payloadCrcOk data length := by
  unfold payloadCrcOk
  rw [framePayload_append later h, wordAt_append later (by omega)]

end

/-! ## The stream -/

section
variable {buf later : List UInt8} {f : Frame} {rest : List UInt8} {e : Error}

/-- **Inversion of a frame.** The header fields and both checksums are right, and the frame is all there. -/
theorem frameHead_item (h : frameHead buf = .item f rest) :
    ∃ length, kHeader + length + 4 ≤ buf.length ∧ frameFields buf = .ok (f.type, length) ∧
      headerCrcOk buf = true ∧ payloadCrcOk buf length = true ∧ f.payload = framePayload buf length ∧
      rest = buf.drop (kHeader + length + 4) := by
  unfold frameHead at h
  split at h
  · exact absurd h (by simp)
  split at h
  · exact absurd h (by simp)
  next type length hfields =>
  dsimp only at h
  split at h
  · exact absurd h (by simp)
  next htotal =>
  split at h
  · exact absurd h (by simp)
  next hhdr =>
  split at h
  · exact absurd h (by simp)
  next hpay =>
  obtain ⟨rfl, rfl⟩ := Head.item.inj h
  exact ⟨length, by omega, hfields, by simpa using hhdr, by simpa using hpay, rfl, rfl⟩

/-- A frame is read off the buffer if it is there. -/
theorem frameHead_of_frame {type : MsgType} {length : Nat} (hlen : kHeader + length + 4 ≤ buf.length)
    (hfields : frameFields buf = .ok (type, length)) (hhdr : headerCrcOk buf = true)
    (hpay : payloadCrcOk buf length = true) :
    frameHead buf =
      .item { type := type, payload := framePayload buf length } (buf.drop (kHeader + length + 4)) := by
  unfold frameHead
  rw [if_neg (by omega), hfields]
  dsimp only
  rw [if_neg (by omega), hhdr, hpay]
  rfl

/-- A frame does not depend on what comes after it. -/
theorem frameHead_item_append (h : frameHead buf = .item f rest) :
    frameHead (buf ++ later) = .item f (rest ++ later) := by
  obtain ⟨length, hlen, hfields, hhdr, hpay, hpayload, rfl⟩ := frameHead_item h
  have hheader : kHeader ≤ buf.length := by omega
  have hread := @frameHead_of_frame (buf ++ later) f.type length (by rw [List.length_append]; omega)
    ((frameFields_append later hheader).trans hfields) ((headerCrcOk_append later hheader).trans hhdr)
    ((payloadCrcOk_append later hlen).trans hpay)
  rw [hread, framePayload_append later hlen, ← hpayload, List.drop_append_of_le_length hlen]

/-- A frame depends on its own bytes only. -/
theorem frameHead_item_used (h : frameHead buf = .item f rest) :
    ∃ used, used ≠ [] ∧ buf = used ++ rest ∧ frameHead used = .item f [] := by
  obtain ⟨length, hlen, hfields, hhdr, hpay, hpayload, rfl⟩ := frameHead_item h
  have hused : (buf.take (kHeader + length + 4)).length = kHeader + length + 4 := by
    rw [List.length_take]
    omega
  have hbuf : buf = buf.take (kHeader + length + 4) ++ buf.drop (kHeader + length + 4) :=
    (List.take_append_drop _ _).symm
  refine ⟨buf.take (kHeader + length + 4), ?_, hbuf, ?_⟩
  · intro hnil
    rw [hnil] at hused
    simp at hused
  rw [hbuf] at hfields hhdr hpay hpayload
  rw [frameFields_append _ (by omega)] at hfields
  rw [headerCrcOk_append _ (by omega)] at hhdr
  rw [payloadCrcOk_append _ (by omega)] at hpay
  rw [framePayload_append _ (by omega)] at hpayload
  rw [frameHead_of_frame (by omega) hfields hhdr hpay, ← hpayload, List.drop_eq_nil_of_le (by omega)]

/-- Something malformed stays so. -/
theorem frameHead_bad_append (h : frameHead buf = .bad e) : frameHead (buf ++ later) = .bad e := by
  unfold frameHead at h ⊢
  split at h
  · exact absurd h (by simp)
  next hheader =>
  rw [if_neg (by rw [List.length_append]; omega), frameFields_append later (by omega)]
  split at h
  · exact h
  next type length _ =>
  dsimp only at h ⊢
  split at h
  · exact absurd h (by simp)
  next htotal =>
  rw [if_neg (by rw [List.length_append]; omega), headerCrcOk_append later (by omega),
    payloadCrcOk_append later (by omega)]
  split at h
  · next hhdr =>
    rw [if_pos hhdr]
    exact h
  · next hhdr =>
    rw [if_neg hhdr]
    split at h
    · next hpay =>
      rw [if_pos hpay]
      exact h
    · exact absurd h (by simp)

end

/-- The frames of a byte stream. -/
def framing : Framing UInt8 Frame Error where
  head := frameHead
  head_nil := rfl
  item_used := frameHead_item_used
  item_append := fun _ => frameHead_item_append
  bad_append := fun _ => frameHead_bad_append

/-- `FrameStream`: the bytes received and not used, and the error after which nothing is read. -/
abbrev FrameStream : Type := Buffered UInt8 Error

namespace FrameStream

/-- `FrameStream::feed`: the frames it puts out and the stream after it. It returns whether there is no error. -/
def feed (stream : FrameStream) (data : List UInt8) : List Frame × FrameStream := framing.feed stream data

/-- `ok`. -/
def ok (stream : FrameStream) : Bool := stream.err.isNone

end FrameStream

end NVSwitchFabric
