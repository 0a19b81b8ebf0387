import NVSwitchFabric.Runtime.Transport

/-!
# `Correctness.FrameRoundTrip` — frames arrive as they were sent

An encoded frame is read off the head of any buffer it begins (`frameHead_encodeFrame`). With the chunk independence of
incremental parsers, encoded frames arrive unchanged however the connection cuts them up (`framed_stream`).
-/

namespace NVSwitchFabric

open Lib

variable {f : Frame}

/-! ## Fields of an encoded frame -/

/-- **A word that was written reads back** at its offset. -/
theorem wordAt_u32 (before after : List UInt8) (v : UInt32) :
    wordAt (before ++ (ByteWriter.u32 v ++ after)) before.length = v := by
  unfold wordAt
  have htake : (ByteWriter.u32 v ++ after).take 4 = ByteWriter.u32 v := List.take_left' (length_u32 v)
  rw [List.drop_left, htake, leValue_u32]

@[simp] theorem length_frameHeader (f : Frame) : (frameHeader f).length = 12 := by
  simp [frameHeader, ByteWriter.u8, ByteWriter.u16]

theorem validMsgType_toByte (ty : MsgType) : validMsgType ty.toByte = true := by
  cases ty <;> decide

@[simp] theorem ofByte_toByte (ty : MsgType) : MsgType.ofByte ty.toByte = ty := by
  cases ty <;> rfl

/-- An encoded frame: header, header CRC, payload, payload CRC. -/
theorem encodeFrame_eq (f : Frame) : encodeFrame f =
    frameHeader f ++ (ByteWriter.u32 (crc32 (frameHeader f)) ++
      (f.payload ++ (ByteWriter.u32 (crc32 f.payload) ++ []))) := rfl

theorem length_encodeFrame (f : Frame) : (encodeFrame f).length = kHeader + f.payload.length + 4 := by
  rw [encodeFrame_eq]
  simp only [List.length_append, length_frameHeader, length_u32, List.length_nil]
  unfold kHeader
  omega

/-- The fields at the start of an encoded frame. -/
theorem encodeFrame_fields (f : Frame) : ∃ later, encodeFrame f = ByteWriter.u32 kFrameMagic ++
    ([kFrameVersion, f.type.toByte, 0, 0] ++ (ByteWriter.u32 (UInt32.ofNat f.payload.length) ++ later)) := by
  refine ⟨ByteWriter.u32 (crc32 (frameHeader f)) ++ (f.payload ++ (ByteWriter.u32 (crc32 f.payload) ++ [])), ?_⟩
  have hreserved : ByteWriter.u16 0 = [0, 0] := by decide
  rw [encodeFrame_eq]
  unfold frameHeader ByteWriter.u8
  rw [hreserved]
  simp only [List.flatten_cons, List.flatten_nil, List.append_assoc, List.cons_append, List.nil_append]

theorem frameFields_encodeFrame (h : f.payload.length ≤ Limits.kMaxFrameBytes) :
    frameFields (encodeFrame f) = .ok (f.type, f.payload.length) := by
  obtain ⟨later, heq⟩ := encodeFrame_fields f
  have hmagic : wordAt (encodeFrame f) 0 = kFrameMagic := by
    rw [heq]
    exact wordAt_u32 [] _ kFrameMagic
  have hbytes : (encodeFrame f).drop 4 =
      [kFrameVersion, f.type.toByte, 0, 0] ++ (ByteWriter.u32 (UInt32.ofNat f.payload.length) ++ later) := by
    rw [heq]
    exact List.drop_left' (length_u32 kFrameMagic)
  have hver : (encodeFrame f).getD 4 0 = kFrameVersion := by
    rw [List.getD_eq_getElem?_getD, ← Nat.add_zero 4, ← List.getElem?_drop, hbytes]
    rfl
  have htype : (encodeFrame f).getD 5 0 = f.type.toByte := by
    rw [List.getD_eq_getElem?_getD, show 5 = 4 + 1 from rfl, ← List.getElem?_drop, hbytes]
    rfl
  have hword : wordAt (encodeFrame f) 8 = UInt32.ofNat f.payload.length := by
    rw [heq, ← List.append_assoc]
    exact wordAt_u32 (ByteWriter.u32 kFrameMagic ++ [kFrameVersion, f.type.toByte, 0, 0]) later _
  have hlen : (UInt32.ofNat f.payload.length).toNat = f.payload.length := by
    rw [UInt32.toNat_ofNat', Nat.mod_eq_of_lt]
    unfold Limits.kMaxFrameBytes at h
    omega
  unfold frameFields
  dsimp only
  rw [hmagic, hver, htype, hword, hlen, validMsgType_toByte, ofByte_toByte, if_neg (by simp), if_neg (by simp),
    if_neg (by simp), if_neg (not_lt.mpr h)]

theorem headerCrcOk_encodeFrame (f : Frame) : headerCrcOk (encodeFrame f) = true := by
  have hword : wordAt (encodeFrame f) 12 = crc32 (frameHeader f) := by
    rw [encodeFrame_eq, ← length_frameHeader f]
    exact wordAt_u32 _ _ _
  have htake : (encodeFrame f).take 12 = frameHeader f := List.take_left' (length_frameHeader f)
  unfold headerCrcOk
  rw [hword, htake]
  exact decide_eq_true rfl

/-- The bytes before the payload. -/
theorem encodeFrame_split (f : Frame) : ∃ header, header.length = kHeader ∧
    encodeFrame f = header ++ (f.payload ++ (ByteWriter.u32 (crc32 f.payload) ++ [])) := by
  refine ⟨frameHeader f ++ ByteWriter.u32 (crc32 (frameHeader f)), ?_, ?_⟩
  · rw [List.length_append, length_frameHeader, length_u32]
    rfl
  · rw [encodeFrame_eq, List.append_assoc]

theorem framePayload_encodeFrame (f : Frame) : framePayload (encodeFrame f) f.payload.length = f.payload := by
  obtain ⟨header, hlen, heq⟩ := encodeFrame_split f
  unfold framePayload
  rw [heq, List.drop_left' hlen, List.take_left]

theorem payloadCrcOk_encodeFrame (f : Frame) : payloadCrcOk (encodeFrame f) f.payload.length = true := by
  have hword : wordAt (encodeFrame f) (kHeader + f.payload.length) = crc32 f.payload := by
    obtain ⟨header, hlen, heq⟩ := encodeFrame_split f
    rw [heq, ← List.append_assoc, ← hlen, ← List.length_append]
    exact wordAt_u32 _ _ _
  unfold payloadCrcOk
  rw [framePayload_encodeFrame, hword]
  exact decide_eq_true rfl

/-- **An encoded frame is read off the buffer it begins.** -/
theorem frameHead_encodeFrame (h : f.payload.length ≤ Limits.kMaxFrameBytes) (later : List UInt8) :
    frameHead (encodeFrame f ++ later) = .item f later := by
  have hread := frameHead_of_frame (length_encodeFrame f).ge (frameFields_encodeFrame h) (headerCrcOk_encodeFrame f)
    (payloadCrcOk_encodeFrame f)
  rw [framePayload_encodeFrame, List.drop_eq_nil_of_le (length_encodeFrame f).le] at hread
  exact frameHead_item_append hread

/-! ## Streams -/

namespace FrameStream

/-- Feed chunks in order, stopping at the first failure. -/
def feedAll (stream : FrameStream) (chunks : List (List UInt8)) : List Frame × FrameStream :=
  framing.feedAll stream chunks

theorem feed_fresh (data : List UInt8) : feed {} data = framing.drain data := Framing.settled_fresh.feed data

/-- Encoded frames are taken off one by one. -/
theorem drain_encoded (frames : List Frame) (h : ∀ f ∈ frames, f.payload.length ≤ Limits.kMaxFrameBytes) :
    framing.drain (frames.flatMap encodeFrame) = (frames, {}) := by
  induction frames with
  | nil => exact Framing.drain_more framing.head_nil
  | cons f frames ih =>
    have hhead : framing.head (encodeFrame f ++ frames.flatMap encodeFrame) = .item f (frames.flatMap encodeFrame) :=
      frameHead_encodeFrame (h f List.mem_cons_self) _
    rw [List.flatMap_cons, Framing.drain_item hhead, ih fun f' hf' => h f' (List.mem_cons_of_mem _ hf')]

/-- **Framing is chunk-independent and lossless.** Fed in any chunks, a byte string gives the frames and the error that it
    gives in one; and encoded frames give these frames back, without an error and with nothing left over. -/
theorem framed_stream :
    (∀ chunks : List (List UInt8), (feedAll {} chunks).1 = (feed {} chunks.flatten).1 ∧
      (feedAll {} chunks).2.err = (feed {} chunks.flatten).2.err) ∧
    ∀ (frames : List Frame) (chunks : List (List UInt8)),
      (∀ f ∈ frames, f.payload.length ≤ Limits.kMaxFrameBytes) → chunks.flatten = frames.flatMap encodeFrame →
      feedAll {} chunks = (frames, {}) := by
  constructor
  · intro chunks
    obtain ⟨hframes, herr, _⟩ := Framing.settled_fresh.feedAll_flatten chunks
    exact ⟨hframes, herr⟩
  · intro frames chunks h hcut
    obtain ⟨hframes, _, hleft⟩ := Framing.settled_fresh.feedAll_flatten chunks
    have hone : framing.feed {} chunks.flatten = (frames, {}) := by
      rw [hcut]
      exact (feed_fresh _).trans (drain_encoded frames h)
    rw [hone] at hframes hleft
    exact Prod.ext hframes (hleft rfl)

/-- A frame cut after its first byte. -/
theorem framed_stream_cut :
    feedAll {} [(encodeFrame { type := .ping }).take 1, (encodeFrame { type := .ping }).drop 1] =
      ([{ type := .ping }], {}) := by
  have hcut : ∀ bytes : List UInt8, [bytes.take 1, bytes.drop 1].flatten = bytes := by
    intro bytes
    rw [List.flatten_cons, List.flatten_singleton, List.take_append_drop]
  have hone : [({ type := .ping } : Frame)].flatMap encodeFrame = encodeFrame { type := .ping } :=
    List.flatMap_singleton _ _
  refine framed_stream.2 [{ type := .ping }] _ ?_ ((hcut _).trans hone.symm)
  intro f hf
  obtain rfl := List.mem_singleton.mp hf
  exact Nat.zero_le _

end FrameStream

end NVSwitchFabric
