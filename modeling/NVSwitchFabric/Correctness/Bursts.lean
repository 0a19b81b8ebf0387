import NVSwitchFabric.Correctness.Checksum
import NVSwitchFabric.Correctness.FrameRoundTrip
import NVSwitchFabric.Model.Persistence

/-!
# `Correctness.Bursts` — short bursts are detected

The checksum of wire.cpp is the reflected CRC of `Lib.Crc` (`crc32_eq`), and a file and a frame are both a sealed header of
twelve bytes with a sealed payload behind it (`Sealed`). Two such containers of one shape that differ only within four
bytes are equal (`Sealed.container_eq`), so nothing that is accepted is a short burst away from something written
(`bursts_detected`).
-/

namespace NVSwitchFabric

open Lib Lib.Crc

/-! ## Sealed bytes -/

/-- A number read little-endian is the word of its bytes. -/
theorem ofNat_leValue (w : Nat) (bytes : List UInt8) : BitVec.ofNat w (leValue bytes) = word bytes := by
  induction bytes with
  | nil => rfl
  | cons b bytes ih =>
    have hb := b.toNat_lt
    show _ = b.toBitVec.setWidth w ^^^ (word bytes <<< 8)
    rw [← ih]
    apply BitVec.eq_of_getLsbD_eq
    intro i hi
    have hsum : leValue (b :: bytes) = 2 ^ 8 * leValue bytes + b.toNat := Nat.add_comm _ _
    rw [BitVec.getLsbD_ofNat, hsum, Nat.testBit_two_pow_mul_add _ hb, BitVec.getLsbD_xor, BitVec.getLsbD_setWidth,
      BitVec.getLsbD_shiftLeft, BitVec.getLsbD_ofNat]
    show _ = (decide (i < w) && b.toNat.testBit i ^^ _)
    by_cases hlow : i < 8
    · simp [hi, hlow]
    · have hhigh : b.toNat.testBit i = false :=
        Nat.testBit_lt_two_pow (lt_of_lt_of_le hb (Nat.pow_le_pow_right (by decide) (Nat.le_of_not_lt hlow)))
      simp [hi, hlow, hhigh, show i - 8 < w by omega]

/-- The checksum of the first `n` bytes stands behind them. -/
def Sealed (data : List UInt8) (n : Nat) : Prop := n + 4 ≤ data.length ∧ crc32 (data.take n) = wordAt data n

namespace Sealed

variable {data other : List UInt8} {n : Nat}

/-- Bytes that are written with their checksum behind them are sealed. -/
theorem written (data later : List UInt8) : Sealed (data ++ (ByteWriter.u32 (crc32 data) ++ later)) data.length := by
  constructor
  · rw [List.length_append, List.length_append, length_u32]
    omega
  · rw [List.take_left, wordAt_u32]

/-- What sealed bytes leave is known. -/
theorem run_eq (h : Sealed data n) : run crcPoly crcOnes (data.take (n + 4)) = shifts crcPoly 32 crcOnes := by
  obtain ⟨hlen, hcrc⟩ := h
  have hcheck : ((data.drop n).take 4).length = 4 := by
    rw [List.length_take, List.length_drop]
    omega
  have hword : word ((data.drop n).take 4) = run crcPoly crcOnes (data.take n) ^^^ crcOnes := by
    rw [← crc32_eq, hcrc]
    exact (ofNat_leValue 32 _).symm
  rw [List.take_add]
  exact run_sealed (by rw [hcheck]) hword

/-- **Sealed bytes that differ within four are equal.** -/
theorem eq_of_burst (h : Sealed data n) (hother : Sealed other n) (hburst : Burst 4 data other) :
    other.take (n + 4) = data.take (n + 4) :=
  ((hburst.take (n + 4)).eq_of_run crcPoly_high (by decide) (h.run_eq.trans hother.run_eq.symm)).symm

end Sealed

/-- A sealed header of twelve bytes, and behind it a sealed payload of `n` to the end. -/
structure Container (data : List UInt8) (n : Nat) : Prop where
  header  : Sealed data 12
  payload : Sealed (data.drop 16) n
  all     : data.length = 16 + n + 4

/-- **Containers of one shape that differ within four bytes are equal**, wherever the bytes are. -/
theorem Container.eq_of_burst {data other : List UInt8} {n : Nat} (h : Container data n) (hother : Container other n)
    (hburst : Burst 4 data other) : other = data := by
  have hfront : other.take 16 = data.take 16 := h.header.eq_of_burst hother.header hburst
  have hback := h.payload.eq_of_burst hother.payload (hburst.drop 16)
  have hrest : other.drop 16 = data.drop 16 := by
    rwa [List.take_of_length_le (by rw [List.length_drop, hother.all]; omega),
      List.take_of_length_le (by rw [List.length_drop, h.all]; omega)] at hback
  rw [← List.take_append_drop 16 other, hfront, hrest, List.take_append_drop]

/-! ## Files -/

theorem serialize_container (reg : FabricRegistry) :
    Container (serialize reg) (encodeTopologyPayload reg.snapshot).length := by
  refine ⟨?_, ?_, length_serialize reg⟩
  · rw [serialize_eq, ← length_fileHeader]
    exact Sealed.written _ _
  · rw [drop_serialize]
    exact Sealed.written _ _

/-- What a file must have to be accepted. -/
theorem container_of_deserialized {data : List UInt8} {reg : FabricRegistry} (h : deserialize data = .ok reg) :
    Container data (data.length - 20) := by
  obtain ⟨topo, hstores, -⟩ := stores_of_deserialized h
  have hlong := hstores.long
  refine ⟨⟨by omega, hstores.headerCrc⟩, ⟨by rw [List.length_drop]; omega, ?_⟩, by omega⟩
  have hword : wordAt (data.drop 16) (data.length - 20) = wordAt data (16 + (data.length - 20)) := by
    unfold wordAt
    rw [List.drop_drop]
  rw [hword]
  exact hstores.payloadCrc.symm

/-! ## Frames -/

theorem encodeFrame_container (f : Frame) : Container (encodeFrame f) f.payload.length := by
  obtain ⟨header, hlen, hsplit⟩ := encodeFrame_split f
  refine ⟨?_, ?_, length_encodeFrame f⟩
  · rw [encodeFrame_eq, ← length_frameHeader f]
    exact Sealed.written _ _
  · have hdrop : (encodeFrame f).drop 16 = f.payload ++ (ByteWriter.u32 (crc32 f.payload) ++ []) := by
      rw [hsplit]
      exact List.drop_left' hlen
    rw [hdrop]
    exact Sealed.written _ _

/-- What a frame must have to be decoded. -/
theorem decodeFrame_ok {data : List UInt8} {f : Frame} (h : decodeFrame data = .ok f) :
    ∃ length, kHeader + length + 4 ≤ data.length ∧ frameFields data = .ok (f.type, length) ∧
      headerCrcOk data = true ∧ payloadCrcOk data length = true := by
  unfold decodeFrame at h
  obtain ⟨-, h⟩ := check_eq_ok_iff.mp h
  split at h
  · exact absurd h (by simp)
  next type length hfields =>
  obtain ⟨hhdr, h⟩ := check_eq_ok_iff.mp h
  obtain ⟨htotal, h⟩ := check_eq_ok_iff.mp h
  obtain ⟨hpay, h⟩ := check_eq_ok_iff.mp h
  obtain rfl := Except.ok.inj h
  exact ⟨length, by omega, hfields, by simpa using hhdr, by simpa using hpay⟩

/-- A decoded frame as long as an encoded one, and with its header. -/
theorem container_of_decoded {data : List UInt8} {f g : Frame} (hsize : f.payload.length ≤ Limits.kMaxFrameBytes)
    (hburst : Burst 4 (encodeFrame f) data) (h : decodeFrame data = .ok g) : Container data f.payload.length := by
  obtain ⟨length, hlen, hfields, hhdr, hpay⟩ := decodeFrame_ok h
  have hheader : Sealed data 12 := ⟨by unfold kHeader at hlen; omega, of_decide_eq_true hhdr⟩
  have hall : data.length = 16 + f.payload.length + 4 := hburst.1.trans (length_encodeFrame f)
  have hsame : data.take 16 = (encodeFrame f).take 16 :=
    (encodeFrame_container f).header.eq_of_burst hheader hburst
  have hcut : ∀ bytes : List UInt8, 16 ≤ bytes.length → frameFields (bytes.take 16) = frameFields bytes := by
    intro bytes hbytes
    have happ := @frameFields_append (bytes.take 16) (bytes.drop 16)
      (by rw [List.length_take]; unfold kHeader; omega)
    rw [List.take_append_drop] at happ
    exact happ.symm
  have hwritten : frameFields data = .ok (f.type, f.payload.length) := by
    rw [← hcut data (by omega), hsame, hcut _ (by rw [length_encodeFrame]; unfold kHeader; omega)]
    exact frameFields_encodeFrame hsize
  obtain ⟨-, rfl⟩ := Prod.mk.inj (Except.ok.inj (hfields.symm.trans hwritten))
  refine ⟨hheader, ⟨by rw [List.length_drop]; omega, ?_⟩, hall⟩
  have hword : wordAt (data.drop 16) f.payload.length = wordAt data (kHeader + f.payload.length) := by
    unfold wordAt kHeader
    rw [List.drop_drop]
  rw [hword]
  exact of_decide_eq_true hpay

/-- **Short bursts never go undetected.** A file and a frame that are changed within four consecutive bytes are rejected. -/
theorem bursts_detected :
    (∀ (reg : FabricRegistry) (data : List UInt8), Burst 4 (serialize reg) data → data ≠ serialize reg →
      ∃ e, deserialize data = .error e) ∧
    ∀ (f : Frame) (data : List UInt8), f.payload.length ≤ Limits.kMaxFrameBytes → Burst 4 (encodeFrame f) data →
      data ≠ encodeFrame f → ∃ e, decodeFrame data = .error e := by
  constructor
  · intro reg data hburst hne
    cases hread : deserialize data with
    | error e => exact ⟨e, rfl⟩
    | ok other =>
      have hwritten := serialize_container reg
      have hfound := container_of_deserialized hread
      rw [hburst.1, hwritten.all, show ∀ n, 16 + n + 4 - 20 = n from fun n => by omega] at hfound
      exact absurd (hwritten.eq_of_burst hfound hburst) hne
  · intro f data hsize hburst hne
    cases hread : decodeFrame data with
    | error e => exact ⟨e, rfl⟩
    | ok other =>
      have hfound := container_of_decoded hsize hburst hread
      exact absurd ((encodeFrame_container f).eq_of_burst hfound hburst) hne

/-- The first byte of a file and of a frame overwritten. -/
theorem bursts_detected_first_byte :
    (∃ e, deserialize ((serialize {}).set 0 0) = .error e) ∧
      ∃ e, decodeFrame ((encodeFrame { type := .ping }).set 0 0) = .error e := by
  have hset : ∀ (b : UInt8) (bytes : List UInt8), b ≠ 0 → (b :: bytes).set 0 0 ≠ b :: bytes := by
    intro b bytes hb heq
    exact hb (List.cons.inj heq).1.symm
  have hfile : ∀ reg, ∃ bytes, serialize reg = 0x4E :: bytes := fun _ => ⟨_, rfl⟩
  have hframe : ∀ f, ∃ bytes, encodeFrame f = 0x31 :: bytes := fun _ => ⟨_, rfl⟩
  obtain ⟨file, hfile⟩ := hfile {}
  obtain ⟨frame, hframe⟩ := hframe { type := .ping }
  refine ⟨bursts_detected.1 {} _ (Burst.set _ 0 0 (by decide)) ?_,
    bursts_detected.2 { type := .ping } _ (Nat.zero_le _) (Burst.set _ 0 0 (by decide)) ?_⟩
  · rw [hfile]
    exact hset _ _ (by decide)
  · rw [hframe]
    exact hset _ _ (by decide)

end NVSwitchFabric
