import NVSwitchFabric.Correctness.Publication
import NVSwitchFabric.Correctness.FrameRoundTrip
import NVSwitchFabric.Correctness.Restorable
import NVSwitchFabric.Runtime.Worker

/-!
# `Correctness.Deliverable` — which topologies a worker can publish

`publishTopology` sends whatever it is given: the frame layer refuses long payloads at the receiver only, and the codec
refuses long lists when it decodes. `delivers_iff` says which topologies of a registry arrive: those whose payload is
within the limit of a frame and whose partitions list no more members and switches than can be decoded. That the strings
are short enough follows from the size of the payload (`shortStrings_of_length`).
-/

namespace NVSwitchFabric

open Lib

/-! ## Frames of acceptable length -/

theorem length_le_of_frameFields {data : List UInt8} {type : MsgType} {length : Nat}
    (h : frameFields data = .ok (type, length)) : length ≤ Limits.kMaxFrameBytes := by
  unfold frameFields at h
  obtain ⟨-, h⟩ := check_eq_ok_iff.mp h
  obtain ⟨-, h⟩ := check_eq_ok_iff.mp h
  obtain ⟨-, h⟩ := check_eq_ok_iff.mp h
  obtain ⟨hle, h⟩ := check_eq_ok_iff.mp h
  obtain ⟨-, rfl⟩ := Prod.mk.inj (Except.ok.inj h)
  exact Nat.le_of_not_lt hle

/-- **An encoded frame is accepted as one frame exactly if its payload is within the limit**, and it is then itself. -/
theorem frameHead_encodeFrame_iff {f f' : Frame} :
    frameHead (encodeFrame f) = .item f' [] ↔ f.payload.length ≤ Limits.kMaxFrameBytes ∧ f' = f := by
  constructor
  · intro h
    have hsize : f.payload.length ≤ Limits.kMaxFrameBytes := by
      obtain ⟨length, hlen, hfields, _, _, _, hrest⟩ := frameHead_item h
      have hall := List.drop_eq_nil_iff.mp hrest.symm
      rw [length_encodeFrame] at hlen hall
      have hle := length_le_of_frameFields hfields
      omega
    have hread := frameHead_encodeFrame hsize []
    rw [List.append_nil] at hread
    obtain ⟨rfl, -⟩ := Head.item.inj (h.symm.trans hread)
    exact ⟨hsize, rfl⟩
  · rintro ⟨hsize, rfl⟩
    have hread := frameHead_encodeFrame hsize []
    rwa [List.append_nil] at hread

/-! ## Strings within an encoding -/

/-- A string that is written is no longer than what is written. -/
theorem length_le_of_mem {s : Str} {parts : List (List UInt8)} (h : ByteWriter.str s ∈ parts) :
    s.length ≤ parts.flatten.length := by
  have hle := (List.sublist_flatten_of_mem h).length_le
  rw [ByteWriter.str, List.length_append] at hle
  omega

theorem length_le_of_part {part : List UInt8} {parts : List (List UInt8)} (h : part ∈ parts) :
    part.length ≤ parts.flatten.length := (List.sublist_flatten_of_mem h).length_le

theorem Origin.encodable_of_length {o : Origin} (h : (encodeOrigin o).length ≤ Read.maxStr) : o.Encodable :=
  (length_le_of_mem (by simp [ByteWriter.strId])).trans h

theorem DeviceRecord.encodable_of_length {r : DeviceRecord} (h : (encodeDevice r).length ≤ Read.maxStr) :
    r.Encodable where
  name := (length_le_of_mem (by simp)).trans h
  backendId := (length_le_of_mem (by simp)).trans h
  vendor := (length_le_of_mem (by simp)).trans h
  product := (length_le_of_mem (by simp)).trans h
  partition := (length_le_of_mem (by simp [ByteWriter.strId])).trans h
  origin := Origin.encodable_of_length ((length_le_of_part (by simp)).trans h)

theorem SwitchRecord.encodable_of_length {r : SwitchRecord} (h : (encodeSwitch r).length ≤ Read.maxStr) :
    r.Encodable where
  name := (length_le_of_mem (by simp)).trans h
  vendor := (length_le_of_mem (by simp)).trans h
  product := (length_le_of_mem (by simp)).trans h
  family := (length_le_of_mem (by simp)).trans h
  fabric := (length_le_of_mem (by simp [ByteWriter.strId])).trans h
  partition := (length_le_of_mem (by simp [ByteWriter.strId])).trans h
  origin := Origin.encodable_of_length ((length_le_of_part (by simp)).trans h)

theorem FabricPartition.shortStrings_of_length {r : FabricPartition} (h : (encodePartition r).length ≤ Read.maxStr) :
    r.ShortStrings where
  id := (length_le_of_mem (by simp [ByteWriter.strId])).trans h
  fabric := (length_le_of_mem (by simp [ByteWriter.strId])).trans h
  origin := Origin.encodable_of_length ((length_le_of_part (by simp)).trans h)

theorem length_le_keyedMap {κ α : Type} [LinearOrder κ] {w : α → List UInt8} {m : SortedMap κ α} {k : κ} {v : α}
    (h : m.find? k = some v) : (w v).length ≤ (ByteWriter.keyedMap w m).length := by
  have hmem : w v ∈ m.entries.map fun e => w e.2 := List.mem_map.mpr ⟨(k, v), SortedMap.find?_eq_some_iff.mp h, rfl⟩
  have hle : (w v).length ≤ (m.entries.flatMap fun e => w e.2).length := (List.sublist_flatten_of_mem hmem).length_le
  unfold ByteWriter.keyedMap
  rw [List.length_append]
  omega

theorem length_device_le {t : FabricTopology} {k : DeviceId} {rec : DeviceRecord} (h : t.devices.find? k = some rec) :
    (encodeDevice rec).length ≤ (encodeTopology t).length :=
  (length_le_keyedMap h).trans (length_le_of_part (by simp))

/-- **A topology with a short encoding has short strings.** -/
theorem FabricTopology.shortStrings_of_length {t : FabricTopology} (h : (encodeTopology t).length ≤ Read.maxStr) :
    t.ShortStrings := by
  have hpart : ∀ {part : List UInt8}, part.length ≤ (encodeTopology t).length → part.length ≤ Read.maxStr :=
    fun hle => hle.trans h
  refine ⟨(length_le_of_mem (by simp)).trans h, ?_, ?_, ?_, ?_, ?_⟩
  · intro k v hv
    exact DeviceRecord.encodable_of_length (hpart (length_device_le hv))
  · intro k v hv
    exact SwitchRecord.encodable_of_length (hpart ((length_le_keyedMap hv).trans (length_le_of_part (by simp))))
  · intro k v hv
    have hrec : (encodePort v).length ≤ Read.maxStr :=
      hpart ((length_le_keyedMap hv).trans (length_le_of_part (by simp)))
    exact Origin.encodable_of_length ((length_le_of_part (by simp)).trans hrec)
  · intro k v hv
    have hrec : (encodeLink v).length ≤ Read.maxStr :=
      hpart ((length_le_keyedMap hv).trans (length_le_of_part (by simp)))
    exact Origin.encodable_of_length ((length_le_of_part (by simp)).trans hrec)
  · intro k v hv
    exact FabricPartition.shortStrings_of_length
      (hpart ((length_le_keyedMap hv).trans (length_le_of_part (by simp))))

/-! ## Delivery -/

theorem length_encodePublishTopology (epoch : CoordinatorEpoch) (w : WorkerId) (b : WorkerBootId) (t : FabricTopology) :
    (encodePublishTopology epoch w b t).length = 25 + w.value.length + (encodeTopology t).length := by
  have hu64 : ∀ v : UInt64, (ByteWriter.u64 v).length = 8 := fun v => length_leBytes 8 v.toNat
  unfold encodePublishTopology ByteWriter.str ByteWriter.u8
  simp only [List.flatten_cons, List.flatten_nil, List.length_append, List.length_singleton, List.length_nil,
    length_u32, hu64]
  omega

namespace Worker

/-- If `publishTopology` sends anything, it arrives, however it is cut: as one frame, that publishes a topology under the
    epoch and from the worker, and of which the coordinator decodes `t`. -/
def Delivers (w : Worker) (t : FabricTopology) (epoch : CoordinatorEpoch) : Prop :=
  ∀ sent, w.publishTopology t epoch = .ok sent → ∀ chunks : List (List UInt8), chunks.flatten = sent →
    ∃ f, FrameStream.feedAll {} chunks = ([f], {}) ∧ f.type = .publishTopology ∧
      ∃ blob, (readPublishTopology epoch w.worker w.boot).run? f.payload = some blob ∧ decodeTopology blob = .ok t

/-- What is delivered fits a frame. -/
theorem Delivers.length_le {w : Worker} {t : FabricTopology} {epoch : CoordinatorEpoch} (h : w.Delivers t epoch) :
    25 + w.worker.value.length + (encodeTopology t).length ≤ Limits.kMaxFrameBytes := by
  obtain ⟨f, hfeed, _⟩ := h _ rfl [_] List.flatten_singleton
  have hhead := Framing.feedAll_one_iff.mp hfeed
  rw [List.flatten_singleton] at hhead
  rw [← length_encodePublishTopology epoch _ w.boot]
  exact (frameHead_encodeFrame_iff.mp hhead).1

/-- **What a worker can publish.** A topology that a registry holds is delivered exactly if its payload fits a frame and
    its partitions list no more members and switches than can be decoded. -/
theorem delivers_iff {r : FabricRegistry} (hr : r.Reachable) (w : Worker) (epoch : CoordinatorEpoch) :
    w.Delivers r.current epoch ↔
      25 + w.worker.value.length + (encodeTopology r.current).length ≤ Limits.kMaxFrameBytes ∧
        r.current.partitions.All FabricPartition.ListsFit := by
  have hwf := hr.wellFormed
  constructor
  · intro h
    obtain ⟨f, _, _, blob, _, hdec⟩ := h _ rfl [_] List.flatten_singleton
    exact ⟨h.length_le, ((encodable_iff hwf).mp (decodeTopology_encodable hdec).1).2⟩
  · rintro ⟨hsize, hfit⟩ sent hsent chunks rfl
    have hmax : Limits.kMaxFrameBytes ≤ Read.maxStr := by decide
    have henc : r.current.Encodable :=
      (encodable_iff hwf).mpr ⟨FabricTopology.shortStrings_of_length (by omega), hfit⟩
    have hframe : (encodePublishTopology epoch w.worker w.boot r.current).length ≤ Limits.kMaxFrameBytes := by
      rwa [length_encodePublishTopology]
    have hflat : encodeFrame (Coordinator.publishFrame epoch w.worker w.boot r.current) = chunks.flatten := Except.ok.inj hsent
    refine ⟨Coordinator.publishFrame epoch w.worker w.boot r.current, ?_, rfl, encodeTopology r.current, ?_, ?_⟩
    · refine Framing.feedAll_one_iff.mpr ?_
      rw [← hflat]
      exact frameHead_encodeFrame_iff.mpr ⟨hframe, rfl⟩
    · exact Coordinator.readPublishTopology_encode epoch w.boot (by omega) (by omega)
    · exact decodeTopology_encodeTopology henc hwf.integral

/-- A device in a partition. -/
def partitionedDevice : List RegistryOp :=
  [.addDevice { id := ⟨1⟩ }, .publishPartition { id := ⟨ascii "p"⟩, members := [⟨1⟩] }]

theorem delivers_partitionedDevice :
    ({ worker := ⟨ascii "w"⟩, boot := 1 } : Worker).Delivers (FabricRegistry.after partitionedDevice).current 1 := by
  refine (delivers_iff (FabricRegistry.reachable_after _) _ 1).mpr ⟨by decide +kernel, ?_⟩
  have hfit : ∀ e ∈ (FabricRegistry.after partitionedDevice).current.partitions.entries,
      e.2.members.length ≤ Limits.kMaxDevices ∧ e.2.switches.length ≤ Limits.kMaxSwitches := by decide +kernel
  intro k v hv
  exact hfit (k, v) (SortedMap.find?_eq_some_iff.mp hv)

/-- A device whose vendor is `s`. -/
def vendorDevice (s : Str) : FabricRegistry := FabricRegistry.after [.addDevice { id := ⟨1⟩, vendor := s }]

/-- A vendor as long as a payload may be is held, and cannot be published. -/
theorem long_vendor_not_delivered :
    ¬ ({} : Worker).Delivers (vendorDevice (List.replicate Limits.kMaxFrameBytes 65)).current 1 := by
  intro h
  have hvendor : ∀ s, ((vendorDevice s).current.devices.find? ⟨1⟩).map (·.vendor) = some s := fun s => rfl
  obtain ⟨rec, hrec, hlong⟩ := Option.map_eq_some_iff.mp (hvendor (List.replicate Limits.kMaxFrameBytes 65))
  have hstr : rec.vendor.length ≤ (encodeDevice rec).length := length_le_of_mem (by simp)
  rw [hlong, List.length_replicate] at hstr
  have hall := length_device_le hrec
  have hsize := h.length_le
  omega

end Worker

end NVSwitchFabric
