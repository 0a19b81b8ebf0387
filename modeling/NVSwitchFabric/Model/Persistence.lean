import NVSwitchFabric.Model.Codec
import NVSwitchFabric.Model.Registry

/-!
# `Model.Persistence` — durable registry state

The file format (magic, version, header CRC, payload, payload CRC) and its writer and reader, from
persistence.cpp. The file system is a map from paths to contents; `writeFileAtomic` is the list of its separate
steps, so that a run can stop between any two.

A restored registry holds the decoded snapshot and adopts its epoch; everything dynamic starts afresh
(`restored`). The rest of the development uses `deserialize_encodable` for what any bytes restore, and
`deserialize_serialize` and `encodable_of_deserialized` for what a written file does.
-/

namespace NVSwitchFabric

open Lib

/-! ## Format -/

/-- `kMagic`. -/
def kMagic : List UInt8 := ascii "NVSFFAB1"

def kFormatVersion : UInt32 := 1

/-- `unsupportedFuture`. -/
def unsupportedFuture : Error := ⟨.unsupported, "unsupported future persistence version"⟩

/-- The first twelve bytes of a file, which the header CRC covers. -/
def fileHeader : List UInt8 := kMagic ++ ByteWriter.u32 kFormatVersion

/-- `Persistence::serialize`. -/
def serialize (reg : FabricRegistry) : List UInt8 :=
  let payload := encodeTopologyPayload reg.snapshot
  List.flatten [fileHeader, ByteWriter.u32 (crc32 fileHeader), payload, ByteWriter.u32 (crc32 payload)]

/-- The registry a decoded snapshot is restored as. -/
def restored (topo : FabricTopology) : FabricRegistry where
  current := topo
  version := 1
  nextSnapshotId := topo.id + 1
  epoch := topo.epoch

/-- The three header fields. -/
def readHeader : Read (List UInt8 × UInt32 × UInt32) := do
  let mag ← Read.bytes 8
  let ver ← Read.u32
  let hdrCrc ← Read.u32
  return (mag, ver, hdrCrc)

/-- `Persistence::deserialize`. The source checks each header field before it reads the next; the length test
    makes sure that all three can be read. -/
def deserialize (data : List UInt8) : Result FabricRegistry :=
  if data.length < 8 + 4 + 4 + 4 then .error integrityErr
  else match readHeader { buf := data } with
    | (none, _) => .error integrityErr
    | (some (mag, ver, hdrCrc), r) =>
      if mag ≠ kMagic then .error integrityErr
      else if ver ≠ kFormatVersion then
        if kFormatVersion < ver then .error unsupportedFuture else .error integrityErr
      else if crc32 (data.take 12) ≠ hdrCrc then .error integrityErr
      else
        let headPos := r.pos
        let payloadLen := data.length - headPos - 4
        if payloadLen = 0 then .error integrityErr
        else
          let payload := (data.drop headPos).take payloadLen
          let storedCrc := UInt32.ofNat (leValue ((data.drop (headPos + payloadLen)).take 4))
          if storedCrc ≠ crc32 payload then .error integrityErr
          else match decodeTopology payload with
            | .error e => .error e
            | .ok topo => .ok (restored topo)

/-! ## Files -/

/-- The file system: the contents under each path. -/
abbrev Disk := SortedMap Str (List UInt8)

/-- `std::rename`; nothing happens when the source is missing. -/
def Disk.rename (src dst : Str) (disk : Disk) : Disk :=
  match disk.find? src with
  | some data => (SortedMap.erase disk src).insert dst data
  | none      => disk

/-- The steps of `writeFileAtomic`: open the temporary file truncating it, write it, remove the target, rename
    the temporary file to it. -/
def writeFileSteps (path : Str) (data : List UInt8) : List (Disk → Disk) :=
  let tmp := path ++ ascii ".tmp"
  [fun disk => disk.insert tmp [],
   fun disk => disk.insert tmp data,
   fun disk => disk.erase path,
   Disk.rename tmp path]

/-- `writeFileAtomic`. -/
def writeFileAtomic (path : Str) (data : List UInt8) (disk : Disk) : Disk :=
  (writeFileSteps path data).foldl (fun disk step => step disk) disk

/-- `Persistence::serializeToFile`. -/
def serializeToFile (reg : FabricRegistry) (path : Str) (disk : Disk) : Result Unit × Disk :=
  let data := serialize reg
  if Limits.kMaxPersistenceBytes < data.length then
    (.error ⟨.resourceLimit, "persistence too large"⟩, disk)
  else (.ok (), writeFileAtomic path data disk)

/-- `Persistence::deserializeFromFile`. -/
def deserializeFromFile (path : Str) (disk : Disk) : Result FabricRegistry :=
  match disk.find? path with
  | none      => .error ⟨.notFound, "persistence file not found"⟩
  | some data =>
    if Limits.kMaxPersistenceBytes < data.length then .error ⟨.resourceLimit, "persistence too large"⟩
    else deserialize data

namespace FabricRegistry

/-- `persistTo`. -/
def persistTo (reg : FabricRegistry) (path : Str) (disk : Disk) : Result Unit × Disk :=
  serializeToFile reg path disk

/-- `restoreFrom`. -/
def restoreFrom (path : Str) (disk : Disk) : Result FabricRegistry := deserializeFromFile path disk

end FabricRegistry

/-! ## What is restored -/

/-- The payload of a file: what is between the sixteen bytes of its header and the four of its last CRC. -/
def storedPayload (data : List UInt8) : List UInt8 := (data.drop 16).take (data.length - 20)

/-- What a file must be for `topo` to be restored from it. -/
structure Stores (data : List UInt8) (topo : FabricTopology) : Prop where
  long       : 20 ≤ data.length
  headerCrc  : crc32 (data.take 12) = UInt32.ofNat (leValue ((data.drop 12).take 4))
  payloadCrc : UInt32.ofNat (leValue ((data.drop (16 + (data.length - 20))).take 4)) = crc32 (storedPayload data)
  decoded    : decodeTopology (storedPayload data) = .ok topo

/-- The three header fields are the first sixteen bytes. -/
theorem readHeader_some {data mag : List UInt8} {ver hdrCrc : UInt32} {r : ByteReader}
    (h : readHeader { buf := data } = (some (mag, ver, hdrCrc), r)) :
    hdrCrc = UInt32.ofNat (leValue ((data.drop 12).take 4)) ∧ r.pos = 16 := by
  unfold readHeader at h
  obtain ⟨m, r₁, hmag, h⟩ := Read.bind_some h
  obtain ⟨-, rfl, -⟩ := Read.take_some hmag
  obtain ⟨v, r₂, hver, h⟩ := Read.bind_some h
  obtain ⟨-, rfl, -⟩ := Read.value_some hver
  obtain ⟨c, r₃, hcrc, h⟩ := Read.bind_some h
  obtain ⟨rfl, rfl, -⟩ := Read.value_some hcrc
  obtain ⟨heq, rfl⟩ := Read.pure_some h
  obtain ⟨-, -, rfl⟩ := heq
  exact ⟨rfl, rfl⟩

/-- **Inversion of the reader.** What is restored is what the file stores. -/
theorem stores_of_deserialized {data : List UInt8} {reg : FabricRegistry} (h : deserialize data = .ok reg) :
    ∃ topo, Stores data topo ∧ reg = restored topo := by
  unfold deserialize at h
  obtain ⟨hlen, h⟩ := check_eq_ok_iff.mp h
  split at h
  · exact absurd h (by simp)
  next mag ver hdrCrc r hhead =>
  obtain ⟨rfl, hpos⟩ := readHeader_some hhead
  obtain ⟨-, h⟩ := check_eq_ok_iff.mp h
  split at h
  · split at h <;> exact absurd h (by simp)
  obtain ⟨hhdr, h⟩ := check_eq_ok_iff.mp h
  dsimp only at h
  rw [hpos, Nat.sub_sub] at h
  obtain ⟨-, h⟩ := check_eq_ok_iff.mp h
  obtain ⟨hpay, h⟩ := check_eq_ok_iff.mp h
  cases htopo : decodeTopology ((data.drop 16).take (data.length - (16 + 4))) with
  | error e =>
    rw [htopo] at h
    exact absurd h (by simp)
  | ok topo =>
    rw [htopo] at h
    exact ⟨topo, ⟨Nat.le_of_not_lt hlen, not_not.mp hhdr, not_not.mp hpay, htopo⟩, (Except.ok.inj h).symm⟩

/-- **A restored registry holds a snapshot in the domain of the codec** and has adopted its epoch, whatever the
    bytes. -/
theorem deserialize_encodable {data : List UInt8} {reg : FabricRegistry} (h : deserialize data = .ok reg) :
    ∃ topo : FabricTopology, topo.Encodable ∧ topo.Integral ∧ reg = restored topo := by
  obtain ⟨topo, hstores, heq⟩ := stores_of_deserialized h
  obtain ⟨henc, hint⟩ := decodeTopology_encodable hstores.decoded
  exact ⟨topo, henc, hint, heq⟩

/-- In particular the snapshot is well formed. -/
theorem deserialize_ok {data : List UInt8} {reg : FabricRegistry} (h : deserialize data = .ok reg) :
    ∃ topo : FabricTopology, topo.WellFormed ∧ reg = restored topo := by
  obtain ⟨topo, henc, hint, heq⟩ := deserialize_encodable h
  exact ⟨topo, ⟨henc.keyed, henc.limits, hint⟩, heq⟩

/-! ## What is written -/

@[simp] theorem length_fileHeader : fileHeader.length = 12 := rfl

/-- A written file: header, header CRC, payload, payload CRC. -/
theorem serialize_eq (reg : FabricRegistry) : serialize reg =
    fileHeader ++ (ByteWriter.u32 (crc32 fileHeader) ++
      (encodeTopologyPayload reg.current ++ (ByteWriter.u32 (crc32 (encodeTopologyPayload reg.current)) ++ []))) := rfl

theorem length_serialize (reg : FabricRegistry) :
    (serialize reg).length = 16 + (encodeTopologyPayload reg.current).length + 4 := by
  rw [serialize_eq]
  simp only [List.length_append, length_fileHeader, length_u32, List.length_nil]
  omega

theorem take_serialize (reg : FabricRegistry) : (serialize reg).take 12 = fileHeader := by
  rw [serialize_eq]
  exact List.take_left' length_fileHeader

theorem drop_serialize (reg : FabricRegistry) : (serialize reg).drop 16 =
    encodeTopologyPayload reg.current ++ (ByteWriter.u32 (crc32 (encodeTopologyPayload reg.current)) ++ []) := by
  rw [serialize_eq, ← List.append_assoc]
  exact List.drop_left' (by rw [List.length_append, length_fileHeader, length_u32])

open Read (Reads) in
/-- The header that was written reads back, and the reader stands before the payload. -/
theorem readHeader_serialize (reg : FabricRegistry) : readHeader { buf := serialize reg } =
    (some (kMagic, kFormatVersion, crc32 fileHeader), { buf := serialize reg, pos := 16 }) := by
  have hread : Reads readHeader
      (kMagic ++ (ByteWriter.u32 kFormatVersion ++ (ByteWriter.u32 (crc32 fileHeader) ++ [])))
      (kMagic, kFormatVersion, crc32 fileHeader) :=
    (Reads.bytes kMagic).bind <| (Reads.u32 kFormatVersion).bind <| (Reads.u32 (crc32 fileHeader)).bind <|
      Reads.pure _
  have hdata : serialize reg = (kMagic ++ (ByteWriter.u32 kFormatVersion ++ (ByteWriter.u32 (crc32 fileHeader) ++ []))) ++
      (serialize reg).drop 16 := (List.take_append_drop 16 _).symm
  exact hread { buf := serialize reg } _ hdata (Nat.zero_le _)

/-- **The frame of a file reads back**, so what is restored from a written file is what its payload decodes to. -/
theorem deserialize_serialize_eq (reg : FabricRegistry) :
    deserialize (serialize reg) = (decodeTopology (encodeTopology reg.current)).map restored := by
  have hsome : 0 < (encodeTopologyPayload reg.current).length := by
    unfold encodeTopologyPayload
    simp only [List.flatten_cons, List.length_append, ByteWriter.u64, length_leBytes]
    omega
  have hlen := length_serialize reg
  have hpaylen : (serialize reg).length - 16 - 4 = (encodeTopologyPayload reg.current).length := by omega
  have hstored : ((serialize reg).drop (16 + (encodeTopologyPayload reg.current).length)).take 4 =
      ByteWriter.u32 (crc32 (encodeTopologyPayload reg.current)) := by
    rw [← List.drop_drop, drop_serialize, List.drop_left]
    exact List.take_left' (length_u32 _)
  unfold deserialize
  rw [if_neg (by omega), readHeader_serialize]
  dsimp only
  rw [if_neg (by simp), if_neg (by simp), take_serialize, if_neg (by simp), hpaylen, if_neg hsome.ne',
    drop_serialize, List.take_left, hstored, leValue_u32, if_neg (by simp)]
  unfold encodeTopology
  cases decodeTopology (encodeTopologyPayload reg.current) <;> rfl

/-- **File round trip.** A registry whose snapshot is in the domain of the codec is restored with it. -/
theorem deserialize_serialize {reg : FabricRegistry} (h : reg.current.Encodable)
    (hint : reg.current.Integral) : deserialize (serialize reg) = .ok (restored reg.current) := by
  rw [deserialize_serialize_eq, decodeTopology_encodeTopology h hint]
  rfl

theorem length_encodeTopology_le (reg : FabricRegistry) :
    (encodeTopology reg.current).length ≤ (serialize reg).length := by
  unfold serialize encodeTopology FabricRegistry.snapshot
  simp only [List.flatten_cons, List.flatten_nil, List.length_append]
  omega

/-- **A written file that is accepted was in the domain**, if it is short enough for 32-bit counts. -/
theorem encodable_of_deserialized {reg reg' : FabricRegistry} (hwf : reg.current.WellFormed)
    (hsmall : (serialize reg).length < 2 ^ 32) (h : deserialize (serialize reg) = .ok reg') :
    reg.current.Encodable := by
  rw [deserialize_serialize_eq] at h
  have hlen := length_encodeTopology_le reg
  cases hdec : decodeTopology (encodeTopology reg.current) with
  | error e =>
    rw [hdec] at h
    exact absurd h (by simp [Except.map])
  | ok topo => exact encodable_of_decoded hwf.keyed hwf.limits (by omega) hdec

/-- After a write the path holds the data, whatever was there. -/
theorem find?_writeFileAtomic (path : Str) (data : List UInt8) (disk : Disk) :
    (writeFileAtomic path data disk).find? path = some data := by
  have hne : path ++ ascii ".tmp" ≠ path := by
    intro heq
    have hlen := congrArg List.length heq
    rw [List.length_append] at hlen
    exact absurd hlen (by simp [ascii])
  have hremoved : SortedMap.find? ((SortedMap.insert (SortedMap.insert disk (path ++ ascii ".tmp") [])
      (path ++ ascii ".tmp") data).erase path) (path ++ ascii ".tmp") = some data := by
    rw [SortedMap.find?_erase, if_neg hne, SortedMap.find?_insert_self]
  show SortedMap.find? (Disk.rename (path ++ ascii ".tmp") path _) path = some data
  unfold Disk.rename
  rw [hremoved]
  exact SortedMap.find?_insert_self _ _ _

/-- **Persist, then restore.** A registry within the domain of the codec and the size limit is restored with its
    snapshot, on whatever disk. -/
theorem FabricRegistry.restoreFrom_persistTo {reg : FabricRegistry} (path : Str) (disk : Disk)
    (h : reg.current.Encodable) (hint : reg.current.Integral)
    (hsize : (serialize reg).length ≤ Limits.kMaxPersistenceBytes) :
    restoreFrom path (reg.persistTo path disk).2 = .ok (restored reg.current) := by
  unfold persistTo serializeToFile
  rw [if_neg (not_lt.mpr hsize)]
  unfold restoreFrom deserializeFromFile
  rw [find?_writeFileAtomic]
  dsimp only
  rw [if_neg (not_lt.mpr hsize)]
  exact deserialize_serialize h hint

end NVSwitchFabric
