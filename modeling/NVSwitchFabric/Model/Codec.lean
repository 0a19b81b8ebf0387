import NVSwitchFabric.Model.Wire
import NVSwitchFabric.Model.Topology

/-!
# `Model.Codec` — the binary form of a topology

The record codecs and the topology payload of persistence.cpp, which the worker protocol embeds as well. All
five records end in the same six fields and both end-of-link blocks are the same four, so those have one codec
each, `encodeOrigin` and `encodeEnd`.

Every record codec has its `Reads` or `Decides` lemma, and `Decides.topologyPayload` assembles them: what
`encodeTopologyPayload` writes, `decodeTopologyPayload` reads back field for field if the topology is in the domain
`Encodable`, and refuses otherwise. In the other direction every reader has its `Yields` lemma, and
`decodeTopology_encodable` says that whatever is accepted, from any bytes, is in that domain.
-/

namespace NVSwitchFabric

open Lib

/-! ## Counted lists and maps -/

namespace Read

variable {α κ : Type}

/-- A count, refused when it exceeds `limit`, and that many items. -/
def counted (limit : Nat) (p : Read α) : Read (List α) := do
  let n ← u32
  if limit < n.toNat then reject else many p n.toNat

variable [LinearOrder κ]

/-- Read `n` records into a map; a repeated key is refused. -/
def entries (key : α → κ) (p : Read α) : Nat → SortedMap κ α → Read (SortedMap κ α)
  | 0, m     => pure m
  | n + 1, m => do
    let rec ← p
    if m.contains (key rec) then reject else entries key p n (m.insert (key rec) rec)

/-- A count, refused when it exceeds `limit`, and that many records. -/
def keyedMap (limit : Nat) (key : α → κ) (p : Read α) : Read (SortedMap κ α) := do
  let n ← u32
  if limit < n.toNat then reject else entries key p n.toNat .empty

end Read

namespace ByteWriter

variable {α κ : Type} [LinearOrder κ]

def counted (w : α → List UInt8) (as : List α) : List UInt8 :=
  u32 (UInt32.ofNat as.length) ++ as.flatMap w

def keyedMap (w : α → List UInt8) (m : SortedMap κ α) : List UInt8 :=
  u32 (UInt32.ofNat m.size) ++ m.entries.flatMap fun e => w e.2

def ident {Tag : Type} (i : Id Tag) : List UInt8 := u64 i.value
def gen {Tag : Type} (g : Gen Tag) : List UInt8 := u64 g.value
def strId {Tag : Type} (i : StringId Tag) : List UInt8 := str i.value

end ByteWriter

namespace Read

def ident {Tag : Type} : Read (Id Tag) := do return ⟨← u64⟩
def gen {Tag : Type} : Read (Gen Tag) := do return ⟨← u64⟩
def strId {Tag : Type} : Read (StringId Tag) := do return ⟨← str⟩
def entityState : Read EntityState := do return .ofByte (← u8)
def partitionState : Read PartitionState := do return .ofByte (← u8)
def provenance : Read Provenance := do return .ofByte (← u8)
def evidenceSource : Read EvidenceSource := do return .ofByte (← u8)
def endKind : Read EndKind := do return .ofByte (← u8)

end Read

/-! ## Record codecs -/

open ByteWriter in
/-- The tail of every record. -/
def encodeOrigin (o : Origin) : List UInt8 :=
  List.flatten [strId o.worker, flag o.workerKnown, u64 o.workerBoot, u8 o.provenance.toByte,
    u8 o.source.toByte, gen o.topologyGen]

open Read in
def decodeOrigin : Read Origin := do
  let worker ← strId
  let workerKnown ← flag
  let workerBoot ← u64
  let provenance ← provenance
  let source ← evidenceSource
  let topologyGen ← gen
  return {
    worker := worker, workerKnown := workerKnown, workerBoot := workerBoot
    provenance := provenance, source := source, topologyGen := topologyGen }

open ByteWriter in
/-- The far end of a port or of a link. -/
def encodeEnd (e : LinkEnd) : List UInt8 := List.flatten [u8 e.kind.toByte, ident e.device, ident e.sw]

open Read in
def decodeEnd : Read LinkEnd := do
  let kind ← endKind
  let device ← ident
  let sw ← ident
  return ⟨kind, device, sw⟩

open ByteWriter in
def encodePortId (p : PortId) : List UInt8 := List.flatten [ident p.sw, u32 p.index]

open Read in
def decodePortId : Read PortId := do
  let sw ← ident
  let index ← u32
  return ⟨sw, index⟩

open ByteWriter in
def encodeDevice (r : DeviceRecord) : List UInt8 :=
  List.flatten [ident r.id, str r.generation.name, flag r.generation.observed, flag r.present,
    str r.backendId, str r.vendor, str r.product, u8 r.state.toByte, strId r.partition,
    ident r.attachedSwitch, flag r.attachedSwitchKnown, encodeOrigin r.toOrigin]

open Read in
def decodeDevice : Read DeviceRecord := do
  let id ← ident
  let name ← str
  let observed ← flag
  let present ← flag
  let backendId ← str
  let vendor ← str
  let product ← str
  let state ← entityState
  let partition ← strId
  let attachedSwitch ← ident
  let attachedSwitchKnown ← flag
  let origin ← decodeOrigin
  return { origin with
    id, present, backendId, vendor, product, state, partition, attachedSwitch, attachedSwitchKnown
    generation := { name, observed } }

open ByteWriter in
def encodeSwitch (r : SwitchRecord) : List UInt8 :=
  List.flatten [ident r.id, gen r.gen, str r.generationName, flag r.generationObserved, str r.vendor,
    str r.product, str r.family, u32 r.portCount, u8 r.state.toByte, strId r.fabric, flag r.fabricKnown,
    strId r.partition, flag r.partitionKnown, encodeOrigin r.toOrigin]

open Read in
def decodeSwitch : Read SwitchRecord := do
  let id ← ident
  let gen ← gen
  let generationName ← str
  let generationObserved ← flag
  let vendor ← str
  let product ← str
  let family ← str
  let portCount ← u32
  let state ← entityState
  let fabric ← strId
  let fabricKnown ← flag
  let partition ← strId
  let partitionKnown ← flag
  let origin ← decodeOrigin
  return { origin with
    id, gen, generationName, generationObserved, vendor, product, family, portCount, state, fabric
    fabricKnown, partition, partitionKnown }

open ByteWriter in
def encodePort (r : SwitchPortRecord) : List UInt8 :=
  List.flatten [encodePortId r.id, gen r.gen, encodeEnd r.attached, flag r.attachedKnown,
    u8 r.state.toByte, u32 r.activeLinkCount, flag r.activeLinkCountKnown, u64 r.nominalBandwidthMBps,
    flag r.nominalBandwidthKnown, encodeOrigin r.toOrigin]

open Read in
def decodePort : Read SwitchPortRecord := do
  let id ← decodePortId
  let gen ← gen
  let attached ← decodeEnd
  let attachedKnown ← flag
  let state ← entityState
  let activeLinkCount ← u32
  let activeLinkCountKnown ← flag
  let nominalBandwidthMBps ← u64
  let nominalBandwidthKnown ← flag
  let origin ← decodeOrigin
  return { origin with
    id, gen, attached, attachedKnown, state, activeLinkCount, activeLinkCountKnown
    nominalBandwidthMBps, nominalBandwidthKnown }

open ByteWriter in
def encodeLink (r : LinkRecord) : List UInt8 :=
  List.flatten [ident r.id, gen r.gen, ident r.rootSwitch, encodePortId r.port, encodeEnd r.otherEnd,
    flag r.otherEndKnown, u8 r.state.toByte, flag r.degraded, encodeOrigin r.toOrigin]

open Read in
def decodeLink : Read LinkRecord := do
  let id ← ident
  let gen ← gen
  let rootSwitch ← ident
  let port ← decodePortId
  let otherEnd ← decodeEnd
  let otherEndKnown ← flag
  let state ← entityState
  let degraded ← flag
  let origin ← decodeOrigin
  return { origin with id, gen, rootSwitch, port, otherEnd, otherEndKnown, state, degraded }

open ByteWriter in
def encodePartition (r : FabricPartition) : List UInt8 :=
  List.flatten [strId r.id, gen r.gen, strId r.fabric, counted ident r.members, counted ident r.switches,
    u8 r.state.toByte, encodeOrigin r.toOrigin]

open Read in
def decodePartition : Read FabricPartition := do
  let id ← strId
  let gen ← gen
  let fabric ← strId
  let members ← counted Limits.kMaxDevices ident
  let switches ← counted Limits.kMaxSwitches ident
  let state ← partitionState
  let origin ← decodeOrigin
  return { origin with id, gen, fabric, members, switches, state }

/-! ## The payload -/

open ByteWriter in
/-- `encodeTopologyPayload`. -/
def encodeTopologyPayload (t : FabricTopology) : List UInt8 :=
  List.flatten [u64 t.id, gen t.topologyGen, gen t.fabricGen, u64 t.epoch, u8 t.provenance.toByte,
    str t.label, flag t.persisted, keyedMap encodeDevice t.devices, keyedMap encodeSwitch t.switches,
    keyedMap encodePort t.ports, keyedMap encodeLink t.links, keyedMap encodePartition t.partitions]

open Read in
/-- The reads of `decodeTopologyPayload`. -/
def decodeTopologyPayload : Read FabricTopology := do
  let id ← u64
  let topologyGen ← gen
  let fabricGen ← gen
  let epoch ← u64
  let provenance ← provenance
  let label ← str
  let persisted ← flag
  let devices ← keyedMap Limits.kMaxDevices (·.id) decodeDevice
  let switches ← keyedMap Limits.kMaxSwitches (·.id) decodeSwitch
  let ports ← keyedMap Limits.kMaxPorts (·.id) decodePort
  let links ← keyedMap Limits.kMaxLinks (·.id) decodeLink
  let partitions ← keyedMap Limits.kMaxPartitions (·.id) decodePartition
  return {
    id := id, topologyGen := topologyGen, fabricGen := fabricGen, epoch := epoch
    provenance := provenance, label := label, persisted := persisted
    devices := devices, switches := switches, ports := ports, links := links
    partitions := partitions }

/-- `integrityErr`. -/
def integrityErr : Error := ⟨.integrityFailure, "corrupt persistence"⟩

/-- `Persistence::encodeTopology`. -/
def encodeTopology (t : FabricTopology) : List UInt8 := encodeTopologyPayload t

/-- `Persistence::decodeTopology`: the reads, then nothing may have failed, nothing may be left over, and the
    integrity report must be empty. -/
def decodeTopology (blob : List UInt8) : Result FabricTopology :=
  match decodeTopologyPayload { buf := blob } with
  | (none, _)   => .error integrityErr
  | (some t, r) =>
    if !r.ok then .error integrityErr
    else if !r.eof then .error integrityErr
    else match t.checkIntegrity with
      | []     => .ok t
      | v :: _ => .error ⟨.integrityFailure, v⟩

/-! ## Round trip -/

namespace Read

variable {α κ Tag : Type}

theorem Reads.ident (i : Id Tag) : Reads ident (ByteWriter.ident i) i := (Reads.u64 i.value).map Id.mk

theorem Reads.gen (g : Gen Tag) : Reads gen (ByteWriter.gen g) g := (Reads.u64 g.value).map Gen.mk

theorem Decides.strId (i : StringId Tag) : Decides strId (ByteWriter.strId i) i (i.value.length ≤ maxStr) :=
  (Decides.str i.value).map StringId.mk

theorem Reads.entityState (s : EntityState) : Reads entityState (ByteWriter.u8 s.toByte) s := by
  have h := (Reads.u8 s.toByte).map EntityState.ofByte
  rwa [EntityState.ofByte_toByte] at h

theorem Reads.partitionState (s : PartitionState) : Reads partitionState (ByteWriter.u8 s.toByte) s := by
  have h := (Reads.u8 s.toByte).map PartitionState.ofByte
  rwa [PartitionState.ofByte_toByte] at h

theorem Reads.provenance (p : Provenance) : Reads provenance (ByteWriter.u8 p.toByte) p := by
  have h := (Reads.u8 p.toByte).map Provenance.ofByte
  rwa [Provenance.ofByte_toByte] at h

theorem Reads.evidenceSource (s : EvidenceSource) : Reads evidenceSource (ByteWriter.u8 s.toByte) s := by
  have h := (Reads.u8 s.toByte).map EvidenceSource.ofByte
  rwa [EvidenceSource.ofByte_toByte] at h

theorem Reads.endKind (k : EndKind) : Reads endKind (ByteWriter.u8 k.toByte) k := by
  have h := (Reads.u8 k.toByte).map EndKind.ofByte
  rwa [EndKind.ofByte_toByte] at h

/-- A count that fits 32 bits reads back. -/
theorem toNat_ofNat_of_lt {n : Nat} (hn : n < 2 ^ 32) : (UInt32.ofNat n).toNat = n := by
  rw [UInt32.toNat_ofNat', Nat.mod_eq_of_lt hn]

/-- Items of a byte or more each are at most as many as the bytes they take. -/
theorem length_le_length_flatMap {w : α → List UInt8} (h : ∀ a, 0 < (w a).length) (as : List α) :
    as.length ≤ (as.flatMap w).length := by
  induction as with
  | nil => simp
  | cons a as ih =>
    have ha := h a
    rw [List.length_cons, List.flatMap_cons, List.length_append]
    omega

/-- **A counted list is read exactly if it is within the limit.** -/
theorem Decides.counted {p : Read α} {w : α → List UInt8} {limit : Nat} (hlimit : limit < 2 ^ 32)
    (hread : ∀ a, Reads p (w a) a) (hsize : ∀ a, 0 < (w a).length) (as : List α) :
    Decides (counted limit p) (ByteWriter.counted w as) as (as.length ≤ limit) := by
  refine (Reads.u32 (UInt32.ofNat as.length)).bind_decides ⟨?_, ?_⟩
  · intro hlen
    rw [toNat_ofNat_of_lt (by omega), if_neg (not_lt.mpr hlen)]
    exact Reads.many as fun a _ => hread a
  · intro hlong r rest hdrop hpos hsmall
    -- the items are in the buffer, so their number has not been truncated
    have hahead := length_ahead hdrop hpos
    have hitems := length_le_length_flatMap hsize as
    rw [toNat_ofNat_of_lt (by omega), if_pos (not_le.mp hlong)]
    rfl

variable [LinearOrder κ]

/-- The tail of a map's records is read into the map of its head exactly if each record is read. -/
theorem Decides.entries {key : α → κ} {p : Read α} {w : α → List UInt8} {P : α → Prop}
    (hdec : ∀ a, Decides p (w a) a (P a)) {m' : SortedMap κ α} (hkeyed : m'.KeyedBy key) :
    ∀ (l : List (κ × α)) (m : SortedMap κ α), m'.entries = m.entries ++ l →
      Decides (entries key p l.length m) (l.flatMap fun e => w e.2) m' (∀ e ∈ l, P e.2) := by
  intro l
  induction l with
  | nil =>
    intro m hm
    rw [List.append_nil] at hm
    obtain rfl := SortedMap.ext_entries hm
    exact (Reads.pure m').decides.congr (by simp)
  | cons e l ih =>
    intro m hm
    have hmem : e ∈ m'.entries := hm ▸ List.mem_append_right _ List.mem_cons_self
    have hkey : key e.2 = e.1 := hkeyed (SortedMap.find?_eq_some_iff.mpr hmem)
    -- `m'` is sorted, so every key read so far is below that of `e`
    have hlt : ∀ x ∈ m.entries, x.1 < e.1 := by
      intro x hx
      have hsorted := m'.sorted
      rw [hm, List.map_append, List.pairwise_append] at hsorted
      exact hsorted.2.2 x.1 (List.mem_map_of_mem hx) e.1 (by simp)
    have hfresh : m.contains e.1 = false := by
      rw [SortedMap.contains_eq_false, Option.eq_none_iff_forall_not_mem]
      intro v hv
      exact lt_irrefl e.1 (hlt (e.1, v) (SortedMap.find?_eq_some_iff.mp hv))
    have hinsert : m'.entries = (m.insert e.1 e.2).entries ++ l := by
      rw [SortedMap.entries_insert_of_forall_lt e.2 hlt, List.append_assoc]
      exact hm
    have hrest : Decides (if m.contains (key e.2) then reject else Read.entries key p l.length (m.insert (key e.2) e.2))
        (l.flatMap fun e => w e.2) m' (∀ x ∈ l, P x.2) := by
      rw [hkey, hfresh, if_neg (by simp)]
      exact ih (m.insert e.1 e.2) hinsert
    exact ((hdec e.2).bind hrest).congr (by simp)

/-- **A keyed map within the limit is read exactly if each of its records is.** -/
theorem Decides.keyedMap {key : α → κ} {p : Read α} {w : α → List UInt8} {P : α → Prop} {limit : Nat}
    (hlimit : limit < 2 ^ 32) (hdec : ∀ a, Decides p (w a) a (P a)) {m : SortedMap κ α} (hsize : m.size ≤ limit)
    (hkeyed : m.KeyedBy key) : Decides (keyedMap limit key p) (ByteWriter.keyedMap w m) m (m.All P) := by
  have hentries : Decides (Read.entries key p m.entries.length .empty) (m.entries.flatMap fun e => w e.2) m
      (∀ e ∈ m.entries, P e.2) := Decides.entries hdec hkeyed m.entries .empty rfl
  have hread : Decides (if limit < (UInt32.ofNat m.size).toNat then reject
      else Read.entries key p (UInt32.ofNat m.size).toNat .empty) (m.entries.flatMap fun e => w e.2) m
      (∀ e ∈ m.entries, P e.2) := by
    rw [toNat_ofNat_of_lt (by omega), if_neg (not_lt.mpr hsize)]
    exact hentries
  refine ((Reads.u32 (UInt32.ofNat m.size)).bind_decides hread).congr ⟨?_, ?_⟩
  · intro h k v hv
    exact h (k, v) (SortedMap.find?_eq_some_iff.mp hv)
  · intro h e he
    exact h (SortedMap.find?_eq_some_iff.mpr he)

end Read

/-! ### Records -/

open Read (Reads Decides maxStr)

/-- Lengths of a record's strings and lists that the reader accepts. -/
def Origin.Encodable (o : Origin) : Prop := o.worker.value.length ≤ maxStr

structure DeviceRecord.Encodable (r : DeviceRecord) : Prop where
  name      : r.generation.name.length ≤ maxStr
  backendId : r.backendId.length ≤ maxStr
  vendor    : r.vendor.length ≤ maxStr
  product   : r.product.length ≤ maxStr
  partition : r.partition.value.length ≤ maxStr
  origin    : r.toOrigin.Encodable

structure SwitchRecord.Encodable (r : SwitchRecord) : Prop where
  name      : r.generationName.length ≤ maxStr
  vendor    : r.vendor.length ≤ maxStr
  product   : r.product.length ≤ maxStr
  family    : r.family.length ≤ maxStr
  fabric    : r.fabric.value.length ≤ maxStr
  partition : r.partition.value.length ≤ maxStr
  origin    : r.toOrigin.Encodable

structure FabricPartition.Encodable (r : FabricPartition) : Prop where
  id       : r.id.value.length ≤ maxStr
  fabric   : r.fabric.value.length ≤ maxStr
  members  : r.members.length ≤ Limits.kMaxDevices
  switches : r.switches.length ≤ Limits.kMaxSwitches
  origin   : r.toOrigin.Encodable

instance (o : Origin) : Decidable o.Encodable := inferInstanceAs (Decidable (o.worker.value.length ≤ maxStr))

instance (r : DeviceRecord) : Decidable r.Encodable :=
  decidable_of_iff (r.generation.name.length ≤ maxStr ∧ r.backendId.length ≤ maxStr ∧
      r.vendor.length ≤ maxStr ∧ r.product.length ≤ maxStr ∧ r.partition.value.length ≤ maxStr ∧
      r.toOrigin.Encodable)
    ⟨fun ⟨hn, hb, hv, hp, hpt, ho⟩ => ⟨hn, hb, hv, hp, hpt, ho⟩,
      fun h => ⟨h.name, h.backendId, h.vendor, h.product, h.partition, h.origin⟩⟩

instance (r : SwitchRecord) : Decidable r.Encodable :=
  decidable_of_iff (r.generationName.length ≤ maxStr ∧ r.vendor.length ≤ maxStr ∧
      r.product.length ≤ maxStr ∧ r.family.length ≤ maxStr ∧ r.fabric.value.length ≤ maxStr ∧
      r.partition.value.length ≤ maxStr ∧ r.toOrigin.Encodable)
    ⟨fun ⟨hn, hv, hp, hf, hfab, hpt, ho⟩ => ⟨hn, hv, hp, hf, hfab, hpt, ho⟩,
      fun h => ⟨h.name, h.vendor, h.product, h.family, h.fabric, h.partition, h.origin⟩⟩

instance (r : FabricPartition) : Decidable r.Encodable :=
  decidable_of_iff (r.id.value.length ≤ maxStr ∧ r.fabric.value.length ≤ maxStr ∧
      r.members.length ≤ Limits.kMaxDevices ∧ r.switches.length ≤ Limits.kMaxSwitches ∧ r.toOrigin.Encodable)
    ⟨fun ⟨hid, hf, hm, hs, ho⟩ => ⟨hid, hf, hm, hs, ho⟩,
      fun h => ⟨h.id, h.fabric, h.members, h.switches, h.origin⟩⟩

theorem Reads.end (e : LinkEnd) : Reads decodeEnd (encodeEnd e) e :=
  (Reads.endKind _).bind <| (Reads.ident _).bind <| (Reads.ident _).bind <| Reads.pure e

theorem Reads.portId (p : PortId) : Reads decodePortId (encodePortId p) p :=
  (Reads.ident _).bind <| (Reads.u32 _).bind <| Reads.pure p

theorem Decides.origin (o : Origin) : Decides decodeOrigin (encodeOrigin o) o o.Encodable := by
  have h : Decides decodeOrigin (encodeOrigin o) o (o.worker.value.length ≤ maxStr ∧ True) :=
    (Decides.strId _).bind <| (Reads.flag _).bind_decides <| (Reads.u64 _).bind_decides <|
      (Reads.provenance _).bind_decides <| (Reads.evidenceSource _).bind_decides <|
      (Reads.gen _).bind_decides <| (Reads.pure o).decides
  exact h.congr (and_iff_left trivial)

theorem Decides.device (r : DeviceRecord) : Decides decodeDevice (encodeDevice r) r r.Encodable := by
  have h : Decides decodeDevice (encodeDevice r) r (r.generation.name.length ≤ maxStr ∧
      r.backendId.length ≤ maxStr ∧ r.vendor.length ≤ maxStr ∧ r.product.length ≤ maxStr ∧
      r.partition.value.length ≤ maxStr ∧ r.toOrigin.Encodable ∧ True) :=
    (Reads.ident _).bind_decides <| (Decides.str _).bind <| (Reads.flag _).bind_decides <|
      (Reads.flag _).bind_decides <| (Decides.str _).bind <| (Decides.str _).bind <| (Decides.str _).bind <|
      (Reads.entityState _).bind_decides <| (Decides.strId _).bind <| (Reads.ident _).bind_decides <|
      (Reads.flag _).bind_decides <| (Decides.origin _).bind <| (Reads.pure r).decides
  refine h.congr ⟨?_, ?_⟩
  · rintro ⟨hname, hbackend, hvendor, hproduct, hpart, horigin, _⟩
    exact ⟨hname, hbackend, hvendor, hproduct, hpart, horigin⟩
  · intro he
    exact ⟨he.name, he.backendId, he.vendor, he.product, he.partition, he.origin, trivial⟩

theorem Decides.switch (r : SwitchRecord) : Decides decodeSwitch (encodeSwitch r) r r.Encodable := by
  have h : Decides decodeSwitch (encodeSwitch r) r (r.generationName.length ≤ maxStr ∧ r.vendor.length ≤ maxStr ∧
      r.product.length ≤ maxStr ∧ r.family.length ≤ maxStr ∧ r.fabric.value.length ≤ maxStr ∧
      r.partition.value.length ≤ maxStr ∧ r.toOrigin.Encodable ∧ True) :=
    (Reads.ident _).bind_decides <| (Reads.gen _).bind_decides <| (Decides.str _).bind <|
      (Reads.flag _).bind_decides <| (Decides.str _).bind <| (Decides.str _).bind <| (Decides.str _).bind <|
      (Reads.u32 _).bind_decides <| (Reads.entityState _).bind_decides <| (Decides.strId _).bind <|
      (Reads.flag _).bind_decides <| (Decides.strId _).bind <| (Reads.flag _).bind_decides <|
      (Decides.origin _).bind <| (Reads.pure r).decides
  refine h.congr ⟨?_, ?_⟩
  · rintro ⟨hname, hvendor, hproduct, hfamily, hfabric, hpart, horigin, _⟩
    exact ⟨hname, hvendor, hproduct, hfamily, hfabric, hpart, horigin⟩
  · intro he
    exact ⟨he.name, he.vendor, he.product, he.family, he.fabric, he.partition, he.origin, trivial⟩

theorem Decides.port (r : SwitchPortRecord) : Decides decodePort (encodePort r) r r.toOrigin.Encodable := by
  have h : Decides decodePort (encodePort r) r (r.toOrigin.Encodable ∧ True) :=
    (Reads.portId _).bind_decides <| (Reads.gen _).bind_decides <| (Reads.end _).bind_decides <|
      (Reads.flag _).bind_decides <| (Reads.entityState _).bind_decides <| (Reads.u32 _).bind_decides <|
      (Reads.flag _).bind_decides <| (Reads.u64 _).bind_decides <| (Reads.flag _).bind_decides <|
      (Decides.origin _).bind <| (Reads.pure r).decides
  exact h.congr (and_iff_left trivial)

theorem Decides.link (r : LinkRecord) : Decides decodeLink (encodeLink r) r r.toOrigin.Encodable := by
  have h : Decides decodeLink (encodeLink r) r (r.toOrigin.Encodable ∧ True) :=
    (Reads.ident _).bind_decides <| (Reads.gen _).bind_decides <| (Reads.ident _).bind_decides <|
      (Reads.portId _).bind_decides <| (Reads.end _).bind_decides <| (Reads.flag _).bind_decides <|
      (Reads.entityState _).bind_decides <| (Reads.flag _).bind_decides <|
      (Decides.origin _).bind <| (Reads.pure r).decides
  exact h.congr (and_iff_left trivial)

theorem Decides.partition (r : FabricPartition) :
    Decides decodePartition (encodePartition r) r r.Encodable := by
  have hident : ∀ {Tag : Type} (i : Id Tag), 0 < (ByteWriter.ident i).length := by
    intro Tag i
    rw [ByteWriter.ident, ByteWriter.u64, length_leBytes]
    decide
  have h : Decides decodePartition (encodePartition r) r (r.id.value.length ≤ maxStr ∧
      r.fabric.value.length ≤ maxStr ∧ r.members.length ≤ Limits.kMaxDevices ∧
      r.switches.length ≤ Limits.kMaxSwitches ∧ r.toOrigin.Encodable ∧ True) :=
    (Decides.strId _).bind <| (Reads.gen _).bind_decides <| (Decides.strId _).bind <|
      (Decides.counted (by decide) Reads.ident hident r.members).bind <|
      (Decides.counted (by decide) Reads.ident hident r.switches).bind <|
      (Reads.partitionState _).bind_decides <| (Decides.origin _).bind <| (Reads.pure r).decides
  refine h.congr ⟨?_, ?_⟩
  · rintro ⟨hid, hfabric, hmembers, hswitches, horigin, _⟩
    exact ⟨hid, hfabric, hmembers, hswitches, horigin⟩
  · intro he
    exact ⟨he.id, he.fabric, he.members, he.switches, he.origin, trivial⟩

/-! ### The topology -/

/-- The topologies whose encoding reads back. -/
structure FabricTopology.Encodable (t : FabricTopology) : Prop where
  keyed      : t.Keyed
  limits     : t.WithinLimits
  label      : t.label.length ≤ maxStr
  devices    : ∀ k r, t.devices.find? k = some r → r.Encodable
  switches   : ∀ k r, t.switches.find? k = some r → r.Encodable
  ports      : ∀ k r, t.ports.find? k = some r → r.toOrigin.Encodable
  links      : ∀ k r, t.links.find? k = some r → r.toOrigin.Encodable
  partitions : ∀ k r, t.partitions.find? k = some r → r.Encodable

/-- A topology without records is in the domain if its label is short. -/
theorem FabricTopology.encodable_of_empty {t : FabricTopology} (hd : t.devices = .empty) (hs : t.switches = .empty)
    (hp : t.ports = .empty) (hl : t.links = .empty) (hpt : t.partitions = .empty)
    (hlabel : t.label.length ≤ maxStr) : t.Encodable := by
  have hnone : ∀ {κ α : Type} [LinearOrder κ] {m : SortedMap κ α}, m = .empty → ∀ k v, m.find? k ≠ some v := by
    rintro κ α _ m rfl k v
    simp
  have hkeyed : t.Keyed :=
    ⟨fun k v h => absurd h (hnone hd k v), fun k v h => absurd h (hnone hs k v),
      fun k v h => absurd h (hnone hp k v), fun k v h => absurd h (hnone hl k v),
      fun k v h => absurd h (hnone hpt k v)⟩
  have hlimits : t.WithinLimits := by
    refine ⟨?_, ?_, ?_, ?_, ?_⟩
    · rw [hd]; exact Nat.zero_le _
    · rw [hs]; exact Nat.zero_le _
    · rw [hp]; exact Nat.zero_le _
    · rw [hl]; exact Nat.zero_le _
    · rw [hpt]; exact Nat.zero_le _
  exact ⟨hkeyed, hlimits, hlabel, fun k v h => absurd h (hnone hd k v), fun k v h => absurd h (hnone hs k v),
    fun k v h => absurd h (hnone hp k v), fun k v h => absurd h (hnone hl k v),
    fun k v h => absurd h (hnone hpt k v)⟩

/-- **The payload of a keyed and bounded topology is read exactly if the topology is in the domain.** -/
theorem Decides.topologyPayload {t : FabricTopology} (hkeyed : t.Keyed) (hlimits : t.WithinLimits) :
    Decides decodeTopologyPayload (encodeTopologyPayload t) t t.Encodable := by
  have h : Decides decodeTopologyPayload (encodeTopologyPayload t) t (t.label.length ≤ maxStr ∧
      t.devices.All DeviceRecord.Encodable ∧ t.switches.All SwitchRecord.Encodable ∧
      t.ports.All (fun r => r.toOrigin.Encodable) ∧ t.links.All (fun r => r.toOrigin.Encodable) ∧
      t.partitions.All FabricPartition.Encodable ∧ True) :=
    (Reads.u64 _).bind_decides <| (Reads.gen _).bind_decides <| (Reads.gen _).bind_decides <|
      (Reads.u64 _).bind_decides <| (Reads.provenance _).bind_decides <| (Decides.str _).bind <|
      (Reads.flag _).bind_decides <|
      (Decides.keyedMap (by decide) Decides.device hlimits.devices hkeyed.devices).bind <|
      (Decides.keyedMap (by decide) Decides.switch hlimits.switches hkeyed.switches).bind <|
      (Decides.keyedMap (by decide) Decides.port hlimits.ports hkeyed.ports).bind <|
      (Decides.keyedMap (by decide) Decides.link hlimits.links hkeyed.links).bind <|
      (Decides.keyedMap (by decide) Decides.partition hlimits.partitions hkeyed.partitions).bind <|
      (Reads.pure t).decides
  refine h.congr ⟨?_, ?_⟩
  · rintro ⟨hlabel, hd, hs, hp, hl, hpt, _⟩
    exact ⟨hkeyed, hlimits, hlabel, hd, hs, hp, hl, hpt⟩
  · intro he
    exact ⟨he.label, he.devices, he.switches, he.ports, he.links, he.partitions, trivial⟩

/-- **Codec round trip**, on integral topologies of the domain. -/
theorem decodeTopology_encodeTopology {t : FabricTopology} (h : t.Encodable) (hint : t.Integral) :
    decodeTopology (encodeTopology t) = .ok t := by
  have hread := (Decides.topologyPayload h.keyed h.limits).reads h { buf := encodeTopologyPayload t } [] (by simp)
    (Nat.zero_le _)
  unfold decodeTopology encodeTopology
  rw [hread]
  dsimp only
  rw [FabricTopology.checkIntegrity_eq_nil_iff.mpr hint]
  simp [ByteReader.eof]

/-- **Inversion of the decoder.** The payload was read, and is integral. -/
theorem decodeTopology_ok {blob : List UInt8} {t : FabricTopology} (h : decodeTopology blob = .ok t) :
    ∃ r, decodeTopologyPayload { buf := blob } = (some t, r) ∧ t.Integral := by
  unfold decodeTopology at h
  split at h
  · exact absurd h (by simp)
  next t' r hread =>
  obtain ⟨-, h⟩ := check_eq_ok_iff.mp h
  obtain ⟨-, h⟩ := check_eq_ok_iff.mp h
  split at h
  · next hnil =>
    obtain rfl := Except.ok.inj h
    exact ⟨r, hread, FabricTopology.checkIntegrity_eq_nil_iff.mp hnil⟩
  · exact absurd h (by simp)

/-- **Outside the domain nothing is decoded**, as long as the encoding is short enough for 32-bit counts. -/
theorem encodable_of_decoded {t t' : FabricTopology} (hkeyed : t.Keyed) (hlimits : t.WithinLimits)
    (hsmall : (encodeTopology t).length < 2 ^ 32) (h : decodeTopology (encodeTopology t) = .ok t') :
    t.Encodable := by
  by_contra hno
  have hnone := (Decides.topologyPayload hkeyed hlimits).refuses hno { buf := encodeTopology t } []
    (by simp [encodeTopology]) (Nat.zero_le _) hsmall
  obtain ⟨r, hread, -⟩ := decodeTopology_ok h
  rw [hread] at hnone
  exact absurd hnone (by simp)

/-! ## What is accepted -/

namespace Read

variable {α β κ : Type}

/-- Whatever `p` returns satisfies `P`. -/
def Yields (p : Read α) (P : α → Prop) : Prop := ∀ r a r', p r = (some a, r') → P a

theorem Yields.pure {P : α → Prop} {a : α} (h : P a) : Yields (pure a) P := by
  intro r b r' heq
  obtain ⟨rfl, -⟩ := pure_some heq
  exact h

theorem Yields.reject {P : α → Prop} : Yields reject P := fun _ _ _ heq => absurd heq reject_some

theorem Yields.bind {p : Read α} {f : α → Read β} {P : α → Prop} {Q : β → Prop} (hp : Yields p P)
    (hf : ∀ a, P a → Yields (f a) Q) : Yields (p >>= f) Q := by
  intro r b r' heq
  obtain ⟨a, mid, hread, hrest⟩ := bind_some heq
  exact hf a (hp r a mid hread) mid b r' hrest

/-- Nothing is known of what `p` returns. -/
theorem Yields.any (p : Read α) : Yields p fun _ => True := fun _ _ _ _ => trivial

/-- A string that is accepted is short. -/
theorem Yields.str : Yields str fun s => s.length ≤ maxStr := by
  refine (Yields.any _).bind fun len _ => ?_
  intro r s r' heq
  obtain ⟨hshort, -, htake⟩ := strBody_some heq
  obtain ⟨rfl, -, -⟩ := take_some htake
  rw [List.length_take]
  omega

theorem Yields.strId {Tag : Type} : Yields (strId : Read (StringId Tag)) fun i => i.value.length ≤ maxStr :=
  Yields.str.bind fun _ hs => Yields.pure hs

theorem Yields.many {p : Read α} (n : Nat) : Yields (many p n) fun as => as.length = n := by
  induction n with
  | zero => exact Yields.pure rfl
  | succ n ih => exact (Yields.any p).bind fun _ _ => ih.bind fun _ has => Yields.pure (congrArg (· + 1) has)

/-- A counted list that is accepted is within its limit. -/
theorem Yields.counted {limit : Nat} {p : Read α} : Yields (counted limit p) fun as => as.length ≤ limit := by
  refine (Yields.any _).bind fun n _ => ?_
  split
  · exact Yields.reject
  · next hle =>
    intro r as r' heq
    have hlen := Yields.many n.toNat r as r' heq
    omega

variable [LinearOrder κ]

/-- Reading records into a keyed map leaves it keyed, and adds at most one entry per record. -/
theorem Yields.entries {key : α → κ} {p : Read α} {P : α → Prop} (hp : Yields p P) :
    ∀ (n : Nat) (m : SortedMap κ α), m.KeyedBy key → (∀ k v, m.find? k = some v → P v) →
      Yields (entries key p n m) fun m' => m'.KeyedBy key ∧ m'.size ≤ m.size + n ∧
        ∀ k v, m'.find? k = some v → P v := by
  intro n
  induction n with
  | zero => intro m hm hall; exact Yields.pure ⟨hm, Nat.le_refl _, hall⟩
  | succ n ih =>
    intro m hm hall
    refine hp.bind fun rec hrec => ?_
    split
    · exact Yields.reject
    · intro r m' r' heq
      have hinsert : ∀ k v, (m.insert (key rec) rec).find? k = some v → P v := by
        intro k v hv
        rw [SortedMap.find?_insert] at hv
        split at hv
        · exact Option.some.inj hv ▸ hrec
        · exact hall k v hv
      have hnext := ih (m.insert (key rec) rec) (hm.insert rfl) hinsert r m' r' heq
      have hsize := m.size_insert_le (key rec) rec
      exact ⟨hnext.1, by omega, hnext.2.2⟩

/-- What is known of a map that was read. -/
structure ReadMap (limit : Nat) (key : α → κ) (P : α → Prop) (m : SortedMap κ α) : Prop where
  keyed  : m.KeyedBy key
  size   : m.size ≤ limit
  values : ∀ k v, m.find? k = some v → P v

theorem Yields.keyedMap {limit : Nat} {key : α → κ} {p : Read α} {P : α → Prop} (hp : Yields p P) :
    Yields (keyedMap limit key p) (ReadMap limit key P) := by
  refine (Yields.any _).bind fun n _ => ?_
  split
  · exact Yields.reject
  · next hle =>
    intro r m r' heq
    have h := Yields.entries hp n.toNat .empty SortedMap.KeyedBy.empty (by simp) r m r' heq
    have hzero : (SortedMap.empty : SortedMap κ α).size = 0 := rfl
    exact ⟨h.1, by omega, h.2.2⟩

end Read

open Read (Yields)

/-! ### Records -/

theorem Yields.origin : Yields decodeOrigin Origin.Encodable :=
  Yields.strId.bind fun _ hw => (Yields.any _).bind fun _ _ => (Yields.any _).bind fun _ _ =>
    (Yields.any _).bind fun _ _ => (Yields.any _).bind fun _ _ => (Yields.any _).bind fun _ _ => Yields.pure hw

theorem Yields.device : Yields decodeDevice DeviceRecord.Encodable :=
  (Yields.any _).bind fun _ _ => Yields.str.bind fun _ hname => (Yields.any _).bind fun _ _ =>
    (Yields.any _).bind fun _ _ => Yields.str.bind fun _ hbackend => Yields.str.bind fun _ hvendor =>
    Yields.str.bind fun _ hproduct => (Yields.any _).bind fun _ _ => Yields.strId.bind fun _ hpart =>
    (Yields.any _).bind fun _ _ => (Yields.any _).bind fun _ _ => Yields.origin.bind fun _ horigin =>
    Yields.pure ⟨hname, hbackend, hvendor, hproduct, hpart, horigin⟩

theorem Yields.switch : Yields decodeSwitch SwitchRecord.Encodable :=
  (Yields.any _).bind fun _ _ => (Yields.any _).bind fun _ _ => Yields.str.bind fun _ hname =>
    (Yields.any _).bind fun _ _ => Yields.str.bind fun _ hvendor => Yields.str.bind fun _ hproduct =>
    Yields.str.bind fun _ hfamily => (Yields.any _).bind fun _ _ => (Yields.any _).bind fun _ _ =>
    Yields.strId.bind fun _ hfabric => (Yields.any _).bind fun _ _ => Yields.strId.bind fun _ hpart =>
    (Yields.any _).bind fun _ _ => Yields.origin.bind fun _ horigin =>
    Yields.pure ⟨hname, hvendor, hproduct, hfamily, hfabric, hpart, horigin⟩

theorem Yields.port : Yields decodePort fun r => r.toOrigin.Encodable :=
  (Yields.any _).bind fun _ _ => (Yields.any _).bind fun _ _ => (Yields.any _).bind fun _ _ =>
    (Yields.any _).bind fun _ _ => (Yields.any _).bind fun _ _ => (Yields.any _).bind fun _ _ =>
    (Yields.any _).bind fun _ _ => (Yields.any _).bind fun _ _ => (Yields.any _).bind fun _ _ =>
    Yields.origin.bind fun _ horigin => Yields.pure horigin

theorem Yields.link : Yields decodeLink fun r => r.toOrigin.Encodable :=
  (Yields.any _).bind fun _ _ => (Yields.any _).bind fun _ _ => (Yields.any _).bind fun _ _ =>
    (Yields.any _).bind fun _ _ => (Yields.any _).bind fun _ _ => (Yields.any _).bind fun _ _ =>
    (Yields.any _).bind fun _ _ => (Yields.any _).bind fun _ _ => Yields.origin.bind fun _ horigin =>
    Yields.pure horigin

theorem Yields.partition : Yields decodePartition FabricPartition.Encodable :=
  Yields.strId.bind fun _ hid => (Yields.any _).bind fun _ _ => Yields.strId.bind fun _ hfabric =>
    Yields.counted.bind fun _ hmembers => Yields.counted.bind fun _ hswitches => (Yields.any _).bind fun _ _ =>
    Yields.origin.bind fun _ horigin => Yields.pure ⟨hid, hfabric, hmembers, hswitches, horigin⟩

/-! ### The topology -/

/-- **Whatever is read is in the domain of the codec.** -/
theorem Yields.topologyPayload : Yields decodeTopologyPayload FabricTopology.Encodable := by
  refine (Yields.any _).bind fun _ _ => (Yields.any _).bind fun _ _ => (Yields.any _).bind fun _ _ =>
    (Yields.any _).bind fun _ _ => (Yields.any _).bind fun _ _ => Yields.str.bind fun _ hlabel =>
    (Yields.any _).bind fun _ _ => ?_
  refine Yields.device.keyedMap.bind fun devices hd => Yields.switch.keyedMap.bind fun switches hs =>
    Yields.port.keyedMap.bind fun ports hp => Yields.link.keyedMap.bind fun links hl =>
    Yields.partition.keyedMap.bind fun partitions hpt => ?_
  exact Yields.pure {
    keyed := ⟨hd.keyed, hs.keyed, hp.keyed, hl.keyed, hpt.keyed⟩
    limits := ⟨hd.size, hs.size, hp.size, hl.size, hpt.size⟩
    label := hlabel
    devices := hd.values
    switches := hs.values
    ports := hp.values
    links := hl.values
    partitions := hpt.values }

/-- **Whatever is decoded, from any bytes, is integral and in the domain of the codec.** -/
theorem decodeTopology_encodable {blob : List UInt8} {t : FabricTopology} (h : decodeTopology blob = .ok t) :
    t.Encodable ∧ t.Integral := by
  obtain ⟨r, hread, hint⟩ := decodeTopology_ok h
  exact ⟨Yields.topologyPayload _ _ _ hread, hint⟩

end NVSwitchFabric
