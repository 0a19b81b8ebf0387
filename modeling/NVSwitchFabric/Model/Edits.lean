import NVSwitchFabric.Model.Topology
import Mathlib.Data.List.Sort

/-!
# `Model.Edits` — what each mutator does to its copy of the snapshot

Every mutator of `FabricRegistry` deep-copies the current snapshot, edits the copy, validates it and publishes
it. This file holds the middle part: one edit per mutator, from the snapshot to the candidate or to the typed
error the mutator returns before validation. `Model.Registry` wraps them.

Where an operation rewrites every record of a map, what it does to one record is a definition of the record
(`fence`, `expire`, `revalidate`).
-/

namespace NVSwitchFabric

open Lib

/-! ## Per-record rewrites -/

/-- Fencing one record of incarnation `(w, b)`: revalidation required under the next generation. -/
def SwitchRecord.fence (w : WorkerId) (b : WorkerBootId) (rec : SwitchRecord) : SwitchRecord :=
  if rec.attributedTo w b then { rec with state := .revalidationRequired, gen := rec.gen.next } else rec

def SwitchPortRecord.fence (w : WorkerId) (b : WorkerBootId) (rec : SwitchPortRecord) : SwitchPortRecord :=
  if rec.attributedTo w b then { rec with state := .revalidationRequired, gen := rec.gen.next } else rec

def LinkRecord.fence (w : WorkerId) (b : WorkerBootId) (rec : LinkRecord) : LinkRecord :=
  if rec.attributedTo w b then { rec with state := .revalidationRequired, gen := rec.gen.next } else rec

def FabricPartition.fence (w : WorkerId) (b : WorkerBootId) (rec : FabricPartition) : FabricPartition :=
  if rec.attributedTo w b then { rec with state := .revalidationRequired, gen := rec.gen.next } else rec

/-- Devices have no generation to advance. -/
def DeviceRecord.fence (w : WorkerId) (b : WorkerBootId) (rec : DeviceRecord) : DeviceRecord :=
  if rec.attributedTo w b then { rec with state := .revalidationRequired } else rec

/-- Expiry of one record: dynamic evidence awaits revalidation, its generation kept. -/
def SwitchRecord.expire (rec : SwitchRecord) : SwitchRecord :=
  if rec.isDynamic then { rec with state := .revalidationRequired } else rec

def SwitchPortRecord.expire (rec : SwitchPortRecord) : SwitchPortRecord :=
  if rec.isDynamic then { rec with state := .revalidationRequired } else rec

def LinkRecord.expire (rec : LinkRecord) : LinkRecord :=
  if rec.isDynamic then { rec with state := .revalidationRequired } else rec

def FabricPartition.expire (rec : FabricPartition) : FabricPartition :=
  if rec.isDynamic then { rec with state := .revalidationRequired } else rec

def DeviceRecord.expire (rec : DeviceRecord) : DeviceRecord :=
  if rec.isDynamic then { rec with state := .revalidationRequired } else rec

/-- Revalidation of one record: stale or awaiting revalidation becomes up (a partition active). -/
def SwitchRecord.revalidate (rec : SwitchRecord) : SwitchRecord :=
  if rec.state.isStaleOrRevalidation then { rec with state := .up } else rec

def SwitchPortRecord.revalidate (rec : SwitchPortRecord) : SwitchPortRecord :=
  if rec.state.isStaleOrRevalidation then { rec with state := .up } else rec

def LinkRecord.revalidate (rec : LinkRecord) : LinkRecord :=
  if rec.state.isStaleOrRevalidation then { rec with state := .up } else rec

def FabricPartition.revalidate (rec : FabricPartition) : FabricPartition :=
  if rec.state.isStaleOrRevalidation then { rec with state := .active } else rec

def DeviceRecord.revalidate (rec : DeviceRecord) : DeviceRecord :=
  if rec.state.isStaleOrRevalidation then { rec with state := .up } else rec

/-- The states whose entry advances a switch generation (`setSwitchState`). -/
def switchStateFails (s : EntityState) : Bool :=
  s = .down || s = .unreachable || s = .stale || s = .revalidationRequired || s = .absent

/-- The states whose entry advances a port generation (`setPortState`). -/
def portStateFails (s : EntityState) : Bool :=
  s = .down || s = .unreachable || s = .stale || s = .revalidationRequired || s = .disabled || s = .absent

/-- The states whose entry advances a link generation (`setLinkState`). -/
def linkStateFails (s : EntityState) : Bool :=
  s = .down || s = .stale || s = .revalidationRequired || s = .unreachable

/-- `setSwitchState` on the record. -/
def SwitchRecord.enter (state : EntityState) (rec : SwitchRecord) : SwitchRecord :=
  { rec with gen := if switchStateFails state then rec.gen.next else rec.gen, state := state }

/-- `restartSwitch` on the record. -/
def SwitchRecord.restart (newGen : SwitchGeneration) (rec : SwitchRecord) : SwitchRecord :=
  { rec with gen := newGen, state := .revalidationRequired }

/-- Synchronize the declared port count with a port of the given index. -/
def SwitchRecord.cover (index : UInt32) (rec : SwitchRecord) : SwitchRecord :=
  { rec with portCount := if rec.portCount ≤ index then index + 1 else rec.portCount }

/-- `setPortState` on the record. -/
def SwitchPortRecord.enter (state : EntityState) (rec : SwitchPortRecord) : SwitchPortRecord :=
  { rec with gen := if portStateFails state then rec.gen.next else rec.gen, state := state }

/-- `setLinkState` on the record. -/
def LinkRecord.enter (state : EntityState) (degraded : Bool) (rec : LinkRecord) : LinkRecord :=
  { rec with
    gen := if linkStateFails state then rec.gen.next else rec.gen
    state := state
    degraded := degraded }

/-- Merge reported degradation into the record. -/
def LinkRecord.merge (degraded : Bool) (rec : LinkRecord) : LinkRecord :=
  { rec with degraded := degraded, state := if degraded then .degraded else rec.state }

/-- The link is attached to the device. -/
def LinkRecord.endsAt (id : DeviceId) (rec : LinkRecord) : Bool :=
  rec.otherEnd.kind = .device && rec.otherEnd.device = id

/-- The link is rooted at the switch or ends at it. -/
def LinkRecord.touches (id : SwitchId) (rec : LinkRecord) : Bool :=
  rec.rootSwitch = id || (rec.otherEnd.kind = .switch && rec.otherEnd.sw = id)

/-- `markPartitionStale` on the record. -/
def FabricPartition.markStale (rec : FabricPartition) : FabricPartition :=
  { rec with gen := if rec.state ≠ .stale then rec.gen.next else rec.gen, state := .stale }

/-! ## Bulk edits -/

/-- `FabricRegistry::BulkEdit`. -/
structure BulkEdit where
  devices    : List DeviceRecord := []
  switches   : List SwitchRecord := []
  ports      : List SwitchPortRecord := []
  links      : List LinkRecord := []
  partitions : List FabricPartition := []

/-- The edit that writes back every record of a snapshot. -/
def BulkEdit.ofTopology (t : FabricTopology) : BulkEdit where
  devices := t.devices.entries.map Prod.snd
  switches := t.switches.entries.map Prod.snd
  ports := t.ports.entries.map Prod.snd
  links := t.links.entries.map Prod.snd
  partitions := t.partitions.entries.map Prod.snd

/-! ## Edits -/

namespace Edit

def addDevice (rec : DeviceRecord) (t : FabricTopology) : Result FabricTopology :=
  if t.devices.contains rec.id then .error ⟨.alreadyExists, "device exists"⟩
  else if Limits.kMaxDevices ≤ t.devices.size then .error ⟨.resourceLimit, "max devices"⟩
  else .ok { t with devices := t.devices.insert rec.id rec, topologyGen := t.topologyGen.next }

def removeDevice (id : DeviceId) (t : FabricTopology) : Result FabricTopology :=
  if !t.devices.contains id then .error ⟨.notFound, "device not found"⟩
  else .ok { t with
    devices := t.devices.erase id
    links := t.links.filter fun _ l => !l.endsAt id
    topologyGen := t.topologyGen.next }

def addSwitch (rec : SwitchRecord) (t : FabricTopology) : Result FabricTopology :=
  if t.switches.contains rec.id then .error ⟨.alreadyExists, "switch exists"⟩
  else if Limits.kMaxSwitches ≤ t.switches.size then .error ⟨.resourceLimit, "max switches"⟩
  else .ok { t with switches := t.switches.insert rec.id rec, topologyGen := t.topologyGen.next }

def removeSwitch (id : SwitchId) (t : FabricTopology) : Result FabricTopology :=
  if !t.switches.contains id then .error ⟨.notFound, "switch not found"⟩
  else .ok { t with
    switches := t.switches.erase id
    ports := t.ports.filter fun pid _ => pid.sw ≠ id
    links := t.links.filter fun _ l => !l.touches id
    topologyGen := t.topologyGen.next }

def setSwitchState (id : SwitchId) (state : EntityState) (t : FabricTopology) : Result FabricTopology :=
  match t.switches.find? id with
  | none     => .error ⟨.notFound, "switch not found"⟩
  | some rec => .ok { t with
      switches := t.switches.insert id (rec.enter state)
      topologyGen := t.topologyGen.next }

def restartSwitch (id : SwitchId) (newGen : SwitchGeneration) (t : FabricTopology) :
    Result FabricTopology :=
  match t.switches.find? id with
  | none     => .error ⟨.notFound, "switch not found"⟩
  | some rec =>
    if newGen < rec.gen then .error ⟨.staleGeneration, "new gen < current"⟩
    else .ok { t with
      switches := t.switches.insert id (rec.restart newGen)
      topologyGen := t.topologyGen.next }

def addPort (rec : SwitchPortRecord) (t : FabricTopology) : Result FabricTopology :=
  match t.switches.find? rec.id.sw with
  | none    => .error ⟨.invalidArgument, "port switch missing"⟩
  | some sw =>
    if t.ports.contains rec.id then .error ⟨.alreadyExists, "port exists"⟩
    else if Limits.kMaxPorts ≤ t.ports.size then .error ⟨.resourceLimit, "max ports"⟩
    else if Limits.kMaxPortsPerSwitch ≤ rec.id.index.toNat then
      .error ⟨.invalidArgument, "port index bound"⟩
    else .ok { t with
      switches := t.switches.insert rec.id.sw (sw.cover rec.id.index)
      ports := t.ports.insert rec.id rec
      topologyGen := t.topologyGen.next }

def removePort (id : PortId) (t : FabricTopology) : Result FabricTopology :=
  if !t.ports.contains id then .error ⟨.notFound, "port not found"⟩
  else .ok { t with
    ports := t.ports.erase id
    links := t.links.filter fun _ l => l.port ≠ id
    topologyGen := t.topologyGen.next }

def setPortState (id : PortId) (state : EntityState) (t : FabricTopology) : Result FabricTopology :=
  match t.ports.find? id with
  | none     => .error ⟨.notFound, "port not found"⟩
  | some rec => .ok { t with
      ports := t.ports.insert id (rec.enter state)
      topologyGen := t.topologyGen.next }

def addLink (rec : LinkRecord) (t : FabricTopology) : Result FabricTopology :=
  if !t.switches.contains rec.rootSwitch then .error ⟨.invalidArgument, "link root switch missing"⟩
  else if !t.ports.contains rec.port then .error ⟨.invalidArgument, "link port missing"⟩
  else if rec.port.sw ≠ rec.rootSwitch then .error ⟨.invalidArgument, "link port sw != root"⟩
  else if rec.otherEnd.kind = .device && !t.devices.contains rec.otherEnd.device then
    .error ⟨.invalidArgument, "link device missing"⟩
  else if rec.otherEnd.kind = .switch && !t.switches.contains rec.otherEnd.sw then
    .error ⟨.invalidArgument, "link switch missing"⟩
  else if t.links.contains rec.id then .error ⟨.alreadyExists, "link exists"⟩
  else if Limits.kMaxLinks ≤ t.links.size then .error ⟨.resourceLimit, "max links"⟩
  else .ok { t with links := t.links.insert rec.id rec, topologyGen := t.topologyGen.next }

def removeLink (id : LinkId) (t : FabricTopology) : Result FabricTopology :=
  if !t.links.contains id then .error ⟨.notFound, "link not found"⟩
  else .ok { t with links := t.links.erase id, topologyGen := t.topologyGen.next }

def setLinkState (id : LinkId) (state : EntityState) (degraded : Bool) (t : FabricTopology) :
    Result FabricTopology :=
  match t.links.find? id with
  | none     => .error ⟨.notFound, "link not found"⟩
  | some rec => .ok { t with
      links := t.links.insert id (rec.enter state degraded)
      topologyGen := t.topologyGen.next }

/-- The members as a sorted vector, the form in which `publishPartition` compares memberships. -/
def sortedMembers (p : FabricPartition) : List DeviceId := p.members.insertionSort (· ≤ ·)

/-- The record `publishPartition` stores for `part`: generation-bound against the stored one. -/
def partitionToStore (stored : Option FabricPartition) (part : FabricPartition) : FabricPartition :=
  match stored with
  | none          => { part with gen := if part.gen = ⟨0⟩ then ⟨1⟩ else part.gen }
  | some existing =>
    let changed := sortedMembers existing ≠ sortedMembers part || existing.fabric ≠ part.fabric ||
      existing.state ≠ part.state
    { part with gen := if changed then (max existing.gen part.gen).next else max existing.gen part.gen }

def publishPartition (part : FabricPartition) (t : FabricTopology) : Result FabricTopology :=
  if !t.partitions.contains part.id && Limits.kMaxPartitions ≤ t.partitions.size then
    .error ⟨.resourceLimit, "max partitions"⟩
  else
    let p := partitionToStore (t.partitions.find? part.id) part
    if p.members.any fun m => !t.devices.contains m then
      .error ⟨.invalidPartition, "partition member device missing"⟩
    else if p.switches.any fun s => !t.switches.contains s then
      .error ⟨.invalidPartition, "partition member switch missing"⟩
    else .ok { t with
      partitions := t.partitions.insert part.id p
      topologyGen := t.topologyGen.next }

def removePartition (id : PartitionId) (t : FabricTopology) : Result FabricTopology :=
  if !t.partitions.contains id then .error ⟨.notFound, "partition not found"⟩
  else .ok { t with partitions := t.partitions.erase id, topologyGen := t.topologyGen.next }

def markPartitionStale (id : PartitionId) (t : FabricTopology) : Result FabricTopology :=
  match t.partitions.find? id with
  | none     => .error ⟨.notFound, "partition not found"⟩
  | some rec => .ok { t with
      partitions := t.partitions.insert id rec.markStale
      topologyGen := t.topologyGen.next }

/-- Merge one link degradation into the links. -/
def mergeDegradation (links : SortedMap LinkId LinkRecord) (ld : LinkDegradation) :
    SortedMap LinkId LinkRecord :=
  if !ld.linkKnown then links
  else match links.find? ld.link with
    | none     => links
    | some rec => links.insert ld.link (rec.merge ld.degraded)

def publishCongestion (c : CongestionObservation) (t : FabricTopology) : Result FabricTopology :=
  .ok { t with links := c.links.foldl mergeDegradation t.links, topologyGen := t.topologyGen.next }

/-- Some record of the snapshot is attributed to `(w, b)`. -/
def anyAttributed (t : FabricTopology) (w : WorkerId) (b : WorkerBootId) : Bool :=
  t.switches.entries.any (fun e => e.2.attributedTo w b) ||
  t.ports.entries.any (fun e => e.2.attributedTo w b) ||
  t.links.entries.any (fun e => e.2.attributedTo w b) ||
  t.partitions.entries.any (fun e => e.2.attributedTo w b) ||
  t.devices.entries.any (fun e => e.2.attributedTo w b)

def invalidateForWorker (w : WorkerId) (b : WorkerBootId) (t : FabricTopology) : Result FabricTopology :=
  .ok { t with
    switches := t.switches.mapVals (SwitchRecord.fence w b)
    ports := t.ports.mapVals (SwitchPortRecord.fence w b)
    links := t.links.mapVals (LinkRecord.fence w b)
    partitions := t.partitions.mapVals (FabricPartition.fence w b)
    devices := t.devices.mapVals (DeviceRecord.fence w b)
    topologyGen := if anyAttributed t w b then t.topologyGen.next else t.topologyGen }

def expireDynamicEvidence (t : FabricTopology) : Result FabricTopology :=
  .ok { t with
    switches := t.switches.mapVals SwitchRecord.expire
    ports := t.ports.mapVals SwitchPortRecord.expire
    links := t.links.mapVals LinkRecord.expire
    partitions := t.partitions.mapVals FabricPartition.expire
    devices := t.devices.mapVals DeviceRecord.expire
    topologyGen := t.topologyGen.next }

def revalidateAll (t : FabricTopology) : Result FabricTopology :=
  .ok { t with
    switches := t.switches.mapVals SwitchRecord.revalidate
    ports := t.ports.mapVals SwitchPortRecord.revalidate
    links := t.links.mapVals LinkRecord.revalidate
    partitions := t.partitions.mapVals FabricPartition.revalidate
    devices := t.devices.mapVals DeviceRecord.revalidate
    topologyGen := t.topologyGen.next }

def applyBulk (e : BulkEdit) (t : FabricTopology) : Result FabricTopology :=
  .ok { t with
    devices := t.devices.insertAll (·.id) e.devices
    switches := t.switches.insertAll (·.id) e.switches
    ports := t.ports.insertAll (·.id) e.ports
    links := t.links.insertAll (·.id) e.links
    partitions := t.partitions.insertAll (·.id) e.partitions
    topologyGen := t.topologyGen.next }

end Edit

end NVSwitchFabric
