import NVSwitchFabric.Model.Registry
import Mathlib.Data.List.Dedup

/-!
# `Model.Scenario` — the synthetic backend

The record builders and named scenarios of synthetic_backend.cpp. A backend scan has the shape of a bulk edit, and
`applyScenarioToRegistry` applies it as one.
-/

namespace NVSwitchFabric

/-- The provenance and source of every synthetic record. -/
def syntheticOrigin : Origin := { provenance := .synthetic, source := .syntheticFixture }

def makeSyntheticDevice (id : DeviceId) (gen : Str) (st : EntityState) : DeviceRecord :=
  { syntheticOrigin with
    id := id
    generation := { name := gen, observed := true }
    present := st = .up || st = .present || st = .degraded
    backendId := ascii "synthetic-device-" ++ decimal id.value.toNat
    vendor := ascii "Synthetic"
    product := ascii "SynthGPU"
    state := st }

def makeSyntheticSwitch (id : SwitchId) (generation : Str) (portCount : UInt32) : SwitchRecord :=
  { syntheticOrigin with
    id := id
    gen := ⟨1⟩
    generationName := generation
    generationObserved := true
    vendor := ascii "Synthetic"
    product := ascii "SynthSwitch"
    family := generation
    portCount := portCount
    state := .up }

def makeSyntheticPort (sw : SwitchId) (index : UInt32) (attached : LinkEnd) : SwitchPortRecord :=
  { syntheticOrigin with
    id := ⟨sw, index⟩
    gen := ⟨1⟩
    attached := attached
    attachedKnown := true
    state := .up
    activeLinkCount := 1
    activeLinkCountKnown := true
    nominalBandwidthMBps := 900 * 1024
    nominalBandwidthKnown := true }

def makeSyntheticLink (id : LinkId) (root : SwitchId) (port : PortId) (other : LinkEnd) : LinkRecord :=
  { syntheticOrigin with
    id := id
    gen := ⟨1⟩
    rootSwitch := root
    port := port
    otherEnd := other
    otherEndKnown := true
    state := .up }

def makeSyntheticPartition (id : PartitionId) (members : List DeviceId) (switches : List SwitchId)
    (st : PartitionState) : FabricPartition :=
  { syntheticOrigin with
    id := id
    gen := ⟨1⟩
    fabric := ⟨ascii "synthetic-fabric"⟩
    members := (members.insertionSort (· ≤ ·)).dedup
    switches := (switches.insertionSort (· ≤ ·)).dedup
    state := st }

/-! ## Scenarios -/

inductive ScenarioType where
  | empty | singleSwitchTwoGpu | singleSwitchManyGpu | twoSwitchRedundant | twoSwitchLinear
  | denseMultiSwitch | partitionSplit | degradedPort | parallelLinks
deriving DecidableEq

/-- `Backend::Scan`: the records a backend reports. -/
abbrev Scan := BulkEdit

namespace Scan

/-- Put the records of two scans one after the other. -/
def append (s s' : Scan) : Scan where
  devices := s.devices ++ s'.devices
  switches := s.switches ++ s'.switches
  ports := s.ports ++ s'.ports
  links := s.links ++ s'.links
  partitions := s.partitions ++ s'.partitions

/-- A switch with nothing attached. -/
def oneSwitch (sw : SwitchId) (ports : UInt32) : Scan :=
  { switches := [makeSyntheticSwitch sw (ascii "SynthSwitch-1") ports] }

/-- `addDeviceLink`: a device and the port and link that attach it. -/
def addDeviceLink (d : DeviceId) (sw : SwitchId) (port : UInt32) (link : LinkId) : Scan where
  devices := [makeSyntheticDevice d (ascii "Synthetic") .up]
  ports := [makeSyntheticPort sw port (.toDevice d)]
  links := [makeSyntheticLink link sw ⟨sw, port⟩ (.toDevice d)]

/-- `mesh`: both halves of an inter-switch link. -/
def mesh (x y : SwitchId) (px py : UInt32) (lx ly : LinkId) : Scan where
  ports := [makeSyntheticPort x px (.toSwitch y), makeSyntheticPort y py (.toSwitch x)]
  links := [makeSyntheticLink lx x ⟨x, px⟩ (.toSwitch y), makeSyntheticLink ly y ⟨y, py⟩ (.toSwitch x)]

def concat (scans : List Scan) : Scan := scans.foldr append {}

end Scan

open Scan in
/-- The records of a scenario, before the closing pass over the devices. -/
def scenarioRecords : ScenarioType → Scan
  | .empty => {}
  | .singleSwitchTwoGpu =>
    concat [oneSwitch ⟨10⟩ 2, addDeviceLink ⟨1⟩ ⟨10⟩ 0 ⟨100⟩, addDeviceLink ⟨2⟩ ⟨10⟩ 1 ⟨101⟩]
  | .singleSwitchManyGpu =>
    concat [oneSwitch ⟨10⟩ 4, addDeviceLink ⟨1⟩ ⟨10⟩ 0 ⟨100⟩, addDeviceLink ⟨2⟩ ⟨10⟩ 1 ⟨101⟩,
      addDeviceLink ⟨3⟩ ⟨10⟩ 2 ⟨102⟩, addDeviceLink ⟨4⟩ ⟨10⟩ 3 ⟨103⟩]
  | .twoSwitchRedundant =>
    concat [oneSwitch ⟨10⟩ 3, oneSwitch ⟨11⟩ 3, addDeviceLink ⟨1⟩ ⟨10⟩ 0 ⟨100⟩,
      addDeviceLink ⟨1⟩ ⟨11⟩ 0 ⟨101⟩, addDeviceLink ⟨2⟩ ⟨10⟩ 1 ⟨102⟩, addDeviceLink ⟨2⟩ ⟨11⟩ 1 ⟨103⟩,
      mesh ⟨10⟩ ⟨11⟩ 2 2 ⟨120⟩ ⟨121⟩]
  | .twoSwitchLinear =>
    concat [oneSwitch ⟨10⟩ 2, oneSwitch ⟨11⟩ 2, addDeviceLink ⟨1⟩ ⟨10⟩ 0 ⟨100⟩,
      addDeviceLink ⟨2⟩ ⟨11⟩ 0 ⟨101⟩, mesh ⟨10⟩ ⟨11⟩ 1 1 ⟨120⟩ ⟨121⟩]
  | .denseMultiSwitch =>
    concat <| [oneSwitch ⟨10⟩ 4, oneSwitch ⟨11⟩ 4, oneSwitch ⟨12⟩ 4] ++
      ([0, 1, 2, 3].flatMap fun i : UInt32 =>
        [addDeviceLink ⟨i.toUInt64 + 1⟩ ⟨10⟩ i ⟨200 + i.toUInt64⟩,
         addDeviceLink ⟨i.toUInt64 + 1⟩ ⟨11⟩ i ⟨210 + i.toUInt64⟩,
         addDeviceLink ⟨i.toUInt64 + 1⟩ ⟨12⟩ i ⟨220 + i.toUInt64⟩]) ++
      [mesh ⟨10⟩ ⟨11⟩ 0 0 ⟨300⟩ ⟨301⟩, mesh ⟨10⟩ ⟨12⟩ 1 0 ⟨320⟩ ⟨321⟩, mesh ⟨11⟩ ⟨12⟩ 1 1 ⟨340⟩ ⟨341⟩]
  | .partitionSplit =>
    concat [oneSwitch ⟨10⟩ 4, addDeviceLink ⟨1⟩ ⟨10⟩ 0 ⟨100⟩, addDeviceLink ⟨2⟩ ⟨10⟩ 1 ⟨101⟩,
      addDeviceLink ⟨3⟩ ⟨10⟩ 2 ⟨102⟩, addDeviceLink ⟨4⟩ ⟨10⟩ 3 ⟨103⟩,
      { partitions :=
        [makeSyntheticPartition ⟨ascii "p0"⟩ [⟨1⟩, ⟨2⟩] [⟨10⟩] .active,
         makeSyntheticPartition ⟨ascii "p1"⟩ [⟨3⟩, ⟨4⟩] [⟨10⟩] .active] }]
  | .degradedPort =>
    let s := concat [oneSwitch ⟨10⟩ 2, addDeviceLink ⟨1⟩ ⟨10⟩ 0 ⟨100⟩, addDeviceLink ⟨2⟩ ⟨10⟩ 1 ⟨101⟩]
    { s with
      ports := s.ports.map fun p => if p.id = ⟨⟨10⟩, 1⟩ then { p with state := .degraded } else p
      links := s.links.map fun l =>
        if l.port = ⟨⟨10⟩, 1⟩ then { l with state := .degraded, degraded := true } else l }
  | .parallelLinks =>
    concat [oneSwitch ⟨10⟩ 3, addDeviceLink ⟨1⟩ ⟨10⟩ 0 ⟨100⟩, addDeviceLink ⟨2⟩ ⟨10⟩ 1 ⟨101⟩,
      addDeviceLink ⟨2⟩ ⟨10⟩ 2 ⟨102⟩]

/-- `buildSyntheticScan`. -/
def buildSyntheticScan (type : ScenarioType) : Scan :=
  let s := scenarioRecords type
  { s with devices := s.devices.map fun d => if d.state ≠ .up then { d with present := true } else d }

/-- `applyScenarioToRegistry`. -/
def applyScenarioToRegistry (type : ScenarioType) (r : FabricRegistry) :
    Result FabricTopology × FabricRegistry :=
  r.applyBulk (buildSyntheticScan type)

end NVSwitchFabric
