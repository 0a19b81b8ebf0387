import NVSwitchFabric.Lib.SortedMap
import NVSwitchFabric.Model.Records

/-!
# `Model.Topology` — the fabric topology snapshot

The immutable snapshot graph (`topology.h`), its lookups, its health, and `checkIntegrity` with its violation texts in the
order the source pushes them. `Integral` says what an empty report means, field by field, and
`checkIntegrity_eq_nil_iff` connects the two; the registry's proofs use only `Integral`.
-/

namespace NVSwitchFabric

open Lib

/-- A topology snapshot. -/
structure FabricTopology where
  id          : UInt64 := 0
  topologyGen : TopologyGeneration := ⟨0⟩
  fabricGen   : FabricGeneration := ⟨0⟩
  epoch       : CoordinatorEpoch := 0
  provenance  : Provenance := .unsupported
  label       : Str := []
  persisted   : Bool := false
  devices     : SortedMap DeviceId DeviceRecord := .empty
  switches    : SortedMap SwitchId SwitchRecord := .empty
  ports       : SortedMap PortId SwitchPortRecord := .empty
  links       : SortedMap LinkId LinkRecord := .empty
  partitions  : SortedMap PartitionId FabricPartition := .empty

namespace FabricTopology

def lookupDevice (t : FabricTopology) (id : DeviceId) : Option DeviceRecord := t.devices.find? id
def lookupSwitch (t : FabricTopology) (id : SwitchId) : Option SwitchRecord := t.switches.find? id
def lookupPort (t : FabricTopology) (id : PortId) : Option SwitchPortRecord := t.ports.find? id
def lookupLink (t : FabricTopology) (id : LinkId) : Option LinkRecord := t.links.find? id
def lookupPartition (t : FabricTopology) (id : PartitionId) : Option FabricPartition :=
  t.partitions.find? id

/-! ## Health -/

/-- `fabricHealth`: the worst of what the switches, ports, devices and partitions show. -/
def fabricHealth (t : FabricTopology) : FabricHealth :=
  let failed (st : EntityState) : Bool := st = .down || st = .unreachable || st = .absent
  let anySwitchFailure := t.switches.entries.any fun e => failed e.2.state
  let anyPortFailure := t.ports.entries.any fun e =>
    e.2.state = .down || e.2.state = .unreachable || e.2.state = .disabled
  let anyEndpointFailure := t.devices.entries.any fun e => failed e.2.state
  let anyStale := (t.switches.entries.any fun e => e.2.state.isStaleOrRevalidation) ||
    (t.ports.entries.any fun e => e.2.state.isStaleOrRevalidation) ||
    (t.devices.entries.any fun e => e.2.state.isStaleOrRevalidation) ||
    t.partitions.entries.any fun e => e.2.state.isStaleOrRevalidation
  let anyRevalidation := t.partitions.entries.any fun e => e.2.state = .reconfiguring
  let anyDegraded := (t.switches.entries.any fun e => e.2.state = .degraded) ||
    t.ports.entries.any fun e => e.2.state = .degraded
  if anySwitchFailure then .switchFailure
  else if anyPortFailure then .portFailure
  else if anyEndpointFailure then .endpointFailure
  else if anyRevalidation then .revalidationRequired
  else if anyStale then .revalidationRequired
  else if anyDegraded then .degraded
  else .healthy

/-! ## Integrity report -/

/-- Insert ids into a set one by one, reporting `msg` for each that was already there. -/
def duplicateIds {κ : Type} [DecidableEq κ] (msg : String) (ids : List κ) : List String :=
  (ids.foldl (fun (st : List κ × List String) k =>
    if k ∈ st.1 then (st.1, st.2 ++ [msg]) else (k :: st.1, st.2)) ([], [])).2

/-- Report `msg` when `bad` holds. -/
def violation (bad : Bool) (msg : String) : List String := if bad then [msg] else []

def switchViolations (id : SwitchId) (rec : SwitchRecord) : List String :=
  violation (rec.id ≠ id) "switch map key != record id"

def portViolations (t : FabricTopology) (pid : PortId) : List String :=
  violation (!t.switches.contains pid.sw) "port references missing switch" ++
  violation (Limits.kMaxPortsPerSwitch ≤ pid.index.toNat) "port index out of bound"

def linkViolations (t : FabricTopology) (rec : LinkRecord) : List String :=
  violation (!t.switches.contains rec.rootSwitch) "link references missing root switch" ++
  violation (!t.ports.contains rec.port) "link references missing port" ++
  violation (rec.port.sw ≠ rec.rootSwitch) "link port switch != root switch" ++
  -- every kind other than `Device` is checked as a switch end
  (if rec.otherEnd.kind = .device then
    violation (!t.devices.contains rec.otherEnd.device) "link references missing device"
  else violation (!t.switches.contains rec.otherEnd.sw) "link references missing switch")

def partitionViolations (t : FabricTopology) (part : FabricPartition) : List String :=
  part.members.flatMap (fun m =>
    violation (!t.devices.contains m) "partition references missing member") ++
  part.switches.flatMap (fun s =>
    violation (!t.switches.contains s) "partition references missing switch")

/-- `checkIntegrity`: the violations, in order; the snapshot is integral when there are none. -/
def checkIntegrity (t : FabricTopology) : List String :=
  duplicateIds "duplicate device id" t.devices.keys ++
  duplicateIds "duplicate switch id" t.switches.keys ++
  duplicateIds "duplicate port id" t.ports.keys ++
  t.switches.entries.flatMap (fun e => switchViolations e.1 e.2) ++
  t.ports.entries.flatMap (fun e => portViolations t e.1) ++
  t.links.entries.flatMap (fun e => linkViolations t e.2) ++
  t.partitions.entries.flatMap (fun e => partitionViolations t e.2)

/-! ## What an empty report means -/

/-- The far end of a link exists. -/
def EndExists (t : FabricTopology) (e : LinkEnd) : Prop :=
  if e.kind = .device then t.devices.contains e.device = true else t.switches.contains e.sw = true

/-- Referential integrity of a snapshot. -/
structure Integral (t : FabricTopology) : Prop where
  switchKey        : ∀ {id rec}, t.switches.find? id = some rec → rec.id = id
  portSwitch       : ∀ {pid rec}, t.ports.find? pid = some rec → t.switches.contains pid.sw = true
  portIndex        : ∀ {pid rec}, t.ports.find? pid = some rec →
                       pid.index.toNat < Limits.kMaxPortsPerSwitch
  linkRoot         : ∀ {id rec}, t.links.find? id = some rec →
                       t.switches.contains rec.rootSwitch = true
  linkPort         : ∀ {id rec}, t.links.find? id = some rec → t.ports.contains rec.port = true
  linkPortRoot     : ∀ {id rec}, t.links.find? id = some rec → rec.port.sw = rec.rootSwitch
  linkEnd          : ∀ {id rec}, t.links.find? id = some rec → t.EndExists rec.otherEnd
  partitionMember  : ∀ {id rec}, t.partitions.find? id = some rec →
                       ∀ m ∈ rec.members, t.devices.contains m = true
  partitionSwitch  : ∀ {id rec}, t.partitions.find? id = some rec →
                       ∀ s ∈ rec.switches, t.switches.contains s = true

@[simp] theorem violation_eq_nil {bad : Bool} {msg : String} : violation bad msg = [] ↔ bad = false := by
  cases bad <;> simp [violation]

/-- Inserting pairwise distinct ids, none of them in the set yet, reports nothing. -/
theorem duplicateIds_fold_eq {κ : Type} [DecidableEq κ] (msg : String) :
    ∀ (ids seen : List κ) (out : List String), ids.Nodup → (∀ k ∈ ids, k ∉ seen) →
      (ids.foldl (fun (st : List κ × List String) k =>
        if k ∈ st.1 then (st.1, st.2 ++ [msg]) else (k :: st.1, st.2)) (seen, out)).2 = out := by
  intro ids
  induction ids with
  | nil => intro seen out _ _; rfl
  | cons k ids ih =>
    intro seen out hnd hfresh
    rw [List.nodup_cons] at hnd
    rw [List.foldl_cons, if_neg (hfresh k List.mem_cons_self)]
    refine ih (k :: seen) out hnd.2 ?_
    intro x hx hmem
    rcases List.mem_cons.mp hmem with rfl | hmem
    · exact hnd.1 hx
    · exact hfresh x (List.mem_cons_of_mem _ hx) hmem

/-- The keys of a map are distinct, so the duplicate-id checks never fire. -/
theorem duplicateIds_keys {κ α : Type} [LinearOrder κ] (msg : String) (m : SortedMap κ α) :
    duplicateIds msg m.keys = [] :=
  duplicateIds_fold_eq msg m.keys [] [] m.keys_nodup (by simp)

/-- A per-entry check over a map is silent iff it is silent on every stored record. -/
theorem flatMap_entries_eq_nil {κ α : Type} [LinearOrder κ] {m : SortedMap κ α}
    {f : κ × α → List String} :
    m.entries.flatMap f = [] ↔ ∀ k v, m.find? k = some v → f (k, v) = [] := by
  rw [List.flatMap_eq_nil_iff]
  constructor
  · intro h k v hkv
    exact h (k, v) (SortedMap.find?_eq_some_iff.mp hkv)
  · intro h e he
    exact h e.1 e.2 (SortedMap.find?_eq_some_iff.mpr he)

theorem switchViolations_eq_nil {id : SwitchId} {rec : SwitchRecord} :
    switchViolations id rec = [] ↔ rec.id = id := by
  simp [switchViolations]

theorem portViolations_eq_nil {t : FabricTopology} {pid : PortId} :
    t.portViolations pid = [] ↔
      t.switches.contains pid.sw = true ∧ pid.index.toNat < Limits.kMaxPortsPerSwitch := by
  simp [portViolations]

theorem linkViolations_eq_nil {t : FabricTopology} {rec : LinkRecord} :
    t.linkViolations rec = [] ↔
      t.switches.contains rec.rootSwitch = true ∧ t.ports.contains rec.port = true ∧
      rec.port.sw = rec.rootSwitch ∧ t.EndExists rec.otherEnd := by
  unfold linkViolations EndExists
  split <;> simp

theorem partitionViolations_eq_nil {t : FabricTopology} {part : FabricPartition} :
    t.partitionViolations part = [] ↔
      (∀ m ∈ part.members, t.devices.contains m = true) ∧
      (∀ s ∈ part.switches, t.switches.contains s = true) := by
  simp [partitionViolations]

/-- **`checkIntegrity` reports nothing exactly on the integral snapshots.** -/
theorem checkIntegrity_eq_nil_iff {t : FabricTopology} : t.checkIntegrity = [] ↔ t.Integral := by
  unfold checkIntegrity
  simp only [duplicateIds_keys, List.nil_append, List.append_eq_nil_iff, flatMap_entries_eq_nil,
    switchViolations_eq_nil, portViolations_eq_nil, linkViolations_eq_nil, partitionViolations_eq_nil]
  constructor
  · rintro ⟨⟨⟨hsw, hport⟩, hlink⟩, hpart⟩
    exact {
      switchKey := fun h => hsw _ _ h
      portSwitch := fun h => (hport _ _ h).1
      portIndex := fun h => (hport _ _ h).2
      linkRoot := fun h => (hlink _ _ h).1
      linkPort := fun h => (hlink _ _ h).2.1
      linkPortRoot := fun h => (hlink _ _ h).2.2.1
      linkEnd := fun h => (hlink _ _ h).2.2.2
      partitionMember := fun h => (hpart _ _ h).1
      partitionSwitch := fun h => (hpart _ _ h).2 }
  · intro h
    exact ⟨⟨⟨fun _ _ hf => h.switchKey hf, fun _ _ hf => ⟨h.portSwitch hf, h.portIndex hf⟩⟩,
      fun _ _ hf => ⟨h.linkRoot hf, h.linkPort hf, h.linkPortRoot hf, h.linkEnd hf⟩⟩,
      fun _ _ hf => ⟨h.partitionMember hf, h.partitionSwitch hf⟩⟩

/-- Integrity depends on the five maps only. -/
theorem Integral.of_maps_eq {t t' : FabricTopology} (h : t.Integral) (hd : t'.devices = t.devices)
    (hs : t'.switches = t.switches) (hp : t'.ports = t.ports) (hl : t'.links = t.links)
    (hpt : t'.partitions = t.partitions) : t'.Integral := by
  cases t
  cases t'
  dsimp only at hd hs hp hl hpt
  subst hd hs hp hl hpt
  exact { h with }

/-! ## Well-formed snapshots -/

/-- Every record is stored under its own id. -/
structure Keyed (t : FabricTopology) : Prop where
  devices    : t.devices.KeyedBy (·.id)
  switches   : t.switches.KeyedBy (·.id)
  ports      : t.ports.KeyedBy (·.id)
  links      : t.links.KeyedBy (·.id)
  partitions : t.partitions.KeyedBy (·.id)

/-- The entity counts are within the bounds. -/
structure WithinLimits (t : FabricTopology) : Prop where
  devices    : t.devices.size ≤ Limits.kMaxDevices
  switches   : t.switches.size ≤ Limits.kMaxSwitches
  ports      : t.ports.size ≤ Limits.kMaxPorts
  links      : t.links.size ≤ Limits.kMaxLinks
  partitions : t.partitions.size ≤ Limits.kMaxPartitions

/-- The invariant of every snapshot a registry ever holds. -/
structure WellFormed (t : FabricTopology) : Prop where
  keyed    : t.Keyed
  limits   : t.WithinLimits
  integral : t.Integral

end FabricTopology

end NVSwitchFabric
