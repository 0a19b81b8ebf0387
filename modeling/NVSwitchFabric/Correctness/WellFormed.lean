import NVSwitchFabric.Correctness.Edited
import NVSwitchFabric.Model.Persistence
import NVSwitchFabric.Lib.Run

/-!
# `Correctness.WellFormed` — reachable registries

`Reachable`: the states of a registry that was freshly constructed, or restored from any bytes the reader accepts,
after any operations. Validation re-establishes integrity and bounds at every commit, and every edit stores
records under their own id (`Edited.keyed`), so the snapshot of a reachable registry is well formed.

Where new records come from is stated here too: what stands under a key that had none is what the operation supplies
(`newDevice?`, `newSwitch?`, `newPort?`, `newLink?`, `newPartition?`).
-/

namespace NVSwitchFabric

open Lib

namespace FabricRegistry

/-- A registry as constructed, or as restored from some bytes. -/
def Initial (r : FabricRegistry) : Prop := r = new ∨ ∃ data, deserialize data = .ok r

/-- The registry states any sequence of operations can reach. -/
def Reachable (r : FabricRegistry) : Prop := ∃ r₀, Initial r₀ ∧ Steps exec Free r₀ r

theorem Reachable.steps {ok : FabricRegistry → RegistryOp → Prop} {r r' : FabricRegistry}
    (h : r.Reachable) (hsteps : Steps exec ok r r') : r'.Reachable := by
  obtain ⟨r₀, hinit, hrun⟩ := h
  exact ⟨r₀, hinit, hrun.trans hsteps.free⟩

theorem Reachable.exec {r : FabricRegistry} (h : r.Reachable) (op : RegistryOp) :
    (r.exec op).Reachable := by
  have hone : Steps FabricRegistry.exec Free r (r.exec op) := .single trivial
  exact h.steps hone

/-- **Invariant rule.** What holds initially and is kept by every operation holds of every reachable state. -/
theorem Reachable.invariant {Inv : FabricRegistry → Prop} {r : FabricRegistry}
    (hinit : ∀ s, s.Initial → Inv s) (hstep : ∀ s op, Inv s → Inv (s.exec op)) (h : r.Reachable) :
    Inv r := by
  obtain ⟨r₀, h₀, hrun⟩ := h
  exact hrun.invariant (fun s op hs _ => hstep s op hs) (hinit r₀ h₀)

/-- A fresh registry after some operations. -/
def after (ops : List RegistryOp) : FabricRegistry := runAll FabricRegistry.exec new ops

theorem reachable_after (ops : List RegistryOp) : (after ops).Reachable :=
  ⟨new, Or.inl rfl, Steps.of_runAll FabricRegistry.exec new ops⟩

end FabricRegistry

/-! ## Records stay under their own id -/

/-- The merge rewrites the record of each link with the reports that name it, and makes none. -/
theorem find?_foldl_mergeDegradation (lds : List LinkDegradation) (m : SortedMap LinkId LinkRecord) (l : LinkId) :
    (lds.foldl Edit.mergeDegradation m).find? l = (m.find? l).map fun rec =>
      (lds.filter fun ld => ld.linkKnown && ld.link = l).foldl (fun rec ld => rec.merge ld.degraded) rec := by
  induction lds generalizing m with
  | nil => exact Option.map_id'.symm
  | cons ld lds ih =>
    rw [List.foldl_cons, ih]
    have hother : ¬ (ld.linkKnown = true ∧ ld.link = l) → (Edit.mergeDegradation m ld).find? l = m.find? l := by
      intro hno
      unfold Edit.mergeDegradation
      split
      · rfl
      next hknown =>
      split
      · rfl
      · exact SortedMap.find?_insert_ne _ _ fun heq => hno ⟨by simpa using hknown, heq.symm⟩
    by_cases hnamed : ld.linkKnown = true ∧ ld.link = l
    · obtain ⟨hknown, rfl⟩ := hnamed
      rw [List.filter_cons_of_pos (by simp [hknown])]
      unfold Edit.mergeDegradation
      rw [hknown, if_neg (by simp)]
      cases hrec : m.find? ld.link with
      | none => exact congrArg (Option.map _) hrec
      | some rec =>
        dsimp only
        rw [SortedMap.find?_insert_self]
        rfl
    · rw [hother hnamed, List.filter_cons_of_neg (by simpa using hnamed)]

theorem keyed_mergeDegradation {m : SortedMap LinkId LinkRecord} (h : m.KeyedBy (·.id))
    (ld : LinkDegradation) : (Edit.mergeDegradation m ld).KeyedBy (·.id) := by
  unfold Edit.mergeDegradation
  split
  · exact h
  split
  · exact h
  · next rec hrec => exact h.update hrec rfl

theorem keyed_foldl_mergeDegradation (lds : List LinkDegradation) {m : SortedMap LinkId LinkRecord}
    (h : m.KeyedBy (·.id)) : (lds.foldl Edit.mergeDegradation m).KeyedBy (·.id) := by
  induction lds generalizing m with
  | nil => exact h
  | cons ld lds ih => exact ih (keyed_mergeDegradation h ld)

theorem partitionToStore_id (o : Option FabricPartition) (part : FabricPartition) :
    (Edit.partitionToStore o part).id = part.id := by
  unfold Edit.partitionToStore
  split <;> rfl

/-- **Every edit keeps records under their own id.** -/
theorem Edited.keyed {t cand : FabricTopology} {op : RegistryOp} (h : Edited t op cand)
    (hk : t.Keyed) : cand.Keyed := by
  cases h with
  | addDevice => exact { hk with devices := hk.devices.insert rfl }
  | removeDevice => exact { hk with devices := hk.devices.erase, links := hk.links.filter }
  | addSwitch => exact { hk with switches := hk.switches.insert rfl }
  | removeSwitch =>
    exact { hk with
      switches := hk.switches.erase
      ports := hk.ports.filter
      links := hk.links.filter }
  | setSwitchState known => exact { hk with switches := hk.switches.update known rfl }
  | restartSwitch known => exact { hk with switches := hk.switches.update known rfl }
  | addPort known =>
    exact { hk with
      switches := hk.switches.update known rfl
      ports := hk.ports.insert rfl }
  | removePort => exact { hk with ports := hk.ports.erase, links := hk.links.filter }
  | setPortState known => exact { hk with ports := hk.ports.update known rfl }
  | addLink => exact { hk with links := hk.links.insert rfl }
  | removeLink => exact { hk with links := hk.links.erase }
  | setLinkState known => exact { hk with links := hk.links.update known rfl }
  | publishPartition =>
    exact { hk with partitions := hk.partitions.insert (partitionToStore_id _ _) }
  | removePartition => exact { hk with partitions := hk.partitions.erase }
  | markPartitionStale known =>
    exact { hk with partitions := hk.partitions.update known rfl }
  | publishCongestion => exact { hk with links := keyed_foldl_mergeDegradation _ hk.links }
  | invalidateForWorker =>
    exact {
      devices := hk.devices.mapVals fun v => by unfold DeviceRecord.fence; split <;> rfl
      switches := hk.switches.mapVals fun v => by unfold SwitchRecord.fence; split <;> rfl
      ports := hk.ports.mapVals fun v => by unfold SwitchPortRecord.fence; split <;> rfl
      links := hk.links.mapVals fun v => by unfold LinkRecord.fence; split <;> rfl
      partitions := hk.partitions.mapVals fun v => by unfold FabricPartition.fence; split <;> rfl }
  | expireDynamicEvidence =>
    exact {
      devices := hk.devices.mapVals fun v => by unfold DeviceRecord.expire; split <;> rfl
      switches := hk.switches.mapVals fun v => by unfold SwitchRecord.expire; split <;> rfl
      ports := hk.ports.mapVals fun v => by unfold SwitchPortRecord.expire; split <;> rfl
      links := hk.links.mapVals fun v => by unfold LinkRecord.expire; split <;> rfl
      partitions := hk.partitions.mapVals fun v => by unfold FabricPartition.expire; split <;> rfl }
  | revalidateAll =>
    exact {
      devices := hk.devices.mapVals fun v => by unfold DeviceRecord.revalidate; split <;> rfl
      switches := hk.switches.mapVals fun v => by unfold SwitchRecord.revalidate; split <;> rfl
      ports := hk.ports.mapVals fun v => by unfold SwitchPortRecord.revalidate; split <;> rfl
      links := hk.links.mapVals fun v => by unfold LinkRecord.revalidate; split <;> rfl
      partitions := hk.partitions.mapVals fun v => by
        unfold FabricPartition.revalidate; split <;> rfl }
  | applyBulk =>
    exact {
      devices := hk.devices.insertAll _
      switches := hk.switches.insertAll _
      ports := hk.ports.insertAll _
      links := hk.links.insertAll _
      partitions := hk.partitions.insertAll _ }

/-! ## The invariant -/

namespace FabricRegistry

/-- **A step keeps the snapshot well formed.** -/
theorem exec_wellFormed {r : FabricRegistry} (op : RegistryOp) (h : r.current.WellFormed) :
    (r.exec op).current.WellFormed := by
  rcases exec_edited r op with heq | ⟨cand, hed, heq, hadm⟩
  · rwa [heq]
  · rw [heq]
    exact ⟨{ hed.keyed h.keyed with }, hadm.limits, hadm.integral⟩

theorem wellFormed_new : new.current.WellFormed where
  keyed := ⟨.empty, .empty, .empty, .empty, .empty⟩
  limits := ⟨Nat.zero_le _, Nat.zero_le _, Nat.zero_le _, Nat.zero_le _, Nat.zero_le _⟩
  integral := FabricTopology.checkIntegrity_eq_nil_iff.mp rfl

/-- **The snapshot of a reachable registry is well formed.** -/
theorem Reachable.wellFormed {r : FabricRegistry} (h : r.Reachable) : r.current.WellFormed := by
  have hinit : ∀ s : FabricRegistry, s.Initial → s.current.WellFormed := by
    rintro s (rfl | ⟨data, hdata⟩)
    · exact wellFormed_new
    · obtain ⟨topo, htopo, rfl⟩ := deserialize_ok hdata
      exact htopo
  exact h.invariant hinit fun s op hs => exec_wellFormed op hs

end FabricRegistry

/-! ## Records an operation supplies -/

namespace BulkEdit

/-- The record a bulk edit stores under an id: the last one it lists. -/
def device? (e : BulkEdit) (id : DeviceId) : Option DeviceRecord :=
  e.devices.reverse.find? fun r => r.id = id

def switch? (e : BulkEdit) (id : SwitchId) : Option SwitchRecord :=
  e.switches.reverse.find? fun r => r.id = id

def port? (e : BulkEdit) (id : PortId) : Option SwitchPortRecord :=
  e.ports.reverse.find? fun r => r.id = id

def link? (e : BulkEdit) (id : LinkId) : Option LinkRecord :=
  e.links.reverse.find? fun r => r.id = id

def partition? (e : BulkEdit) (id : PartitionId) : Option FabricPartition :=
  e.partitions.reverse.find? fun r => r.id = id

end BulkEdit

namespace RegistryOp

/-- The device record the operation supplies for `id`. -/
def newDevice? (id : DeviceId) : RegistryOp → Option DeviceRecord
  | .addDevice rec => if id = rec.id then some rec else none
  | .applyBulk e   => e.device? id
  | _              => none

def newSwitch? (id : SwitchId) : RegistryOp → Option SwitchRecord
  | .addSwitch rec => if id = rec.id then some rec else none
  | .applyBulk e   => e.switch? id
  | _              => none

def newPort? (id : PortId) : RegistryOp → Option SwitchPortRecord
  | .addPort rec => if id = rec.id then some rec else none
  | .applyBulk e => e.port? id
  | _            => none

def newLink? (id : LinkId) : RegistryOp → Option LinkRecord
  | .addLink rec => if id = rec.id then some rec else none
  | .applyBulk e => e.link? id
  | _            => none

/-- The partition record the operation stores under `id` when there is none. -/
def newPartition? (id : PartitionId) : RegistryOp → Option FabricPartition
  | .publishPartition part => if id = part.id then some (Edit.partitionToStore none part) else none
  | .applyBulk e           => e.partition? id
  | _                      => none

end RegistryOp

namespace Edited

variable {t cand : FabricTopology} {op : RegistryOp}

/-- Under an id that had no device, the candidate has what the operation supplies. -/
theorem device_new {id : DeviceId} (h : Edited t op cand) (hnone : t.devices.find? id = none) :
    cand.devices.find? id = op.newDevice? id := by
  cases h with
  | addDevice => rw [SortedMap.find?_insert, hnone]; rfl
  | removeDevice => simp [SortedMap.find?_erase, hnone, RegistryOp.newDevice?]
  | applyBulk => rw [SortedMap.find?_insertAll, hnone, Option.or_none]; rfl
  | _ => simp [hnone, RegistryOp.newDevice?]

/-- Under an id that had no switch, the candidate has what the operation supplies. -/
theorem switch_new {id : SwitchId} (h : Edited t op cand) (hnone : t.switches.find? id = none) :
    cand.switches.find? id = op.newSwitch? id := by
  have hupdate : ∀ {k : SwitchId} {old new : SwitchRecord}, t.switches.find? k = some old →
      (t.switches.insert k new).find? id = none := by
    intro k old new known
    rw [SortedMap.find?_insert_ne _ _ (SortedMap.ne_of_find? hnone known)]
    exact hnone
  cases h with
  | addSwitch => rw [SortedMap.find?_insert, hnone]; rfl
  | removeSwitch => simp [SortedMap.find?_erase, hnone, RegistryOp.newSwitch?]
  | setSwitchState known => exact hupdate known
  | restartSwitch known => exact hupdate known
  | addPort known => exact hupdate known
  | applyBulk => rw [SortedMap.find?_insertAll, hnone, Option.or_none]; rfl
  | _ => simp [hnone, RegistryOp.newSwitch?]

/-- Under an id that had no port, the candidate has what the operation supplies. -/
theorem port_new {id : PortId} (h : Edited t op cand) (hnone : t.ports.find? id = none) :
    cand.ports.find? id = op.newPort? id := by
  cases h with
  | removeSwitch => simp [SortedMap.find?_filter, hnone, RegistryOp.newPort?]
  | addPort => rw [SortedMap.find?_insert, hnone]; rfl
  | removePort => simp [SortedMap.find?_erase, hnone, RegistryOp.newPort?]
  | setPortState known =>
    rw [SortedMap.find?_insert_ne _ _ (SortedMap.ne_of_find? hnone known)]
    exact hnone
  | applyBulk => rw [SortedMap.find?_insertAll, hnone, Option.or_none]; rfl
  | _ => simp [hnone, RegistryOp.newPort?]

/-- Under an id that had no link, the candidate has what the operation supplies. -/
theorem link_new {id : LinkId} (h : Edited t op cand) (hnone : t.links.find? id = none) :
    cand.links.find? id = op.newLink? id := by
  cases h with
  | removeDevice => simp [SortedMap.find?_filter, hnone, RegistryOp.newLink?]
  | removeSwitch => simp [SortedMap.find?_filter, hnone, RegistryOp.newLink?]
  | removePort => simp [SortedMap.find?_filter, hnone, RegistryOp.newLink?]
  | addLink => rw [SortedMap.find?_insert, hnone]; rfl
  | removeLink => simp [SortedMap.find?_erase, hnone, RegistryOp.newLink?]
  | setLinkState known =>
    rw [SortedMap.find?_insert_ne _ _ (SortedMap.ne_of_find? hnone known)]
    exact hnone
  | @publishCongestion c =>
    show (c.links.foldl Edit.mergeDegradation t.links).find? id = none
    rw [find?_foldl_mergeDegradation, hnone]
    rfl
  | applyBulk => rw [SortedMap.find?_insertAll, hnone, Option.or_none]; rfl
  | _ => simp [hnone, RegistryOp.newLink?]

/-- Under an id that had no partition, the candidate has what the operation supplies. -/
theorem partition_new {id : PartitionId} (h : Edited t op cand) (hnone : t.partitions.find? id = none) :
    cand.partitions.find? id = op.newPartition? id := by
  cases h with
  | @publishPartition part =>
    show _ = if id = part.id then _ else _
    rw [SortedMap.find?_insert]
    by_cases heq : id = part.id
    · subst heq
      rw [if_pos rfl, if_pos rfl, hnone]
    · rw [if_neg heq, if_neg heq]
      exact hnone
  | removePartition => simp [SortedMap.find?_erase, hnone, RegistryOp.newPartition?]
  | markPartitionStale known =>
    rw [SortedMap.find?_insert_ne _ _ (SortedMap.ne_of_find? hnone known)]
    exact hnone
  | applyBulk => rw [SortedMap.find?_insertAll, hnone, Option.or_none]; rfl
  | _ => simp [hnone, RegistryOp.newPartition?]

end Edited

end NVSwitchFabric
