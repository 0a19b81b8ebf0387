import NVSwitchFabric.Correctness.WellFormed

/-!
# `Correctness.RecordInvariant` — properties of single records

Beside the records it is given, an operation changes of a record only its state, its generation, the declared port
count of a switch and the degradation of a link. A property of records that does not depend on these
(`RecordInvariant`) therefore holds of every record of a snapshot as soon as it holds of the records supplied
(`Edited.holds`).
-/

namespace NVSwitchFabric

open Lib

/-- A property of each kind of record that the rewrites of the registry keep. -/
structure RecordInvariant where
  device    : DeviceRecord → Prop
  switch    : SwitchRecord → Prop
  port      : SwitchPortRecord → Prop
  link      : LinkRecord → Prop
  partition : FabricPartition → Prop
  device_update    : ∀ {v} state, device v → device { v with state := state }
  switch_update    : ∀ {v} state gen count, switch v →
                       switch { v with state := state, gen := gen, portCount := count }
  port_update      : ∀ {v} state gen, port v → port { v with state := state, gen := gen }
  link_update      : ∀ {v} state gen degraded, link v →
                       link { v with state := state, gen := gen, degraded := degraded }
  partition_update : ∀ {v} state gen, partition v → partition { v with state := state, gen := gen }

namespace RecordInvariant

variable (I : RecordInvariant)

/-- Every record of the snapshot satisfies the invariant. -/
structure Holds (t : FabricTopology) : Prop where
  devices    : t.devices.All I.device
  switches   : t.switches.All I.switch
  ports      : t.ports.All I.port
  links      : t.links.All I.link
  partitions : t.partitions.All I.partition

/-- Every record the operation supplies satisfies the invariant. -/
structure Supplied (op : RegistryOp) : Prop where
  devices    : ∀ id rec, op.newDevice? id = some rec → I.device rec
  switches   : ∀ id rec, op.newSwitch? id = some rec → I.switch rec
  ports      : ∀ id rec, op.newPort? id = some rec → I.port rec
  links      : ∀ id rec, op.newLink? id = some rec → I.link rec
  partitions : ∀ id rec, op.newPartition? id = some rec → I.partition rec

/-- Every record the operation is given satisfies the invariant. -/
def Given : RegistryOp → Prop
  | .addDevice rec         => I.device rec
  | .addSwitch rec         => I.switch rec
  | .addPort rec           => I.port rec
  | .addLink rec           => I.link rec
  | .publishPartition part => I.partition part
  | .applyBulk e           =>
    (∀ r ∈ e.devices, I.device r) ∧ (∀ r ∈ e.switches, I.switch r) ∧ (∀ r ∈ e.ports, I.port r) ∧
      (∀ r ∈ e.links, I.link r) ∧ ∀ r ∈ e.partitions, I.partition r
  | _                      => True

variable {I}

theorem of_ite_eq_some {α : Type} {P : α → Prop} {c : Prop} [Decidable c] {v v' : α} (hv : P v)
    (h : (if c then some v else none) = some v') : P v' := by
  split at h
  · exact Option.some.inj h ▸ hv
  · exact absurd h (by simp)

theorem of_last_eq_some {α : Type} {P : α → Prop} {p : α → Bool} {recs : List α} {v : α} (hall : ∀ r ∈ recs, P r)
    (h : recs.reverse.find? p = some v) : P v :=
  hall v (List.mem_reverse.mp (List.mem_of_find?_eq_some h))

/-- What an operation supplies is among what it is given. -/
theorem Given.supplied {op : RegistryOp} (h : I.Given op) : I.Supplied op := by
  refine ⟨?_, ?_, ?_, ?_, ?_⟩
  · intro id rec hrec
    cases op with
    | addDevice r => exact of_ite_eq_some (P := I.device) h hrec
    | applyBulk e => exact of_last_eq_some h.1 hrec
    | _ => exact absurd hrec (by simp [RegistryOp.newDevice?])
  · intro id rec hrec
    cases op with
    | addSwitch r => exact of_ite_eq_some (P := I.switch) h hrec
    | applyBulk e => exact of_last_eq_some h.2.1 hrec
    | _ => exact absurd hrec (by simp [RegistryOp.newSwitch?])
  · intro id rec hrec
    cases op with
    | addPort r => exact of_ite_eq_some (P := I.port) h hrec
    | applyBulk e => exact of_last_eq_some h.2.2.1 hrec
    | _ => exact absurd hrec (by simp [RegistryOp.newPort?])
  · intro id rec hrec
    cases op with
    | addLink r => exact of_ite_eq_some (P := I.link) h hrec
    | applyBulk e => exact of_last_eq_some h.2.2.2.1 hrec
    | _ => exact absurd hrec (by simp [RegistryOp.newLink?])
  · intro id rec hrec
    cases op with
    | publishPartition part =>
      exact of_ite_eq_some (P := I.partition) (I.partition_update part.state _ h) hrec
    | applyBulk e => exact of_last_eq_some h.2.2.2.2 hrec
    | _ => exact absurd hrec (by simp [RegistryOp.newPartition?])

theorem Holds.empty : I.Holds {} := ⟨.empty, .empty, .empty, .empty, .empty⟩

/-! ## Rewrites -/

/-- A record that is rewritten or left as it is. -/
theorem ite_holds {α : Type} {P : α → Prop} {c : Prop} [Decidable c] {v v' : α} (h : P v) (h' : P v') :
    P (if c then v' else v) := by
  split
  · exact h'
  · exact h

/-- Merging degradations keeps the invariant of every link. -/
theorem links_merged (lds : List LinkDegradation) {m : SortedMap LinkId LinkRecord} (h : m.All I.link) :
    (lds.foldl Edit.mergeDegradation m).All I.link := by
  induction lds generalizing m with
  | nil => exact h
  | cons ld lds ih =>
    apply ih
    unfold Edit.mergeDegradation
    split
    · exact h
    split
    · exact h
    · next rec hrec => exact h.insert (I.link_update _ _ _ (h hrec))

end RecordInvariant

open RecordInvariant in
/-- **An edit keeps the invariant** of every record if the records it is given satisfy it. -/
theorem Edited.holds {I : RecordInvariant} {t cand : FabricTopology} {op : RegistryOp} (h : Edited t op cand)
    (ht : I.Holds t) (hop : I.Supplied op) : I.Holds cand := by
  cases h with
  | @addDevice rec => exact { ht with devices := ht.devices.insert (hop.devices rec.id rec (if_pos rfl)) }
  | removeDevice => exact { ht with devices := ht.devices.erase, links := ht.links.filter }
  | @addSwitch rec => exact { ht with switches := ht.switches.insert (hop.switches rec.id rec (if_pos rfl)) }
  | removeSwitch =>
    exact { ht with switches := ht.switches.erase, ports := ht.ports.filter, links := ht.links.filter }
  | setSwitchState known =>
    exact { ht with switches := ht.switches.insert (I.switch_update _ _ _ (ht.switches known)) }
  | restartSwitch known =>
    exact { ht with switches := ht.switches.insert (I.switch_update _ _ _ (ht.switches known)) }
  | @addPort rec _ known =>
    exact { ht with
      switches := ht.switches.insert (I.switch_update _ _ _ (ht.switches known))
      ports := ht.ports.insert (hop.ports rec.id rec (if_pos rfl)) }
  | removePort => exact { ht with ports := ht.ports.erase, links := ht.links.filter }
  | setPortState known => exact { ht with ports := ht.ports.insert (I.port_update _ _ (ht.ports known)) }
  | @addLink rec => exact { ht with links := ht.links.insert (hop.links rec.id rec (if_pos rfl)) }
  | removeLink => exact { ht with links := ht.links.erase }
  | setLinkState known => exact { ht with links := ht.links.insert (I.link_update _ _ _ (ht.links known)) }
  | @publishPartition part =>
    -- over a stored partition too, what is stored is `part` under some generation
    have hpart := hop.partitions part.id _ (if_pos rfl)
    have hstored : I.partition (Edit.partitionToStore (t.partitions.find? part.id) part) := by
      unfold Edit.partitionToStore
      split
      · exact hpart
      · exact I.partition_update (v := Edit.partitionToStore none part) part.state _ hpart
    exact { ht with partitions := ht.partitions.insert hstored }
  | removePartition => exact { ht with partitions := ht.partitions.erase }
  | markPartitionStale known =>
    exact { ht with partitions := ht.partitions.insert (I.partition_update _ _ (ht.partitions known)) }
  | publishCongestion => exact { ht with links := links_merged _ ht.links }
  | invalidateForWorker | expireDynamicEvidence | revalidateAll =>
    -- each record is rewritten in its state only, or left as it is
    exact {
      devices := ht.devices.mapVals fun _ h => ite_holds (P := I.device) h (I.device_update _ h)
      switches := ht.switches.mapVals fun _ h => ite_holds (P := I.switch) h (I.switch_update _ _ _ h)
      ports := ht.ports.mapVals fun _ h => ite_holds (P := I.port) h (I.port_update _ _ h)
      links := ht.links.mapVals fun _ h => ite_holds (P := I.link) h (I.link_update _ _ _ h)
      partitions := ht.partitions.mapVals fun _ h => ite_holds (P := I.partition) h (I.partition_update _ _ h) }
  | applyBulk =>
    exact {
      devices := ht.devices.insertAll hop.devices
      switches := ht.switches.insertAll hop.switches
      ports := ht.ports.insertAll hop.ports
      links := ht.links.insertAll hop.links
      partitions := ht.partitions.insertAll hop.partitions }

/-- A step of the registry keeps the invariant. -/
theorem FabricRegistry.exec_holds {I : RecordInvariant} {r : FabricRegistry} {op : RegistryOp}
    (h : I.Holds r.current) (hop : r.Accepts op → I.Supplied op) : I.Holds (r.exec op).current := by
  rcases exec_edited r op with heq | ⟨cand, hed, heq, hadm⟩
  · rwa [heq]
  · rw [heq]
    exact { hed.holds h (hop ⟨cand, hed, hadm⟩) with }

end NVSwitchFabric
