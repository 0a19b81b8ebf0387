import NVSwitchFabric.Correctness.WellFormed
import NVSwitchFabric.Model.Scenario

/-!
# `Correctness.Health` — what a healthy fabric may still hold

`fabricHealth` reports `HEALTHY` when no record sets one of its flags. Which states set one differs from kind to kind, and
links set none: a snapshot is `Quiet` when no record is in a state that is looked at (`fabricHealth_healthy_iff`). The
states that are looked at and those that are overlooked make up the bad states of each kind, so `HEALTHY` is earned iff
something is noticed or nothing is overlooked (`health_earned_iff`).
-/

namespace NVSwitchFabric

open Lib

/-! ## States -/

namespace EntityState

/-- Failed, stale, degraded or unknown. -/
def isBad : EntityState → Bool
  | .unknown | .absent | .down | .degraded | .disabled | .unreachable | .partitioned | .stale | .revalidationRequired
  | .unsupported | .incompatible => true
  | _ => false

/-- A switch in this state sets a flag. -/
def noticedOnSwitch : EntityState → Bool
  | .down | .unreachable | .absent | .stale | .revalidationRequired | .degraded => true
  | _ => false

/-- A port in this state sets a flag. -/
def noticedOnPort : EntityState → Bool
  | .down | .unreachable | .disabled | .stale | .revalidationRequired | .degraded => true
  | _ => false

/-- A device in this state sets a flag. -/
def noticedOnDevice : EntityState → Bool
  | .down | .unreachable | .absent | .stale | .revalidationRequired => true
  | _ => false

/-- The bad states of a switch that set no flag. -/
def overlookedOnSwitch : EntityState → Bool
  | .unknown | .disabled | .partitioned | .unsupported | .incompatible => true
  | _ => false

/-- The bad states of a port that set no flag. -/
def overlookedOnPort : EntityState → Bool
  | .unknown | .absent | .partitioned | .unsupported | .incompatible => true
  | _ => false

/-- The bad states of a device that set no flag. -/
def overlookedOnDevice : EntityState → Bool
  | .unknown | .degraded | .disabled | .partitioned | .unsupported | .incompatible => true
  | _ => false

variable {st : EntityState}

theorem isBad_switch : st.isBad = false ↔ st.noticedOnSwitch = false ∧ st.overlookedOnSwitch = false := by
  cases st <;> simp [isBad, noticedOnSwitch, overlookedOnSwitch]

theorem isBad_port : st.isBad = false ↔ st.noticedOnPort = false ∧ st.overlookedOnPort = false := by
  cases st <;> simp [isBad, noticedOnPort, overlookedOnPort]

theorem isBad_device : st.isBad = false ↔ st.noticedOnDevice = false ∧ st.overlookedOnDevice = false := by
  cases st <;> simp [isBad, noticedOnDevice, overlookedOnDevice]

/-- The flags of a switch. -/
theorem noticedOnSwitch_iff : st.noticedOnSwitch = false ↔
    ((st ≠ .down ∧ st ≠ .unreachable) ∧ st ≠ .absent) ∧ st.isStaleOrRevalidation = false ∧ st ≠ .degraded := by
  cases st <;> simp [noticedOnSwitch, isStaleOrRevalidation]

/-- The flags of a port. -/
theorem noticedOnPort_iff : st.noticedOnPort = false ↔
    ((st ≠ .down ∧ st ≠ .unreachable) ∧ st ≠ .disabled) ∧ st.isStaleOrRevalidation = false ∧ st ≠ .degraded := by
  cases st <;> simp [noticedOnPort, isStaleOrRevalidation]

/-- The flags of a device. -/
theorem noticedOnDevice_iff : st.noticedOnDevice = false ↔
    ((st ≠ .down ∧ st ≠ .unreachable) ∧ st ≠ .absent) ∧ st.isStaleOrRevalidation = false := by
  cases st <;> simp [noticedOnDevice, isStaleOrRevalidation]

end EntityState

namespace PartitionState

/-- A partition in this state sets a flag. -/
def isNoticed : PartitionState → Bool
  | .stale | .revalidationRequired | .reconfiguring => true
  | _ => false

/-- Neither `ACTIVE` nor `INACTIVE`, and no flag is set. -/
def isOverlooked : PartitionState → Bool
  | .unsupported | .undeclared _ _ => true
  | _ => false

variable {st : PartitionState}

theorem isNoticed_iff : st.isNoticed = false ↔
    st.isStaleOrRevalidation = false ∧ st ≠ .reconfiguring := by
  cases st <;> simp [isNoticed, isStaleOrRevalidation]

theorem active_or_inactive_iff : st = .active ∨ st = .inactive ↔ st.isNoticed = false ∧ st.isOverlooked = false := by
  cases st <;> simp [isNoticed, isOverlooked]

end PartitionState

/-! ## Snapshots -/

namespace FabricTopology

variable {t : FabricTopology}

/-- What `HEALTHY` is to mean: no record in a bad state, no flagged link, and every partition active or inactive. -/
structure Healthy (t : FabricTopology) : Prop where
  devices    : t.devices.All fun rec => rec.state.isBad = false
  switches   : t.switches.All fun rec => rec.state.isBad = false
  ports      : t.ports.All fun rec => rec.state.isBad = false
  links      : t.links.All fun rec => rec.state.isBad = false ∧ rec.degraded = false
  partitions : t.partitions.All fun part => part.state = .active ∨ part.state = .inactive

/-- No record sets a flag. -/
structure Quiet (t : FabricTopology) : Prop where
  devices    : t.devices.All fun rec => rec.state.noticedOnDevice = false
  switches   : t.switches.All fun rec => rec.state.noticedOnSwitch = false
  ports      : t.ports.All fun rec => rec.state.noticedOnPort = false
  partitions : t.partitions.All fun part => part.state.isNoticed = false

/-- No record is in a bad state that sets no flag; of links that is every bad state and the degraded flag. -/
structure NothingOverlooked (t : FabricTopology) : Prop where
  devices    : t.devices.All fun rec => rec.state.overlookedOnDevice = false
  switches   : t.switches.All fun rec => rec.state.overlookedOnSwitch = false
  ports      : t.ports.All fun rec => rec.state.overlookedOnPort = false
  links      : t.links.All fun rec => rec.state.isBad = false ∧ rec.degraded = false
  partitions : t.partitions.All fun part => part.state.isOverlooked = false

/-- One step of the chain of flags. -/
theorem flag_healthy_iff {flag : Bool} {h rest : FabricHealth} (hne : h ≠ .healthy) :
    (if flag then h else rest) = .healthy ↔ flag = false ∧ rest = .healthy := by
  cases flag with
  | true => simp [hne]
  | false => simp

/-- **`HEALTHY` is reported** iff no record sets a flag. -/
theorem fabricHealth_healthy_iff : t.fabricHealth = .healthy ↔ t.Quiet := by
  unfold fabricHealth
  simp only [flag_healthy_iff, ne_eq, reduceCtorEq, not_false_eq_true, Bool.or_eq_false_iff,
    decide_eq_false_iff_not, SortedMap.any_entries_eq_false, and_true]
  constructor
  · rintro ⟨hswFail, hportFail, hdevFail, hrec, ⟨⟨⟨hswStale, hportStale⟩, hdevStale⟩, hpartStale⟩, hswDeg, hportDeg⟩
    exact {
      devices := fun k v hv => EntityState.noticedOnDevice_iff.mpr ⟨hdevFail k v hv, hdevStale k v hv⟩
      switches := fun k v hv =>
        EntityState.noticedOnSwitch_iff.mpr ⟨hswFail k v hv, hswStale k v hv, hswDeg k v hv⟩
      ports := fun k v hv =>
        EntityState.noticedOnPort_iff.mpr ⟨hportFail k v hv, hportStale k v hv, hportDeg k v hv⟩
      partitions := fun k v hv => PartitionState.isNoticed_iff.mpr ⟨hpartStale k v hv, hrec k v hv⟩ }
  · intro h
    have hsw := fun k v hv => EntityState.noticedOnSwitch_iff.mp (h.switches (k := k) (v := v) hv)
    have hport := fun k v hv => EntityState.noticedOnPort_iff.mp (h.ports (k := k) (v := v) hv)
    have hdev := fun k v hv => EntityState.noticedOnDevice_iff.mp (h.devices (k := k) (v := v) hv)
    have hpart := fun k v hv => PartitionState.isNoticed_iff.mp (h.partitions (k := k) (v := v) hv)
    exact ⟨fun k v hv => (hsw k v hv).1, fun k v hv => (hport k v hv).1, fun k v hv => (hdev k v hv).1,
      fun k v hv => (hpart k v hv).2,
      ⟨⟨⟨fun k v hv => (hsw k v hv).2.1, fun k v hv => (hport k v hv).2.1⟩, fun k v hv => (hdev k v hv).2⟩,
        fun k v hv => (hpart k v hv).1⟩,
      fun k v hv => (hsw k v hv).2.2, fun k v hv => (hport k v hv).2.2⟩

/-- What is bad is noticed or overlooked. -/
theorem healthy_iff : t.Healthy ↔ t.Quiet ∧ t.NothingOverlooked := by
  constructor
  · intro h
    exact ⟨{
      devices := fun _ _ hv => (EntityState.isBad_device.mp (h.devices hv)).1
      switches := fun _ _ hv => (EntityState.isBad_switch.mp (h.switches hv)).1
      ports := fun _ _ hv => (EntityState.isBad_port.mp (h.ports hv)).1
      partitions := fun _ _ hv => (PartitionState.active_or_inactive_iff.mp (h.partitions hv)).1 }, {
      devices := fun _ _ hv => (EntityState.isBad_device.mp (h.devices hv)).2
      switches := fun _ _ hv => (EntityState.isBad_switch.mp (h.switches hv)).2
      ports := fun _ _ hv => (EntityState.isBad_port.mp (h.ports hv)).2
      links := h.links
      partitions := fun _ _ hv => (PartitionState.active_or_inactive_iff.mp (h.partitions hv)).2 }⟩
  · rintro ⟨hquiet, hnone⟩
    exact {
      devices := fun _ _ hv => EntityState.isBad_device.mpr ⟨hquiet.devices hv, hnone.devices hv⟩
      switches := fun _ _ hv => EntityState.isBad_switch.mpr ⟨hquiet.switches hv, hnone.switches hv⟩
      ports := fun _ _ hv => EntityState.isBad_port.mpr ⟨hquiet.ports hv, hnone.ports hv⟩
      links := hnone.links
      partitions := fun _ _ hv =>
        PartitionState.active_or_inactive_iff.mpr ⟨hquiet.partitions hv, hnone.partitions hv⟩ }

/-- **When `HEALTHY` is earned**: some record sets a flag, so that `HEALTHY` is not reported, or nothing is overlooked. -/
theorem health_earned_iff (t : FabricTopology) :
    (t.fabricHealth = .healthy → t.Healthy) ↔ ¬ t.Quiet ∨ t.NothingOverlooked := by
  rw [fabricHealth_healthy_iff, healthy_iff, imp_iff_not_or]
  constructor
  · exact Or.imp_right And.right
  · rintro (hnoisy | hnone)
    · exact Or.inl hnoisy
    · exact (em t.Quiet).symm.imp_right fun hquiet => ⟨hquiet, hnone⟩

end FabricTopology

/-- A link that is down, a flagged link and a switch of unknown state: the fabric is reported healthy with each. -/
theorem health_not_earned :
    let scenario := RegistryOp.applyBulk (buildSyntheticScan .singleSwitchTwoGpu)
    let down := (FabricRegistry.after [scenario, .setLinkState ⟨100⟩ .down false]).current
    let flagged := (FabricRegistry.after [scenario, .setLinkState ⟨100⟩ .up true]).current
    let unknown := (FabricRegistry.after [scenario, .setSwitchState ⟨10⟩ .unknown]).current
    (down.fabricHealth = .healthy ∧ (down.lookupLink ⟨100⟩).any (·.state = .down) = true) ∧
    (flagged.fabricHealth = .healthy ∧ (flagged.lookupLink ⟨100⟩).any (·.degraded) = true) ∧
    (unknown.fabricHealth = .healthy ∧ (unknown.lookupSwitch ⟨10⟩).any (·.state = .unknown) = true) := by
  decide +kernel

end NVSwitchFabric
