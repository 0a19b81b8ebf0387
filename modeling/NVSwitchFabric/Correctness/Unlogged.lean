import NVSwitchFabric.Model.Persistence

/-!
# `Correctness.Unlogged` — the registry but for its decision log

Routing draws two ids and appends to the decision log. Everything else that a registry is (`unlogged`) does not depend on
these: an operation does to it what it does to the registry (`exec_unlogged`), and a decision is the same but for the ids
it is stamped with (`route_unlogged`).
-/

namespace NVSwitchFabric

open Lib

namespace FabricRegistry

variable (r : FabricRegistry)

/-- A registry but for its decision log and the ids it numbers decisions by. -/
def unlogged : FabricRegistry := { r with decisionLog := [], nextDecisionId := 1, nextObservationId := 1 }

theorem publish_unlogged (pre : String) (cand : FabricTopology) :
    r.unlogged.publish pre cand = ((r.publish pre cand).1, (r.publish pre cand).2.unlogged) := by
  have hcur : r.unlogged.current = r.current := rfl
  unfold publish
  rw [hcur]
  cases validateCandidate r.current cand <;> rfl

theorem mutate_unlogged (edit : FabricTopology → Result FabricTopology) :
    (r.unlogged.mutate edit).2.unlogged = (r.mutate edit).2.unlogged := by
  have hcur : r.unlogged.current = r.current := rfl
  unfold mutate
  rw [hcur]
  cases edit r.current with
  | error e => rfl
  | ok cand =>
    dsimp only
    rw [publish_unlogged]
    rfl

/-- **An operation** does to what is not logged what it does to the registry. -/
theorem exec_unlogged (op : RegistryOp) : (r.unlogged.exec op).unlogged = (r.exec op).unlogged := by
  cases op with
  | setEpoch e => rfl
  | publishMeasurement m => rfl
  | recordDecision d => rfl
  | route src dst policy now => rfl
  | applyBulk e =>
    show (r.unlogged.publish "bulk rejected: " _).2.unlogged = (r.publish "bulk rejected: " _).2.unlogged
    rw [publish_unlogged]
    rfl
  | expireDynamicEvidence =>
    exact mutate_unlogged { r with measurements := r.measurements.map fun m => { m with matched := false } } _
  | _ => exact r.mutate_unlogged _

theorem persistTo_unlogged (path : Str) (disk : Disk) : r.unlogged.persistTo path disk = r.persistTo path disk := rfl

/-- The id a decision is given and the epoch it is stamped with do not enter it. -/
theorem computeRoute_stamps (topo : FabricTopology) (src dst : DeviceId) (policy : RoutePolicy) (ms : List Measurement)
    (id : RouteDecisionId) (gen : RouteGeneration) (sid : TopologySnapshotId) (now : UInt64) (epoch : CoordinatorEpoch) :
    computeRoute topo src dst policy ms id gen sid now epoch =
      { computeRoute topo src dst policy ms ⟨1⟩ gen sid now 0 with id := id, epoch := epoch } := by
  unfold computeRoute
  dsimp only
  split
  · rfl
  split
  · rfl
  split
  · cases topo.gatePartition src dst <;> rfl
  split
  · cases topo.gatePartition src dst <;> rfl
  · cases topo.gatePartition src dst <;> rfl

/-- **A decision** is the same without the log but for its two ids. -/
theorem route_unlogged (src dst : DeviceId) (policy : RoutePolicy) (now : UInt64) :
    (r.route src dst policy now).1 =
      { (r.unlogged.route src dst policy now).1 with
        id := ⟨r.nextDecisionId⟩, observation := ⟨r.nextObservationId⟩ } := by
  unfold route
  dsimp only
  rw [computeRoute_stamps r.current, computeRoute_stamps r.unlogged.current]
  rfl

end FabricRegistry

end NVSwitchFabric
