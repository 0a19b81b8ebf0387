import NVSwitchFabric.Model.Edits
import NVSwitchFabric.Model.Route
import NVSwitchFabric.Lib.Lease

/-!
# `Model.Registry` — the transactional fabric registry

`FabricRegistry` (fabric_registry.cpp): the current snapshot, the dynamic evidence, the decision log, the id
counters and the epoch. Every snapshot mutator is one of the edits of `Model.Edits` run through `mutate`, which
validates the candidate and publishes it. `RegistryOp` names the operations and `exec` runs one.

What validation admits is the structure `Admissible`, and `exec_current_cases` is the inversion lemma every
later proof uses: an operation keeps the snapshot or publishes an admissible candidate made by its edit.

Left out: the wall clock (`lastSnapshotNanos_`; `route` takes the time it stamps as an argument), the
vector `measurementIds_` that nothing reads, the bound backend, and the ignored `reason` arguments.
-/

namespace NVSwitchFabric

open Lib

/-! ## Validation -/

/-- Some record of the snapshot has provenance `p`. -/
def FabricTopology.hasProvenance (p : Provenance) (t : FabricTopology) : Bool :=
  t.devices.entries.any (fun e => e.2.provenance = p) ||
  t.switches.entries.any (fun e => e.2.provenance = p) ||
  t.ports.entries.any (fun e => e.2.provenance = p) ||
  t.links.entries.any (fun e => e.2.provenance = p) ||
  t.partitions.entries.any (fun e => e.2.provenance = p)

/-- `finalizeProvenance`: synthetic evidence taints the snapshot, real evidence marks it otherwise. -/
def finalizeProvenance (cand : FabricTopology) : FabricTopology :=
  { cand with provenance :=
      if cand.hasProvenance .synthetic then .synthetic
      else if cand.hasProvenance .real then .real
      else .unsupported }

/-- Some record of `cand` has a smaller generation than the record of the same key in `old`. -/
def genDecreased {κ α Tag : Type} [LinearOrder κ] (gen : α → Gen Tag) (old cand : SortedMap κ α) : Bool :=
  cand.entries.any fun e => (old.find? e.1).any fun o => gen e.2 < gen o

/-- `validateCandidate`: the candidate with its provenance finalized, or why it is rejected. -/
def validateCandidate (old cand : FabricTopology) : Except String FabricTopology :=
  let cand := finalizeProvenance cand
  match cand.checkIntegrity with
  | why :: _ => .error why
  | [] =>
    if Limits.kMaxDevices < cand.devices.size then .error "too many devices"
    else if Limits.kMaxSwitches < cand.switches.size then .error "too many switches"
    else if Limits.kMaxPorts < cand.ports.size then .error "too many ports"
    else if Limits.kMaxLinks < cand.links.size then .error "too many links"
    else if Limits.kMaxPartitions < cand.partitions.size then .error "too many partitions"
    else if genDecreased (·.gen) old.switches cand.switches then .error "switch generation decreased"
    else if genDecreased (·.gen) old.ports cand.ports then .error "port generation decreased"
    else if genDecreased (·.gen) old.links cand.links then .error "link generation decreased"
    else if genDecreased (·.gen) old.partitions cand.partitions then .error "partition generation decreased"
    else if cand.topologyGen < old.topologyGen then .error "topology generation decreased"
    else .ok cand

/-! ## The registry and its mutators -/

structure FabricRegistry where
  current           : FabricTopology := { id := 1, label := ascii "initial" }
  measurements      : List Measurement := []
  decisionLog       : List RouteDecision := []
  nextSnapshotId    : UInt64 := 2
  nextDecisionId    : UInt64 := 1
  nextObservationId : UInt64 := 1
  nextMeasurementId : UInt64 := 1
  epoch             : CoordinatorEpoch := 0
  version           : Int := 0

namespace FabricRegistry

/-- The registry as constructed. -/
def new : FabricRegistry := {}

/-- `snapshot()`. -/
def snapshot (r : FabricRegistry) : FabricTopology := r.current

/-- `setEpoch`: the registry's epoch only; the published snapshot keeps the one it was committed under. -/
def setEpoch (e : CoordinatorEpoch) (r : FabricRegistry) : FabricRegistry := { r with epoch := e }

/-- The end of every mutator: validate the candidate against the current snapshot and swap it in under the
    next snapshot id and the registry's epoch. A rejection reason is reported behind `pre`. -/
def publish (pre : String) (cand : FabricTopology) (r : FabricRegistry) :
    Result FabricTopology × FabricRegistry :=
  match validateCandidate r.current cand with
  | .error why => (.error ⟨.invalidTopology, pre ++ why⟩, r)
  | .ok cand   =>
    let snap := { cand with id := r.nextSnapshotId, epoch := r.epoch }
    (.ok snap, { r with
      current := snap
      nextSnapshotId := r.nextSnapshotId + 1
      version := r.version + 1 })

/-- Copy, edit, validate, publish. -/
def mutate (edit : FabricTopology → Result FabricTopology) (r : FabricRegistry) :
    Result FabricTopology × FabricRegistry :=
  match edit r.current with
  | .error e => (.error e, r)
  | .ok cand => r.publish "" cand

def addDevice (rec : DeviceRecord) := mutate (Edit.addDevice rec)
def removeDevice (id : DeviceId) := mutate (Edit.removeDevice id)
def addSwitch (rec : SwitchRecord) := mutate (Edit.addSwitch rec)
def removeSwitch (id : SwitchId) := mutate (Edit.removeSwitch id)
def setSwitchState (id : SwitchId) (state : EntityState) := mutate (Edit.setSwitchState id state)
def restartSwitch (id : SwitchId) (newGen : SwitchGeneration) := mutate (Edit.restartSwitch id newGen)
def addPort (rec : SwitchPortRecord) := mutate (Edit.addPort rec)
def removePort (id : PortId) := mutate (Edit.removePort id)
def setPortState (id : PortId) (state : EntityState) := mutate (Edit.setPortState id state)
def addLink (rec : LinkRecord) := mutate (Edit.addLink rec)
def removeLink (id : LinkId) := mutate (Edit.removeLink id)
def setLinkState (id : LinkId) (state : EntityState) (degraded : Bool) :=
  mutate (Edit.setLinkState id state degraded)
def publishPartition (part : FabricPartition) := mutate (Edit.publishPartition part)
def removePartition (id : PartitionId) := mutate (Edit.removePartition id)
def markPartitionStale (id : PartitionId) := mutate (Edit.markPartitionStale id)
def publishCongestion (c : CongestionObservation) := mutate (Edit.publishCongestion c)
def invalidateForWorker (w : WorkerId) (b : WorkerBootId) := mutate (Edit.invalidateForWorker w b)
def revalidateAll := mutate Edit.revalidateAll

/-- `expireDynamicEvidence`. The measurements are unmatched before the candidate is validated, so they stay
    unmatched when it is rejected. -/
def expireDynamicEvidence (r : FabricRegistry) : Result FabricTopology × FabricRegistry :=
  mutate Edit.expireDynamicEvidence
    { r with measurements := r.measurements.map fun m => { m with matched := false } }

/-- `applyBulk`. Unlike its siblings it says in the error that it was the bulk that was rejected. -/
def applyBulk (e : BulkEdit) (r : FabricRegistry) : Result FabricTopology × FabricRegistry :=
  match Edit.applyBulk e r.current with
  | .error err => (.error err, r)
  | .ok cand   => r.publish "bulk rejected: " cand

/-- `publishMeasurement`: bounded history, the oldest measurement evicted first. -/
def publishMeasurement (m : Measurement) (r : FabricRegistry) : Result FabricTopology × FabricRegistry :=
  let kept := if Limits.kMaxMeasurements ≤ r.measurements.length then r.measurements.tail
    else r.measurements
  let fresh := m.id.value = 0
  (.ok r.current, { r with
    measurements := kept ++
      [{ m with matched := true, id := if fresh then ⟨r.nextMeasurementId⟩ else m.id }]
    nextMeasurementId := if fresh then r.nextMeasurementId + 1 else r.nextMeasurementId })

/-- Append to the bounded decision log. -/
def logDecision (d : RouteDecision) (r : FabricRegistry) : FabricRegistry :=
  let log := r.decisionLog ++ [d]
  { r with decisionLog := if Limits.kMaxHistory < log.length then log.tail else log }

/-- `recordDecision`. -/
def recordDecision (d : RouteDecision) (r : FabricRegistry) : FabricRegistry := r.logDecision d

/-! ## Routing -/

/-- `route`: compute on the current snapshot, stamp with fresh ids, log. -/
def route (src dst : DeviceId) (policy : RoutePolicy) (now : UInt64) (r : FabricRegistry) :
    RouteDecision × FabricRegistry :=
  let computed := computeRoute r.current src dst policy r.measurements ⟨r.nextDecisionId⟩ ⟨0⟩
    ⟨ascii "snap" ++ decimal r.current.id.toNat⟩ now r.epoch
  let d := { computed with observation := ⟨r.nextObservationId⟩, observationKnown := true }
  (d, logDecision d { r with
    nextDecisionId := r.nextDecisionId + 1
    nextObservationId := r.nextObservationId + 1 })

/-- `decisionStillAuthoritative`: re-check against the current snapshot. -/
def decisionStillAuthoritative (r : FabricRegistry) (d : RouteDecision) : Bool :=
  routeDecisionStillAuthoritative d r.current

/-- `recentDecisions`: the log, each decision annotated with its current authority. -/
def recentDecisions (r : FabricRegistry) : List RouteDecision :=
  r.decisionLog.map fun d => { d with
    authoritative := routeDecisionStillAuthoritative d r.current && d.authoritative }

/-- `reachability`. -/
def reachability (r : FabricRegistry) (src dst : DeviceId) : Reachability :=
  r.current.deviceReachability src dst

/-- `paths`. -/
def paths (r : FabricRegistry) (src dst : DeviceId) (cfg : TraversalConfig) : List FabricPath :=
  r.current.enumeratePaths src dst cfg

end FabricRegistry

/-! ## Operations -/

/-- The operations of the registry. -/
inductive RegistryOp where
  | setEpoch (e : CoordinatorEpoch)
  | addDevice (rec : DeviceRecord)
  | removeDevice (id : DeviceId)
  | addSwitch (rec : SwitchRecord)
  | removeSwitch (id : SwitchId)
  | setSwitchState (id : SwitchId) (state : EntityState)
  | restartSwitch (id : SwitchId) (newGen : SwitchGeneration)
  | addPort (rec : SwitchPortRecord)
  | removePort (id : PortId)
  | setPortState (id : PortId) (state : EntityState)
  | addLink (rec : LinkRecord)
  | removeLink (id : LinkId)
  | setLinkState (id : LinkId) (state : EntityState) (degraded : Bool)
  | publishPartition (part : FabricPartition)
  | removePartition (id : PartitionId)
  | markPartitionStale (id : PartitionId)
  | publishMeasurement (m : Measurement)
  | publishCongestion (c : CongestionObservation)
  | recordDecision (d : RouteDecision)
  | invalidateForWorker (w : WorkerId) (b : WorkerBootId)
  | expireDynamicEvidence
  | revalidateAll
  | applyBulk (e : BulkEdit)
  | route (src dst : DeviceId) (policy : RoutePolicy) (now : UInt64)

namespace RegistryOp

/-- The edit an operation makes to the snapshot; `none` when it makes none. -/
def edit? : RegistryOp → Option (FabricTopology → Result FabricTopology)
  | .addDevice rec                => some (Edit.addDevice rec)
  | .removeDevice id              => some (Edit.removeDevice id)
  | .addSwitch rec                => some (Edit.addSwitch rec)
  | .removeSwitch id              => some (Edit.removeSwitch id)
  | .setSwitchState id state      => some (Edit.setSwitchState id state)
  | .restartSwitch id newGen      => some (Edit.restartSwitch id newGen)
  | .addPort rec                  => some (Edit.addPort rec)
  | .removePort id                => some (Edit.removePort id)
  | .setPortState id state        => some (Edit.setPortState id state)
  | .addLink rec                  => some (Edit.addLink rec)
  | .removeLink id                => some (Edit.removeLink id)
  | .setLinkState id state deg    => some (Edit.setLinkState id state deg)
  | .publishPartition part        => some (Edit.publishPartition part)
  | .removePartition id           => some (Edit.removePartition id)
  | .markPartitionStale id        => some (Edit.markPartitionStale id)
  | .publishCongestion c          => some (Edit.publishCongestion c)
  | .invalidateForWorker w b      => some (Edit.invalidateForWorker w b)
  | .expireDynamicEvidence        => some Edit.expireDynamicEvidence
  | .revalidateAll                => some Edit.revalidateAll
  | .applyBulk e                  => some (Edit.applyBulk e)
  | .setEpoch _ | .publishMeasurement _ | .recordDecision _ | .route _ _ _ _ => none

end RegistryOp

namespace FabricRegistry

/-- Run one operation. -/
def exec (r : FabricRegistry) : RegistryOp → FabricRegistry
  | .setEpoch e                   => r.setEpoch e
  | .addDevice rec                => (r.addDevice rec).2
  | .removeDevice id              => (r.removeDevice id).2
  | .addSwitch rec                => (r.addSwitch rec).2
  | .removeSwitch id              => (r.removeSwitch id).2
  | .setSwitchState id state      => (r.setSwitchState id state).2
  | .restartSwitch id newGen      => (r.restartSwitch id newGen).2
  | .addPort rec                  => (r.addPort rec).2
  | .removePort id                => (r.removePort id).2
  | .setPortState id state        => (r.setPortState id state).2
  | .addLink rec                  => (r.addLink rec).2
  | .removeLink id                => (r.removeLink id).2
  | .setLinkState id state deg    => (r.setLinkState id state deg).2
  | .publishPartition part        => (r.publishPartition part).2
  | .removePartition id           => (r.removePartition id).2
  | .markPartitionStale id        => (r.markPartitionStale id).2
  | .publishMeasurement m         => (r.publishMeasurement m).2
  | .publishCongestion c          => (r.publishCongestion c).2
  | .recordDecision d             => r.recordDecision d
  | .invalidateForWorker w b      => (r.invalidateForWorker w b).2
  | .expireDynamicEvidence        => r.expireDynamicEvidence.2
  | .revalidateAll                => r.revalidateAll.2
  | .applyBulk e                  => (r.applyBulk e).2
  | .route src dst policy now     => (r.route src dst policy now).2

end FabricRegistry

/-! ## What validation admits -/

namespace FabricTopology

/-- `cand` may replace `old`: it is integral and bounded, and no generation decreases. -/
structure Admissible (old cand : FabricTopology) : Prop where
  integral     : cand.Integral
  limits       : cand.WithinLimits
  switchGen    : StampsGrow (·.gen) old.switches cand.switches
  portGen      : StampsGrow (·.gen) old.ports cand.ports
  linkGen      : StampsGrow (·.gen) old.links cand.links
  partitionGen : StampsGrow (·.gen) old.partitions cand.partitions
  topologyGen  : old.topologyGen ≤ cand.topologyGen

end FabricTopology

theorem genDecreased_eq_false {κ α Tag : Type} [LinearOrder κ] {gen : α → Gen Tag}
    {old cand : SortedMap κ α} : genDecreased gen old cand = false ↔ StampsGrow gen old cand := by
  unfold genDecreased
  rw [List.any_eq_false]
  constructor
  · intro h k o n ho hn
    have hk := h (k, n) (SortedMap.find?_eq_some_iff.mp hn)
    simpa [ho] using hk
  · intro h e he
    have hn : cand.find? e.1 = some e.2 := SortedMap.find?_eq_some_iff.mpr he
    cases ho : old.find? e.1 with
    | none   => simp
    | some o => simpa using h ho hn

/-- **Validation admits exactly the admissible candidates**, with their provenance finalized. -/
theorem validateCandidate_eq_ok_iff {old cand new : FabricTopology} :
    validateCandidate old cand = .ok new ↔
      new = finalizeProvenance cand ∧ FabricTopology.Admissible old new := by
  unfold validateCandidate
  dsimp only
  split
  · next why rest hfound =>
    constructor
    · intro h
      exact absurd h (by simp)
    · rintro ⟨rfl, h⟩
      rw [FabricTopology.checkIntegrity_eq_nil_iff.mpr h.integral] at hfound
      exact absurd hfound (by simp)
  · next hnil =>
    simp only [check_eq_ok_iff, not_lt, Bool.not_eq_true, genDecreased_eq_false, Except.ok.injEq]
    constructor
    · rintro ⟨hd, hs, hp, hl, hpt, hsg, hpg, hlg, hptg, htg, rfl⟩
      exact ⟨rfl, {
        integral := FabricTopology.checkIntegrity_eq_nil_iff.mp hnil
        limits := ⟨hd, hs, hp, hl, hpt⟩
        switchGen := hsg
        portGen := hpg
        linkGen := hlg
        partitionGen := hptg
        topologyGen := htg }⟩
    · rintro ⟨rfl, h⟩
      exact ⟨h.limits.devices, h.limits.switches, h.limits.ports, h.limits.links, h.limits.partitions,
        h.switchGen, h.portGen, h.linkGen, h.partitionGen, h.topologyGen, rfl⟩

/-! ## What an operation does to the snapshot -/

namespace FabricRegistry

/-- The snapshot a candidate is published as. -/
def committed (r : FabricRegistry) (cand : FabricTopology) : FabricTopology :=
  { finalizeProvenance cand with id := r.nextSnapshotId, epoch := r.epoch }

section
variable (r : FabricRegistry) (cand : FabricTopology)

@[simp] theorem committed_devices : (r.committed cand).devices = cand.devices := rfl
@[simp] theorem committed_switches : (r.committed cand).switches = cand.switches := rfl
@[simp] theorem committed_ports : (r.committed cand).ports = cand.ports := rfl
@[simp] theorem committed_links : (r.committed cand).links = cand.links := rfl
@[simp] theorem committed_partitions : (r.committed cand).partitions = cand.partitions := rfl
@[simp] theorem committed_topologyGen : (r.committed cand).topologyGen = cand.topologyGen := rfl
@[simp] theorem committed_epoch : (r.committed cand).epoch = r.epoch := rfl

end

/-- Admissibility depends on the five maps and the topology generation only. -/
theorem admissible_committed {r : FabricRegistry} {cand : FabricTopology} :
    FabricTopology.Admissible r.current (r.committed cand) ↔
      FabricTopology.Admissible r.current (finalizeProvenance cand) := by
  constructor
  · intro h
    exact { h with
      integral := h.integral.of_maps_eq rfl rfl rfl rfl rfl
      limits := { h.limits with } }
  · intro h
    exact { h with
      integral := h.integral.of_maps_eq rfl rfl rfl rfl rfl
      limits := { h.limits with } }

theorem publish_of_admissible {r : FabricRegistry} {cand : FabricTopology} (pre : String)
    (h : FabricTopology.Admissible r.current (r.committed cand)) :
    r.publish pre cand = (.ok (r.committed cand), { r with
      current := r.committed cand
      nextSnapshotId := r.nextSnapshotId + 1
      version := r.version + 1 }) := by
  unfold publish
  rw [validateCandidate_eq_ok_iff.mpr ⟨rfl, admissible_committed.mp h⟩]
  rfl

/-- A candidate that is not admissible is rejected, and the registry is as before. -/
theorem publish_of_not_admissible {r : FabricRegistry} {cand : FabricTopology} (pre : String)
    (h : ¬ FabricTopology.Admissible r.current (r.committed cand)) :
    ∃ why, r.publish pre cand = (.error ⟨.invalidTopology, pre ++ why⟩, r) := by
  unfold publish
  cases hv : validateCandidate r.current cand with
  | error why => exact ⟨why, rfl⟩
  | ok new =>
    obtain ⟨rfl, hadm⟩ := validateCandidate_eq_ok_iff.mp hv
    exact absurd (admissible_committed.mpr hadm) h

/-- Publishing keeps the snapshot or replaces it by the committed candidate, which is then admissible. -/
theorem publish_current_cases (pre : String) (cand : FabricTopology) (r : FabricRegistry) :
    (r.publish pre cand).2.current = r.current ∨
      ((r.publish pre cand).2.current = r.committed cand ∧
        FabricTopology.Admissible r.current (r.committed cand)) := by
  by_cases h : FabricTopology.Admissible r.current (r.committed cand)
  · rw [publish_of_admissible pre h]
    exact Or.inr ⟨rfl, h⟩
  · obtain ⟨why, heq⟩ := publish_of_not_admissible pre h
    rw [heq]
    exact Or.inl rfl

/-- The same for a mutator. -/
theorem mutate_current_cases (edit : FabricTopology → Result FabricTopology) (r : FabricRegistry) :
    (r.mutate edit).2.current = r.current ∨
      ∃ cand, edit r.current = .ok cand ∧ (r.mutate edit).2.current = r.committed cand ∧
        FabricTopology.Admissible r.current (r.committed cand) := by
  unfold mutate
  cases hc : edit r.current with
  | error e => exact Or.inl rfl
  | ok cand =>
    rcases publish_current_cases "" cand r with h | ⟨h, hadm⟩
    · exact Or.inl h
    · exact Or.inr ⟨cand, rfl, h, hadm⟩

/-- **Inversion.** An operation keeps the snapshot, or it has an edit that turns the snapshot into an
    admissible candidate and publishes that. -/
theorem exec_current_cases (r : FabricRegistry) (op : RegistryOp) :
    (r.exec op).current = r.current ∨
      ∃ edit cand, op.edit? = some edit ∧ edit r.current = .ok cand ∧
        (r.exec op).current = r.committed cand ∧
        FabricTopology.Admissible r.current (r.committed cand) := by
  have hmutate : ∀ edit, op.edit? = some edit → (r.exec op).current = (r.mutate edit).2.current →
      (r.exec op).current = r.current ∨
        ∃ edit cand, op.edit? = some edit ∧ edit r.current = .ok cand ∧
          (r.exec op).current = r.committed cand ∧
          FabricTopology.Admissible r.current (r.committed cand) := by
    intro edit hedit heq
    rcases mutate_current_cases edit r with h | ⟨cand, hc, h, hadm⟩
    · exact Or.inl (heq.trans h)
    · exact Or.inr ⟨edit, cand, hedit, hc, heq.trans h, hadm⟩
  cases op with
  | setEpoch e => exact Or.inl rfl
  | publishMeasurement m => exact Or.inl rfl
  | recordDecision d => exact Or.inl rfl
  | route src dst policy now => exact Or.inl rfl
  | expireDynamicEvidence =>
    -- the measurements are rewritten first; the snapshot, ids and epoch the mutator sees are the same
    rcases mutate_current_cases Edit.expireDynamicEvidence
      { r with measurements := r.measurements.map fun m => { m with matched := false } } with
      h | ⟨cand, hc, h, hadm⟩
    · exact Or.inl h
    · exact Or.inr ⟨_, cand, rfl, hc, h, hadm⟩
  | applyBulk e =>
    rcases publish_current_cases "bulk rejected: " _ r with h | ⟨h, hadm⟩
    · exact Or.inl h
    · exact Or.inr ⟨_, _, rfl, rfl, h, hadm⟩
  | _ => exact hmutate _ rfl rfl

/-- In the other direction, an admissible candidate is published. -/
theorem exec_current_of_admissible {r : FabricRegistry} {op : RegistryOp} {cand : FabricTopology}
    {edit : FabricTopology → Result FabricTopology} (hedit : op.edit? = some edit)
    (hcand : edit r.current = .ok cand) (hadm : FabricTopology.Admissible r.current (r.committed cand)) :
    (r.exec op).current = r.committed cand := by
  have hmutate : ∀ s : FabricRegistry, s.current = r.current → s.committed cand = r.committed cand →
      (s.mutate edit).2.current = r.committed cand := by
    intro s hcur hcomm
    rw [← hcur, ← hcomm] at hadm
    unfold mutate
    rw [hcur, hcand]
    show (s.publish "" cand).2.current = _
    rw [publish_of_admissible "" hadm]
    exact hcomm
  cases op with
  | setEpoch e => nomatch hedit
  | publishMeasurement m => nomatch hedit
  | recordDecision d => nomatch hedit
  | route src dst policy now => nomatch hedit
  | expireDynamicEvidence =>
    obtain rfl := Option.some.inj hedit
    exact hmutate { r with measurements := r.measurements.map fun m => { m with matched := false } } rfl rfl
  | applyBulk e =>
    obtain rfl := Option.some.inj hedit
    obtain rfl := Except.ok.inj hcand
    show (r.publish "bulk rejected: " _).2.current = _
    rw [publish_of_admissible "bulk rejected: " hadm]
  | _ =>
    obtain rfl := Option.some.inj hedit
    exact hmutate r rfl rfl

/-- Only `setEpoch` writes the registry's epoch. -/
theorem exec_epoch (r : FabricRegistry) (op : RegistryOp) (h : ∀ e, op ≠ .setEpoch e) :
    (r.exec op).epoch = r.epoch := by
  have hpublish : ∀ (pre : String) (cand : FabricTopology) (r : FabricRegistry),
      (r.publish pre cand).2.epoch = r.epoch := by
    intro pre cand r
    unfold publish
    split <;> rfl
  have hmutate : ∀ edit (r : FabricRegistry), (r.mutate edit).2.epoch = r.epoch := by
    intro edit r
    unfold mutate
    split
    · rfl
    · exact hpublish _ _ _
  cases op with
  | setEpoch e => exact absurd rfl (h e)
  | publishMeasurement m => rfl
  | recordDecision d => rfl
  | route src dst policy now => rfl
  | applyBulk e => exact hpublish _ _ _
  | expireDynamicEvidence => exact hmutate _ _
  | _ => exact hmutate _ _

/-- The snapshot's epoch after an operation is the one before, or the registry's. -/
theorem exec_current_epoch (r : FabricRegistry) (op : RegistryOp) :
    (r.exec op).current.epoch = r.current.epoch ∨ (r.exec op).current.epoch = r.epoch := by
  rcases r.exec_current_cases op with h | ⟨_, cand, _, _, h, _⟩
  · exact Or.inl (by rw [h])
  · exact Or.inr (by rw [h, committed_epoch])

end FabricRegistry

end NVSwitchFabric
