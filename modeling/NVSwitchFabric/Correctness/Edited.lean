import NVSwitchFabric.Model.Registry

/-!
# `Correctness.Edited` — what an operation can do to the snapshot

The edits of `Model.Edits` as one inductive relation: `Edited t op cand` has a constructor for each mutator, with
the conditions under which it goes through and the candidate it makes. `edit?_edited` unfolds every mutator once;
from then on an invariant of the snapshot is a case analysis on `Edited`, through `exec_edited`.
-/

namespace NVSwitchFabric

open Lib

/-- The edit of `op` turns `t` into the candidate. -/
inductive Edited (t : FabricTopology) : RegistryOp → FabricTopology → Prop where
  | addDevice {rec : DeviceRecord} (fresh : t.devices.find? rec.id = none) :
      Edited t (.addDevice rec) { t with
        devices := t.devices.insert rec.id rec
        topologyGen := t.topologyGen.next }
  | removeDevice {id : DeviceId} (known : t.devices.contains id = true) :
      Edited t (.removeDevice id) { t with
        devices := t.devices.erase id
        links := t.links.filter fun _ l => !l.endsAt id
        topologyGen := t.topologyGen.next }
  | addSwitch {rec : SwitchRecord} (fresh : t.switches.find? rec.id = none) :
      Edited t (.addSwitch rec) { t with
        switches := t.switches.insert rec.id rec
        topologyGen := t.topologyGen.next }
  | removeSwitch {id : SwitchId} (known : t.switches.contains id = true) :
      Edited t (.removeSwitch id) { t with
        switches := t.switches.erase id
        ports := t.ports.filter fun pid _ => pid.sw ≠ id
        links := t.links.filter fun _ l => !l.touches id
        topologyGen := t.topologyGen.next }
  | setSwitchState {id : SwitchId} {state : EntityState} {rec : SwitchRecord}
      (known : t.switches.find? id = some rec) :
      Edited t (.setSwitchState id state) { t with
        switches := t.switches.insert id (rec.enter state)
        topologyGen := t.topologyGen.next }
  | restartSwitch {id : SwitchId} {newGen : SwitchGeneration} {rec : SwitchRecord}
      (known : t.switches.find? id = some rec) (notStale : ¬ newGen < rec.gen) :
      Edited t (.restartSwitch id newGen) { t with
        switches := t.switches.insert id (rec.restart newGen)
        topologyGen := t.topologyGen.next }
  | addPort {rec : SwitchPortRecord} {sw : SwitchRecord} (known : t.switches.find? rec.id.sw = some sw)
      (fresh : t.ports.find? rec.id = none) :
      Edited t (.addPort rec) { t with
        switches := t.switches.insert rec.id.sw (sw.cover rec.id.index)
        ports := t.ports.insert rec.id rec
        topologyGen := t.topologyGen.next }
  | removePort {id : PortId} (known : t.ports.contains id = true) :
      Edited t (.removePort id) { t with
        ports := t.ports.erase id
        links := t.links.filter fun _ l => l.port ≠ id
        topologyGen := t.topologyGen.next }
  | setPortState {id : PortId} {state : EntityState} {rec : SwitchPortRecord}
      (known : t.ports.find? id = some rec) :
      Edited t (.setPortState id state) { t with
        ports := t.ports.insert id (rec.enter state)
        topologyGen := t.topologyGen.next }
  | addLink {rec : LinkRecord} (fresh : t.links.find? rec.id = none) :
      Edited t (.addLink rec) { t with
        links := t.links.insert rec.id rec
        topologyGen := t.topologyGen.next }
  | removeLink {id : LinkId} (known : t.links.contains id = true) :
      Edited t (.removeLink id) { t with
        links := t.links.erase id
        topologyGen := t.topologyGen.next }
  | setLinkState {id : LinkId} {state : EntityState} {degraded : Bool} {rec : LinkRecord}
      (known : t.links.find? id = some rec) :
      Edited t (.setLinkState id state degraded) { t with
        links := t.links.insert id (rec.enter state degraded)
        topologyGen := t.topologyGen.next }
  | publishPartition {part : FabricPartition} :
      Edited t (.publishPartition part) { t with
        partitions := t.partitions.insert part.id
          (Edit.partitionToStore (t.partitions.find? part.id) part)
        topologyGen := t.topologyGen.next }
  | removePartition {id : PartitionId} (known : t.partitions.contains id = true) :
      Edited t (.removePartition id) { t with
        partitions := t.partitions.erase id
        topologyGen := t.topologyGen.next }
  | markPartitionStale {id : PartitionId} {rec : FabricPartition}
      (known : t.partitions.find? id = some rec) :
      Edited t (.markPartitionStale id) { t with
        partitions := t.partitions.insert id rec.markStale
        topologyGen := t.topologyGen.next }
  | publishCongestion {c : CongestionObservation} :
      Edited t (.publishCongestion c) { t with
        links := c.links.foldl Edit.mergeDegradation t.links
        topologyGen := t.topologyGen.next }
  | invalidateForWorker {w : WorkerId} {b : WorkerBootId} :
      Edited t (.invalidateForWorker w b) { t with
        switches := t.switches.mapVals (SwitchRecord.fence w b)
        ports := t.ports.mapVals (SwitchPortRecord.fence w b)
        links := t.links.mapVals (LinkRecord.fence w b)
        partitions := t.partitions.mapVals (FabricPartition.fence w b)
        devices := t.devices.mapVals (DeviceRecord.fence w b)
        topologyGen := if Edit.anyAttributed t w b then t.topologyGen.next else t.topologyGen }
  | expireDynamicEvidence :
      Edited t .expireDynamicEvidence { t with
        switches := t.switches.mapVals SwitchRecord.expire
        ports := t.ports.mapVals SwitchPortRecord.expire
        links := t.links.mapVals LinkRecord.expire
        partitions := t.partitions.mapVals FabricPartition.expire
        devices := t.devices.mapVals DeviceRecord.expire
        topologyGen := t.topologyGen.next }
  | revalidateAll :
      Edited t .revalidateAll { t with
        switches := t.switches.mapVals SwitchRecord.revalidate
        ports := t.ports.mapVals SwitchPortRecord.revalidate
        links := t.links.mapVals LinkRecord.revalidate
        partitions := t.partitions.mapVals FabricPartition.revalidate
        devices := t.devices.mapVals DeviceRecord.revalidate
        topologyGen := t.topologyGen.next }
  | applyBulk {e : BulkEdit} :
      Edited t (.applyBulk e) { t with
        devices := t.devices.insertAll (·.id) e.devices
        switches := t.switches.insertAll (·.id) e.switches
        ports := t.ports.insertAll (·.id) e.ports
        links := t.links.insertAll (·.id) e.links
        partitions := t.partitions.insertAll (·.id) e.partitions
        topologyGen := t.topologyGen.next }

/-- **Every mutator's edit is one of `Edited`.** -/
theorem edit?_edited {op : RegistryOp} {edit : FabricTopology → Result FabricTopology}
    {t cand : FabricTopology} (hedit : op.edit? = some edit) (hc : edit t = .ok cand) :
    Edited t op cand := by
  cases op with
  -- operations that do not edit the snapshot
  | setEpoch e => exact absurd hedit (by simp [RegistryOp.edit?])
  | publishMeasurement m => exact absurd hedit (by simp [RegistryOp.edit?])
  | recordDecision d => exact absurd hedit (by simp [RegistryOp.edit?])
  | route src dst policy now => exact absurd hedit (by simp [RegistryOp.edit?])
  | addDevice rec =>
    obtain rfl := Option.some.inj hedit
    simp only [Edit.addDevice] at hc
    split_ifs at hc with h
    obtain rfl := Except.ok.inj hc
    exact .addDevice (SortedMap.find?_eq_none_of_contains h)
  | removeDevice id =>
    obtain rfl := Option.some.inj hedit
    simp only [Edit.removeDevice] at hc
    split_ifs at hc with h
    obtain rfl := Except.ok.inj hc
    exact .removeDevice (by rwa [Bool.not_eq_true', Bool.not_eq_false] at h)
  | addSwitch rec =>
    obtain rfl := Option.some.inj hedit
    simp only [Edit.addSwitch] at hc
    split_ifs at hc with h
    obtain rfl := Except.ok.inj hc
    exact .addSwitch (SortedMap.find?_eq_none_of_contains h)
  | removeSwitch id =>
    obtain rfl := Option.some.inj hedit
    simp only [Edit.removeSwitch] at hc
    split_ifs at hc with h
    obtain rfl := Except.ok.inj hc
    exact .removeSwitch (by rwa [Bool.not_eq_true', Bool.not_eq_false] at h)
  | setSwitchState id state =>
    obtain rfl := Option.some.inj hedit
    simp only [Edit.setSwitchState] at hc
    split at hc
    · exact absurd hc (by simp)
    · next rec h =>
      obtain rfl := Except.ok.inj hc
      exact .setSwitchState h
  | restartSwitch id newGen =>
    obtain rfl := Option.some.inj hedit
    simp only [Edit.restartSwitch] at hc
    split at hc
    · exact absurd hc (by simp)
    · next rec h =>
      split_ifs at hc with hgen
      obtain rfl := Except.ok.inj hc
      exact .restartSwitch h hgen
  | addPort rec =>
    obtain rfl := Option.some.inj hedit
    simp only [Edit.addPort] at hc
    split at hc
    · exact absurd hc (by simp)
    · next sw h =>
      split_ifs at hc with hfresh
      obtain rfl := Except.ok.inj hc
      exact .addPort h (SortedMap.find?_eq_none_of_contains hfresh)
  | removePort id =>
    obtain rfl := Option.some.inj hedit
    simp only [Edit.removePort] at hc
    split_ifs at hc with h
    obtain rfl := Except.ok.inj hc
    exact .removePort (by rwa [Bool.not_eq_true', Bool.not_eq_false] at h)
  | setPortState id state =>
    obtain rfl := Option.some.inj hedit
    simp only [Edit.setPortState] at hc
    split at hc
    · exact absurd hc (by simp)
    · next rec h =>
      obtain rfl := Except.ok.inj hc
      exact .setPortState h
  | addLink rec =>
    obtain rfl := Option.some.inj hedit
    simp only [Edit.addLink] at hc
    split_ifs at hc with _ _ _ _ _ h
    obtain rfl := Except.ok.inj hc
    exact .addLink (SortedMap.find?_eq_none_of_contains h)
  | removeLink id =>
    obtain rfl := Option.some.inj hedit
    simp only [Edit.removeLink] at hc
    split_ifs at hc with h
    obtain rfl := Except.ok.inj hc
    exact .removeLink (by rwa [Bool.not_eq_true', Bool.not_eq_false] at h)
  | setLinkState id state degraded =>
    obtain rfl := Option.some.inj hedit
    simp only [Edit.setLinkState] at hc
    split at hc
    · exact absurd hc (by simp)
    · next rec h =>
      obtain rfl := Except.ok.inj hc
      exact .setLinkState h
  | publishPartition part =>
    obtain rfl := Option.some.inj hedit
    simp only [Edit.publishPartition] at hc
    split_ifs at hc
    obtain rfl := Except.ok.inj hc
    exact .publishPartition
  | removePartition id =>
    obtain rfl := Option.some.inj hedit
    simp only [Edit.removePartition] at hc
    split_ifs at hc with h
    obtain rfl := Except.ok.inj hc
    exact .removePartition (by rwa [Bool.not_eq_true', Bool.not_eq_false] at h)
  | markPartitionStale id =>
    obtain rfl := Option.some.inj hedit
    simp only [Edit.markPartitionStale] at hc
    split at hc
    · exact absurd hc (by simp)
    · next rec h =>
      obtain rfl := Except.ok.inj hc
      exact .markPartitionStale h
  -- edits that make a candidate of any snapshot
  | publishCongestion c =>
    obtain rfl := Option.some.inj hedit
    obtain rfl := Except.ok.inj hc
    exact .publishCongestion
  | invalidateForWorker w b =>
    obtain rfl := Option.some.inj hedit
    obtain rfl := Except.ok.inj hc
    exact .invalidateForWorker
  | expireDynamicEvidence =>
    obtain rfl := Option.some.inj hedit
    obtain rfl := Except.ok.inj hc
    exact .expireDynamicEvidence
  | revalidateAll =>
    obtain rfl := Option.some.inj hedit
    obtain rfl := Except.ok.inj hc
    exact .revalidateAll
  | applyBulk e =>
    obtain rfl := Option.some.inj hedit
    obtain rfl := Except.ok.inj hc
    exact .applyBulk

/-- **Inversion.** An operation keeps the snapshot, or commits an admissible candidate of its edit. -/
theorem exec_edited (r : FabricRegistry) (op : RegistryOp) :
    (r.exec op).current = r.current ∨
      ∃ cand, Edited r.current op cand ∧ (r.exec op).current = r.committed cand ∧
        FabricTopology.Admissible r.current (r.committed cand) := by
  rcases r.exec_current_cases op with h | ⟨edit, cand, hedit, hc, h, hadm⟩
  · exact Or.inl h
  · exact Or.inr ⟨cand, edit?_edited hedit hc, h, hadm⟩

/-- The operation goes through. -/
def FabricRegistry.Accepts (r : FabricRegistry) (op : RegistryOp) : Prop :=
  ∃ cand, Edited r.current op cand ∧ FabricTopology.Admissible r.current (r.committed cand)

/-! ## What goes through is published -/

/-- The checks an edit makes before it builds its candidate are implied by what the validation of the candidate
    demands. -/
theorem Edited.edit?_ok {t cand : FabricTopology} {op : RegistryOp} (h : Edited t op cand) (hint : cand.Integral)
    (hlim : cand.WithinLimits) : ∃ edit, op.edit? = some edit ∧ edit t = .ok cand := by
  cases h with
  | @addDevice rec fresh =>
    have hroom := hlim.devices
    dsimp only at hroom
    rw [SortedMap.size_insert_of_none _ fresh] at hroom
    refine ⟨_, rfl, ?_⟩
    unfold Edit.addDevice
    rw [if_neg (by simp [fresh, SortedMap.contains]), if_neg (by omega)]
  | removeDevice known => exact ⟨_, rfl, if_neg (by rw [known]; simp)⟩
  | @addSwitch rec fresh =>
    have hroom := hlim.switches
    dsimp only at hroom
    rw [SortedMap.size_insert_of_none _ fresh] at hroom
    refine ⟨_, rfl, ?_⟩
    unfold Edit.addSwitch
    rw [if_neg (by simp [fresh, SortedMap.contains]), if_neg (by omega)]
  | removeSwitch known => exact ⟨_, rfl, if_neg (by rw [known]; simp)⟩
  | setSwitchState known =>
    refine ⟨_, rfl, ?_⟩
    unfold Edit.setSwitchState
    rw [known]
  | restartSwitch known notStale =>
    refine ⟨_, rfl, ?_⟩
    unfold Edit.restartSwitch
    rw [known]
    exact if_neg notStale
  | @addPort rec sw known fresh =>
    have hroom := hlim.ports
    dsimp only at hroom
    rw [SortedMap.size_insert_of_none _ fresh] at hroom
    have hindex : rec.id.index.toNat < Limits.kMaxPortsPerSwitch :=
      hint.portIndex (SortedMap.find?_insert_self _ _ _)
    refine ⟨_, rfl, ?_⟩
    unfold Edit.addPort
    rw [known]
    dsimp only
    rw [if_neg (by simp [fresh, SortedMap.contains]), if_neg (by omega), if_neg (by omega)]
  | removePort known => exact ⟨_, rfl, if_neg (by rw [known]; simp)⟩
  | setPortState known =>
    refine ⟨_, rfl, ?_⟩
    unfold Edit.setPortState
    rw [known]
  | @addLink rec fresh =>
    have hroom := hlim.links
    dsimp only at hroom
    rw [SortedMap.size_insert_of_none _ fresh] at hroom
    -- the new link is integral in the candidate, and an added link leaves the other maps alone
    have hself := SortedMap.find?_insert_self t.links rec.id rec
    have hroot : t.switches.contains rec.rootSwitch = true := hint.linkRoot hself
    have hport : t.ports.contains rec.port = true := hint.linkPort hself
    have hsame : rec.port.sw = rec.rootSwitch := hint.linkPortRoot hself
    have hend := hint.linkEnd hself
    unfold FabricTopology.EndExists at hend
    dsimp only at hend
    refine ⟨_, rfl, ?_⟩
    unfold Edit.addLink
    rw [if_neg (by rw [hroot]; simp), if_neg (by rw [hport]; simp), if_neg (by simp [hsame]), if_neg, if_neg,
      if_neg (by simp [fresh, SortedMap.contains]), if_neg (by omega)]
    · intro hc
      obtain ⟨hk, hmiss⟩ := Bool.and_eq_true_iff.mp hc
      have hk : rec.otherEnd.kind = .switch := of_decide_eq_true hk
      rw [if_neg (by rw [hk]; simp)] at hend
      rw [hend] at hmiss
      exact absurd hmiss (by simp)
    · intro hc
      obtain ⟨hk, hmiss⟩ := Bool.and_eq_true_iff.mp hc
      rw [if_pos (of_decide_eq_true hk)] at hend
      rw [hend] at hmiss
      exact absurd hmiss (by simp)
  | removeLink known => exact ⟨_, rfl, if_neg (by rw [known]; simp)⟩
  | setLinkState known =>
    refine ⟨_, rfl, ?_⟩
    unfold Edit.setLinkState
    rw [known]
  | @publishPartition part =>
    have hroom := hlim.partitions
    dsimp only at hroom
    rw [SortedMap.size_insert] at hroom
    have hself := SortedMap.find?_insert_self t.partitions part.id
      (Edit.partitionToStore (t.partitions.find? part.id) part)
    have hmem := hint.partitionMember hself
    have hsw := hint.partitionSwitch hself
    dsimp only at hmem hsw
    refine ⟨_, rfl, ?_⟩
    unfold Edit.publishPartition
    rw [if_neg, if_neg, if_neg]
    · rw [Bool.not_eq_true, List.any_eq_false]
      intro s hs
      rw [hsw s hs]
      simp
    · rw [Bool.not_eq_true, List.any_eq_false]
      intro m hm
      rw [hmem m hm]
      simp
    · intro hc
      obtain ⟨hmiss, hfull⟩ := Bool.and_eq_true_iff.mp hc
      have hfull : Limits.kMaxPartitions ≤ t.partitions.size := of_decide_eq_true hfull
      rw [if_neg (by simpa using hmiss)] at hroom
      omega
  | removePartition known => exact ⟨_, rfl, if_neg (by rw [known]; simp)⟩
  | markPartitionStale known =>
    refine ⟨_, rfl, ?_⟩
    unfold Edit.markPartitionStale
    rw [known]
  | publishCongestion => exact ⟨_, rfl, rfl⟩
  | invalidateForWorker => exact ⟨_, rfl, rfl⟩
  | expireDynamicEvidence => exact ⟨_, rfl, rfl⟩
  | revalidateAll => exact ⟨_, rfl, rfl⟩
  | applyBulk => exact ⟨_, rfl, rfl⟩

/-- An edit whose candidate validation admits is the operation's edit, and succeeds. -/
theorem Edited.edit?_of_admissible {r : FabricRegistry} {cand : FabricTopology} {op : RegistryOp}
    (h : Edited r.current op cand) (hadm : FabricTopology.Admissible r.current (r.committed cand)) :
    ∃ edit, op.edit? = some edit ∧ edit r.current = .ok cand :=
  h.edit?_ok (hadm.integral.of_maps_eq rfl rfl rfl rfl rfl) { hadm.limits with }

/-- **An operation that goes through publishes its candidate.** -/
theorem Edited.exec_current {r : FabricRegistry} {cand : FabricTopology} {op : RegistryOp}
    (h : Edited r.current op cand) (hadm : FabricTopology.Admissible r.current (r.committed cand)) :
    (r.exec op).current = r.committed cand := by
  obtain ⟨edit, hedit, hok⟩ := h.edit?_of_admissible hadm
  exact FabricRegistry.exec_current_of_admissible hedit hok hadm

/-- An operation that does not go through keeps the snapshot. -/
theorem exec_current_of_not_accepts {r : FabricRegistry} {op : RegistryOp} (h : ¬ r.Accepts op) :
    (r.exec op).current = r.current := by
  rcases exec_edited r op with hkeep | ⟨cand, hed, _, hadm⟩
  · exact hkeep
  · exact absurd ⟨cand, hed, hadm⟩ h

/-- What gives the snapshot another id went through. -/
theorem accepts_of_id_ne {r : FabricRegistry} {op : RegistryOp} (h : (r.exec op).current.id ≠ r.current.id) :
    r.Accepts op := by
  by_contra hno
  exact h (congrArg FabricTopology.id (exec_current_of_not_accepts hno))

end NVSwitchFabric
