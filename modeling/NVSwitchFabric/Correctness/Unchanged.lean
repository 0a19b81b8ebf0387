import NVSwitchFabric.Correctness.Fencing

/-!
# `Correctness.Unchanged` — what a call that fails leaves behind

`error?` is the error a call returns, if any. A mutator edits a copy, and publishing is its last step, so a call
that fails leaves the registry as it was. `expireDynamicEvidence` alone writes beside the copy before validation:
it unmatches the measurements. `failed_unchanged_iff` says when that can be seen, which takes the one generation
whose successor is smaller.
-/

namespace NVSwitchFabric

open Lib

/-- The error of a result, if it is one. -/
def errorOf {α : Type} : Result α → Option Error
  | .error e => some e
  | .ok _    => none

namespace FabricRegistry

/-- The error the call returns; `setEpoch` and `recordDecision` have none to return, and `route` always succeeds. -/
def error? (r : FabricRegistry) : RegistryOp → Option Error
  | .setEpoch _                   => none
  | .addDevice rec                => errorOf (r.addDevice rec).1
  | .removeDevice id              => errorOf (r.removeDevice id).1
  | .addSwitch rec                => errorOf (r.addSwitch rec).1
  | .removeSwitch id              => errorOf (r.removeSwitch id).1
  | .setSwitchState id state      => errorOf (r.setSwitchState id state).1
  | .restartSwitch id newGen      => errorOf (r.restartSwitch id newGen).1
  | .addPort rec                  => errorOf (r.addPort rec).1
  | .removePort id                => errorOf (r.removePort id).1
  | .setPortState id state        => errorOf (r.setPortState id state).1
  | .addLink rec                  => errorOf (r.addLink rec).1
  | .removeLink id                => errorOf (r.removeLink id).1
  | .setLinkState id state deg    => errorOf (r.setLinkState id state deg).1
  | .publishPartition part        => errorOf (r.publishPartition part).1
  | .removePartition id           => errorOf (r.removePartition id).1
  | .markPartitionStale id        => errorOf (r.markPartitionStale id).1
  | .publishMeasurement m         => errorOf (r.publishMeasurement m).1
  | .publishCongestion c          => errorOf (r.publishCongestion c).1
  | .recordDecision _             => none
  | .invalidateForWorker w b      => errorOf (r.invalidateForWorker w b).1
  | .expireDynamicEvidence        => errorOf r.expireDynamicEvidence.1
  | .revalidateAll                => errorOf r.revalidateAll.1
  | .applyBulk e                  => errorOf (r.applyBulk e).1
  | .route _ _ _ _                => none

/-- The call returns an error. -/
def Fails (r : FabricRegistry) (op : RegistryOp) : Prop := ∃ e, r.error? op = some e

theorem not_fails_iff {r : FabricRegistry} {op : RegistryOp} : ¬ r.Fails op ↔ r.error? op = none := by
  unfold Fails
  rw [← Option.ne_none_iff_exists', not_not]

/-! ## Validation is the last thing that can fail -/

theorem publish_failed {pre : String} {cand : FabricTopology} {r : FabricRegistry} {e : Error}
    (h : errorOf (r.publish pre cand).1 = some e) : (r.publish pre cand).2 = r := by
  unfold publish at h ⊢
  split
  · rfl
  · next hok =>
    rw [hok] at h
    exact absurd h (by simp [errorOf])

theorem mutate_failed {edit : FabricTopology → Result FabricTopology} {r : FabricRegistry} {e : Error}
    (h : errorOf (r.mutate edit).1 = some e) : (r.mutate edit).2 = r := by
  unfold mutate at h ⊢
  split
  · rfl
  · next cand hok =>
    rw [hok] at h
    exact publish_failed h

/-- **A call that fails changes nothing**, `expireDynamicEvidence` apart. -/
theorem exec_of_fails {r : FabricRegistry} {op : RegistryOp} (hop : op ≠ .expireDynamicEvidence)
    (h : r.Fails op) : r.exec op = r := by
  obtain ⟨e, he⟩ := h
  cases op with
  | setEpoch e' => exact absurd he (by simp [error?])
  | recordDecision d => exact absurd he (by simp [error?])
  | route src dst policy now => exact absurd he (by simp [error?])
  | publishMeasurement m => exact absurd he (by simp [error?, errorOf, publishMeasurement])
  | expireDynamicEvidence => exact absurd rfl hop
  | applyBulk edit => exact publish_failed he
  | addDevice rec => exact mutate_failed he
  | removeDevice id => exact mutate_failed he
  | addSwitch rec => exact mutate_failed he
  | removeSwitch id => exact mutate_failed he
  | setSwitchState id state => exact mutate_failed he
  | restartSwitch id newGen => exact mutate_failed he
  | addPort rec => exact mutate_failed he
  | removePort id => exact mutate_failed he
  | setPortState id state => exact mutate_failed he
  | addLink rec => exact mutate_failed he
  | removeLink id => exact mutate_failed he
  | setLinkState id state degraded => exact mutate_failed he
  | publishPartition part => exact mutate_failed he
  | removePartition id => exact mutate_failed he
  | markPartitionStale id => exact mutate_failed he
  | publishCongestion c => exact mutate_failed he
  | invalidateForWorker w b => exact mutate_failed he
  | revalidateAll => exact mutate_failed he

/-- Publishing succeeds iff the candidate is admissible. -/
theorem errorOf_publish {pre : String} {cand : FabricTopology} {r : FabricRegistry} :
    errorOf (r.publish pre cand).1 = none ↔ FabricTopology.Admissible r.current (r.committed cand) := by
  by_cases hadm : FabricTopology.Admissible r.current (r.committed cand)
  · rw [publish_of_admissible pre hadm]
    exact iff_of_true rfl hadm
  · obtain ⟨why, heq⟩ := publish_of_not_admissible pre hadm
    rw [heq]
    exact iff_of_false (by simp [errorOf]) hadm

theorem errorOf_mutate {edit : FabricTopology → Result FabricTopology} {r : FabricRegistry} :
    errorOf (r.mutate edit).1 = none ↔
      ∃ cand, edit r.current = .ok cand ∧ FabricTopology.Admissible r.current (r.committed cand) := by
  unfold mutate
  cases hedit : edit r.current with
  | error e => exact iff_of_false (by simp [errorOf]) (by simp)
  | ok cand => exact errorOf_publish.trans ⟨fun hadm => ⟨cand, rfl, hadm⟩, by rintro ⟨_, ⟨⟩, hadm⟩; exact hadm⟩

/-- The call of a mutator returns no error iff its edit goes through and validation admits the candidate. -/
theorem error?_eq_none_iff {r : FabricRegistry} {op : RegistryOp} {edit : FabricTopology → Result FabricTopology}
    (hedit : op.edit? = some edit) : r.error? op = none ↔
      ∃ cand, edit r.current = .ok cand ∧ FabricTopology.Admissible r.current (r.committed cand) := by
  cases op with
  | setEpoch e => exact absurd hedit (by simp [RegistryOp.edit?])
  | publishMeasurement m => exact absurd hedit (by simp [RegistryOp.edit?])
  | recordDecision d => exact absurd hedit (by simp [RegistryOp.edit?])
  | route src dst policy now => exact absurd hedit (by simp [RegistryOp.edit?])
  | applyBulk e =>
    obtain rfl := Option.some.inj hedit
    exact errorOf_publish.trans ⟨fun hadm => ⟨_, rfl, hadm⟩, by rintro ⟨_, ⟨⟩, hadm⟩; exact hadm⟩
  | expireDynamicEvidence =>
    obtain rfl := Option.some.inj hedit
    -- the registry it publishes from has the same snapshot
    exact errorOf_publish.trans ⟨fun hadm => ⟨_, rfl, hadm⟩, by rintro ⟨_, ⟨⟩, hadm⟩; exact hadm⟩
  | _ =>
    obtain rfl := Option.some.inj hedit
    exact errorOf_mutate

/-- **A mutator returns an error iff it does not go through.** -/
theorem fails_iff {r : FabricRegistry} {op : RegistryOp} {edit : FabricTopology → Result FabricTopology}
    (hedit : op.edit? = some edit) : r.Fails op ↔ ¬ r.Accepts op := by
  rw [← not_iff_not, not_fails_iff, not_not, error?_eq_none_iff hedit]
  constructor
  · rintro ⟨cand, hcand, hadm⟩
    exact ⟨cand, edit?_edited hedit hcand, hadm⟩
  · rintro ⟨cand, hed, hadm⟩
    obtain ⟨edit', hedit', hcand⟩ := hed.edit?_of_admissible hadm
    obtain rfl : edit = edit' := Option.some.inj (hedit.symm.trans hedit')
    exact ⟨cand, hcand, hadm⟩

/-! ## Expiry -/

/-- The candidate of `expireDynamicEvidence`. -/
def expired (t : FabricTopology) : FabricTopology :=
  { t with
    switches := t.switches.mapVals SwitchRecord.expire
    ports := t.ports.mapVals SwitchPortRecord.expire
    links := t.links.mapVals LinkRecord.expire
    partitions := t.partitions.mapVals FabricPartition.expire
    devices := t.devices.mapVals DeviceRecord.expire
    topologyGen := t.topologyGen.next }

/-- The registry with no measurement matched. -/
def unmatched (r : FabricRegistry) : FabricRegistry :=
  { r with measurements := r.measurements.map fun m => { m with matched := false } }

theorem unmatched_eq_self_iff {r : FabricRegistry} : r.unmatched = r ↔ ∀ m ∈ r.measurements, m.matched = false := by
  constructor
  · intro heq m hm
    have hmap : r.measurements.map (fun m => { m with matched := false }) = r.measurements :=
      congrArg FabricRegistry.measurements heq
    rw [← hmap] at hm
    obtain ⟨m', _, rfl⟩ := List.mem_map.mp hm
    rfl
  · intro hall
    have hsame : ∀ m ∈ r.measurements, ({ m with matched := false } : Measurement) = id m := by
      intro m hm
      have hm' := hall m hm
      cases m
      simp_all
    unfold unmatched
    rw [List.map_congr_left hsame, List.map_id]

/-- **Expiry keeps every generation but that of the topology**, so only that one can veto it. -/
theorem expired_admissible_iff {r : FabricRegistry} (hwf : r.current.WellFormed) :
    FabricTopology.Admissible r.current (r.committed (expired r.current)) ↔ r.current.topologyGen ≠ .last := by
  have htopo : r.current.topologyGen ≤ (expired r.current).topologyGen ↔ r.current.topologyGen ≠ .last := by
    rw [← not_lt]
    exact Gen.not_next_lt
  refine ⟨fun h => htopo.mp h.topologyGen, fun h => ?_⟩
  exact {
    integral := hwf.integral.mapVals rfl rfl rfl rfl rfl
      (fun v => by unfold SwitchRecord.expire; split <;> rfl)
      (fun v => by unfold LinkRecord.expire; split <;> exact ⟨rfl, rfl, rfl⟩)
      (fun v => by unfold FabricPartition.expire; split <;> exact ⟨rfl, rfl⟩)
    limits := hwf.limits.mapVals rfl rfl rfl rfl rfl
    switchGen := stampsGrow_mapVals.mpr fun _ v _ => by unfold SwitchRecord.expire; split <;> exact le_rfl
    portGen := stampsGrow_mapVals.mpr fun _ v _ => by unfold SwitchPortRecord.expire; split <;> exact le_rfl
    linkGen := stampsGrow_mapVals.mpr fun _ v _ => by unfold LinkRecord.expire; split <;> exact le_rfl
    partitionGen := stampsGrow_mapVals.mpr fun _ v _ => by unfold FabricPartition.expire; split <;> exact le_rfl
    topologyGen := htopo.mpr h }

/-- Expiry validates its candidate after it has unmatched the measurements. -/
theorem expireDynamicEvidence_eq (r : FabricRegistry) :
    r.expireDynamicEvidence = r.unmatched.publish "" (expired r.current) := rfl

/-- **Expiry fails exactly at the last topology generation**, and the measurements are then unmatched all the same. -/
theorem expire_fails_iff {r : FabricRegistry} (hwf : r.current.WellFormed) :
    r.Fails .expireDynamicEvidence ↔ r.current.topologyGen = .last := by
  have hadm := expired_admissible_iff hwf
  show (∃ e, errorOf r.expireDynamicEvidence.1 = some e) ↔ _
  rw [expireDynamicEvidence_eq]
  by_cases hlast : r.current.topologyGen = .last
  · have hno : ¬ FabricTopology.Admissible r.unmatched.current (r.unmatched.committed (expired r.current)) :=
      fun h => hadm.mp h hlast
    obtain ⟨why, heq⟩ := publish_of_not_admissible "" hno
    rw [heq]
    exact iff_of_true ⟨_, rfl⟩ hlast
  · have hyes : FabricTopology.Admissible r.unmatched.current (r.unmatched.committed (expired r.current)) :=
      hadm.mpr hlast
    rw [publish_of_admissible "" hyes]
    refine iff_of_false ?_ hlast
    rintro ⟨e, he⟩
    exact absurd he (by simp [errorOf])

theorem exec_expire_of_last {r : FabricRegistry} (hwf : r.current.WellFormed)
    (hlast : r.current.topologyGen = .last) : r.exec .expireDynamicEvidence = r.unmatched := by
  obtain ⟨e, he⟩ := (expire_fails_iff hwf).mpr hlast
  exact publish_failed he

/-- **When failed calls change nothing.** A call that fails leaves the whole registry as it was, unless it is an
    expiry at the last topology generation while some measurement is matched. -/
theorem failed_unchanged_iff {r : FabricRegistry} (hr : r.Reachable) (op : RegistryOp) :
    (r.Fails op → r.exec op = r) ↔
      (op = .expireDynamicEvidence → r.current.topologyGen = .last → ∀ m ∈ r.measurements, m.matched = false) := by
  have hwf := hr.wellFormed
  by_cases hop : op = .expireDynamicEvidence
  · subst hop
    constructor
    · intro h _ hlast
      have hsame := h ((expire_fails_iff hwf).mpr hlast)
      rw [exec_expire_of_last hwf hlast] at hsame
      exact unmatched_eq_self_iff.mp hsame
    · intro h hfails
      have hlast := (expire_fails_iff hwf).mp hfails
      rw [exec_expire_of_last hwf hlast]
      exact unmatched_eq_self_iff.mpr (h rfl hlast)
  · exact iff_of_true (exec_of_fails hop) fun heq => absurd heq hop

/-- Adding a device twice fails and changes nothing. -/
theorem failed_unchanged_addDevice :
    let r := after [.addDevice { id := ⟨1⟩ }]
    r.Fails (.addDevice { id := ⟨1⟩ }) ∧ r.exec (.addDevice { id := ⟨1⟩ }) = r := by
  have hr : (after [.addDevice { id := ⟨1⟩ }]).Reachable := reachable_after _
  have hfails : (after [.addDevice { id := ⟨1⟩ }]).Fails (.addDevice { id := ⟨1⟩ }) :=
    ⟨⟨.alreadyExists, "device exists"⟩, by decide +kernel⟩
  exact ⟨hfails, (failed_unchanged_iff hr _).mpr (by simp) hfails⟩

/-! ## The last generation, restored from a file -/

/-- A snapshot without records at the last topology generation. -/
def atLast : FabricTopology := { topologyGen := .last }

theorem atLast_encodable : atLast.Encodable :=
  FabricTopology.encodable_of_empty rfl rfl rfl rfl rfl (by decide)

/-- The file restores, a measurement is published, and expiry is refused: the measurement is unmatched. -/
theorem failed_expiry_unmatches :
    ¬ ∀ (r : FabricRegistry) (op : RegistryOp), r.Reachable → r.Fails op → r.exec op = r := by
  intro h
  have hrestored : deserialize (serialize (restored atLast)) = .ok (restored atLast) :=
    deserialize_serialize atLast_encodable (FabricTopology.checkIntegrity_eq_nil_iff.mp rfl)
  have hstart : (restored atLast).Reachable := ⟨_, Or.inr ⟨_, hrestored⟩, .refl⟩
  have hr := hstart.exec (.publishMeasurement { source := ⟨1⟩, destination := ⟨2⟩ })
  have hlast : ((restored atLast).exec (.publishMeasurement { source := ⟨1⟩, destination := ⟨2⟩ })).current.topologyGen =
      .last := rfl
  have hsame := h _ .expireDynamicEvidence hr ((expire_fails_iff hr.wellFormed).mpr hlast)
  rw [exec_expire_of_last hr.wellFormed hlast] at hsame
  have hmatched := unmatched_eq_self_iff.mp hsame _ List.mem_cons_self
  exact absurd hmatched (by decide)

end FabricRegistry

end NVSwitchFabric
