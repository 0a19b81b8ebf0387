import NVSwitchFabric.Correctness.PathIntact
import NVSwitchFabric.Correctness.Publication

/-!
# `Correctness.Causes` — what authority is lost to

A decision rests on its two endpoints and on its leases. An operation that goes through takes its authority exactly if it
undermines one of these, or publishes under another epoch (`exec_authoritative_iff`). What undermines is said of each
operation by what it is given and by who a record is attributed to; links and measurements do not count, neither does what
is published of other records, nor a request that is refused.

Of what a coordinator handles, only a publication can undermine a decision, or the end of a connection, and its epoch does
not change. So it goes on accepting a decision as long as the incarnations behind the path are connected and nobody
publishes otherwise (`Coordinator.handed_out_iff`).
-/

namespace NVSwitchFabric

open Lib

/-! ## What a decision rests on -/

/-- An endpoint or a lease of a decision. -/
inductive Premise where
  | endpoint (id : DeviceId)
  | lease (l : Lease)

def RouteDecision.RestsOn (d : RouteDecision) : Premise → Prop
  | .endpoint id => d.EndsAt id
  | .lease l     => d.Holds l

/-- The record is usable, and at the generation of the lease. -/
def SwitchRecord.Bears (g : SwitchGeneration) (rec : SwitchRecord) : Prop := usableState rec.state = true ∧ rec.gen = g

def SwitchPortRecord.Bears (g : PortGeneration) (rec : SwitchPortRecord) : Prop :=
  usableState rec.state = true ∧ rec.gen = g

def FabricPartition.Bears (g : PartitionGeneration) (rec : FabricPartition) : Prop := rec.inService = true ∧ rec.gen = g

def DeviceRecord.Bears (rec : DeviceRecord) : Prop := endpointState rec.state = true

namespace Premise

/-- The re-check finds it as it should be. -/
def Firm (t : FabricTopology) : Premise → Prop
  | .endpoint id            => t.devices.Stores DeviceRecord.Bears id
  | .lease (.switch id g)   => t.switches.Stores (SwitchRecord.Bears g) id
  | .lease (.port id g)     => t.ports.Stores (SwitchPortRecord.Bears g) id
  | .lease (.partition id g) => t.partitions.Stores (FabricPartition.Bears g) id

/-- Its record satisfies `p`, as far as it is said where that comes from. -/
def Of (p : Origin → Prop) (t : FabricTopology) : Premise → Prop
  | .endpoint id            => t.devices.Stores (fun rec => p rec.toOrigin) id
  | .lease (.switch id _)   => t.switches.Stores (fun rec => p rec.toOrigin) id
  | .lease (.port id _)     => t.ports.Stores (fun rec => p rec.toOrigin) id
  | .lease (.partition id _) => t.partitions.Stores (fun rec => p rec.toOrigin) id

/-- The edit has a record for it that does not bear it. -/
def Replaced (e : BulkEdit) : Premise → Prop
  | .endpoint id            => ∃ rec, e.device? id = some rec ∧ ¬ rec.Bears
  | .lease (.switch id g)   => ∃ rec, e.switch? id = some rec ∧ ¬ rec.Bears g
  | .lease (.port id g)     => ∃ rec, e.port? id = some rec ∧ ¬ rec.Bears g
  | .lease (.partition id g) => ∃ rec, e.partition? id = some rec ∧ ¬ rec.Bears g

/-- The published snapshot has a record for it that does not bear it. -/
def Contradicted (t : FabricTopology) : Premise → Prop
  | .endpoint id            => t.devices.Stores (fun rec => ¬ rec.Bears) id
  | .lease (.switch id g)   => t.switches.Stores (fun rec => ¬ rec.Bears g) id
  | .lease (.port id g)     => t.ports.Stores (fun rec => ¬ rec.Bears g) id
  | .lease (.partition id g) => t.partitions.Stores (fun rec => ¬ rec.Bears g) id

end Premise

/-- **The re-check**, as the premises of the decision. -/
theorem rechecked_iff_firm {d : RouteDecision} {t : FabricTopology} :
    Rechecked d t ↔ d.outcome.isAllowed = true ∧ d.epoch = t.epoch ∧ ∀ x, d.RestsOn x → x.Firm t := by
  constructor
  · intro h
    refine ⟨h.allowed, h.epoch, ?_⟩
    rintro (id | id | id | id) hx
    · rcases hx with rfl | rfl
      · exact endpointHolds_iff.mp h.source
      · exact endpointHolds_iff.mp h.destination
    · obtain ⟨p, hp, hmem⟩ := hx
      exact switchHolds_iff.mp (h.switches p hp _ hmem)
    · obtain ⟨p, hp, hmem⟩ := hx
      exact portHolds_iff.mp (h.ports p hp _ hmem)
    · obtain ⟨hknown, rfl, rfl⟩ := hx
      exact partitionHolds_iff.mp (h.partition hknown)
  · rintro ⟨hallowed, hepoch, hfirm⟩
    exact {
      allowed := hallowed
      epoch := hepoch
      source := endpointHolds_iff.mpr (hfirm (.endpoint d.source) (Or.inl rfl))
      destination := endpointHolds_iff.mpr (hfirm (.endpoint d.destination) (Or.inr rfl))
      partition := fun hknown => partitionHolds_iff.mpr (hfirm (.lease (.partition _ _)) ⟨hknown, rfl, rfl⟩)
      switches := fun p hp sg hmem => switchHolds_iff.mpr (hfirm (.lease (.switch _ _)) ⟨p, hp, hmem⟩)
      ports := fun p hp pg hmem => portHolds_iff.mpr (hfirm (.lease (.port _ _)) ⟨p, hp, hmem⟩) }

/-! ## What undermines it -/

/-- The operation, if it goes through, takes a premise away. -/
def RegistryOp.Undermines (t : FabricTopology) : RegistryOp → Premise → Prop
  | .removeDevice i, .endpoint id                  => id = i
  | .removeSwitch i, .lease l                      => l.On i
  | .setSwitchState i st, .lease (.switch id _)    => id = i ∧ usableState st = false
  | .restartSwitch i _, .lease (.switch id _)      => id = i
  | .removePort i, .lease (.port id _)             => id = i
  | .setPortState i st, .lease (.port id _)        => id = i ∧ usableState st = false
  | .publishPartition part, .lease (.partition id g) =>
    id = part.id ∧ ¬ (Edit.partitionToStore (t.partitions.find? id) part).Bears g
  | .removePartition i, .lease (.partition id _)   => id = i
  | .markPartitionStale i, .lease (.partition id _) => id = i
  | .invalidateForWorker w b, x                    => x.Of (fun o => o.attributedTo w b = true) t
  | .expireDynamicEvidence, x                      => x.Of (fun o => o.isDynamic = true) t
  | .applyBulk e, x                                => x.Replaced e
  | _, _                                           => False

section
variable {t cand : FabricTopology} {op : RegistryOp}

theorem DeviceRecord.not_bears {rec : DeviceRecord} (h : endpointState rec.state = false) : ¬ rec.Bears :=
  fun hb => Bool.noConfusion (h.symm.trans hb)

theorem SwitchRecord.not_bears {rec : SwitchRecord} {g : SwitchGeneration} (h : usableState rec.state = false) :
    ¬ rec.Bears g := fun hb => Bool.noConfusion (h.symm.trans hb.1)

theorem SwitchPortRecord.not_bears {rec : SwitchPortRecord} {g : PortGeneration} (h : usableState rec.state = false) :
    ¬ rec.Bears g := fun hb => Bool.noConfusion (h.symm.trans hb.1)

theorem FabricPartition.not_bears {rec : FabricPartition} {g : PartitionGeneration} (h : rec.inService = false) :
    ¬ rec.Bears g := fun hb => Bool.noConfusion (h.symm.trans hb.1)

/-- Entering a usable state keeps the generation. -/
theorem keeps_gen_of_usable {st : EntityState} (h : usableState st = true) :
    switchStateFails st = false ∧ portStateFails st = false := by
  revert h
  cases st <;> simp [usableState, switchStateFails, portStateFails]

theorem Edited.endpoint_firm_iff {id : DeviceId} (h : Edited t op cand) (hfirm : (Premise.endpoint id).Firm t) :
    (Premise.endpoint id).Firm cand ↔ ¬ op.Undermines t (.endpoint id) := by
  have hkeep : (Premise.endpoint id).Firm t ↔ ¬ False := iff_of_true hfirm not_false
  cases h with
  | @addDevice rec fresh =>
    obtain ⟨w, hw, hbears⟩ := hfirm
    exact iff_of_true ⟨w, (SortedMap.find?_insert_ne _ _ (SortedMap.ne_of_find? fresh hw).symm).trans hw, hbears⟩ not_false
  | removeDevice => exact hfirm.erase_iff
  | @invalidateForWorker w b =>
    refine hfirm.rewrite_iff (Q := fun rec => rec.attributedTo w b = true) (fun v hv => ?_) fun v hv => ?_
    · rw [DeviceRecord.fence, if_pos hv]
      exact DeviceRecord.not_bears rfl
    · rw [DeviceRecord.fence, if_neg hv]
  | expireDynamicEvidence =>
    refine hfirm.rewrite_iff (Q := fun rec => rec.isDynamic = true) (fun v hv => ?_) fun v hv => ?_
    · rw [DeviceRecord.expire, if_pos hv]
      exact DeviceRecord.not_bears rfl
    · rw [DeviceRecord.expire, if_neg hv]
  | revalidateAll =>
    refine iff_of_true (hfirm.mapVals fun v hv => ?_) not_false
    unfold DeviceRecord.revalidate
    split
    · rfl
    · exact hv
  | applyBulk => exact hfirm.insertAll_iff
  | _ => exact hkeep

theorem Edited.switch_firm_iff {id : SwitchId} {g : SwitchGeneration} (h : Edited t op cand)
    (hfirm : (Premise.lease (.switch id g)).Firm t) :
    (Premise.lease (.switch id g)).Firm cand ↔ ¬ op.Undermines t (.lease (.switch id g)) := by
  have hkeep : (Premise.lease (.switch id g)).Firm t ↔ ¬ False := iff_of_true hfirm not_false
  have hstored := hfirm
  obtain ⟨now, hnow, hbears⟩ := hstored
  cases h with
  | addSwitch fresh =>
    exact iff_of_true ⟨now, (SortedMap.find?_insert_ne _ _ (SortedMap.ne_of_find? fresh hnow).symm).trans hnow, hbears⟩
      not_false
  | removeSwitch => exact hfirm.erase_iff
  | @setSwitchState i st rec known =>
    refine hfirm.insert_iff.trans (not_congr (and_congr_right ?_))
    rintro rfl
    obtain rfl := Option.some.inj (hnow.symm.trans known)
    constructor
    · intro hno
      by_contra husable
      rw [Bool.not_eq_false] at husable
      have hkeeps := (keeps_gen_of_usable husable).1
      exact hno ⟨husable, (if_neg (Bool.eq_false_iff.mp hkeeps)).trans hbears.2⟩
    · exact fun hfails => SwitchRecord.not_bears hfails
  | @restartSwitch i newGen rec known =>
    exact hfirm.insert_iff.trans (not_congr (and_iff_left (SwitchRecord.not_bears rfl)))
  | @addPort rec sw known fresh =>
    refine hfirm.insert_iff.trans (not_congr (iff_of_false ?_ not_false))
    rintro ⟨rfl, hno⟩
    obtain rfl := Option.some.inj (hnow.symm.trans known)
    exact hno hbears
  | @invalidateForWorker w b =>
    refine hfirm.rewrite_iff (Q := fun rec => rec.attributedTo w b = true) (fun v hv => ?_) fun v hv => ?_
    · rw [SwitchRecord.fence, if_pos hv]
      exact SwitchRecord.not_bears rfl
    · rw [SwitchRecord.fence, if_neg hv]
  | expireDynamicEvidence =>
    refine hfirm.rewrite_iff (Q := fun rec => rec.isDynamic = true) (fun v hv => ?_) fun v hv => ?_
    · rw [SwitchRecord.expire, if_pos hv]
      exact SwitchRecord.not_bears rfl
    · rw [SwitchRecord.expire, if_neg hv]
  | revalidateAll =>
    refine iff_of_true (hfirm.mapVals fun v hv => ?_) not_false
    unfold SwitchRecord.revalidate
    split
    · exact ⟨rfl, hv.2⟩
    · exact hv
  | applyBulk => exact hfirm.insertAll_iff
  | _ => exact hkeep

theorem Edited.port_firm_iff {id : PortId} {g : PortGeneration} (h : Edited t op cand)
    (hfirm : (Premise.lease (.port id g)).Firm t) :
    (Premise.lease (.port id g)).Firm cand ↔ ¬ op.Undermines t (.lease (.port id g)) := by
  have hkeep : (Premise.lease (.port id g)).Firm t ↔ ¬ False := iff_of_true hfirm not_false
  have hstored := hfirm
  obtain ⟨now, hnow, hbears⟩ := hstored
  cases h with
  | addPort known fresh =>
    exact iff_of_true ⟨now, (SortedMap.find?_insert_ne _ _ (SortedMap.ne_of_find? fresh hnow).symm).trans hnow, hbears⟩
      not_false
  -- the ports of a switch go with it
  | removeSwitch => exact hfirm.filter_iff fun _ => decide_eq_true_iff
  | removePort => exact hfirm.erase_iff
  | @setPortState i st rec known =>
    refine hfirm.insert_iff.trans (not_congr (and_congr_right ?_))
    rintro rfl
    obtain rfl := Option.some.inj (hnow.symm.trans known)
    constructor
    · intro hno
      by_contra husable
      rw [Bool.not_eq_false] at husable
      have hkeeps := (keeps_gen_of_usable husable).2
      exact hno ⟨husable, (if_neg (Bool.eq_false_iff.mp hkeeps)).trans hbears.2⟩
    · exact fun hfails => SwitchPortRecord.not_bears hfails
  | @invalidateForWorker w b =>
    refine hfirm.rewrite_iff (Q := fun rec => rec.attributedTo w b = true) (fun v hv => ?_) fun v hv => ?_
    · rw [SwitchPortRecord.fence, if_pos hv]
      exact SwitchPortRecord.not_bears rfl
    · rw [SwitchPortRecord.fence, if_neg hv]
  | expireDynamicEvidence =>
    refine hfirm.rewrite_iff (Q := fun rec => rec.isDynamic = true) (fun v hv => ?_) fun v hv => ?_
    · rw [SwitchPortRecord.expire, if_pos hv]
      exact SwitchPortRecord.not_bears rfl
    · rw [SwitchPortRecord.expire, if_neg hv]
  | revalidateAll =>
    refine iff_of_true (hfirm.mapVals fun v hv => ?_) not_false
    unfold SwitchPortRecord.revalidate
    split
    · exact ⟨rfl, hv.2⟩
    · exact hv
  | applyBulk => exact hfirm.insertAll_iff
  | _ => exact hkeep

theorem Edited.partition_firm_iff {id : PartitionId} {g : PartitionGeneration} (h : Edited t op cand)
    (hfirm : (Premise.lease (.partition id g)).Firm t) :
    (Premise.lease (.partition id g)).Firm cand ↔ ¬ op.Undermines t (.lease (.partition id g)) := by
  have hkeep : (Premise.lease (.partition id g)).Firm t ↔ ¬ False := iff_of_true hfirm not_false
  cases h with
  | publishPartition =>
    refine hfirm.insert_iff.trans (not_congr (and_congr_right ?_))
    rintro rfl
    exact Iff.rfl
  | removePartition => exact hfirm.erase_iff
  | markPartitionStale => exact hfirm.insert_iff.trans (not_congr (and_iff_left (FabricPartition.not_bears rfl)))
  | @invalidateForWorker w b =>
    refine hfirm.rewrite_iff (Q := fun rec => rec.attributedTo w b = true) (fun v hv => ?_) fun v hv => ?_
    · rw [FabricPartition.fence, if_pos hv]
      exact FabricPartition.not_bears rfl
    · rw [FabricPartition.fence, if_neg hv]
  | expireDynamicEvidence =>
    refine hfirm.rewrite_iff (Q := fun rec => rec.isDynamic = true) (fun v hv => ?_) fun v hv => ?_
    · rw [FabricPartition.expire, if_pos hv]
      exact FabricPartition.not_bears rfl
    · rw [FabricPartition.expire, if_neg hv]
  | revalidateAll =>
    refine iff_of_true (hfirm.mapVals fun v hv => ?_) not_false
    unfold FabricPartition.revalidate
    split
    · exact ⟨rfl, hv.2⟩
    · exact hv
  | applyBulk => exact hfirm.insertAll_iff
  | _ => exact hkeep

/-- **A firm premise stays firm exactly if the operation does not undermine it.** -/
theorem Edited.firm_iff {x : Premise} (h : Edited t op cand) (hfirm : x.Firm t) : x.Firm cand ↔ ¬ op.Undermines t x := by
  match x with
  | .endpoint _            => exact h.endpoint_firm_iff hfirm
  | .lease (.switch _ _)   => exact h.switch_firm_iff hfirm
  | .lease (.port _ _)     => exact h.port_firm_iff hfirm
  | .lease (.partition _ _) => exact h.partition_firm_iff hfirm

end

/-! ## Registries -/

namespace FabricRegistry

/-- The operation is refused, or publishes under the epoch of the decision and undermines nothing it rests on. -/
def Spares (d : RouteDecision) (r : FabricRegistry) (op : RegistryOp) : Prop :=
  r.Accepts op → d.epoch = r.epoch ∧ ∀ x, d.RestsOn x → ¬ op.Undermines r.current x

variable {d : RouteDecision} {r : FabricRegistry}

/-- **One operation**: a decision that is authoritative stays so exactly if it is spared. -/
theorem exec_authoritative_iff (op : RegistryOp) (h : r.decisionStillAuthoritative d = true) :
    (r.exec op).decisionStillAuthoritative d = true ↔ Spares d r op := by
  by_cases hacc : r.Accepts op
  · obtain ⟨cand, hed, hadm⟩ := hacc
    obtain ⟨hallowed, _, hfirm⟩ := rechecked_iff_firm.mp (stillAuthoritative_iff.mp h)
    unfold decisionStillAuthoritative
    rw [stillAuthoritative_iff, rechecked_iff_firm, hed.exec_current hadm]
    have hiff : ∀ x, d.RestsOn x → (x.Firm (r.committed cand) ↔ ¬ op.Undermines r.current x) := by
      intro x hx
      rw [← hed.firm_iff (hfirm x hx)]
      match x with
      | .endpoint _ | .lease (.switch _ _) | .lease (.port _ _) | .lease (.partition _ _) => exact Iff.rfl
    constructor
    · rintro ⟨_, hepoch, hnow⟩ _
      exact ⟨hepoch, fun x hx => (hiff x hx).mp (hnow x hx)⟩
    · intro hspares
      obtain ⟨hepoch, hsound⟩ := hspares ⟨cand, hed, hadm⟩
      exact ⟨hallowed, hepoch, fun x hx => (hiff x hx).mpr (hsound x hx)⟩
  · unfold decisionStillAuthoritative
    rw [exec_current_of_not_accepts hacc]
    exact iff_of_true h fun hacc' => absurd hacc' hacc

/-- **Authority is lost for cause.** A decision that is authoritative stays so throughout a run of operations exactly if
    each of them spares it. -/
theorem lost_for_cause_iff (h : r.decisionStillAuthoritative d = true) (ops : List RegistryOp) :
    Always exec (fun s => s.decisionStillAuthoritative d = true) r ops ↔ Obeys exec (Spares d) r ops := by
  let good (s : FabricRegistry) : Prop := s.decisionStillAuthoritative d = true
  have hstep : ∀ s op, good s → (good (s.exec op) ↔ Spares d s op) := fun _ op hs => exec_authoritative_iff op hs
  exact always_iff_obeys hstep h ops

/-- A route through one of two redundant switches survives the failure of the other. -/
theorem lost_for_cause_redundant :
    let r := after [.applyBulk (buildSyntheticScan .twoSwitchRedundant)]
    let d := (r.route ⟨1⟩ ⟨2⟩ {} 0).1
    d.outcome = .routeAllowed ∧ Obeys exec (Spares d) r [.setSwitchState ⟨11⟩ .down, .removeDevice ⟨3⟩, .revalidateAll] := by
  intro r d
  have hnow : r.decisionStillAuthoritative d = true := by decide +kernel
  exact ⟨by decide +kernel, (lost_for_cause_iff hnow _).mp
    ⟨hnow, by decide +kernel, by decide +kernel, (by decide +kernel : FabricRegistry.decisionStillAuthoritative _ _ = true)⟩⟩

end FabricRegistry

/-! ## Coordinators -/

namespace Coordinator

variable {d : RouteDecision} {c : Coordinator}

/-- Stamping a record does not change whether it bears a premise. -/
theorem replaced_stampedBulk_iff {topo : FabricTopology} {w : WorkerId} {b : WorkerBootId} {x : Premise} (h : topo.Keyed) :
    x.Replaced (stampedBulk topo w b) ↔ x.Contradicted topo := by
  match x with
  | .endpoint id =>
    let g (v : DeviceRecord) : DeviceRecord := { v with toOrigin := v.toOrigin.stamp w b }
    exact SortedMap.Stores.records_iff (g := g) h.devices (fun _ => rfl) (fun _ => Iff.rfl) id
  | .lease (.switch id _) =>
    let g (v : SwitchRecord) : SwitchRecord := { v with toOrigin := v.toOrigin.stamp w b }
    exact SortedMap.Stores.records_iff (g := g) h.switches (fun _ => rfl) (fun _ => Iff.rfl) id
  | .lease (.port id _) =>
    let g (v : SwitchPortRecord) : SwitchPortRecord := { v with toOrigin := v.toOrigin.stamp w b }
    exact SortedMap.Stores.records_iff (g := g) h.ports (fun _ => rfl) (fun _ => Iff.rfl) id
  | .lease (.partition id _) =>
    let g (v : FabricPartition) : FabricPartition := { v with toOrigin := v.toOrigin.stamp w b }
    exact SortedMap.Stores.records_iff (g := g) h.partitions (fun _ => rfl) (fun _ => Iff.rfl) id

/-- The event is not a publication that goes through and contradicts the decision, nor the end of a connection whose
    incarnation stands behind a record that the decision rests on. -/
def Spares (d : RouteDecision) (c : Coordinator) : Event → Prop
  | .accept       => True
  | .frame id f _ => ∀ w b topo, c.publication id f = some (w, b, topo) →
    c.registry.Accepts (.applyBulk (stampedBulk topo w b)) → ∀ x, d.RestsOn x → ¬ x.Contradicted topo
  | .close id     => ∀ w b, c.identity id = some (w, b) → c.registry.Accepts (.invalidateForWorker w b) →
    ∀ x, d.RestsOn x → ¬ x.Of (fun o => o.attributedTo w b = true) c.registry.current

/-- **One event.** -/
theorem step_authoritative_iff (e : Event) (hepoch : d.epoch = c.registry.epoch)
    (h : c.registry.decisionStillAuthoritative d = true) :
    (c.step e).registry.decisionStillAuthoritative d = true ↔ Spares d c e := by
  have hkeep : (c.step e).registry.current = c.registry.current →
      (c.step e).registry.decisionStillAuthoritative d = true := by
    intro heq
    unfold FabricRegistry.decisionStillAuthoritative
    rw [heq]
    exact h
  cases e with
  | accept => exact iff_of_true (hkeep (by rw [step_accept_registry])) trivial
  | frame id f now =>
    cases hpub : c.publication id f with
    | none => exact iff_of_true (hkeep (step_of_no_publication hpub now)) fun _ _ _ hno => nomatch hpub.symm.trans hno
    | some p =>
      obtain ⟨w, b, topo⟩ := p
      have hreplaced := fun x => replaced_stampedBulk_iff (w := w) (b := b) (x := x) (publication_keyed hpub)
      rw [step_of_publication hpub now, FabricRegistry.exec_authoritative_iff _ h]
      constructor
      · intro hspares w' b' topo' heq hacc x hx
        obtain ⟨rfl, rfl, rfl⟩ : w = w' ∧ b = b' ∧ topo = topo' := by simpa using hpub.symm.trans heq
        exact fun hcontra => (hspares hacc).2 x hx ((hreplaced x).mpr hcontra)
      · intro hspares hacc
        exact ⟨hepoch, fun x hx hund => hspares w b topo hpub hacc x hx ((hreplaced x).mp hund)⟩
  | close id =>
    rw [step_close_registry]
    cases hid : c.identity id with
    | none => exact iff_of_true h fun _ _ hno => nomatch hid.symm.trans hno
    | some who =>
      obtain ⟨w, b⟩ := who
      have hexec : c.registry.exec (.invalidateForWorker w b) = (c.registry.invalidateForWorker w b).2 := rfl
      rw [Option.elim_some, ← hexec, FabricRegistry.exec_authoritative_iff _ h]
      constructor
      · intro hspares w' b' heq hacc
        obtain ⟨rfl, rfl⟩ : w = w' ∧ b = b' := by simpa using hid.symm.trans heq
        exact (hspares hacc).2
      · exact fun hspares hacc => ⟨hepoch, hspares w b hid hacc⟩

/-- **What is handed out stays good.** A decision that a coordinator makes and accepts is accepted throughout any further
    events, on any connections, exactly if each of them spares it. -/
theorem handed_out_iff (c : Coordinator) (src dst : DeviceId) (policy : RoutePolicy) (now : UInt64) (events : List Event) :
    let d := (c.registry.route src dst policy now).1
    c.registry.decisionStillAuthoritative d = true →
      (Always step (fun c' => c'.registry.decisionStillAuthoritative d = true) c events ↔ Obeys step (Spares d) c events) := by
  intro d h
  let kept (c' : Coordinator) : Prop := d.epoch = c'.registry.epoch
  let good (c' : Coordinator) : Prop := c'.registry.decisionStillAuthoritative d = true
  have hfirst : kept c := FabricRegistry.route_epoch c.registry src dst policy now
  have hkept : ∀ c' e, kept c' → kept (c'.step e) := fun c' e hc => hc.trans (c'.step_epoch e).symm
  have hgood : ∀ c' e, kept c' → good c' → (good (c'.step e) ↔ Spares d c' e) :=
    fun _ e hc hnow => step_authoritative_iff e hc hnow
  exact always_iff_obeys_of hkept hgood hfirst h events

/-- A worker that stands behind nothing comes and goes. -/
theorem handed_out_visitor :
    let c := serving (FabricRegistry.after [.applyBulk (buildSyntheticScan .twoSwitchRedundant)]) [] .empty
    let d := (c.registry.route ⟨1⟩ ⟨2⟩ {} 0).1
    d.outcome = .routeAllowed ∧ Obeys step (Spares d) c
      [.accept, .frame 0 { type := .register, payload := encodeRegister 0 ⟨ascii "w"⟩ 1 } 1, .close 0] := by
  intro c d
  have hnow : c.registry.decisionStillAuthoritative d = true := by decide +kernel
  exact ⟨by decide +kernel, (handed_out_iff c ⟨1⟩ ⟨2⟩ {} 0 _ hnow).mp
    ⟨hnow, by decide +kernel, by decide +kernel, (by decide +kernel : FabricRegistry.decisionStillAuthoritative _ _ = true)⟩⟩

end Coordinator

end NVSwitchFabric
