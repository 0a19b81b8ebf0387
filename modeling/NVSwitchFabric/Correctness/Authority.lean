import NVSwitchFabric.Correctness.Epoch

/-!
# `Correctness.Authority` — what a decision's authority rests on over time

A granted decision holds leases: on each switch and known port of its path, and on the partition it was admitted
through, each at the generation it was captured at. A lease either stands or is superseded, and by `Lib.Lease` a
superseded one stays so, unless the entity is gone and an operation brings it back at the captured generation or
below (`Readmitted`). A decision with a superseded lease is not authoritative; everything said about decisions over
whole runs comes from these facts.

Authority lost in any other way can come back: devices have no generation, and neither expiry nor a change between
states that count as running advances one (`lost_authority_returns`).
-/

namespace NVSwitchFabric

open Lib

/-! ## Leases -/

/-- An entity of the fabric at the generation a decision captured. -/
inductive Lease where
  | switch (id : SwitchId) (gen : SwitchGeneration)
  | port (id : PortId) (gen : PortGeneration)
  | partition (id : PartitionId) (gen : PartitionGeneration)

/-- The leases a decision holds. -/
def RouteDecision.Holds (d : RouteDecision) : Lease → Prop
  | .switch id g    => ∃ p, d.selected = some p ∧ (id, g) ∈ p.switchGens
  | .port id g      => ∃ p, d.selected = some p ∧ (id, g) ∈ p.portGens
  | .partition id g => d.partitionKnown = true ∧ d.partition = id ∧ d.partitionGen = g

namespace Lease

/-- The entity has a record at the captured generation. -/
def Stands (t : FabricTopology) : Lease → Prop
  | .switch id g    => ∃ rec, t.switches.find? id = some rec ∧ rec.gen = g
  | .port id g      => ∃ rec, t.ports.find? id = some rec ∧ rec.gen = g
  | .partition id g => ∃ rec, t.partitions.find? id = some rec ∧ rec.gen = g

/-- The entity is gone, or has a record at a later generation. -/
def Superseded (t : FabricTopology) : Lease → Prop
  | .switch id g    => Lib.Superseded (·.gen) t.switches id g
  | .port id g      => Lib.Superseded (·.gen) t.ports id g
  | .partition id g => Lib.Superseded (·.gen) t.partitions id g

/-- The entity is gone, and the operation supplies a record for it at the captured generation or below. -/
def Readmitted (t : FabricTopology) (op : RegistryOp) : Lease → Prop
  | .switch id g    => t.switches.find? id = none ∧ ∃ rec, op.newSwitch? id = some rec ∧ rec.gen ≤ g
  | .port id g      => t.ports.find? id = none ∧ ∃ rec, op.newPort? id = some rec ∧ rec.gen ≤ g
  | .partition id g => t.partitions.find? id = none ∧ ∃ rec, op.newPartition? id = some rec ∧ rec.gen ≤ g

theorem Superseded.not_stands {t : FabricTopology} {l : Lease} (h : l.Superseded t) : ¬ l.Stands t := by
  cases l with
  | switch id g =>
    rintro ⟨rec, hrec, hgen⟩
    exact Lib.Superseded.ne h hrec hgen
  | port id g =>
    rintro ⟨rec, hrec, hgen⟩
    exact Lib.Superseded.ne h hrec hgen
  | partition id g =>
    rintro ⟨rec, hrec, hgen⟩
    exact Lib.Superseded.ne h hrec hgen

/-- **A superseded lease stays superseded**, unless its entity is readmitted. -/
theorem Superseded.exec {r : FabricRegistry} {l : Lease} (op : RegistryOp) (h : l.Superseded r.current)
    (hno : ¬ l.Readmitted r.current op) : l.Superseded (r.exec op).current := by
  rcases exec_edited r op with heq | ⟨cand, hed, heq, hadm⟩
  · rwa [heq]
  rw [heq]
  cases l with
  | switch id g =>
    refine Lib.Superseded.step h hadm.switchGen ?_
    rintro ⟨hgone, rec, hrec, hle⟩
    exact hno ⟨hgone, rec, (hed.switch_new hgone).symm.trans hrec, hle⟩
  | port id g =>
    refine Lib.Superseded.step h hadm.portGen ?_
    rintro ⟨hgone, rec, hrec, hle⟩
    exact hno ⟨hgone, rec, (hed.port_new hgone).symm.trans hrec, hle⟩
  | partition id g =>
    refine Lib.Superseded.step h hadm.partitionGen ?_
    rintro ⟨hgone, rec, hrec, hle⟩
    exact hno ⟨hgone, rec, (hed.partition_new hgone).symm.trans hrec, hle⟩

/-- A standing lease stands after the operation or is superseded by it. -/
theorem Stands.exec {r : FabricRegistry} {l : Lease} (op : RegistryOp) (h : l.Stands r.current) :
    l.Stands (r.exec op).current ∨ l.Superseded (r.exec op).current := by
  rcases exec_edited r op with heq | ⟨cand, _, heq, hadm⟩
  · rw [heq]
    exact Or.inl h
  rw [heq]
  cases l with
  | switch id g =>
    obtain ⟨rec, hrec, hgen⟩ := h
    exact hadm.switchGen.stands_or_superseded hrec hgen
  | port id g =>
    obtain ⟨rec, hrec, hgen⟩ := h
    exact hadm.portGen.stands_or_superseded hrec hgen
  | partition id g =>
    obtain ⟨rec, hrec, hgen⟩ := h
    exact hadm.partitionGen.stands_or_superseded hrec hgen

end Lease

/-- The re-check asks that every lease stands. -/
theorem Rechecked.stands {d : RouteDecision} {t : FabricTopology} (h : Rechecked d t) {l : Lease}
    (hl : d.Holds l) : l.Stands t := by
  cases l with
  | switch id g =>
    obtain ⟨p, hp, hmem⟩ := hl
    obtain ⟨rec, hrec, _, hgen⟩ := switchHolds_iff.mp (h.switches p hp _ hmem)
    exact ⟨rec, hrec, hgen⟩
  | port id g =>
    obtain ⟨p, hp, hmem⟩ := hl
    obtain ⟨rec, hrec, _, hgen⟩ := portHolds_iff.mp (h.ports p hp _ hmem)
    exact ⟨rec, hrec, hgen⟩
  | partition id g =>
    obtain ⟨hknown, rfl, rfl⟩ := hl
    obtain ⟨rec, hrec, _, hgen⟩ := partitionHolds_iff.mp (h.partition hknown)
    exact ⟨rec, hrec, hgen⟩

/-- **All leases stand when a decision is granted.** -/
theorem Issued.stands {d : RouteDecision} {t : FabricTopology} {src dst : DeviceId} {policy : RoutePolicy}
    {measurements : List Measurement} {epoch : CoordinatorEpoch} {best : FabricPath} (hkeyed : t.Keyed)
    (hgrant : Granted t src dst policy measurements best) (hd : Issued d t src dst policy epoch best)
    {l : Lease} (hl : d.Holds l) : l.Stands t := by
  obtain ⟨p, _, _, rfl⟩ := hgrant.enumerated
  cases l with
  | switch id g =>
    obtain ⟨q, hq, hmem⟩ := hl
    obtain rfl := Option.some.inj (hd.selected.symm.trans hq)
    exact (mem_captureSwitchGens.mp hmem).2
  | port id g =>
    obtain ⟨q, hq, hmem⟩ := hl
    obtain rfl := Option.some.inj (hd.selected.symm.trans hq)
    exact (mem_capturePortGens.mp hmem).2
  | partition id g =>
    obtain ⟨hknown, rfl, rfl⟩ := hl
    obtain ⟨part, hrec, _, hgen, _⟩ := hd.recorded_partition hkeyed hknown
    exact ⟨part, hrec, hgen⟩

/-- A decision that is not a grant holds no lease on a path. -/
theorem FabricRegistry.route_refused {r : FabricRegistry} {src dst : DeviceId} {policy : RoutePolicy}
    (now : UInt64) (h : ∀ best, ¬ Granted r.current src dst policy r.measurements best) :
    (r.route src dst policy now).1.Refused := by
  have href := computeRoute_refused ⟨r.nextDecisionId⟩ ⟨0⟩ ⟨ascii "snap" ++ decimal r.current.id.toNat⟩ now
    r.epoch h
  exact ⟨href.outcome, href.authoritative, href.selected⟩

/-! ## Lost for good -/

namespace FabricRegistry

/-- The operation neither readmits an entity `d` holds a lease on, nor sets the epoch back to `d`'s. -/
def NoReturn (d : RouteDecision) (r : FabricRegistry) (op : RegistryOp) : Prop :=
  (∀ l, d.Holds l → ¬ l.Readmitted r.current op) ∧ op ≠ .setEpoch d.epoch

/-- Reasons for which `d` is not authoritative and that no operation under `NoReturn` takes back: its outcome, a lease
    that no longer stands, or an epoch that both the registry and its snapshot have left. -/
def Revoked (d : RouteDecision) (r : FabricRegistry) : Prop :=
  d.outcome.isAllowed = false ∨ (∃ l, d.Holds l ∧ ¬ l.Stands r.current) ∨
    (d.epoch ≠ r.current.epoch ∧ d.epoch ≠ r.epoch)

theorem Revoked.not_authoritative {d : RouteDecision} {r : FabricRegistry} (h : Revoked d r) :
    r.decisionStillAuthoritative d = false := by
  rw [Bool.eq_false_iff]
  intro hauth
  have hre : Rechecked d r.current := stillAuthoritative_iff.mp hauth
  rcases h with hout | ⟨l, hl, hnot⟩ | ⟨hne, _⟩
  · exact absurd (hre.allowed.symm.trans hout) (by simp)
  · exact hnot (hre.stands hl)
  · exact hne hre.epoch

/-- Each lease of `d` stands or is superseded. -/
def LeasesSettled (d : RouteDecision) (r : FabricRegistry) : Prop :=
  ∀ l, d.Holds l → l.Stands r.current ∨ l.Superseded r.current

theorem LeasesSettled.exec {d : RouteDecision} {r : FabricRegistry} {op : RegistryOp}
    (h : LeasesSettled d r) (hno : ∀ l, d.Holds l → ¬ l.Readmitted r.current op) :
    LeasesSettled d (r.exec op) := by
  intro l hl
  rcases h l hl with hstands | hsup
  · exact hstands.exec op
  · exact Or.inr (hsup.exec op (hno l hl))

/-- **A revoked decision stays revoked.** -/
theorem Revoked.exec {d : RouteDecision} {r : FabricRegistry} {op : RegistryOp} (hset : LeasesSettled d r)
    (h : Revoked d r) (hok : NoReturn d r op) : Revoked d (r.exec op) := by
  rcases h with hout | ⟨l, hl, hnot⟩ | ⟨hcur, hreg⟩
  · exact Or.inl hout
  · have hsup : l.Superseded r.current := (hset l hl).resolve_left hnot
    exact Or.inr (Or.inl ⟨l, hl, (hsup.exec op (hok.1 l hl)).not_stands⟩)
  · refine Or.inr (Or.inr ⟨?_, ?_⟩)
    · rcases r.exec_current_epoch op with heq | heq
      · rw [heq]; exact hcur
      · rw [heq]; exact hreg
    · by_cases hset : ∃ e, op = .setEpoch e
      · obtain ⟨e, rfl⟩ := hset
        intro heq
        exact hok.2 (congrArg RegistryOp.setEpoch heq.symm)
      · rw [exec_epoch r op (not_exists.mp hset)]
        exact hreg

/-- The leases of a grant are settled when it is issued. -/
theorem route_leasesSettled {r : FabricRegistry} {src dst : DeviceId} {policy : RoutePolicy}
    {best : FabricPath} (hr : r.Reachable) (hgrant : Granted r.current src dst policy r.measurements best)
    (now : UInt64) : LeasesSettled (r.route src dst policy now).1 (r.route src dst policy now).2 :=
  fun _ hl => Or.inl (Issued.stands hr.wellFormed.keyed hgrant (route_issued now hgrant) hl)

end FabricRegistry

end NVSwitchFabric
