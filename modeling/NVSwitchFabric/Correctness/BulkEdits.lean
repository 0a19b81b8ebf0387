import NVSwitchFabric.Correctness.Publication
import NVSwitchFabric.Correctness.Rebuild
import NVSwitchFabric.Correctness.Unchanged

/-!
# `Correctness.BulkEdits` — bulk edits again and in either order

A bulk edit is five upserts. An upsert repeated changes nothing more (`SortedMap.insertAll_self`), so a bulk edit that
succeeded succeeds again and leaves the maps alone. Upserts of different keys commute (`SortedMap.insertAll_comm`), so two
edits without an id in common leave the same maps in either order, under the same topology generation.
-/

namespace NVSwitchFabric

open Lib

/-- The edits have no id in common. -/
structure BulkEdit.Independent (e₁ e₂ : BulkEdit) : Prop where
  devices    : ∀ a ∈ e₁.devices, ∀ b ∈ e₂.devices, a.id ≠ b.id
  switches   : ∀ a ∈ e₁.switches, ∀ b ∈ e₂.switches, a.id ≠ b.id
  ports      : ∀ a ∈ e₁.ports, ∀ b ∈ e₂.ports, a.id ≠ b.id
  links      : ∀ a ∈ e₁.links, ∀ b ∈ e₂.links, a.id ≠ b.id
  partitions : ∀ a ∈ e₁.partitions, ∀ b ∈ e₂.partitions, a.id ≠ b.id

namespace FabricTopology

/-- An edit repeated changes no record. -/
theorem upserted_again (t : FabricTopology) (e : BulkEdit) :
    (t.upserted e).SameRecords ((t.upserted e).upserted e) :=
  ⟨SortedMap.insertAll_self _ _ _, SortedMap.insertAll_self _ _ _, SortedMap.insertAll_self _ _ _,
    SortedMap.insertAll_self _ _ _, SortedMap.insertAll_self _ _ _⟩

/-- Independent edits commute. -/
theorem upserted_comm {e₁ e₂ : BulkEdit} (h : e₁.Independent e₂) (t : FabricTopology) :
    (t.upserted e₁).upserted e₂ = (t.upserted e₂).upserted e₁ := by
  unfold upserted
  dsimp only
  rw [SortedMap.insertAll_comm h.devices, SortedMap.insertAll_comm h.switches, SortedMap.insertAll_comm h.ports,
    SortedMap.insertAll_comm h.links, SortedMap.insertAll_comm h.partitions]

/-- What is published may be replaced by the same records, as long as the topology generation does not decrease. -/
theorem admissible_of_same {old t t' : FabricTopology} (h : Admissible old t) (hsame : t.SameRecords t')
    (hgen : t.topologyGen ≤ t'.topologyGen) : Admissible t t' where
  integral := h.integral.of_maps_eq hsame.devices hsame.switches hsame.ports hsame.links hsame.partitions
  limits := {
    devices := hsame.devices ▸ h.limits.devices
    switches := hsame.switches ▸ h.limits.switches
    ports := hsame.ports ▸ h.limits.ports
    links := hsame.links ▸ h.limits.links
    partitions := hsame.partitions ▸ h.limits.partitions }
  switchGen := .of_sub (hsame.switches ▸ .refl _)
  portGen := .of_sub (hsame.ports ▸ .refl _)
  linkGen := .of_sub (hsame.links ▸ .refl _)
  partitionGen := .of_sub (hsame.partitions ▸ .refl _)
  topologyGen := hgen

end FabricTopology

namespace FabricRegistry

variable {r : FabricRegistry} {e e₁ e₂ : BulkEdit}

/-- A bulk edit succeeds iff validation admits what it makes of the snapshot. -/
theorem applyBulk_ok_iff : ¬ r.Fails (.applyBulk e) ↔
    FabricTopology.Admissible r.current (r.committed (r.current.upserted e)) := by
  rw [fails_iff rfl, not_not, accepts_applyBulk_iff]

/-- The snapshot after a bulk edit that succeeds. -/
theorem applyBulk_current (h : ¬ r.Fails (.applyBulk e)) :
    (r.exec (.applyBulk e)).current = r.committed (r.current.upserted e) := by
  rw [fails_iff rfl, not_not] at h
  exact exec_applyBulk_current h

/-- The snapshot after two bulk edits that succeed: both upserts, whatever was committed between. -/
theorem applyBulk_twice (h₁ : ¬ r.Fails (.applyBulk e₁)) (h₂ : ¬ (r.exec (.applyBulk e₁)).Fails (.applyBulk e₂)) :
    let t := ((r.exec (.applyBulk e₁)).exec (.applyBulk e₂)).current
    ((r.current.upserted e₁).upserted e₂).SameRecords t ∧ t.topologyGen = r.current.topologyGen.next.next := by
  intro t
  have ht : t = (r.exec (.applyBulk e₁)).committed ((r.committed (r.current.upserted e₁)).upserted e₂) := by
    rw [← applyBulk_current h₁]
    exact applyBulk_current h₂
  rw [ht]
  exact ⟨⟨rfl, rfl, rfl, rfl, rfl⟩, rfl⟩

/-- **Bulk edits are idempotent.** With room for two more topology generations, an edit that succeeded succeeds again and
    leaves every record as it is. -/
theorem applyBulk_again (hroom : r.current.topologyGen.next ≠ .last) (h : ¬ r.Fails (.applyBulk e)) :
    ¬ (r.exec (.applyBulk e)).Fails (.applyBulk e) ∧
      (r.exec (.applyBulk e)).current.SameRecords ((r.exec (.applyBulk e)).exec (.applyBulk e)).current := by
  have hcur := applyBulk_current h
  have hagain : ¬ (r.exec (.applyBulk e)).Fails (.applyBulk e) := by
    rw [applyBulk_ok_iff]
    have hsame := r.current.upserted_again e
    have hgen : r.current.topologyGen.next ≤ r.current.topologyGen.next.next := (Gen.lt_next.mpr hroom).le
    rw [hcur]
    exact FabricTopology.admissible_of_same (applyBulk_ok_iff.mp h)
      ⟨hsame.devices, hsame.switches, hsame.ports, hsame.links, hsame.partitions⟩ hgen
  refine ⟨hagain, ?_⟩
  obtain ⟨hsame, _⟩ := applyBulk_twice h hagain
  have hself := r.current.upserted_again e
  rw [hcur]
  exact ⟨hsame.devices.trans hself.devices, hsame.switches.trans hself.switches, hsame.ports.trans hself.ports,
    hsame.links.trans hself.links, hsame.partitions.trans hself.partitions⟩

/-- **Independent bulk edits commute**: in either order they leave the same records under the same topology generation. -/
theorem applyBulk_comm (hind : e₁.Independent e₂)
    (h₁ : ¬ r.Fails (.applyBulk e₁)) (h₁₂ : ¬ (r.exec (.applyBulk e₁)).Fails (.applyBulk e₂))
    (h₂ : ¬ r.Fails (.applyBulk e₂)) (h₂₁ : ¬ (r.exec (.applyBulk e₂)).Fails (.applyBulk e₁)) :
    let t := ((r.exec (.applyBulk e₁)).exec (.applyBulk e₂)).current
    let t' := ((r.exec (.applyBulk e₂)).exec (.applyBulk e₁)).current
    t.SameRecords t' ∧ t.topologyGen = t'.topologyGen := by
  obtain ⟨hsame, hgen⟩ := applyBulk_twice h₁ h₁₂
  obtain ⟨hsame', hgen'⟩ := applyBulk_twice h₂ h₂₁
  rw [← FabricTopology.upserted_comm hind] at hsame'
  exact ⟨⟨hsame'.devices.trans hsame.devices.symm, hsame'.switches.trans hsame.switches.symm,
    hsame'.ports.trans hsame.ports.symm, hsame'.links.trans hsame.links.symm,
    hsame'.partitions.trans hsame.partitions.symm⟩, hgen.trans hgen'.symm⟩

/-- **Bulk edits again and in either order.** Below the two last topology generations, an edit that succeeds succeeds again
    and changes no record; and two edits without an id in common, if they succeed in both orders, leave the same records and
    topology generation. -/
theorem bulk_edits_idempotent_commute (hgen : r.current.topologyGen.value.toNat < 2 ^ 64 - 2) :
    (∀ e, ¬ r.Fails (.applyBulk e) → ¬ (r.exec (.applyBulk e)).Fails (.applyBulk e) ∧
      (r.exec (.applyBulk e)).current.SameRecords ((r.exec (.applyBulk e)).exec (.applyBulk e)).current) ∧
    ∀ e₁ e₂, BulkEdit.Independent e₁ e₂ →
      ¬ r.Fails (.applyBulk e₁) → ¬ (r.exec (.applyBulk e₁)).Fails (.applyBulk e₂) →
      ¬ r.Fails (.applyBulk e₂) → ¬ (r.exec (.applyBulk e₂)).Fails (.applyBulk e₁) →
      let t := ((r.exec (.applyBulk e₁)).exec (.applyBulk e₂)).current
      let t' := ((r.exec (.applyBulk e₂)).exec (.applyBulk e₁)).current
      t.SameRecords t' ∧ t.topologyGen = t'.topologyGen := by
  have hroom : r.current.topologyGen.next ≠ .last := by
    rw [Gen.ne_last_iff, Gen.next_toNat]
    omega
  exact ⟨fun _ h => applyBulk_again hroom h, fun _ _ hind h₁ h₁₂ h₂ h₂₁ => applyBulk_comm hind h₁ h₁₂ h₂ h₂₁⟩

/-- An edit of the first device of a registry, again, and with an edit of the second one in either order. -/
theorem bulk_edits_idempotent_commute_devices :
    let e₁ : BulkEdit := { devices := [{ id := ⟨1⟩ }] }
    let e₂ : BulkEdit := { devices := [{ id := ⟨2⟩ }] }
    new.current.topologyGen.value.toNat < 2 ^ 64 - 2 ∧
    (¬ (new.exec (.applyBulk e₁)).Fails (.applyBulk e₁) ∧
      (new.exec (.applyBulk e₁)).current.SameRecords ((new.exec (.applyBulk e₁)).exec (.applyBulk e₁)).current) ∧
    ((new.exec (.applyBulk e₁)).exec (.applyBulk e₂)).current.SameRecords
      ((new.exec (.applyBulk e₂)).exec (.applyBulk e₁)).current := by
  intro e₁ e₂
  have hgen : new.current.topologyGen.value.toNat < 2 ^ 64 - 2 := by decide +kernel
  have hind : e₁.Independent e₂ := ⟨by decide, by decide, by decide, by decide, by decide⟩
  obtain ⟨hagain, hcomm⟩ := bulk_edits_idempotent_commute hgen
  have h₁ : ¬ new.Fails (.applyBulk e₁) := not_fails_iff.mpr (by decide +kernel)
  have h₁₂ : ¬ (new.exec (.applyBulk e₁)).Fails (.applyBulk e₂) := not_fails_iff.mpr (by decide +kernel)
  have h₂ : ¬ new.Fails (.applyBulk e₂) := not_fails_iff.mpr (by decide +kernel)
  have h₂₁ : ¬ (new.exec (.applyBulk e₂)).Fails (.applyBulk e₁) := not_fails_iff.mpr (by decide +kernel)
  exact ⟨hgen, hagain e₁ h₁, (hcomm e₁ e₂ hind h₁ h₁₂ h₂ h₂₁).1⟩

end FabricRegistry

end NVSwitchFabric
