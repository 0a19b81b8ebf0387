import NVSwitchFabric.Correctness.PayloadWalk

/-!
# `Correctness.DeclaredEnums` — which bytes decode to declared enumerators

The decoder casts the byte of an enumeration without looking at it. So a decoded topology holds nothing but declared
enumerators exactly if the bytes at their places in the payload are those of declared ones (`declared_iff`).
-/

namespace NVSwitchFabric

open Lib

/-! ## Declared values -/

def EntityState.declared : EntityState → Bool
  | undeclared _ _ => false
  | _ => true

def PartitionState.declared : PartitionState → Bool
  | undeclared _ _ => false
  | _ => true

def Provenance.declared : Provenance → Bool
  | undeclared _ _ => false
  | _ => true

def EvidenceSource.declared : EvidenceSource → Bool
  | undeclared _ _ => false
  | _ => true

def EndKind.declared : EndKind → Bool
  | undeclared _ _ => false
  | _ => true

/-- Every enumeration of the topology and of its records holds a declared enumerator. -/
def FabricTopology.Declared (t : FabricTopology) : Prop :=
  t.Meets {
    snapshot := Provenance.declared, entity := EntityState.declared, partition := PartitionState.declared
    provenance := Provenance.declared, source := EvidenceSource.declared, kind := EndKind.declared }

/-- The bytes of declared enumerators: fourteen states, six partition states, three provenances, ten sources and two
    kinds of link end. -/
def declaredBytes : ByteTests where
  snapshot c := c.toNat < 3
  entity c := c.toNat < 14
  partition c := c.toNat < 6
  provenance c := c.toNat < 3
  source c := c.toNat < 10
  kind c := c.toNat < 2

/-! ## Casts -/

theorem EntityState.declared_ofByte (c : UInt8) : (EntityState.ofByte c).declared = decide (c.toNat < 14) := by
  unfold EntityState.ofByte
  by_cases hc : c.toNat < 14
  · rw [dif_pos hc]
    split <;> simp [EntityState.declared, hc]
  · rw [dif_neg hc]
    simp [EntityState.declared, hc]

theorem PartitionState.declared_ofByte (c : UInt8) : (PartitionState.ofByte c).declared = decide (c.toNat < 6) := by
  unfold PartitionState.ofByte
  by_cases hc : c.toNat < 6
  · rw [dif_pos hc]
    split <;> simp [PartitionState.declared, hc]
  · rw [dif_neg hc]
    simp [PartitionState.declared, hc]

theorem Provenance.declared_ofByte (c : UInt8) : (Provenance.ofByte c).declared = decide (c.toNat < 3) := by
  unfold Provenance.ofByte
  by_cases hc : c.toNat < 3
  · rw [dif_pos hc]
    split <;> simp [Provenance.declared, hc]
  · rw [dif_neg hc]
    simp [Provenance.declared, hc]

theorem EvidenceSource.declared_ofByte (c : UInt8) : (EvidenceSource.ofByte c).declared = decide (c.toNat < 10) := by
  unfold EvidenceSource.ofByte
  by_cases hc : c.toNat < 10
  · rw [dif_pos hc]
    split <;> simp [EvidenceSource.declared, hc]
  · rw [dif_neg hc]
    simp [EvidenceSource.declared, hc]

theorem EndKind.declared_ofByte (c : UInt8) : (EndKind.ofByte c).declared = decide (c.toNat < 2) := by
  unfold EndKind.ofByte
  by_cases hc : c.toNat < 2
  · rw [dif_pos hc]
    split <;> simp [EndKind.declared, hc]
  · rw [dif_neg hc]
    simp [EndKind.declared, hc]

/-- **A decoded topology holds declared enumerators exactly if the bytes at their places say so.** -/
theorem declared_iff {blob : List UInt8} {t : FabricTopology} (h : decodeTopology blob = .ok t) :
    t.Declared ↔ declaredBytes.pass blob = true :=
  meets_iff {
    snapshot := Provenance.declared_ofByte
    entity := EntityState.declared_ofByte
    partition := PartitionState.declared_ofByte
    provenance := Provenance.declared_ofByte
    source := EvidenceSource.declared_ofByte
    kind := EndKind.declared_ofByte } h

/-- A snapshot of an undeclared provenance. -/
def undeclaredProvenance : FabricTopology := { provenance := .undeclared 3 (by decide) }

theorem decodeTopology_undeclaredProvenance :
    decodeTopology (encodeTopology undeclaredProvenance) = .ok undeclaredProvenance :=
  decodeTopology_encodeTopology (FabricTopology.encodable_of_empty rfl rfl rfl rfl rfl (by decide))
    (FabricTopology.checkIntegrity_eq_nil_iff.mp rfl)

/-- It is accepted, and its provenance is none of the three. -/
theorem undeclared_accepted : ¬ ∀ (blob : List UInt8) (t : FabricTopology), decodeTopology blob = .ok t → t.Declared := by
  intro h
  have hdeclared := (h _ _ decodeTopology_undeclaredProvenance).provenance
  exact absurd hdeclared (by decide)

/-- Its payload has a byte that is no enumerator's. -/
theorem declared_iff_undeclaredProvenance :
    undeclaredProvenance.Declared ↔ declaredBytes.pass (encodeTopology undeclaredProvenance) = true :=
  declared_iff decodeTopology_undeclaredProvenance

end NVSwitchFabric
