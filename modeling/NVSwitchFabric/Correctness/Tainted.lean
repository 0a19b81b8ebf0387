import NVSwitchFabric.Correctness.PayloadWalk
import NVSwitchFabric.Correctness.WellFormed
import NVSwitchFabric.Model.Scenario

/-!
# `Correctness.Tainted` — synthetic evidence taints the snapshot

Every snapshot that is published has its provenance derived from its records (`honest_finalize`), so from a fresh registry a
snapshot is never real with a synthetic record in it. A restored snapshot has the provenance that the file says, whatever
its records are, until the first operation that goes through (`honest_run_iff`).
-/

namespace NVSwitchFabric

open Lib

/-! ## Honest snapshots -/

/-- The snapshot is presented as real only without synthetic records. -/
def FabricTopology.Honest (t : FabricTopology) : Prop :=
  t.provenance = .real → t.hasProvenance .synthetic = false

/-- **What is finalized is honest**: one synthetic record is enough for a synthetic snapshot. -/
theorem honest_finalize (cand : FabricTopology) : (finalizeProvenance cand).Honest := by
  intro hreal
  show cand.hasProvenance .synthetic = false
  by_contra hsyn
  rw [Bool.not_eq_false] at hsyn
  have hprov : (finalizeProvenance cand).provenance = .synthetic := by
    show (if cand.hasProvenance .synthetic then _ else _) = _
    rw [if_pos hsyn]
  exact absurd (hreal.symm.trans hprov) (by decide)

namespace FabricRegistry

theorem honest_committed (r : FabricRegistry) (cand : FabricTopology) : (r.committed cand).Honest := honest_finalize cand

/-- An operation that goes through leaves an honest snapshot, whatever was there. -/
theorem honest_of_accepts {r : FabricRegistry} {op : RegistryOp} (h : r.Accepts op) : (r.exec op).current.Honest := by
  obtain ⟨cand, hed, hadm⟩ := h
  rw [hed.exec_current hadm]
  exact r.honest_committed cand

theorem honest_exec {r : FabricRegistry} (op : RegistryOp) (h : r.current.Honest) : (r.exec op).current.Honest := by
  by_cases hacc : r.Accepts op
  · exact honest_of_accepts hacc
  · rwa [exec_current_of_not_accepts hacc]

theorem honest_runAll {r : FabricRegistry} (h : r.current.Honest) (ops : List RegistryOp) :
    (runAll exec r ops).current.Honest := by
  induction ops generalizing r with
  | nil => exact h
  | cons op ops ih => exact ih (honest_exec op h)

/-- The operation does not go through. -/
def Refuses (r : FabricRegistry) (op : RegistryOp) : Prop := ¬ r.Accepts op

/-- **A run ends honest exactly if it published something or began honest.** -/
theorem honest_runAll_iff (r : FabricRegistry) (ops : List RegistryOp) :
    (runAll exec r ops).current.Honest ↔ (Obeys exec Refuses r ops → r.current.Honest) := by
  induction ops generalizing r with
  | nil => exact ⟨fun h _ => h, fun h => h trivial⟩
  | cons op ops ih =>
    by_cases hacc : r.Accepts op
    · -- from here on the run is honest, and it does not obey the guard
      exact iff_of_true (honest_runAll (honest_of_accepts hacc) ops) fun hrefused => absurd hacc hrefused.1
    · have hrest := ih (r.exec op)
      rw [exec_current_of_not_accepts hacc] at hrest
      exact hrest.trans ⟨fun h hrefused => h hrefused.2, fun h hrefused => h ⟨hacc, hrefused⟩⟩

end FabricRegistry

/-! ## Files -/

/-- The provenance byte of the snapshot is not that of REAL. -/
def notReal : ByteTests where
  snapshot c := c ≠ 0

/-- The provenance byte of no record is that of SYNTHETIC. -/
def notSynthetic : ByteTests where
  provenance c := c ≠ 1

theorem Provenance.toByte_ofByte (c : UInt8) : (Provenance.ofByte c).toByte = c := by
  unfold Provenance.ofByte
  by_cases hc : c.toNat < 3
  · rw [dif_pos hc]
    split
    · next h => exact UInt8.toNat_inj.mp h.symm
    · next h => exact UInt8.toNat_inj.mp h.symm
    · next h0 h1 =>
      apply UInt8.toNat_inj.mp
      show 2 = c.toNat
      have h0 : c.toNat ≠ 0 := h0
      have h1 : c.toNat ≠ 1 := h1
      omega
  · rw [dif_neg hc]
    rfl

theorem Provenance.ofByte_eq_iff {c : UInt8} {p : Provenance} : ofByte c = p ↔ c = p.toByte := by
  constructor
  · rintro rfl
    exact (toByte_ofByte c).symm
  · rintro rfl
    exact ofByte_toByte p

/-- The tests of the snapshot's provenance and of the records'. -/
theorem notReal_decide : notReal.Decide { snapshot := fun p => p ≠ .real } where
  snapshot c := by
    show decide (Provenance.ofByte c ≠ .real) = decide (c ≠ 0)
    rw [decide_eq_decide]
    exact not_congr Provenance.ofByte_eq_iff
  entity _ := rfl
  partition _ := rfl
  provenance _ := rfl
  source _ := rfl
  kind _ := rfl

theorem notSynthetic_decide : notSynthetic.Decide { provenance := fun p => p ≠ .synthetic } where
  snapshot _ := rfl
  entity _ := rfl
  partition _ := rfl
  provenance c := by
    show decide (Provenance.ofByte c ≠ .synthetic) = decide (c ≠ 1)
    rw [decide_eq_decide]
    exact not_congr Provenance.ofByte_eq_iff
  source _ := rfl
  kind _ := rfl

theorem meets_notReal_iff {t : FabricTopology} :
    t.Meets { snapshot := fun p => p ≠ .real } ↔ t.provenance ≠ .real := by
  constructor
  · intro h
    exact of_decide_eq_true h.provenance
  · intro h
    exact {
      provenance := decide_eq_true h
      devices := fun _ _ _ => ⟨rfl, rfl, rfl⟩
      switches := fun _ _ _ => ⟨rfl, rfl, rfl⟩
      ports := fun _ _ _ => ⟨rfl, rfl, rfl, rfl⟩
      links := fun _ _ _ => ⟨rfl, rfl, rfl, rfl⟩
      partitions := fun _ _ _ => ⟨rfl, rfl, rfl⟩ }

/-- No record has provenance `p`, by kind of record. -/
structure FabricTopology.Without (t : FabricTopology) (p : Provenance) : Prop where
  devices    : t.devices.All fun r => decide (r.provenance = p) = false
  switches   : t.switches.All fun r => decide (r.provenance = p) = false
  ports      : t.ports.All fun r => decide (r.provenance = p) = false
  links      : t.links.All fun r => decide (r.provenance = p) = false
  partitions : t.partitions.All fun r => decide (r.provenance = p) = false

theorem hasProvenance_eq_false_iff {t : FabricTopology} {p : Provenance} :
    t.hasProvenance p = false ↔ t.Without p := by
  unfold FabricTopology.hasProvenance
  rw [Bool.or_eq_false_iff, Bool.or_eq_false_iff, Bool.or_eq_false_iff, Bool.or_eq_false_iff]
  constructor
  · rintro ⟨⟨⟨⟨hd, hs⟩, hp⟩, hl⟩, hpt⟩
    exact ⟨SortedMap.All.any_eq_false_iff.mp hd, SortedMap.All.any_eq_false_iff.mp hs,
      SortedMap.All.any_eq_false_iff.mp hp, SortedMap.All.any_eq_false_iff.mp hl, SortedMap.All.any_eq_false_iff.mp hpt⟩
  · intro h
    exact ⟨⟨⟨⟨SortedMap.All.any_eq_false_iff.mpr h.devices, SortedMap.All.any_eq_false_iff.mpr h.switches⟩,
      SortedMap.All.any_eq_false_iff.mpr h.ports⟩, SortedMap.All.any_eq_false_iff.mpr h.links⟩,
      SortedMap.All.any_eq_false_iff.mpr h.partitions⟩

theorem meets_notSynthetic_iff {t : FabricTopology} :
    t.Meets { provenance := fun p => p ≠ .synthetic } ↔ t.hasProvenance .synthetic = false := by
  have htest : ∀ {p : Provenance}, decide (p ≠ .synthetic) = true ↔ decide (p = .synthetic) = false := by
    intro p
    rw [decide_eq_true_iff, decide_eq_false_iff_not]
  rw [hasProvenance_eq_false_iff]
  constructor
  · intro h
    exact {
      devices := fun _ _ hr => htest.mp (h.devices hr).origin.provenance
      switches := fun _ _ hr => htest.mp (h.switches hr).origin.provenance
      ports := fun _ _ hr => htest.mp (h.ports hr).origin.provenance
      links := fun _ _ hr => htest.mp (h.links hr).origin.provenance
      partitions := fun _ _ hr => htest.mp (h.partitions hr).origin.provenance }
  · intro h
    exact {
      provenance := rfl
      devices := fun _ _ hr => ⟨rfl, htest.mpr (h.devices hr), rfl⟩
      switches := fun _ _ hr => ⟨rfl, htest.mpr (h.switches hr), rfl⟩
      ports := fun _ _ hr => ⟨rfl, rfl, htest.mpr (h.ports hr), rfl⟩
      links := fun _ _ hr => ⟨rfl, rfl, htest.mpr (h.links hr), rfl⟩
      partitions := fun _ _ hr => ⟨rfl, htest.mpr (h.partitions hr), rfl⟩ }

/-- A decoded snapshot is honest exactly if its bytes are. -/
theorem honest_decoded_iff {blob : List UInt8} {t : FabricTopology} (h : decodeTopology blob = .ok t) :
    t.Honest ↔ notReal.pass blob = true ∨ notSynthetic.pass blob = true := by
  rw [← meets_iff notReal_decide h, ← meets_iff notSynthetic_decide h, meets_notReal_iff, meets_notSynthetic_iff]
  exact imp_iff_not_or

/-- A process begins with a fresh registry, or with what a file restores. -/
def Begins : Option (List UInt8) → FabricRegistry → Prop
  | none, r      => r = .new
  | some data, r => deserialize data = .ok r

/-- The file, if there is one, does not store a snapshot as real of which a record is synthetic. -/
def HonestFile : Option (List UInt8) → Prop
  | none      => True
  | some data => notReal.pass (storedPayload data) = true ∨ notSynthetic.pass (storedPayload data) = true

/-- **A snapshot is presented as real only without synthetic records**, in every state a process reaches, exactly if something
    was published or the file it began with is honest. -/
theorem honest_run_iff {file : Option (List UInt8)} {r : FabricRegistry} (h : Begins file r) (ops : List RegistryOp) :
    (runAll FabricRegistry.exec r ops).current.Honest ↔
      (Obeys FabricRegistry.exec FabricRegistry.Refuses r ops → HonestFile file) := by
  rw [FabricRegistry.honest_runAll_iff]
  cases file with
  | none =>
    -- a fresh snapshot is not presented as real
    obtain rfl := h
    have hnew : FabricRegistry.new.current.Honest := fun hreal => absurd hreal (by decide)
    exact iff_of_true (fun _ => hnew) fun _ => trivial
  | some data =>
    obtain ⟨topo, hstores, rfl⟩ := stores_of_deserialized h
    exact imp_congr_right fun _ => honest_decoded_iff hstores.decoded

/-- A synthetic device in a snapshot that is stored as real. -/
def paintedReal : FabricTopology :=
  { provenance := .real, devices := SortedMap.empty.insert ⟨1⟩ (makeSyntheticDevice ⟨1⟩ (ascii "Synthetic") .up) }

theorem deserialize_paintedReal : deserialize (serialize (restored paintedReal)) = .ok (restored paintedReal) := by
  have henc : paintedReal.Encodable := {
    keyed := ⟨SortedMap.KeyedBy.empty.insert rfl, .empty, .empty, .empty, .empty⟩
    limits := ⟨by decide, by decide, by decide, by decide, by decide⟩
    label := by decide
    devices := SortedMap.All.empty.insert (by decide +kernel)
    switches := SortedMap.All.empty
    ports := SortedMap.All.empty
    links := SortedMap.All.empty
    partitions := SortedMap.All.empty }
  exact deserialize_serialize henc (FabricTopology.checkIntegrity_eq_nil_iff.mp (by decide +kernel))

/-- It is restored as it is stored. -/
theorem synthetic_presented_real : ¬ ∀ r : FabricRegistry, r.Reachable → r.current.Honest := by
  intro h
  have hr : (restored paintedReal).Reachable := ⟨_, Or.inr ⟨_, deserialize_paintedReal⟩, .refl⟩
  have hnone : paintedReal.hasProvenance .synthetic = false := h _ hr rfl
  exact absurd hnone (by decide +kernel)

/-- Its bytes say so. -/
theorem honest_run_paintedReal :
    (runAll FabricRegistry.exec (restored paintedReal) []).current.Honest ↔
      (Obeys FabricRegistry.exec FabricRegistry.Refuses (restored paintedReal) [] →
        HonestFile (some (serialize (restored paintedReal)))) :=
  @honest_run_iff (some (serialize (restored paintedReal))) _ deserialize_paintedReal []

end NVSwitchFabric
