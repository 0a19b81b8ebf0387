import NVSwitchFabric.Correctness.Unchanged
import NVSwitchFabric.Model.Scenario

/-!
# `Correctness.PartitionAdvance` — the generation of a partition that is published again

Publishing over a stored partition is to advance its generation when the partition changes and to keep the larger one
when it does not (`GenerationBound`). The change test of `publishPartition` looks at members, fabric and state: a new set
of switches goes unnoticed. And a change at the largest generation wraps to 0, which validation admits only over a stored
generation 0. Publication is generation bound but for these two cases (`partition_generation_bound_iff`).
-/

namespace NVSwitchFabric

open Lib

namespace FabricPartition

variable {old part : FabricPartition}

/-- Members (up to order), fabric or state differ: what the change test of `publishPartition` looks at. -/
def Tested (old part : FabricPartition) : Prop :=
  ¬ old.members.Perm part.members ∨ old.fabric ≠ part.fabric ∨ old.state ≠ part.state

/-- Members or switches (each up to order), fabric or state differ. -/
def Differs (old part : FabricPartition) : Prop := old.Tested part ∨ ¬ old.switches.Perm part.switches

/-- The generations of `old` and `new` are bound for a publication of `part`. -/
def GenerationBound (old part new : FabricPartition) : Prop :=
  (old.Differs new → old.gen < new.gen) ∧ (¬ old.Differs new → new.gen = max old.gen part.gen)

/-- Only the switches differ, and the submitted generation is no larger than the stored one. -/
def SwapsSwitches (old part : FabricPartition) : Prop :=
  ¬ old.switches.Perm part.switches ∧ ¬ old.Tested part ∧ part.gen ≤ old.gen

/-- A noticed change is submitted at the largest generation over a stored generation 0. -/
def WrapsOver (old part : FabricPartition) : Prop := old.Tested part ∧ part.gen = .last ∧ old.gen = ⟨0⟩

/-- The sorted members are compared, so the order of the members does not matter. -/
theorem sortedMembers_eq_iff : Edit.sortedMembers old = Edit.sortedMembers part ↔ old.members.Perm part.members := by
  unfold Edit.sortedMembers
  constructor
  · intro heq
    have hold := List.perm_insertionSort (· ≤ ·) old.members
    rw [heq] at hold
    exact hold.symm.trans (List.perm_insertionSort _ _)
  · intro hperm
    apply List.Perm.eq_of_pairwise' (List.pairwise_insertionSort _ _) (List.pairwise_insertionSort _ _)
    exact (List.perm_insertionSort _ _).trans (hperm.trans (List.perm_insertionSort _ _).symm)

/-- **What is stored over a partition**: what is submitted, under the next generation if the test notices a change. -/
theorem partitionToStore_some :
    (old.Tested part → Edit.partitionToStore (some old) part = { part with gen := (max old.gen part.gen).next }) ∧
      (¬ old.Tested part → Edit.partitionToStore (some old) part = { part with gen := max old.gen part.gen }) := by
  have htest : (Edit.sortedMembers old ≠ Edit.sortedMembers part || old.fabric ≠ part.fabric ||
      old.state ≠ part.state) = true ↔ old.Tested part := by
    simp only [Bool.or_eq_true, decide_eq_true_eq, ne_eq, sortedMembers_eq_iff, Tested, or_assoc]
  unfold Edit.partitionToStore
  dsimp only
  constructor
  · intro h
    rw [if_pos (htest.mpr h)]
  · intro h
    rw [if_neg fun hc => h (htest.mp hc)]

theorem zero_le_gen (g : PartitionGeneration) : ⟨0⟩ ≤ g := UInt64.le_iff_toNat_le.mpr (Nat.zero_le _)

/-- The next generation is no smaller than a stored one: it is larger, or the submitted one has wrapped over 0. -/
theorem lt_next_max_iff {g h : PartitionGeneration} (hgrow : g ≤ (max g h).next) :
    g < (max g h).next ↔ ¬ (h = .last ∧ g = ⟨0⟩) := by
  by_cases hlast : max g h = .last
  · have hzero : (max g h).next = ⟨0⟩ := by rw [hlast]; rfl
    rw [hzero] at hgrow ⊢
    have hg : g = ⟨0⟩ := le_antisymm hgrow (zero_le_gen g)
    subst hg
    rw [max_eq_right (zero_le_gen h)] at hlast
    exact iff_of_false (lt_irrefl _) fun hno => hno ⟨hlast, rfl⟩
  · have hlt : g < (max g h).next := (le_max_left g h).trans_lt (Gen.lt_next.mpr hlast)
    refine iff_of_true hlt ?_
    rintro ⟨rfl, rfl⟩
    exact hlast (max_eq_right (zero_le_gen _))

/-- What is stored is generation bound, unless the switches are swapped or the generation wraps over 0. -/
theorem partitionToStore_bound_iff (hgrow : old.gen ≤ (Edit.partitionToStore (some old) part).gen) :
    old.GenerationBound part (Edit.partitionToStore (some old) part) ↔
      ¬ old.SwapsSwitches part ∧ ¬ old.WrapsOver part := by
  obtain ⟨hnext, hmax⟩ := @partitionToStore_some old part
  by_cases htested : old.Tested part
  · rw [hnext htested] at hgrow ⊢
    have hdiffers : old.Differs { part with gen := (max old.gen part.gen).next } := Or.inl htested
    have hbound : old.GenerationBound part { part with gen := (max old.gen part.gen).next } ↔
        old.gen < (max old.gen part.gen).next :=
      ⟨fun h => h.1 hdiffers, fun h => ⟨fun _ => h, fun hno => absurd hdiffers hno⟩⟩
    rw [hbound, lt_next_max_iff hgrow]
    constructor
    · intro h
      exact ⟨fun hswap => hswap.2.1 htested, fun hwrap => h hwrap.2⟩
    · rintro ⟨_, hwrap⟩ hlast
      exact hwrap ⟨htested, hlast⟩
  · rw [hmax htested]
    have hdiffers : old.Differs { part with gen := max old.gen part.gen } ↔ ¬ old.switches.Perm part.switches :=
      or_iff_right htested
    unfold GenerationBound
    rw [hdiffers]
    dsimp only
    rw [lt_max_iff, or_iff_right (lt_irrefl _)]
    constructor
    · rintro ⟨hadvance, _⟩
      exact ⟨fun hswap => not_lt.mpr hswap.2.2 (hadvance hswap.1), fun hwrap => htested hwrap.1⟩
    · rintro ⟨hswap, _⟩
      exact ⟨fun hsw => not_le.mp fun hle => hswap ⟨hsw, htested, hle⟩, fun _ => rfl⟩

end FabricPartition

namespace FabricRegistry

variable {r : FabricRegistry} {old part : FabricPartition}

/-- A publication that succeeds stores what `partitionToStore` makes of it, and validation has compared the generations. -/
theorem published_partition (hold : r.current.partitions.find? part.id = some old)
    (hok : ¬ r.Fails (.publishPartition part)) :
    (r.exec (.publishPartition part)).current.partitions.find? part.id =
      some (Edit.partitionToStore (some old) part) ∧ old.gen ≤ (Edit.partitionToStore (some old) part).gen := by
  rw [fails_iff rfl, not_not] at hok
  obtain ⟨cand, hed, hadm⟩ := hok
  have hcur := hed.exec_current hadm
  cases hed
  rw [hold] at hcur hadm
  have hnew := SortedMap.find?_insert_self r.current.partitions part.id (Edit.partitionToStore (some old) part)
  rw [hcur]
  exact ⟨hnew, hadm.partitionGen hold hnew⟩

/-- **When a publication is generation bound.** Publishing over a stored partition, if it succeeds, advances the
    generation when something changes and keeps the larger one when nothing does, unless only the switches change under no
    larger generation, or a change wraps the largest generation over a stored generation 0. -/
theorem partition_generation_bound_iff (hold : r.current.partitions.find? part.id = some old)
    (hok : ¬ r.Fails (.publishPartition part)) :
    (∃ new, (r.exec (.publishPartition part)).current.partitions.find? part.id = some new ∧
      old.GenerationBound part new) ↔ ¬ old.SwapsSwitches part ∧ ¬ old.WrapsOver part := by
  obtain ⟨hnew, hgrow⟩ := published_partition hold hok
  rw [hnew, ← FabricPartition.partitionToStore_bound_iff hgrow]
  simp

/-- A partition that is put in service. -/
theorem partition_generation_bound_inService :
    let r := after [.publishPartition { id := ⟨ascii "p0"⟩, state := .inactive }]
    let old : FabricPartition := { id := ⟨ascii "p0"⟩, gen := ⟨1⟩, state := .inactive }
    let part : FabricPartition := { id := ⟨ascii "p0"⟩ }
    (r.current.partitions.find? part.id = some old ∧ ¬ r.Fails (.publishPartition part)) ∧
      ((∃ new, (r.exec (.publishPartition part)).current.partitions.find? part.id = some new ∧
        old.GenerationBound part new) ↔ ¬ old.SwapsSwitches part ∧ ¬ old.WrapsOver part) := by
  intro r old part
  have hold : r.current.partitions.find? part.id = some old := by decide +kernel
  have hok : ¬ r.Fails (.publishPartition part) := not_fails_iff.mpr (by decide +kernel)
  exact ⟨⟨hold, hok⟩, partition_generation_bound_iff hold hok⟩

/-- A partition with no switches gets one and keeps generation 1, and one at generation 0 is taken out of service at the
    largest generation and is at generation 0 again. -/
theorem partition_change_not_advanced :
    let swap := after [.addSwitch { id := ⟨10⟩ }, .publishPartition { id := ⟨ascii "p0"⟩ }]
    let swapped : FabricPartition := { id := ⟨ascii "p0"⟩, gen := ⟨1⟩, switches := [⟨10⟩] }
    let wrap := after [.applyBulk { partitions := [{ id := ⟨ascii "p0"⟩ }] }]
    let wrapped : FabricPartition := { id := ⟨ascii "p0"⟩, gen := .last, state := .inactive }
    (swap.error? (.publishPartition swapped) = none ∧
      swap.current.partitions.find? ⟨ascii "p0"⟩ = some { swapped with switches := [] } ∧
      (swap.exec (.publishPartition swapped)).current.partitions.find? ⟨ascii "p0"⟩ = some swapped ∧
      ¬ FabricPartition.GenerationBound { swapped with switches := [] } swapped swapped) ∧
    (wrap.error? (.publishPartition wrapped) = none ∧
      wrap.current.partitions.find? ⟨ascii "p0"⟩ = some { wrapped with gen := ⟨0⟩, state := .active } ∧
      (wrap.exec (.publishPartition wrapped)).current.partitions.find? ⟨ascii "p0"⟩ =
        some { wrapped with gen := ⟨0⟩ } ∧
      ¬ FabricPartition.GenerationBound { wrapped with gen := ⟨0⟩, state := .active } wrapped { wrapped with gen := ⟨0⟩ }) := by
  intro swap swapped wrap wrapped
  refine ⟨⟨by decide +kernel, by decide +kernel, by decide +kernel, ?_⟩,
    ⟨by decide +kernel, by decide +kernel, by decide +kernel, ?_⟩⟩
  · rintro ⟨hadvance, _⟩
    exact absurd (hadvance (Or.inr (by decide))) (by decide)
  · rintro ⟨hadvance, _⟩
    exact absurd (hadvance (Or.inl (Or.inr (Or.inr (by decide))))) (by decide)

end FabricRegistry

end NVSwitchFabric
