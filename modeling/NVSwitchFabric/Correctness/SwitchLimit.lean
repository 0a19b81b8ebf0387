import NVSwitchFabric.Correctness.PathOrder

/-!
# `Correctness.SwitchLimit` — the bounds of a policy on its candidates

The search has as many switches on a path as hops, at most `min maxAllowedHops 16` (`enumerated_depth`), so the hop limit of a
policy is kept. Its limit on switches is handed to no one: candidates keep it if the hop limit is at most as large, and
otherwise a row of switches has a candidate that does not (`candidates_within_bounds_iff`).
-/

namespace NVSwitchFabric

open Lib

/-- An allowed decision has candidates within the bounds of the policy only. -/
def RoutePolicy.WithinBounds (policy : RoutePolicy) (d : RouteDecision) : Prop :=
  d.outcome.isAllowed = true → ∀ p ∈ d.candidatePaths,
    p.switchSequence.length ≤ policy.maxAllowedSwitches.toNat ∧ p.hops.length ≤ policy.maxAllowedHops.toNat

section
variable {topo : FabricTopology} {src dst : DeviceId} {policy : RoutePolicy}

/-- An enumerated path has one hop for each switch, and as many as the hop limit and the depth bound allow. -/
theorem enumerated_depth {q : FabricPath} (hq : q ∈ topo.enumeratePaths src dst policy.traversal) :
    q.hops.length = q.switchSequence.length ∧
      q.switchSequence.length ≤ min policy.maxAllowedHops.toNat Limits.kMaxPathDepth := by
  have hfound := FabricTopology.enumeratePaths_found hq
  have hdepth := (FabricTopology.joinable_of_enumerated hq).2
  constructor
  · rw [← hfound.shaped.1.hopSwitches, List.length_map]
  · rw [← traversal_maxDepth]
    exact (hfound.simple hdepth).2

/-- **One decision keeps the bounds** iff each enumerated path that passes the hard filters keeps the switch limit, where the
    endpoints are admitted and the gate is open. -/
theorem withinBounds_iff (measurements : List Measurement) (id : RouteDecisionId) (gen : RouteGeneration)
    (snapshotId : TopologySnapshotId) (now : UInt64) (epoch : CoordinatorEpoch) :
    policy.WithinBounds (computeRoute topo src dst policy measurements id gen snapshotId now epoch) ↔
      (admitEndpoints topo src dst = none → topo.gateRefuses src dst policy = false →
        ∀ q ∈ topo.enumeratePaths src dst policy.traversal, topo.hardFilter policy q = true →
          q.switchSequence.length ≤ policy.maxAllowedSwitches.toNat) := by
  unfold RoutePolicy.WithinBounds
  rw [computeRoute_allowed_iff]
  constructor
  · intro h hadm hgate q hq hfilter
    obtain ⟨hgranted, hcandidate⟩ := granted_with_candidate hadm hgate hq hfilter
    exact (h hgranted (topo.capture q) hcandidate).1
  · rintro h ⟨best, hgrant⟩ p hp
    rw [computeRoute_of_granted hgrant] at hp
    obtain ⟨q, hq, hfilter, rfl⟩ := mem_rankedPaths.mp hp
    obtain ⟨hhops, hdepth⟩ := enumerated_depth hq
    refine ⟨h hgrant.admitted hgrant.gate q hq hfilter, ?_⟩
    show q.hops.length ≤ _
    rw [hhops]
    exact hdepth.trans (min_le_left _ _)

/-- A path that is not degraded passes the filters of every policy if it passes those of the default one. -/
theorem hardFilter_of_sound {q : FabricPath} (hsound : q.state ≠ .degraded) (hfilter : topo.hardFilter {} q = true)
    (policy : RoutePolicy) : topo.hardFilter policy q = true := by
  unfold FabricTopology.hardFilter at hfilter ⊢
  simp only [decide_eq_false hsound, Bool.and_false, Bool.not_false, Bool.and_true] at hfilter ⊢
  exact hfilter

end

/-! ## A row of switches -/

open Scan in
/-- Sixteen switches in a row: the source at the first one, a device at each, and a link from each to the next. -/
def switchRow : FabricTopology :=
  (FabricRegistry.after [.applyBulk (concat <| addDeviceLink ⟨100⟩ ⟨1⟩ 2 ⟨100⟩ ::
    (List.range' 1 Limits.kMaxPathDepth).flatMap fun n =>
      let i := UInt64.ofNat n
      [oneSwitch ⟨i⟩ 3, addDeviceLink ⟨i⟩ ⟨i⟩ 0 ⟨i⟩,
        { ports := [makeSyntheticPort ⟨i⟩ 1 (.toSwitch ⟨i + 1⟩)]
          links := if n < Limits.kMaxPathDepth then
            [makeSyntheticLink ⟨200 + i⟩ ⟨i⟩ ⟨⟨i⟩, 1⟩ (.toSwitch ⟨i + 1⟩)] else [] }])]).current

/-- The first path to the device at the `k`-th switch goes over the `k` switches up to it. -/
theorem switchRow_paths : ∀ k ∈ List.range' 1 Limits.kMaxPathDepth,
    admitEndpoints switchRow ⟨100⟩ ⟨UInt64.ofNat k⟩ = none ∧
      ∃ q ∈ switchRow.enumeratePaths ⟨100⟩ ⟨UInt64.ofNat k⟩ { maxPaths := 1, maxDepth := UInt32.ofNat k },
        q.switchSequence.length = k ∧ q.state = .up ∧ switchRow.hardFilter {} q = true := by
  decide +kernel

/-- **Every policy has its longest candidates on the row**: a path of `min maxAllowedHops 16` switches that passes its filters,
    unless that is none or the hop limit is the last one. -/
theorem switchRow_candidate {policy : RoutePolicy} {k : Nat}
    (hk : k = min policy.maxAllowedHops.toNat Limits.kMaxPathDepth) (hpos : 0 < k)
    (hlast : policy.maxAllowedHops ≠ RoutePolicy.lastHopLimit) :
    admitEndpoints switchRow ⟨100⟩ ⟨UInt64.ofNat k⟩ = none ∧
      ∃ q ∈ switchRow.enumeratePaths ⟨100⟩ ⟨UInt64.ofNat k⟩ policy.traversal,
        switchRow.hardFilter policy q = true ∧ q.switchSequence.length = k := by
  have hmem : k ∈ List.range' 1 Limits.kMaxPathDepth := by
    have hle : k ≤ Limits.kMaxPathDepth := hk ▸ min_le_right _ _
    rw [List.mem_range'_1]
    omega
  have hsmall : k < 2 ^ 32 := by
    have hle : k ≤ 16 := hk ▸ min_le_right _ _
    omega
  obtain ⟨hadm, q, hq, hlen, hup, hfilter⟩ := switchRow_paths k hmem
  -- the policy searches as deep, for at least one path
  have hdepth : UInt32.ofNat k ≤ policy.traversal.maxDepth := by
    rw [UInt32.le_iff_toNat_le, traversal_maxDepth, ← hk, UInt32.toNat_ofNat_of_lt' hsmall]
  have hpaths : (1 : UInt32) ≤ policy.traversal.maxPaths := by
    rw [UInt32.le_iff_toNat_le, traversal_maxPaths, toNat_min, toNat_hopLimit_add_one hlast]
    exact le_min (Nat.succ_le_succ (Nat.zero_le _)) (by decide)
  have hprefix : switchRow.enumeratePaths ⟨100⟩ ⟨UInt64.ofNat k⟩ { maxPaths := 1, maxDepth := UInt32.ofNat k } <+:
      switchRow.enumeratePaths ⟨100⟩ ⟨UInt64.ofNat k⟩ policy.traversal :=
    FabricTopology.enumeratePaths_prefix rfl hdepth hpaths
  exact ⟨hadm, q, hprefix.subset hq, hardFilter_of_sound (by simp [hup]) hfilter policy, hlen⟩

/-- There are no partitions on the row, so the gate is open. -/
theorem switchRow_gate (src dst : DeviceId) (policy : RoutePolicy) : switchRow.gateRefuses src dst policy = false := by
  have hnone : switchRow.activePartitions = [] := by decide +kernel
  unfold FabricTopology.gateRefuses
  rw [hnone]
  rfl

/-- **When candidates keep the bounds of a policy.** On every topology: iff `maxAllowedSwitches` is at least the number of
    switches that the search allows, or the hop limit is the last one, under which no route is granted. On one: iff each
    path enumerated for the request that passes the hard filters has at most `maxAllowedSwitches` switches. -/
theorem candidates_within_bounds_iff (policy : RoutePolicy) :
    ((∀ (topo : FabricTopology) (src dst : DeviceId) (measurements : List Measurement) (id : RouteDecisionId)
        (gen : RouteGeneration) (snapshotId : TopologySnapshotId) (now : UInt64) (epoch : CoordinatorEpoch),
        policy.WithinBounds (computeRoute topo src dst policy measurements id gen snapshotId now epoch)) ↔
      min policy.maxAllowedHops.toNat Limits.kMaxPathDepth ≤ policy.maxAllowedSwitches.toNat ∨
        policy.maxAllowedHops = RoutePolicy.lastHopLimit) ∧
    ∀ (topo : FabricTopology) (src dst : DeviceId) (measurements : List Measurement) (id : RouteDecisionId)
      (gen : RouteGeneration) (snapshotId : TopologySnapshotId) (now : UInt64) (epoch : CoordinatorEpoch),
      policy.WithinBounds (computeRoute topo src dst policy measurements id gen snapshotId now epoch) ↔
        (admitEndpoints topo src dst = none → topo.gateRefuses src dst policy = false →
          ∀ q ∈ topo.enumeratePaths src dst policy.traversal, topo.hardFilter policy q = true →
            q.switchSequence.length ≤ policy.maxAllowedSwitches.toNat) := by
  refine ⟨⟨?_, ?_⟩, fun _ _ _ => withinBounds_iff⟩
  · intro h
    by_contra hneither
    rw [not_or, not_le] at hneither
    obtain ⟨hover, hlast⟩ := hneither
    -- the longest candidate on the row has too many switches
    obtain ⟨hadm, q, hq, hfilter, hlen⟩ := switchRow_candidate rfl (Nat.zero_lt_of_lt hover) hlast
    have hle := (withinBounds_iff [] ⟨0⟩ ⟨0⟩ ⟨[]⟩ 0 0).mp (h switchRow ⟨100⟩ _ [] ⟨0⟩ ⟨0⟩ ⟨[]⟩ 0 0) hadm
      (switchRow_gate _ _ _) q hq hfilter
    rw [hlen] at hle
    exact absurd hover (not_lt.mpr hle)
  · intro h topo src dst measurements id gen snapshotId now epoch
    rw [withinBounds_iff]
    intro _ _ q hq _
    rcases h with hle | hlast
    · exact (enumerated_depth hq).2.trans hle
    · have hsame : policy = { policy with maxAllowedHops := RoutePolicy.lastHopLimit } := by rw [← hlast]
      rw [hsame, enumeratePaths_lastHopLimit] at hq
      exact absurd hq List.not_mem_nil

/-- A policy that allows one switch is granted a path over two. -/
theorem switch_limit_exceeded :
    let t := (FabricRegistry.after [.applyBulk (buildSyntheticScan .twoSwitchLinear)]).current
    let policy : RoutePolicy := { maxAllowedSwitches := 1 }
    let d := computeRoute t ⟨1⟩ ⟨2⟩ policy [] ⟨1⟩ ⟨0⟩ ⟨[]⟩ 0 0
    t.checkIntegrity = [] ∧ d.outcome = .routeAllowed ∧
      ∃ p ∈ d.candidatePaths, policy.maxAllowedSwitches.toNat < p.switchSequence.length := by
  decide +kernel

end NVSwitchFabric
