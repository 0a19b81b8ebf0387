import NVSwitchFabric.Correctness.Reachability
import Mathlib.Data.List.Infix

/-!
# `Correctness.PathOrder` — shorter paths first

The search tree lists paths by their number of hops (`pathsFrom_sorted`), and enumeration takes the first ones, so a smaller
limit cuts off longer paths (`enumeratePaths_shortest_first`). A smaller depth cuts the tree off below its first levels
(`pathsInOrder_prefix`), so what enumeration returns under tighter bounds is a prefix of what it returns under wider ones
(`enumeratePaths_prefix`).

The hop limit of a policy sets both bounds of the search, and the number of paths by a sum of 64 bits. It is
monotone up to the one value where the sum is zero, under which there is no route at all (`allowed_wider_iff`).
-/

namespace NVSwitchFabric

open Lib

namespace FabricTopology

variable {t : FabricTopology} {src dst : DeviceId} {cfg cfg' : TraversalConfig}

/-! ## Order -/

/-- An extension has one hop more. -/
theorem extensions_hops (t : FabricTopology) (cfg : TraversalConfig) :
    Worklist.Graded (Partial.extensions cfg t.swEdges) (fun _ => True) (fun p => p.hops.length) fun _ => () where
  item := fun _ _ _ => trivial
  tag := fun _ _ _ => rfl
  rank := by
    intro p _ k hk
    obtain ⟨e, _, _, _, rfl⟩ := mem_through_iff.mp hk
    show (modifyBack _ p.hops ++ [_]).length = p.hops.length + 1
    rw [List.length_append, length_modifyBack]
    rfl

/-- **The paths of a search tree are in the order of their hops.** -/
theorem pathsFrom_sorted (t : FabricTopology) (src dst : DeviceId) (cfg : TraversalConfig) (devEdges : List Edge) :
    (t.pathsFrom src dst cfg devEdges).Pairwise fun p q => p.hops.length ≤ q.hops.length := by
  have hseeds : ∀ p ∈ (devEdges.filter fun e => e.other.device = src && edgeUsable e).map Partial.seed,
      True ∧ p.hops.length = 1 := by
    intro p hp
    obtain ⟨e, _, rfl⟩ := List.mem_map.mp hp
    exact ⟨trivial, rfl⟩
  have htree := (t.extensions_hops cfg).levels_sorted cfg.maxDepth.toNat 1 _ hseeds (List.pairwise_of_forall fun _ _ => le_rfl)
  have hrank := htree.imp fun {p p'} hle => by
    show p.hops.length ≤ p'.hops.length
    exact (Prod.Lex.toLex_le_toLex.mp hle).elim le_of_lt fun heq => heq.1.le
  refine Worklist.pairwise_flatMap_of_key ?_ hrank
  intro p _ q hq
  obtain ⟨e, _, _, _, _, rfl⟩ := mem_finishes_iff.mp hq
  exact length_modifyBack _ _

/-- Without two endpoints to join there are no paths. -/
theorem enumeratePaths_of_not_joinable (h : ¬ t.Joinable src dst) : t.enumeratePaths src dst cfg = [] :=
  List.eq_nil_iff_forall_not_mem.mpr fun _ hq => h (joinable_of_enumerated hq).1

theorem enumeratePaths_sorted (t : FabricTopology) (src dst : DeviceId) (cfg : TraversalConfig) :
    (t.enumeratePaths src dst cfg).Pairwise fun p q => p.hops.length ≤ q.hops.length := by
  by_cases hjoin : t.Joinable src dst
  · rw [enumeratePaths_eq hjoin]
    exact (t.pathsFrom_sorted src dst cfg t.deviceEdges).take
  · rw [enumeratePaths_of_not_joinable hjoin]
    exact List.Pairwise.nil

/-- A smaller limit cuts off the end. -/
theorem enumeratePaths_take {m m' : UInt32} (hle : m ≤ m') :
    t.enumeratePaths src dst { cfg with maxPaths := m } =
      (t.enumeratePaths src dst { cfg with maxPaths := m' }).take m.toNat := by
  by_cases hjoin : t.Joinable src dst
  · rw [enumeratePaths_eq hjoin, enumeratePaths_eq hjoin, List.take_take, min_eq_left (UInt32.le_iff_toNat_le.mp hle)]
    rfl
  · rw [enumeratePaths_of_not_joinable hjoin, enumeratePaths_of_not_joinable hjoin, List.take_nil]

/-- **Truncation keeps the shortest paths.** Enumeration returns paths in the order of their hops, and under a smaller limit
    the first of those it returns under a larger one; none that is left out has fewer hops than one that is returned. -/
theorem enumeratePaths_shortest_first (t : FabricTopology) (src dst : DeviceId) (cfg : TraversalConfig) :
    ((t.enumeratePaths src dst cfg).Pairwise fun p q => p.hops.length ≤ q.hops.length) ∧
      ∀ m m' : UInt32, m ≤ m' →
        let all := t.enumeratePaths src dst { cfg with maxPaths := m' }
        let first := t.enumeratePaths src dst { cfg with maxPaths := m }
        first = all.take (min m.toNat all.length) ∧
          ∀ p ∈ first, ∀ q ∈ all.drop m.toNat, p.hops.length ≤ q.hops.length := by
  refine ⟨t.enumeratePaths_sorted src dst cfg, ?_⟩
  intro m m' hle all first
  have hfirst : first = all.take m.toNat := enumeratePaths_take hle
  constructor
  · rw [List.take_eq_take_min] at hfirst
    exact hfirst
  · have hsorted : (all.take m.toNat ++ all.drop m.toNat).Pairwise fun p q => p.hops.length ≤ q.hops.length := by
      rw [List.take_append_drop]
      exact t.enumeratePaths_sorted src dst _
    rw [hfirst]
    exact (List.pairwise_append.mp hsorted).2.2

/-- Three redundant paths, of which the first is the one that a limit of one leaves. -/
theorem enumeratePaths_shortest_first_twoSwitchRedundant :
    let t := (FabricRegistry.after [.applyBulk (buildSyntheticScan .twoSwitchRedundant)]).current
    t.enumeratePaths ⟨1⟩ ⟨2⟩ { maxPaths := 1 } =
      (t.enumeratePaths ⟨1⟩ ⟨2⟩ { maxPaths := 8 }).take (min 1 (t.enumeratePaths ⟨1⟩ ⟨2⟩ { maxPaths := 8 }).length) ∧
    2 ≤ (t.enumeratePaths ⟨1⟩ ⟨2⟩ { maxPaths := 8 }).length :=
  ⟨((enumeratePaths_shortest_first _ ⟨1⟩ ⟨2⟩ {}).2 1 8 (by decide)).1, by decide +kernel⟩

/-! ## Depth -/

/-- An extension has one switch more. -/
theorem extensions_switches (t : FabricTopology) (cfg : TraversalConfig) :
    Worklist.Graded (Partial.extensions cfg t.swEdges) (fun _ => True) (fun p => p.switches.length) fun _ => () where
  item := fun _ _ _ => trivial
  tag := fun _ _ _ => rfl
  rank := by
    intro p _ k hk
    obtain ⟨e, _, _, _, rfl⟩ := mem_through_iff.mp hk
    exact List.length_append

/-- A path that may grow under the smaller depth grows in the same way under the larger one. -/
theorem extensions_of_shallow (hallow : cfg'.allowSwitchSwitching = cfg.allowSwitchSwitching)
    (hdepth : cfg.maxDepth ≤ cfg'.maxDepth) {p : Partial} (hp : p.switches.length < cfg.maxDepth.toNat) :
    p.extensions cfg t.swEdges = p.extensions cfg' t.swEdges := by
  have hdeeper : p.switches.length < cfg'.maxDepth.toNat := lt_of_lt_of_le hp (UInt32.le_iff_toNat_le.mp hdepth)
  unfold Partial.extensions Partial.through Partial.goesOn
  simp only [hallow, decide_eq_true hp, decide_eq_true hdeeper]

/-- **A smaller depth keeps the first paths of the tree.** -/
theorem pathsInOrder_prefix (hallow : cfg'.allowSwitchSwitching = cfg.allowSwitchSwitching)
    (hdepth : cfg.maxDepth ≤ cfg'.maxDepth) : t.pathsInOrder src dst cfg <+: t.pathsInOrder src dst cfg' := by
  have hseeds : ∀ p ∈ (t.deviceEdges.filter fun e => e.other.device = src && edgeUsable e).map Partial.seed,
      True ∧ p.switches.length = 1 := by
    intro p hp
    obtain ⟨e, _, rfl⟩ := List.mem_map.mp hp
    exact ⟨trivial, rfl⟩
  have hsame : t.searchTree src cfg = Worklist.levels (Partial.extensions cfg' t.swEdges) cfg.maxDepth.toNat
      ((t.deviceEdges.filter fun e => e.other.device = src && edgeUsable e).map Partial.seed) := by
    refine (t.extensions_switches cfg').levels_congr cfg.maxDepth.toNat 1 _ hseeds ?_
    intro p _ hp
    exact extensions_of_shallow hallow hdepth (by omega)
  have hlevels : t.searchTree src cfg <+: t.searchTree src cfg' := by
    rw [hsame]
    exact Worklist.levels_prefix (UInt32.le_iff_toNat_le.mp hdepth) _
  obtain ⟨deeper, hdeeper⟩ := hlevels
  unfold pathsInOrder
  rw [← hdeeper, List.flatMap_append]
  exact List.prefix_append _ _

/-- **Wider bounds add paths at the end.** -/
theorem enumeratePaths_prefix (hallow : cfg'.allowSwitchSwitching = cfg.allowSwitchSwitching)
    (hdepth : cfg.maxDepth ≤ cfg'.maxDepth) (hpaths : cfg.maxPaths ≤ cfg'.maxPaths) :
    t.enumeratePaths src dst cfg <+: t.enumeratePaths src dst cfg' := by
  by_cases hjoin : t.Joinable src dst
  · rw [enumeratePaths_eq hjoin, enumeratePaths_eq hjoin]
    have htree : t.pathsInOrder src dst cfg <+: t.pathsInOrder src dst cfg' := pathsInOrder_prefix hallow hdepth
    exact (htree.take _).trans (List.take_prefix_take_left (UInt32.le_iff_toNat_le.mp hpaths))
  · rw [enumeratePaths_of_not_joinable hjoin]
    exact List.nil_prefix

end FabricTopology

/-! ## The hop limit -/

/-- The largest hop limit, to which one cannot be added in 64 bits. -/
def RoutePolicy.lastHopLimit : UInt64 := 18446744073709551615

/-- The hop limit plus one, in 64 bits. -/
theorem toNat_hopLimit_add_one {h : UInt64} (hlast : h ≠ RoutePolicy.lastHopLimit) : (h + 1).toNat = h.toNat + 1 := by
  have hlt : h.toNat < 18446744073709551615 := by
    have hle := h.toNat_lt
    have hne : h.toNat ≠ 18446744073709551615 := fun heq => hlast (UInt64.toNat_inj.mp heq)
    omega
  rw [UInt64.toNat_add]
  exact Nat.mod_eq_of_lt (by simpa using Nat.succ_lt_succ hlt)

variable {topo : FabricTopology} {src dst : DeviceId} {policy : RoutePolicy} {measurements : List Measurement}
  {id : RouteDecisionId} {gen : RouteGeneration} {snapshotId : TopologySnapshotId} {now : UInt64}
  {epoch : CoordinatorEpoch} {h h' : UInt64}

/-- A wider hop limit below the last value widens both bounds of the search. -/
theorem traversal_mono (policy : RoutePolicy) (hle : h ≤ h') (hlast : h' ≠ RoutePolicy.lastHopLimit) :
    let cfg := { policy with maxAllowedHops := h }.traversal
    let cfg' := { policy with maxAllowedHops := h' }.traversal
    cfg.maxPaths ≤ cfg'.maxPaths ∧ cfg.maxDepth ≤ cfg'.maxDepth := by
  intro cfg cfg'
  have hlt := UInt64.le_iff_toNat_le.mp hle
  have hfirst : h ≠ RoutePolicy.lastHopLimit := by
    rintro rfl
    exact hlast (le_antisymm (UInt64.le_iff_toNat_le.mpr (Nat.le_of_lt_succ h'.toNat_lt)) hle)
  constructor
  · rw [UInt32.le_iff_toNat_le, traversal_maxPaths, traversal_maxPaths, toNat_min, toNat_min]
    show min (h + 1).toNat _ ≤ min (h' + 1).toNat _
    rw [toNat_hopLimit_add_one hfirst, toNat_hopLimit_add_one hlast]
    exact min_le_min_right _ (Nat.succ_le_succ hlt)
  · rw [UInt32.le_iff_toNat_le, traversal_maxDepth, traversal_maxDepth]
    exact min_le_min_right _ hlt

/-- Under the last hop limit no path is enumerated. -/
theorem enumeratePaths_lastHopLimit :
    topo.enumeratePaths src dst { policy with maxAllowedHops := RoutePolicy.lastHopLimit }.traversal = [] := by
  have hzero : { policy with maxAllowedHops := RoutePolicy.lastHopLimit }.traversal.maxPaths = 0 := by
    show (min (RoutePolicy.lastHopLimit + 1) (UInt64.ofNat Limits.kMaxCandidatePaths)).toUInt32 = 0
    decide
  simp [FabricTopology.enumeratePaths, hzero]

/-- **When relaxing the hop limit keeps a route**: unless it is relaxed to the last value, whose successor is zero, the number
    of paths then considered. -/
theorem allowed_wider_iff (hle : h ≤ h')
    (hallowed : (computeRoute topo src dst { policy with maxAllowedHops := h } measurements id gen snapshotId now
      epoch).outcome.isAllowed = true) :
    (computeRoute topo src dst { policy with maxAllowedHops := h' } measurements id gen snapshotId now
      epoch).outcome.isAllowed = true ↔ h' ≠ RoutePolicy.lastHopLimit := by
  rw [computeRoute_allowed_iff, granted_iff_exists] at hallowed ⊢
  obtain ⟨hadm, hgate, p, hp, hfilter⟩ := hallowed
  constructor
  · rintro ⟨_, _, q, hq, _⟩ rfl
    rw [enumeratePaths_lastHopLimit] at hq
    exact absurd hq List.not_mem_nil
  · intro hlast
    obtain ⟨hpaths, hdepth⟩ := traversal_mono policy hle hlast
    have hwider : topo.enumeratePaths src dst { policy with maxAllowedHops := h }.traversal <+:
        topo.enumeratePaths src dst { policy with maxAllowedHops := h' }.traversal :=
      FabricTopology.enumeratePaths_prefix rfl hdepth hpaths
    -- the gate and the filters do not read the hop limit
    exact ⟨hadm, hgate, p, hwider.subset hp, hfilter⟩

/-- The default hop limit may be raised to 1000. -/
theorem allowed_wider_singleSwitch :
    let t := (FabricRegistry.after [.applyBulk (buildSyntheticScan .singleSwitchTwoGpu)]).current
    (computeRoute t ⟨1⟩ ⟨2⟩ { maxAllowedHops := 16 } [] ⟨1⟩ ⟨0⟩ ⟨[]⟩ 0 0).outcome.isAllowed = true ∧
      (computeRoute t ⟨1⟩ ⟨2⟩ { maxAllowedHops := 1000 } [] ⟨1⟩ ⟨0⟩ ⟨[]⟩ 0 0).outcome.isAllowed = true := by
  intro t
  have hallowed : (computeRoute t ⟨1⟩ ⟨2⟩ { maxAllowedHops := 16 } [] ⟨1⟩ ⟨0⟩ ⟨[]⟩ 0 0).outcome.isAllowed = true := by
    decide +kernel
  have hwider := @allowed_wider_iff t ⟨1⟩ ⟨2⟩ {} [] ⟨1⟩ ⟨0⟩ ⟨[]⟩ 0 0 16 1000 (by decide) hallowed
  exact ⟨hallowed, hwider.mpr (by decide)⟩

/-- The last hop limit loses the route that the default one finds. -/
theorem route_lost_at_last_limit :
    let t := (FabricRegistry.after [.applyBulk (buildSyntheticScan .singleSwitchTwoGpu)]).current
    (computeRoute t ⟨1⟩ ⟨2⟩ { maxAllowedHops := 16 } [] ⟨1⟩ ⟨0⟩ ⟨[]⟩ 0 0).outcome = .routeAllowed ∧
      (computeRoute t ⟨1⟩ ⟨2⟩ { maxAllowedHops := 18446744073709551615 } [] ⟨1⟩ ⟨0⟩ ⟨[]⟩ 0 0).outcome = .noRoute := by
  decide +kernel

end NVSwitchFabric
