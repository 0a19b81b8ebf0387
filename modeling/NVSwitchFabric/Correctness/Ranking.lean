import NVSwitchFabric.Correctness.RouteSound
import NVSwitchFabric.Correctness.WellFormed
import NVSwitchFabric.Model.Scenario

/-!
# `Correctness.Ranking` — the order of the candidates

Comparing `rankKey`s, the ranking comparator is a strict weak order, and the stable sort under it lists the eligible paths by
their keys and then by their places in the enumeration (`rankPaths_places`). `computeRoute_ranking` says so of the
candidates of a grant.
-/

namespace NVSwitchFabric

open Lib

variable {topo : FabricTopology}

/-- The ranking comparator is a strict weak order. -/
theorem isStrictWeakOrder_rankBefore (topo : FabricTopology) (meas : BestMeasurement)
    (factors : List (RouteFactor × Double)) :
    IsStrictWeakOrder FabricPath fun a b => rankBefore topo meas a b factors = true where
  irrefl a h := lt_irrefl _ (rankBefore_iff.mp h)
  trans a b c hab hbc := rankBefore_iff.mpr ((rankBefore_iff.mp hab).trans (rankBefore_iff.mp hbc))
  incomp_trans := by
    intro a b c hab hbc
    simp only [not_rankBefore_iff] at hab hbc ⊢
    exact ⟨hbc.1.trans hab.1, hab.2.trans hbc.2⟩

/-! ## The candidates -/

/-- The ranking lists paths by their keys, and those of one key by their places in the enumeration. -/
theorem rankPaths_places (topo : FabricTopology) (meas : BestMeasurement) (policy : RoutePolicy) (paths : List FabricPath) :
    ∃ order : List (FabricPath × Nat), order.Perm paths.zipIdx ∧ order.map Prod.fst = rankPaths topo meas policy paths ∧
      order.Pairwise (KeyThenPlace (rankKey topo meas policy.factors)) := by
  have hkey : ∀ a b : FabricPath, ¬ rankBefore topo meas b a policy.factors = true ↔
      rankKey topo meas policy.factors a ≤ rankKey topo meas policy.factors b := fun _ _ => not_rankBefore_iff
  exact insertionSort_places hkey paths

/-- **Ranking is exact.** The candidates of an allowed decision are the paths enumerated under the bounds of the policy that
    pass the hard filters, with the generations they were captured under. They stand in the lexicographic order of
    their factor values, their canonical keys and their places in the enumeration; the comparator is a strict weak order,
    the measured factors do not tell candidates apart, and the first candidate is selected. -/
theorem computeRoute_ranking {src dst : DeviceId} {policy : RoutePolicy} {measurements : List Measurement}
    {id : RouteDecisionId} {gen : RouteGeneration} {snapshotId : TopologySnapshotId} {now : UInt64}
    {epoch : CoordinatorEpoch}
    (hallowed : (computeRoute topo src dst policy measurements id gen snapshotId now epoch).outcome.isAllowed = true) :
    let d := computeRoute topo src dst policy measurements id gen snapshotId now epoch
    let eligible := ((topo.enumeratePaths src dst policy.traversal).filter (topo.hardFilter policy)).map topo.capture
    let meas := bestFor measurements src dst
    d.candidatePaths.Perm eligible ∧
      (∃ order : List (FabricPath × Nat), order.Perm eligible.zipIdx ∧ order.map Prod.fst = d.candidatePaths ∧
        order.Pairwise fun a b =>
          toLex (rankKey topo meas policy.factors a.1, a.2) < toLex (rankKey topo meas policy.factors b.1, b.2)) ∧
      IsStrictWeakOrder FabricPath (fun a b => rankBefore topo meas a b policy.factors = true) ∧
      (∀ a b : FabricPath,
        factorValue .measuredThroughput a topo meas = factorValue .measuredThroughput b topo meas ∧
        factorValue .measuredLatency a topo meas = factorValue .measuredLatency b topo meas) ∧
      ∃ best, d.candidatePaths.head? = some best ∧ d.selected = some best := by
  intro d eligible meas
  obtain ⟨best, hgrant⟩ := computeRoute_allowed_iff.mp hallowed
  have hd : d.candidatePaths = rankedPaths topo src dst policy measurements ∧ d.selected = some best := by
    show (computeRoute topo src dst policy measurements id gen snapshotId now epoch).candidatePaths = _ ∧
      (computeRoute topo src dst policy measurements id gen snapshotId now epoch).selected = _
    rw [computeRoute_of_granted hgrant]
    exact ⟨rfl, rfl⟩
  rw [hd.1]
  exact ⟨List.perm_insertionSort _ _, rankPaths_places topo meas policy eligible,
    isStrictWeakOrder_rankBefore topo meas policy.factors, fun _ _ => ⟨rfl, rfl⟩, best, hgrant.first, hd.2⟩

/-- The paths over two redundant switches, the direct ones first. -/
theorem computeRoute_ranking_twoSwitchRedundant :
    let t := (FabricRegistry.after [.applyBulk (buildSyntheticScan .twoSwitchRedundant)]).current
    let d := computeRoute t ⟨1⟩ ⟨2⟩ {} [] ⟨1⟩ ⟨0⟩ ⟨[]⟩ 0 0
    d.candidatePaths.map (·.switchSequence) = [[⟨10⟩], [⟨11⟩], [⟨10⟩, ⟨11⟩], [⟨11⟩, ⟨10⟩]] ∧
      ∃ best, d.candidatePaths.head? = some best ∧ d.selected = some best := by
  intro t d
  have hallowed : d.outcome.isAllowed = true := by decide +kernel
  exact ⟨by decide +kernel, (computeRoute_ranking hallowed).2.2.2.2⟩

end NVSwitchFabric
