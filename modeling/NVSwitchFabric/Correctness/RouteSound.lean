import NVSwitchFabric.Lib.StableSort
import NVSwitchFabric.Model.Route
import Mathlib.Algebra.Order.Ring.Unbundled.Rat
import Mathlib.Data.List.Lex

/-!
# `Correctness.RouteSound` — when `computeRoute` grants

`Granted` collects the stages `computeRoute` passes on its way to a grant. `computeRoute_of_granted` computes the
decision from it, `computeRoute_refused` says what every other request gets, and from the two follow the exact
conditions for an allowed outcome (`computeRoute_allowed_iff`) and for an authoritative decision
(`computeRoute_authoritative_iff`). The proofs about decisions use these and never unfold `computeRoute`.

The ranking comparator goes through the factors one by one. It compares, in lexicographic order, the list of the factor
values of a path and then its canonical key (`rankBefore_iff`).
-/

namespace NVSwitchFabric

open Lib

variable {topo : FabricTopology} {src dst : DeviceId} {policy : RoutePolicy}
  {measurements : List Measurement} {id : RouteDecisionId} {gen : RouteGeneration}
  {snapshotId : TopologySnapshotId} {now : UInt64} {epoch : CoordinatorEpoch}

/-! ## Eligible candidates -/

/-- The candidates in ranking order. -/
def rankedPaths (topo : FabricTopology) (src dst : DeviceId) (policy : RoutePolicy)
    (measurements : List Measurement) : List FabricPath :=
  rankPaths topo (bestFor measurements src dst) policy
    (topo.eligiblePaths policy (topo.enumeratePaths src dst policy.traversal))

/-- Ranking reorders the eligible paths: each is an enumerated path that passes the hard filters, with its
    generations captured. -/
theorem mem_rankedPaths {q : FabricPath} :
    q ∈ rankedPaths topo src dst policy measurements ↔
      ∃ p ∈ topo.enumeratePaths src dst policy.traversal, topo.hardFilter policy p = true ∧
        topo.capture p = q := by
  unfold rankedPaths rankPaths FabricTopology.eligiblePaths
  rw [List.mem_insertionSort, List.mem_map]
  simp only [List.mem_filter, and_assoc]

theorem rankedPaths_eq_nil_iff :
    rankedPaths topo src dst policy measurements = [] ↔
      ∀ p ∈ topo.enumeratePaths src dst policy.traversal, topo.hardFilter policy p = false := by
  rw [List.eq_nil_iff_forall_not_mem]
  constructor
  · intro h p hp
    by_contra hf
    rw [Bool.not_eq_false] at hf
    exact h _ (mem_rankedPaths.mpr ⟨p, hp, hf, rfl⟩)
  · intro h q hq
    obtain ⟨p, hp, hf, _⟩ := mem_rankedPaths.mp hq
    rw [h p hp] at hf
    exact absurd hf (by simp)

/-! ## The stages -/

/-- Every stage passes, and `best` is ranked first. -/
structure Granted (topo : FabricTopology) (src dst : DeviceId) (policy : RoutePolicy)
    (measurements : List Measurement) (best : FabricPath) : Prop where
  admitted : admitEndpoints topo src dst = none
  gate     : topo.gateRefuses src dst policy = false
  first    : (rankedPaths topo src dst policy measurements).head? = some best

theorem granted_iff_exists :
    (∃ best, Granted topo src dst policy measurements best) ↔
      admitEndpoints topo src dst = none ∧ topo.gateRefuses src dst policy = false ∧
      ∃ p ∈ topo.enumeratePaths src dst policy.traversal, topo.hardFilter policy p = true := by
  constructor
  · rintro ⟨best, h⟩
    obtain ⟨p, hp, hf, _⟩ := mem_rankedPaths.mp (List.mem_of_mem_head? h.first)
    exact ⟨h.admitted, h.gate, p, hp, hf⟩
  · rintro ⟨hadm, hgate, p, hp, hf⟩
    cases hr : rankedPaths topo src dst policy measurements with
    | nil =>
      have := rankedPaths_eq_nil_iff.mp hr p hp
      rw [hf] at this
      exact absurd this (by simp)
    | cons best ranked => exact ⟨best, hadm, hgate, by rw [hr]; rfl⟩

/-- No outcome of a refused request is allowed. -/
theorem noPathOutcome_not_allowed (r : Reachability) : (noPathOutcome r).1.isAllowed = false := by
  cases r <;> rfl

theorem admitEndpoints_not_allowed {o : RouteOutcome} {reason : String}
    (h : admitEndpoints topo src dst = some (o, reason)) : o.isAllowed = false := by
  unfold admitEndpoints at h
  split at h
  · split_ifs at h <;>
      (obtain ⟨rfl, rfl⟩ := Prod.mk.inj (Option.some.inj h); rfl)
  · obtain ⟨rfl, rfl⟩ := Prod.mk.inj (Option.some.inj h)
    rfl

/-- **The grant.** -/
theorem computeRoute_of_granted {best : FabricPath} (h : Granted topo src dst policy measurements best) :
    computeRoute topo src dst policy measurements id gen snapshotId now epoch =
      ((openDecision topo src dst policy id gen snapshotId now epoch).withPartition
        (topo.gatePartition src dst)).grant topo policy (bestFor measurements src dst) best
        (rankedPaths topo src dst policy measurements) := by
  obtain ⟨ranked, hr⟩ : ∃ ranked, rankedPaths topo src dst policy measurements = best :: ranked := by
    have hfirst := h.first
    cases hr : rankedPaths topo src dst policy measurements with
    | nil => rw [hr] at hfirst; exact absurd hfirst (by simp)
    | cons q ranked =>
      rw [hr, List.head?_cons] at hfirst
      exact ⟨ranked, by rw [Option.some.inj hfirst]⟩
  obtain ⟨p, hp, _, _⟩ := mem_rankedPaths.mp (List.mem_of_mem_head? h.first)
  have hraw : (topo.enumeratePaths src dst policy.traversal).isEmpty = false := by
    rw [List.isEmpty_eq_false_iff_exists_mem]
    exact ⟨p, hp⟩
  unfold computeRoute
  rw [h.admitted]
  dsimp only
  rw [h.gate, if_neg (by simp), hraw, if_neg (by simp)]
  rw [rankedPaths] at hr ⊢
  rw [hr]

/-- Nothing is selected, nothing is authoritative, and the outcome is not an allowed one. -/
structure RouteDecision.Refused (d : RouteDecision) : Prop where
  outcome       : d.outcome.isAllowed = false
  authoritative : d.authoritative = false
  selected      : d.selected = none

theorem refused_refuse {d : RouteDecision} {o : RouteOutcome} {reason : String}
    (hauth : d.authoritative = false) (hsel : d.selected = none) (ho : o.isAllowed = false) :
    (d.refuse o reason).Refused := ⟨ho, hauth, hsel⟩

theorem withPartition_authoritative (d : RouteDecision) (part : Option FabricPartition) :
    (d.withPartition part).authoritative = d.authoritative := by
  cases part <;> rfl

theorem withPartition_selected (d : RouteDecision) (part : Option FabricPartition) :
    (d.withPartition part).selected = d.selected := by
  cases part <;> rfl

variable (id gen snapshotId now epoch) in
/-- **The refusal.** A request that fails a stage is refused. -/
theorem computeRoute_refused (h : ∀ best, ¬ Granted topo src dst policy measurements best) :
    (computeRoute topo src dst policy measurements id gen snapshotId now epoch).Refused := by
  unfold computeRoute
  cases hadm : admitEndpoints topo src dst with
  | some refusal => exact refused_refuse rfl rfl (admitEndpoints_not_allowed hadm)
  | none =>
    dsimp only
    cases hgate : topo.gateRefuses src dst policy with
    | true =>
      rw [if_pos rfl]
      apply refused_refuse rfl rfl
      split <;> rfl
    | false =>
      rw [if_neg (by simp)]
      split
      · exact refused_refuse (withPartition_authoritative _ _) (withPartition_selected _ _)
          (noPathOutcome_not_allowed _)
      · cases hr : rankedPaths topo src dst policy measurements with
        | cons best ranked => exact absurd ⟨hadm, hgate, by rw [hr]; rfl⟩ (h best)
        | nil =>
          rw [rankedPaths] at hr
          rw [hr]
          apply refused_refuse (withPartition_authoritative _ _) (withPartition_selected _ _)
          split <;> rfl

/-! ## Ranking -/

/-- The values of a path under the factors in declared order. -/
def factorValues (topo : FabricTopology) (meas : BestMeasurement) (factors : List (RouteFactor × Double))
    (p : FabricPath) : List Rat :=
  factors.map fun f => factorValue f.1 p topo meas

/-- What the ranking compares paths by. -/
def rankKey (topo : FabricTopology) (meas : BestMeasurement) (factors : List (RouteFactor × Double)) (p : FabricPath) :
    List Rat ×ₗ Str :=
  toLex (factorValues topo meas factors p, p.canonicalKey)

section
variable {meas : BestMeasurement} {factors : List (RouteFactor × Double)}

/-- One more factor: it decides, unless it ties. -/
theorem rankKey_cons_lt {f : RouteFactor × Double} {a b : FabricPath} :
    rankKey topo meas (f :: factors) a < rankKey topo meas (f :: factors) b ↔
      factorValue f.1 a topo meas < factorValue f.1 b topo meas ∨
        factorValue f.1 a topo meas = factorValue f.1 b topo meas ∧
          rankKey topo meas factors a < rankKey topo meas factors b := by
  unfold rankKey factorValues
  rw [Prod.Lex.toLex_lt_toLex, Prod.Lex.toLex_lt_toLex, List.map_cons, List.map_cons, List.cons_lt_cons_iff,
    List.cons_eq_cons]
  tauto

/-- **The ranking comparator compares the factor values, and then the canonical keys.** -/
theorem rankBefore_iff {a b : FabricPath} :
    rankBefore topo meas a b factors = true ↔ rankKey topo meas factors a < rankKey topo meas factors b := by
  induction factors with
  | nil => simp [rankBefore, rankKey, factorValues, Prod.Lex.toLex_lt_toLex]
  | cons f factors ih =>
    rw [rankKey_cons_lt, ← ih, rankBefore]
    rcases lt_trichotomy (factorValue f.1 a topo meas) (factorValue f.1 b topo meas) with hlt | heq | hgt
    · simp [hlt]
    · simp [heq]
    · simp [hgt, hgt.not_gt, hgt.ne']

theorem not_rankBefore_iff {a b : FabricPath} :
    ¬ rankBefore topo meas b a factors = true ↔ rankKey topo meas factors a ≤ rankKey topo meas factors b := by
  rw [rankBefore_iff, not_lt]

end

/-- The candidate that ranks first: nothing enumerated before it ties with or precedes it, nothing enumerated
    after it precedes it. -/
def FirstRanked (topo : FabricTopology) (src dst : DeviceId) (policy : RoutePolicy)
    (measurements : List Measurement) : FabricPath → Prop :=
  FirstUnder (fun a b => ¬ rankBefore topo (bestFor measurements src dst) b a policy.factors = true)
    (topo.eligiblePaths policy (topo.enumeratePaths src dst policy.traversal))

/-- **What is granted.** The endpoints are admitted, the gate is open, and the path ranks first. -/
theorem granted_iff {best : FabricPath} :
    Granted topo src dst policy measurements best ↔
      admitEndpoints topo src dst = none ∧ topo.gateRefuses src dst policy = false ∧
        FirstRanked topo src dst policy measurements best := by
  have hfirst : (rankedPaths topo src dst policy measurements).head? = some best ↔
      FirstRanked topo src dst policy measurements best := by
    refine head?_insertionSort_iff ?_ ?_
    · intro a b
      rw [not_rankBefore_iff, not_rankBefore_iff]
      exact le_total _ _
    · intro a b c hab hbc
      rw [not_rankBefore_iff] at hab hbc ⊢
      exact hab.trans hbc
  constructor
  · intro h
    exact ⟨h.admitted, h.gate, hfirst.mp h.first⟩
  · rintro ⟨hadm, hgate, h⟩
    exact ⟨hadm, hgate, hfirst.mpr h⟩

/-! ## Exact conditions -/

theorem grant_isAllowed (d : RouteDecision) (meas : BestMeasurement) (best : FabricPath)
    (ranked : List FabricPath) : (d.grant topo policy meas best ranked).outcome.isAllowed = true := by
  show (if best.state = .degraded then RouteOutcome.routeAllowedDegraded else .routeAllowed).isAllowed
    = true
  split <;> rfl

/-- **Allowed iff every stage passes.** -/
theorem computeRoute_allowed_iff :
    (computeRoute topo src dst policy measurements id gen snapshotId now epoch).outcome.isAllowed = true ↔
      ∃ best, Granted topo src dst policy measurements best := by
  constructor
  · intro h
    by_contra hno
    have href := computeRoute_refused id gen snapshotId now epoch (not_exists.mp hno)
    rw [href.outcome] at h
    exact absurd h (by simp)
  · rintro ⟨best, h⟩
    rw [computeRoute_of_granted h]
    exact grant_isAllowed _ _ _ _

/-- **Authoritative iff every stage passes.** -/
theorem computeRoute_authoritative_iff :
    (computeRoute topo src dst policy measurements id gen snapshotId now epoch).authoritative = true ↔
      ∃ best, Granted topo src dst policy measurements best := by
  constructor
  · intro h
    by_contra hno
    have href := computeRoute_refused id gen snapshotId now epoch (not_exists.mp hno)
    rw [href.authoritative] at h
    exact absurd h (by simp)
  · rintro ⟨best, h⟩
    rw [computeRoute_of_granted h]
    rfl

/-- A path that passes the hard filters, behind admission and the gate, brings a grant, and is among its candidates. -/
theorem granted_with_candidate {q : FabricPath} (hadm : admitEndpoints topo src dst = none)
    (hgate : topo.gateRefuses src dst policy = false) (hq : q ∈ topo.enumeratePaths src dst policy.traversal)
    (hfilter : topo.hardFilter policy q = true) :
    (∃ best, Granted topo src dst policy measurements best) ∧
      topo.capture q ∈ (computeRoute topo src dst policy measurements id gen snapshotId now epoch).candidatePaths := by
  have hgranted : ∃ best, Granted topo src dst policy measurements best :=
    granted_iff_exists.mpr ⟨hadm, hgate, q, hq, hfilter⟩
  refine ⟨hgranted, ?_⟩
  obtain ⟨best, hgrant⟩ := hgranted
  rw [computeRoute_of_granted hgrant]
  show topo.capture q ∈ rankedPaths topo src dst policy measurements
  exact mem_rankedPaths.mpr ⟨q, hq, hfilter, rfl⟩

end NVSwitchFabric
