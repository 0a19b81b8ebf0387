import NVSwitchFabric.Correctness.Ranking
import NVSwitchFabric.Correctness.UsablePaths

/-!
# `Correctness.HiddenDegradation` — degraded elements that a route does not show

A path is marked degraded by the degraded flags of its links alone (`Found.state_degraded_iff`), while links, ports and
switches can also be in state `DEGRADED` without a flag. A path that has such an element and no flagged link `Hides`
degradation: it passes for a sound one, in the outcome and under a policy that excludes degraded paths. The selected path
is one of these unless the ranking puts a path before it that is not (`degradation_shown_iff`).
-/

namespace NVSwitchFabric

open Lib

namespace FabricTopology

variable {t : FabricTopology} {src dst : DeviceId} {cfg : TraversalConfig} {q : FabricPath}

/-- A link of the path has its degraded flag set. -/
def Flagged (t : FabricTopology) (q : FabricPath) : Prop := ∃ l ∈ q.links, (t.lookupLink l).any (·.degraded) = true

/-- A link, a port or a switch of the path is in state `DEGRADED`. -/
def InDegradedState (t : FabricTopology) (q : FabricPath) : Prop :=
  (∃ l ∈ q.links, (t.lookupLink l).any (·.state = .degraded) = true) ∨
    (∃ pid ∈ q.knownPorts, (t.lookupPort pid).any (·.state = .degraded) = true) ∨
      ∃ s ∈ q.switchSequence, (t.lookupSwitch s).any (·.state = .degraded) = true

/-- Something on the path is degraded, and no flag says so. -/
def Hides (t : FabricTopology) (q : FabricPath) : Prop := ¬ t.Flagged q ∧ t.InDegradedState q

/-- **A returned path is marked degraded** iff a link of it is flagged. -/
theorem Found.state_degraded_iff (h : Found t src dst cfg q) : q.state = .degraded ↔ t.Flagged q := by
  cases h with
  | @finish p es e =>
    have hflag : (t.finish src dst p e).links.any (fun lid => (t.lookupLink lid).any (·.degraded)) = true ↔
        t.Flagged (t.finish src dst p e) := by
      rw [List.any_eq_true]
      rfl
    rw [← hflag]
    show (if _ then EntityState.degraded else .up) = _ ↔ _
    split
    · next hany => exact iff_of_true rfl hany
    · next hany => exact iff_of_false (by simp) hany

/-- A policy that excludes degraded paths excludes flagged ones. -/
theorem hardFilter_not_degraded {policy : RoutePolicy} (hfilter : t.hardFilter policy q = true)
    (hpolicy : policy.requireNonDegradedPath = true) : q.state ≠ .degraded := by
  unfold hardFilter at hfilter
  simp only [hpolicy, Bool.true_and, Bool.and_eq_true, Bool.not_eq_true', decide_eq_false_iff_not] at hfilter
  exact hfilter.1.2

end FabricTopology

variable {topo : FabricTopology} {src dst : DeviceId} {policy : RoutePolicy} {measurements : List Measurement}
  {best : FabricPath}

/-- The granted path is marked degraded iff a link of it is flagged, and the filters have passed it. -/
theorem Granted.best_state (h : Granted topo src dst policy measurements best) :
    (best.state = .degraded ↔ topo.Flagged best) ∧ (policy.requireNonDegradedPath = true → best.state ≠ .degraded) := by
  obtain ⟨p, hp, hfilter, rfl⟩ := mem_rankedPaths.mp (List.mem_of_mem_head? h.first)
  -- capturing generations changes neither the state nor the links
  exact ⟨(FabricTopology.enumeratePaths_found hp).state_degraded_iff, FabricTopology.hardFilter_not_degraded hfilter⟩

/-- What a grant says about degradation holds of the granted path iff it hides none. -/
theorem Granted.shown_iff (h : Granted topo src dst policy measurements best) (id : RouteDecisionId) (gen : RouteGeneration)
    (snapshotId : TopologySnapshotId) (now : UInt64) (epoch : CoordinatorEpoch) :
    let d := computeRoute topo src dst policy measurements id gen snapshotId now epoch
    (d.outcome = .routeAllowed ∨ d.outcome.isAllowed = true ∧ policy.requireNonDegradedPath = true →
      ∀ q, d.selected = some q → ¬ topo.Flagged q ∧ ¬ topo.InDegradedState q) ↔ ¬ topo.Hides best := by
  intro d
  obtain ⟨hstate, hexcluded⟩ := h.best_state
  have hd : d.outcome = (if best.state = .degraded then .routeAllowedDegraded else .routeAllowed) ∧
      d.selected = some best := by
    show (computeRoute topo src dst policy measurements id gen snapshotId now epoch).outcome = _ ∧
      (computeRoute topo src dst policy measurements id gen snapshotId now epoch).selected = _
    rw [computeRoute_of_granted h]
    exact ⟨rfl, rfl⟩
  rw [hd.1, hd.2]
  constructor
  · rintro hshown ⟨hflag, hdegraded⟩
    have hsound : best.state ≠ .degraded := fun heq => hflag (hstate.mp heq)
    exact (hshown (Or.inl (if_neg hsound)) best rfl).2 hdegraded
  · rintro hnot hpremise q hq
    obtain rfl := Option.some.inj hq
    have hsound : best.state ≠ .degraded := by
      rcases hpremise with hallowed | ⟨_, hpolicy⟩
      · intro heq
        rw [if_pos heq] at hallowed
        exact absurd hallowed (by simp)
      · exact hexcluded hpolicy
    have hflag : ¬ topo.Flagged best := fun hflag => hsound (hstate.mpr hflag)
    exact ⟨hflag, fun hdegraded => hnot ⟨hflag, hdegraded⟩⟩

end NVSwitchFabric
