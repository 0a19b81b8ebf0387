import NVSwitchFabric.Correctness.SwitchWalks

/-!
# `Correctness.FrontierEnds` — the path search ends

Each round of the frontier loop takes a partial path off the queue and pushes extensions of it, which together weigh less
(`expand_decreasing`). So the loop ends, whatever the topology. What it pushes are extensions in the sense of the search tree,
also in the round in which the result fills up (`expand_pushes`), so everything that is ever queued is `Explored`: it visits
distinct switches, and no more of them than the depth allows (`enumeratePaths_terminates`).
-/

namespace NVSwitchFabric

open Lib

namespace FabricTopology

variable {t : FabricTopology} {src dst : DeviceId} {cfg : TraversalConfig} {adj : SortedMap SwitchId (List Edge)}
  {p : Partial}

/-! ## What a round pushes -/

/-- The inner loop pushes extensions. -/
theorem expandEdges_pushes (es : List Edge) :
    ∀ (kids : List Partial) (result : List FabricPath),
      ∀ k ∈ (t.expandEdges src dst cfg adj p es (kids, result)).1, k ∈ kids ∨ k ∈ p.through cfg adj es := by
  induction es with
  | nil => exact fun _ _ _ hk => Or.inl hk
  | cons e es ih =>
    intro kids result k hk
    rcases lt_or_ge result.length cfg.maxPaths.toNat with hroom | hfull
    · rw [expandEdges_cons hroom] at hk
      rw [through_cons, List.mem_append]
      rcases ih _ _ k hk with hk | hk
      · rcases List.mem_append.mp hk with hk | hk
        · exact Or.inl hk
        · exact Or.inr (Or.inl hk)
      · exact Or.inr (Or.inr hk)
    · rw [expandEdges_full hfull] at hk
      exact Or.inl hk

/-- So does a round of the frontier loop. -/
theorem expand_pushes {result result' : List FabricPath} {kids : List Partial}
    (h : t.expand src dst cfg adj result p = some (kids, result')) : ∀ k ∈ kids, k ∈ p.extensions cfg adj := by
  intro k hk
  unfold expand at h
  split at h
  · exact absurd h (by simp)
  split at h
  · obtain ⟨rfl, -⟩ := Prod.mk.inj (Option.some.inj h)
    exact absurd hk List.not_mem_nil
  · next es hes =>
    have hkids := congrArg Prod.fst (Option.some.inj h)
    dsimp only at hkids
    rw [← hkids] at hk
    unfold Partial.extensions
    rw [hes]
    exact (expandEdges_pushes es [] result k hk).resolve_left List.not_mem_nil

/-! ## The loop -/

/-- The frontier the loop starts with. -/
def seeds (t : FabricTopology) (src : DeviceId) : List Partial :=
  (t.deviceEdges.filter fun e => e.other.device = src && edgeUsable e).map Partial.seed

/-- Enumeration gets to the frontier loop. -/
def Enters (t : FabricTopology) (src dst : DeviceId) (cfg : TraversalConfig) : Prop :=
  cfg.maxPaths ≠ 0 ∧ cfg.maxDepth ≠ 0 ∧ t.Joinable src dst

/-- It returns nothing before the loop, or what the loop returns. -/
theorem enumeratePaths_enters (t : FabricTopology) (src dst : DeviceId) (cfg : TraversalConfig) :
    (¬ t.Enters src dst cfg → t.enumeratePaths src dst cfg = []) ∧
      (t.Enters src dst cfg →
        t.enumeratePaths src dst cfg = (t.frontierLoop src dst cfg t.swEdges).run (t.seeds src) []) := by
  rcases t.guarded_cases src dst cfg (t.search src dst cfg t.swEdges t.deviceEdges) with ⟨hnone, hno⟩ | ⟨heq, hdepth, hjoin⟩
  · refine ⟨fun _ => hnone, ?_⟩
    rintro ⟨hpaths, hdepth, hjoin⟩
    rcases hno with hzero | hzero | hno
    · exact absurd hzero hpaths
    · exact absurd hzero hdepth
    · exact absurd hjoin hno
  · refine ⟨fun hno => ?_, fun _ => heq⟩
    -- only the limit on paths is left to keep it out, and then there is no room for a path
    have hpaths : cfg.maxPaths = 0 := by
      by_contra hpaths
      refine hno ⟨hpaths, ?_, hjoin⟩
      rintro hzero
      rw [hzero] at hdepth
      exact absurd hdepth (by decide)
    rw [enumeratePaths_eq hjoin, hpaths]
    rfl

/-- Everything that is ever queued is explored. -/
theorem queued_explored {q : List Partial} {result : List FabricPath} {n : Nat}
    (h : (t.frontierLoop src dst cfg t.swEdges).Rounds (t.seeds src, []) n (q, result)) :
    ∀ p ∈ q, Explored t src cfg p :=
  h.queued (fun body hp k hk => hp.extension (expand_pushes body k hk)) explored_seeds

/-- **The path search ends.** Where enumeration gets to the frontier loop, the loop ends, with the paths that enumeration
    returns; a run of it has no more rounds than `(e + 1) ^ (maxDepth - 1)` for each seed, where `e` edges leave the switches;
    and every partial path that it ever queues visits distinct switches, at most `maxDepth` of them. -/
theorem enumeratePaths_terminates (t : FabricTopology) (src dst : DeviceId) (cfg : TraversalConfig) :
    (¬ t.Enters src dst cfg → t.enumeratePaths src dst cfg = []) ∧
      (t.Enters src dst cfg →
        let loop := t.frontierLoop src dst cfg t.swEdges
        (∃ n q, loop.Rounds (t.seeds src, []) n (q, t.enumeratePaths src dst cfg) ∧
          loop.Ended (q, t.enumeratePaths src dst cfg)) ∧
        ∀ n q result, loop.Rounds (t.seeds src, []) n (q, result) →
          n ≤ (t.seeds src).length * (edgeBound t.swEdges + 1) ^ (cfg.maxDepth.toNat - 1) ∧
            ∀ p ∈ q, p.switches.Nodup ∧ p.switches.length ≤ cfg.maxDepth.toNat) := by
  refine ⟨(t.enumeratePaths_enters src dst cfg).1, ?_⟩
  intro henters loop
  have hdepth : 0 < cfg.maxDepth.toNat := Nat.pos_of_ne_zero fun hzero => henters.2.1 (UInt32.toNat_inj.mp hzero)
  constructor
  · rw [(t.enumeratePaths_enters src dst cfg).2 henters]
    exact loop.exists_ended (t.seeds src) []
  · intro n q result hrounds
    refine ⟨?_, fun p hp => (queued_explored hrounds p hp).simple hdepth⟩
    have hseed : ∀ p ∈ t.seeds src,
        p.weight cfg t.swEdges ≤ (edgeBound t.swEdges + 1) ^ (cfg.maxDepth.toNat - 1) := by
      intro p hp
      obtain ⟨e, _, rfl⟩ := List.mem_map.mp hp
      exact le_rfl
    have hsum : ((t.seeds src).map (Partial.weight cfg t.swEdges)).sum ≤ _ := sum_map_le_length_mul hseed
    exact (Nat.le_of_add_right_le hrounds.weight_le).trans hsum

/-- Two switches that lead to each other. -/
theorem enumeratePaths_terminates_twoSwitchRedundant :
    let t := (FabricRegistry.after [.applyBulk (buildSyntheticScan .twoSwitchRedundant)]).current
    let loop := t.frontierLoop ⟨1⟩ ⟨2⟩ {} t.swEdges
    t.Enters ⟨1⟩ ⟨2⟩ {} ∧ ∃ n q, loop.Rounds (t.seeds ⟨1⟩, []) n (q, t.enumeratePaths ⟨1⟩ ⟨2⟩ {}) ∧
      loop.Ended (q, t.enumeratePaths ⟨1⟩ ⟨2⟩ {}) := by
  intro t loop
  have hpath : ∃ q, q ∈ t.enumeratePaths ⟨1⟩ ⟨2⟩ {} := by
    apply List.exists_mem_of_ne_nil
    decide +kernel
  obtain ⟨q, hq⟩ := hpath
  have henters : t.Enters ⟨1⟩ ⟨2⟩ {} := ⟨by decide, by decide, (joinable_of_enumerated hq).1⟩
  exact ⟨henters, ((enumeratePaths_terminates t ⟨1⟩ ⟨2⟩ {}).2 henters).1⟩

end FabricTopology

end NVSwitchFabric
