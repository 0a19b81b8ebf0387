import NVSwitchFabric.Correctness.SwitchWalks
import NVSwitchFabric.Correctness.RouteSound

/-!
# `Correctness.EdgeOrder` — what the sorts of edges leave open

`std::sort` puts elements that its comparator does not separate in any order. An `EdgeOrder` is a result it may produce for
the edge lists of a query, and `enumeratePathsIn` and `computeRouteIn` are the code over such a result; `own` is the one that
the rest of the development works with. The comparator of switch edges goes by port and link and separates all of them
(`adj_eq`). That of device edges goes by device and port: two links from a port to one device stand in either order, and
`first` is a result with a chosen edge before its ties.
-/

namespace NVSwitchFabric

open Lib

/-- A result that `std::sort` may produce: a permutation in the order of the comparator. -/
structure Sorts {α : Type} (before : α → α → Prop) (raw sorted : List α) : Prop where
  perm    : sorted.Perm raw
  ordered : sorted.Pairwise fun a b => ¬ before b a

/-! ## Keys of the comparators -/

/-- Port, then link. -/
def switchEdgeKey (e : Edge) : PortId ×ₗ LinkId := toLex (e.port, e.link)

/-- Device, then port. -/
def deviceEdgeKey (e : Edge) : DeviceId ×ₗ PortId := toLex (e.other.device, e.port)

theorem not_switchEdgeBefore_iff (a b : Edge) : ¬ switchEdgeBefore b a ↔ switchEdgeKey a ≤ switchEdgeKey b := by
  unfold switchEdgeBefore switchEdgeKey
  rw [← not_lt, Prod.Lex.toLex_lt_toLex]
  by_cases hport : b.port = a.port
  · simp [hport]
  · simp [hport]

theorem not_deviceEdgeBefore_iff (a b : Edge) : ¬ deviceEdgeBefore b a ↔ deviceEdgeKey a ≤ deviceEdgeKey b := by
  unfold deviceEdgeBefore deviceEdgeKey
  rw [← not_lt, Prod.Lex.toLex_lt_toLex]
  by_cases hdevice : b.other.device = a.other.device
  · simp [hdevice]
  · simp [hdevice]

/-- Insertion sort is such a result where the comparator goes by a key. -/
theorem sorts_insertionSort {α κ : Type} [LinearOrder κ] {key : α → κ} {before : α → α → Prop} [DecidableRel before]
    (hkey : ∀ a b, ¬ before b a ↔ key a ≤ key b) {raw l : List α} (hperm : l.Perm raw) :
    Sorts before raw (l.insertionSort fun a b => ¬ before b a) where
  perm := (List.perm_insertionSort _ _).trans hperm
  ordered := (pairwise_insertionSort_of_key hkey l).imp fun {a b} hle => (hkey a b).mpr hle

namespace FabricTopology

variable {t : FabricTopology}

/-! ## Orders -/

/-- The edge lists of a query as the sorts may leave them. -/
structure EdgeOrder (t : FabricTopology) where
  adj     : SortedMap SwitchId (List Edge)
  devs    : List Edge
  known   : ∀ sw, adj.contains sw = t.rawSwitchEdges.contains sw
  edges   : ∀ {sw raw es}, t.rawSwitchEdges.find? sw = some raw → adj.find? sw = some es → Sorts switchEdgeBefore raw es
  devices : Sorts deviceEdgeBefore ((adj.entries.flatMap fun e => e.2).filter fun e => isDeviceEnd e.other) devs

/-- `enumeratePaths` over edge lists sorted in this way. -/
def enumeratePathsIn (t : FabricTopology) (o : t.EdgeOrder) (src dst : DeviceId) (cfg : TraversalConfig) :
    List FabricPath :=
  if cfg.maxPaths = 0 || cfg.maxDepth = 0 then []
  else match t.lookupDevice src, t.lookupDevice dst with
    | some srec, some drec =>
      if !endpointState srec.state then []
      else if !endpointState drec.state then []
      else if src = dst then []
      else t.search src dst cfg o.adj o.devs
    | _, _ => []

namespace EdgeOrder

/-- An insertion sort of the device edges, from a given order. -/
def ofPerm (t : FabricTopology) (l : List Edge) (hl : l.Perm t.deviceEdges) : t.EdgeOrder where
  adj := t.swEdges
  devs := l.insertionSort fun a b => ¬ deviceEdgeBefore b a
  known := fun sw => SortedMap.contains_mapVals _ _ sw
  edges := by
    intro sw raw es hraw hes
    unfold swEdges at hes
    rw [SortedMap.find?_mapVals, hraw] at hes
    obtain rfl := Option.some.inj hes
    exact sorts_insertionSort not_switchEdgeBefore_iff (.refl raw)
  devices := sorts_insertionSort not_deviceEdgeBefore_iff (hl.trans (List.perm_insertionSort _ _))

/-- The result with one edge before those it is tied with. -/
def first (t : FabricTopology) (e : Edge) : t.EdgeOrder :=
  ofPerm t (t.deviceEdges.filter (fun e' => e' = e) ++ t.deviceEdges.filter fun e' => !decide (e' = e))
    (List.filter_append_perm _ _)

/-- The result that the model sorts to. -/
def own (t : FabricTopology) : t.EdgeOrder where
  adj := t.swEdges
  devs := t.deviceEdges
  known := (ofPerm t _ (.refl _)).known
  edges := (ofPerm t _ (.refl _)).edges
  devices := sorts_insertionSort not_deviceEdgeBefore_iff (.refl _)

end EdgeOrder

theorem enumeratePathsIn_own (t : FabricTopology) (src dst : DeviceId) (cfg : TraversalConfig) :
    t.enumeratePathsIn (.own t) src dst cfg = t.enumeratePaths src dst cfg := rfl

/-! ## Switch edges -/

/-- **The comparator of switch edges leaves nothing open.** -/
theorem EdgeOrder.adj_eq (hkeyed : t.Keyed) (o : t.EdgeOrder) : o.adj = t.swEdges := by
  apply SortedMap.ext_find?
  intro sw
  have hsame : o.adj.contains sw = t.swEdges.contains sw := (o.known sw).trans ((own t).known sw).symm
  cases hraw : t.rawSwitchEdges.find? sw with
  | none =>
    have hnone : ∀ o : t.EdgeOrder, o.adj.find? sw = none := by
      intro o
      rw [← SortedMap.contains_eq_false, o.known sw, SortedMap.contains_eq_false, hraw]
    rw [hnone o]
    exact (hnone (own t)).symm
  | some raw =>
    have hsome : ∀ o : t.EdgeOrder, ∃ es, o.adj.find? sw = some es := by
      intro o
      rw [← SortedMap.contains_iff, o.known sw, SortedMap.contains_iff]
      exact ⟨raw, hraw⟩
    obtain ⟨es, hes⟩ := hsome o
    obtain ⟨es', hes'⟩ := hsome (own t)
    have hsort := o.edges hraw hes
    have hsort' := (own t).edges hraw hes'
    have heq : es = es' := by
      refine (hsort.perm.trans hsort'.perm.symm).eq_of_pairwise ?_ hsort.ordered hsort'.ordered
      intro a b ha hb hab hba
      rw [not_switchEdgeBefore_iff] at hab hba
      have hlink : a.link = b.link := congrArg (fun k => (ofLex k).2) (le_antisymm hab hba)
      -- both are edges of the switch
      have hat : ∀ e ∈ es', t.EdgeAt sw e := fun e he => edgeAt_of_mem_swEdges hes' he
      exact ((hat a ((hsort.perm.trans hsort'.perm.symm).subset ha)).unique (hat b hb) hkeyed hlink).2
    rw [hes, heq]
    exact hes'.symm

/-- The device edges are sorted, in one order or another. -/
theorem EdgeOrder.devs_perm (hkeyed : t.Keyed) (o : t.EdgeOrder) : o.devs.Perm t.deviceEdges := by
  have hdevs := o.devices.perm
  rw [o.adj_eq hkeyed] at hdevs
  exact hdevs.trans (List.perm_insertionSort _ _).symm

theorem EdgeOrder.devs_sorted (o : t.EdgeOrder) :
    o.devs.Pairwise fun a b => deviceEdgeKey a ≤ deviceEdgeKey b :=
  o.devices.ordered.imp fun {a b} hab => (not_deviceEdgeBefore_iff a b).mp hab

section
variable {o : t.EdgeOrder} {src dst : DeviceId} {cfg : TraversalConfig}

/-- **Enumeration over an order** takes the first paths of the search tree over that order. -/
theorem enumeratePathsIn_eq (hkeyed : t.Keyed) (h : t.Joinable src dst) :
    t.enumeratePathsIn o src dst cfg = (t.pathsFrom src dst cfg o.devs).take cfg.maxPaths.toNat := by
  show t.guarded src dst cfg (t.search src dst cfg o.adj o.devs) = _
  rw [o.adj_eq hkeyed, guarded_search h]

/-- Without two endpoints to join there are no paths, in any order. -/
theorem enumeratePathsIn_of_not_joinable (h : ¬ t.Joinable src dst) : t.enumeratePathsIn o src dst cfg = [] := by
  rcases t.guarded_cases src dst cfg (t.search src dst cfg o.adj o.devs) with ⟨hnone, _⟩ | ⟨_, _, hjoin⟩
  · exact hnone
  · exact absurd hjoin h

end

end FabricTopology

/-- `computeRoute` over edge lists sorted in this way. -/
def computeRouteIn (topo : FabricTopology) (o : topo.EdgeOrder) (src dst : DeviceId) (policy : RoutePolicy)
    (measurements : List Measurement) (id : RouteDecisionId) (gen : RouteGeneration)
    (snapshotId : TopologySnapshotId) (now : UInt64) (epoch : CoordinatorEpoch) : RouteDecision :=
  let d := openDecision topo src dst policy id gen snapshotId now epoch
  match admitEndpoints topo src dst with
  | some (outcome, reason) => d.refuse outcome reason
  | none =>
    if topo.gateRefuses src dst policy then
      d.refuse (if topo.anyStalePartition then .stalePartition else .partitionBlocked)
        "no active partition contains both endpoints"
    else
      let d := d.withPartition (topo.gatePartition src dst)
      let raw := topo.enumeratePathsIn o src dst policy.traversal
      if raw.isEmpty then
        let refusal := noPathOutcome (topo.deviceReachability src dst)
        d.refuse refusal.1 refusal.2
      else
        let meas := bestFor measurements src dst
        let ranked := rankPaths topo meas policy (topo.eligiblePaths policy raw)
        match ranked with
        | [] =>
          d.refuse (if topo.switches.entries.any fun e => e.2.state.isStaleOrRevalidation then .staleSwitch
            else .noRoute) "no eligible path"
        | best :: _ => d.grant topo policy meas best ranked

theorem computeRouteIn_own (topo : FabricTopology) (src dst : DeviceId) (policy : RoutePolicy)
    (measurements : List Measurement) (id : RouteDecisionId) (gen : RouteGeneration)
    (snapshotId : TopologySnapshotId) (now : UInt64) (epoch : CoordinatorEpoch) :
    computeRouteIn topo (.own topo) src dst policy measurements id gen snapshotId now epoch =
      computeRoute topo src dst policy measurements id gen snapshotId now epoch := rfl

end NVSwitchFabric
