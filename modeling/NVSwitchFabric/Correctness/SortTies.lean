import NVSwitchFabric.Correctness.EdgeOrder
import NVSwitchFabric.Model.Scenario

/-!
# `Correctness.SortTies` — when the result does not depend on the sorts

Enumeration lists walks by their length and the port they enter on (`walkKey`), whatever the order of the edges
(`pathsFrom_in_order`). Walks of one key are in the order in which the device edges of that port stand. Two usable links from
the source to one port (`Twin`) tie there, so which walk comes first under such a key depends on the sort. That shows unless the
limit on paths is reached before: `Settled` asks for as many walks of smaller keys.
-/

namespace NVSwitchFabric

open Lib

namespace FabricTopology

variable {t : FabricTopology} {src dst : DeviceId} {cfg : TraversalConfig} {D D' : List Edge}

/-! ## The order of walks -/

/-- The port of the first link. -/
def entryPort (t : FabricTopology) (ls : List LinkId) : PortId :=
  match ls.head?.bind t.lookupLink with
  | some rec => rec.port
  | none     => .unknown

/-- Length, then entry port. -/
def walkKey (t : FabricTopology) (ls : List LinkId) : Nat ×ₗ PortId := toLex (ls.length, t.entryPort ls)

theorem entryPort_append {ls : List LinkId} (h : ls ≠ []) (ls' : List LinkId) : t.entryPort (ls ++ ls') = t.entryPort ls := by
  unfold entryPort
  rw [List.head?_append_of_ne_nil _ h]

theorem entryPort_cons {l : LinkId} {rec : LinkRecord} (h : t.links.find? l = some rec) (ls : List LinkId) :
    t.entryPort (l :: ls) = rec.port := by
  unfold entryPort lookupLink
  rw [List.head?_cons, Option.bind_some, h]

/-- A walk through a device edge enters on the port of the edge. -/
theorem entryPort_edge (hkeyed : t.Keyed) {e : Edge} (h : ∃ sw, t.EdgeAt sw e) (ls : List LinkId) :
    t.entryPort (e.link :: ls) = e.port := by
  obtain ⟨sw, id, rec, hrec, _, rfl⟩ := h
  have hkey : rec.id = id := hkeyed.links hrec
  have hid : t.links.find? rec.id = some rec := by rw [hkey, hrec]
  exact entryPort_cons hid ls

/-- An extension has one link more and the same entry port. -/
theorem extensions_entry (t : FabricTopology) (cfg : TraversalConfig) :
    Worklist.Graded (Partial.extensions cfg t.swEdges) (fun p => p.links ≠ []) (fun p => p.links.length)
      fun p => t.entryPort p.links where
  item := by
    intro p _ k hk
    obtain ⟨e, _, _, _, rfl⟩ := mem_through_iff.mp hk
    exact List.append_ne_nil_of_right_ne_nil _ (List.cons_ne_nil _ _)
  rank := by
    intro p _ k hk
    obtain ⟨e, _, _, _, rfl⟩ := mem_through_iff.mp hk
    exact List.length_append
  tag := by
    intro p hp k hk
    obtain ⟨e, _, _, _, rfl⟩ := mem_through_iff.mp hk
    exact entryPort_append hp _

/-- The key of a path that a partial one leads to. -/
theorem arrivals_key {p : Partial} (hp : p.links ≠ []) {q : FabricPath} (hq : q ∈ t.arrivals src dst p) :
    t.walkKey q.links = toLex (p.links.length + 1, t.entryPort p.links) := by
  obtain ⟨e, _, _, _, _, rfl⟩ := mem_finishes_iff.mp hq
  show toLex ((p.links ++ [e.link]).length, t.entryPort (p.links ++ [e.link])) = _
  rw [entryPort_append hp, List.length_append]
  rfl

/-- The usable edges from the source. -/
def usableFrom (src : DeviceId) (D : List Edge) : List Edge := D.filter fun e => e.other.device = src && edgeUsable e

/-- The partial paths over some edges from the source. -/
def treeOver (t : FabricTopology) (cfg : TraversalConfig) (U : List Edge) : List Partial :=
  Worklist.levels (Partial.extensions cfg t.swEdges) cfg.maxDepth.toNat (U.map Partial.seed)

theorem pathsFrom_eq : t.pathsFrom src dst cfg D = (t.treeOver cfg (usableFrom src D)).flatMap (t.arrivals src dst) := rfl

/-- The roots of a tree have one link. -/
theorem seeds_one (U : List Edge) : ∀ p ∈ U.map Partial.seed, p.links ≠ [] ∧ p.links.length = 1 := by
  intro p hp
  obtain ⟨e, _, rfl⟩ := List.mem_map.mp hp
  exact ⟨List.cons_ne_nil _ _, rfl⟩

theorem treeOver_item {U : List Edge} {p : Partial} (hp : p ∈ t.treeOver cfg U) : p.links ≠ [] :=
  ((t.extensions_entry cfg).rank_levels (m := 1) (fun p hp => ⟨(seeds_one U p hp).1, (seeds_one U p hp).2.ge⟩) p hp).1

/-- **Enumeration lists walks by length and entry port**, in any order of the device edges. -/
theorem pathsFrom_in_order (hkeyed : t.Keyed) (hD : ∀ e ∈ D, ∃ sw, t.EdgeAt sw e)
    (hsorted : D.Pairwise fun a b => deviceEdgeKey a ≤ deviceEdgeKey b) :
    (t.pathsFrom src dst cfg D).Pairwise fun q q' => t.walkKey q.links ≤ t.walkKey q'.links := by
  have hports : ((usableFrom src D).map Partial.seed).Pairwise fun p p' => t.entryPort p.links ≤ t.entryPort p'.links := by
    rw [List.pairwise_map]
    refine (hsorted.sublist List.filter_sublist).imp_of_mem ?_
    intro e e' he he' hle
    rw [List.mem_filter, Bool.and_eq_true, decide_eq_true_eq] at he he'
    show t.entryPort [e.link] ≤ t.entryPort [e'.link]
    rw [entryPort_edge hkeyed (hD e he.1), entryPort_edge hkeyed (hD e' he'.1)]
    -- both are of the source, so the comparator went by the port
    rcases Prod.Lex.toLex_le_toLex.mp hle with hlt | ⟨_, hport⟩
    · rw [he.2.1, he'.2.1] at hlt
      exact absurd hlt (lt_irrefl _)
    · exact hport
  have htree := (t.extensions_entry cfg).levels_sorted cfg.maxDepth.toNat 1 _ (seeds_one (usableFrom src D)) hports
  have hkeys : (t.treeOver cfg (usableFrom src D)).Pairwise fun p p' =>
      (toLex (p.links.length + 1, t.entryPort p.links) : Nat ×ₗ PortId) ≤
        toLex (p'.links.length + 1, t.entryPort p'.links) := by
    refine htree.imp ?_
    intro p p' hle
    rw [Prod.Lex.toLex_le_toLex] at hle ⊢
    exact hle.imp Nat.succ_lt_succ fun h => ⟨congrArg Nat.succ h.1, h.2⟩
  exact Worklist.pairwise_flatMap_of_key (fun p hp q hq => arrivals_key (treeOver_item hp) hq) hkeys

/-! ## Walks of one key -/

/-- The paths that some edges from the source and a number of links lead to. -/
def pathsOfRank (t : FabricTopology) (src dst : DeviceId) (cfg : TraversalConfig) (n : Nat) (U : List Edge) :
    List FabricPath :=
  ((t.treeOver cfg U).filter fun p => p.links.length = n).flatMap (t.arrivals src dst)

theorem pathsOfRank_append (n : Nat) (U V : List Edge) :
    t.pathsOfRank src dst cfg n (U ++ V) = t.pathsOfRank src dst cfg n U ++ t.pathsOfRank src dst cfg n V := by
  unfold pathsOfRank treeOver
  rw [List.map_append, (t.extensions_entry cfg).levels_append_rank n _ 1 _ _ (seeds_one U) (seeds_one V),
    List.flatMap_append]

/-- Such a path begins with the link of one of the edges, and the edge alone leads to it. -/
theorem mem_pathsOfRank {n : Nat} {U : List Edge} {q : FabricPath} (hq : q ∈ t.pathsOfRank src dst cfg n U) :
    ∃ e ∈ U, q ∈ t.pathsOfRank src dst cfg n [e] ∧ q.links.head? = some e.link := by
  obtain ⟨p, hp, hq⟩ := List.mem_flatMap.mp hq
  obtain ⟨hp, hlen⟩ := List.mem_filter.mp hp
  obtain ⟨r, hr, hp⟩ := Worklist.mem_levels_of_root hp
  obtain ⟨e, he, rfl⟩ := List.mem_map.mp hr
  refine ⟨e, he, List.mem_flatMap.mpr ⟨p, List.mem_filter.mpr ⟨hp, hlen⟩, hq⟩, ?_⟩
  have hgrow : ∀ {ls : List LinkId} (l : LinkId), ls.head? = some e.link → (ls ++ [l]).head? = some e.link := by
    intro ls l hhead
    rw [List.head?_append, hhead]
    rfl
  have hkids : ∀ p : Partial, p.links.head? = some e.link → ∀ k ∈ p.extensions cfg t.swEdges,
      k.links.head? = some e.link := by
    intro p hp k hk
    obtain ⟨e', _, _, _, rfl⟩ := mem_through_iff.mp hk
    exact hgrow e'.link hp
  have hhead := Worklist.levels_invariant hkids _ _ (by simp [Partial.seed]) p hp
  obtain ⟨e', _, _, _, _, rfl⟩ := mem_finishes_iff.mp hq
  exact hgrow e'.link hhead

/-- **Under one key stand the paths through the edges of one port**, in the order of these. -/
theorem filter_pathsFrom (hkeyed : t.Keyed) (hD : ∀ e ∈ D, ∃ sw, t.EdgeAt sw e) (n : Nat) (port : PortId) :
    (t.pathsFrom src dst cfg D).filter (fun q => t.walkKey q.links = toLex (n + 1, port)) =
      t.pathsOfRank src dst cfg n ((usableFrom src D).filter fun e => e.port = port) := by
  have hseeds : ((usableFrom src D).map Partial.seed).filter (fun p => t.entryPort p.links = port) =
      ((usableFrom src D).filter fun e => e.port = port).map Partial.seed := by
    rw [List.filter_map]
    congr 1
    apply List.filter_congr
    intro e he
    show decide (t.entryPort [e.link] = port) = decide (e.port = port)
    rw [entryPort_edge hkeyed (hD e (List.mem_filter.mp he).1)]
  have htags := (t.extensions_entry cfg).levels_filter_tag port cfg.maxDepth.toNat 1 _ (seeds_one (usableFrom src D))
  rw [hseeds] at htags
  have hkeys : (t.treeOver cfg (usableFrom src D)).filter
      (fun p => (toLex (p.links.length + 1, t.entryPort p.links) : Nat ×ₗ PortId) = toLex (n + 1, port)) =
      ((t.treeOver cfg (usableFrom src D)).filter fun p => t.entryPort p.links = port).filter
        fun p => p.links.length = n := by
    rw [List.filter_filter]
    apply List.filter_congr
    intro p _
    rw [← Bool.decide_and]
    apply decide_eq_decide.mpr
    rw [toLex_inj, Prod.mk.injEq, Nat.add_right_cancel_iff]
  have hflat : ((t.treeOver cfg (usableFrom src D)).flatMap (t.arrivals src dst)).filter
      (fun q => t.walkKey q.links = toLex (n + 1, port)) = ((t.treeOver cfg (usableFrom src D)).filter
        fun p => (toLex (p.links.length + 1, t.entryPort p.links) : Nat ×ₗ PortId) = toLex (n + 1, port)).flatMap
          (t.arrivals src dst) :=
    Worklist.filter_flatMap_of_key (fun p hp q hq => arrivals_key (treeOver_item hp) hq) _
  rw [pathsFrom_eq, hflat, hkeys]
  unfold pathsOfRank treeOver
  rw [htags]

/-! ## Orders of the device edges -/

/-- Reordering the device edges reorders the paths. -/
theorem pathsFrom_perm (h : D.Perm D') : (t.pathsFrom src dst cfg D).Perm (t.pathsFrom src dst cfg D') :=
  (Worklist.levels_perm _ ((h.filter _).map _)).flatMap_right _

theorem edges_of_perm (hD : D.Perm t.deviceEdges) : ∀ e ∈ D, ∃ sw, t.EdgeAt sw e :=
  fun _ he => (edgeAt_of_mem_deviceEdges (hD.subset he)).1

/-- A walk that enumeration may find. -/
def WalkWithin (t : FabricTopology) (src dst : DeviceId) (cfg : TraversalConfig) (ls : List LinkId) : Prop :=
  ∃ sws, t.SwitchWalk LinkRecord.Usable src dst sws ls ∧ Within cfg sws

/-- Another usable link attaches the source to the same port. -/
def Twin (t : FabricTopology) (src : DeviceId) (l l' : LinkId) : Prop :=
  l' ≠ l ∧ (∃ sw, t.Leads LinkRecord.Usable sw l' (LinkEnd.AtDevice src)) ∧ t.entryPort [l'] = t.entryPort [l]

/-- As many walks as the limit asks for are shorter than this one, or as long and enter on a smaller port. -/
def CutBefore (t : FabricTopology) (src dst : DeviceId) (cfg : TraversalConfig) (ls : List LinkId) : Prop :=
  ∃ before : List (List LinkId), before.Nodup ∧ cfg.maxPaths.toNat ≤ before.length ∧
    ∀ w ∈ before, t.WalkWithin src dst cfg w ∧ t.walkKey w < t.walkKey ls

/-- Where there is something to join, enumeration stops before each walk that enters by one of several links of a port. -/
def Settled (t : FabricTopology) (src dst : DeviceId) (cfg : TraversalConfig) : Prop :=
  t.Joinable src dst → ∀ l l' ls, t.WalkWithin src dst cfg (l :: ls) → t.Twin src l l' → t.CutBefore src dst cfg (l :: ls)

/-- The paths over any order of the device edges are those of the walks. -/
theorem mem_pathsFrom_links_iff (hkeyed : t.Keyed) (hint : t.Integral) (hD : D.Perm t.deviceEdges) {ls : List LinkId} :
    ls ∈ (t.pathsFrom src dst cfg D).map (·.links) ↔ t.WalkWithin src dst cfg ls :=
  ((pathsFrom_perm hD).map _).mem_iff.trans (mem_links_iff hkeyed hint)

/-- The walks of a kind are at least so many iff the paths found along them are. -/
theorem exists_walks_iff (hkeyed : t.Keyed) (hint : t.Integral) (hD : D.Perm t.deviceEdges) {P : List LinkId → Prop}
    {found : List FabricPath} (hsub : found.Sublist (t.pathsFrom src dst cfg D))
    (hfound : ∀ q ∈ t.pathsFrom src dst cfg D, q ∈ found ↔ P q.links) {n : Nat} :
    (∃ ws : List (List LinkId), ws.Nodup ∧ n ≤ ws.length ∧ ∀ w ∈ ws, t.WalkWithin src dst cfg w ∧ P w) ↔
      n ≤ found.length := by
  have hnodup : (found.map (·.links)).Nodup := by
    have hall : ((t.pathsFrom src dst cfg D).map (·.links)).Nodup :=
      ((pathsFrom_perm hD).map _).nodup_iff.mpr (links_nodup hkeyed)
    exact hall.sublist (hsub.map _)
  have hmem : ∀ w, w ∈ found.map (·.links) ↔ t.WalkWithin src dst cfg w ∧ P w := by
    intro w
    rw [← mem_pathsFrom_links_iff hkeyed hint hD, List.mem_map, List.mem_map]
    constructor
    · rintro ⟨q, hq, rfl⟩
      have hall := hsub.subset hq
      exact ⟨⟨q, hall, rfl⟩, (hfound q hall).mp hq⟩
    · rintro ⟨⟨q, hq, rfl⟩, hP⟩
      exact ⟨q, (hfound q hq).mpr hP, rfl⟩
  have hlength : (found.map (·.links)).length = found.length := List.length_map _
  rw [← hlength]
  constructor
  · rintro ⟨ws, hws, hlen, hall⟩
    exact hlen.trans (hws.subperm fun w hw => (hmem w).mpr (hall w hw)).length_le
  · intro hlen
    exact ⟨_, hnodup, hlen, fun w hw => (hmem w).mp hw⟩

/-- The paths of smaller keys are as many as the limit asks for iff as many walks are. -/
theorem cutBefore_iff (hkeyed : t.Keyed) (hint : t.Integral) (hD : D.Perm t.deviceEdges) {ls : List LinkId} :
    t.CutBefore src dst cfg ls ↔ cfg.maxPaths.toNat ≤
      ((t.pathsFrom src dst cfg D).filter fun q => t.walkKey q.links < t.walkKey ls).length := by
  refine exists_walks_iff hkeyed hint hD List.filter_sublist ?_
  intro q hq
  rw [List.mem_filter, decide_eq_true_eq, and_iff_right hq]

theorem WalkWithin.exists_cons {ls : List LinkId} (h : t.WalkWithin src dst cfg ls) : ∃ l ls', ls = l :: ls' := by
  obtain ⟨_, hwalk, _⟩ := h
  cases hwalk with
  | enter _ _ => exact ⟨_, _, rfl⟩

/-- The usable device edge of a walk's first link. -/
theorem WalkWithin.edge {l : LinkId} {ls : List LinkId} (h : t.WalkWithin src dst cfg (l :: ls)) (hkeyed : t.Keyed) :
    ∃ e ∈ usableFrom src t.deviceEdges, e.link = l ∧ e.port = t.entryPort (l :: ls) := by
  obtain ⟨sws, hwalk, _⟩ := h
  cases hwalk with
  | enter link _ =>
    obtain ⟨e, hat, husable, rfl, hfar⟩ := link.edge hkeyed
    obtain ⟨hdev, hsrc⟩ := atDevice_iff.mp hfar
    have hmem : e ∈ t.deviceEdges := mem_deviceEdges_iff.mpr ⟨⟨_, hat⟩, hdev⟩
    refine ⟨e, List.mem_filter.mpr ⟨hmem, ?_⟩, rfl, (entryPort_edge hkeyed ⟨_, hat⟩ ls).symm⟩
    rw [hsrc, husable]
    simp

/-- Two edges of the source on one port are the same, or the links are twins. -/
theorem twin_of_ne (hkeyed : t.Keyed) {e e' : Edge} (he : e ∈ usableFrom src t.deviceEdges)
    (he' : e' ∈ usableFrom src t.deviceEdges) (hport : e'.port = e.port) (hne : e'.link ≠ e.link) :
    t.Twin src e.link e'.link := by
  obtain ⟨hmem, _⟩ := List.mem_filter.mp he
  obtain ⟨hmem', hfrom⟩ := List.mem_filter.mp he'
  rw [Bool.and_eq_true, decide_eq_true_eq] at hfrom
  obtain ⟨⟨sw, hat⟩, hdev⟩ := mem_deviceEdges_iff.mp hmem'
  refine ⟨hne, ⟨sw, hat.leads hkeyed hfrom.2 (atDevice_iff.mpr ⟨hdev, hfrom.1⟩)⟩, ?_⟩
  rw [entryPort_edge hkeyed ⟨sw, hat⟩, entryPort_edge hkeyed (edgeAt_of_mem_deviceEdges hmem).1, hport]

/-! ## Settled: the order does not matter -/

/-- Without twins one edge enters on the port, so the order of edges says nothing there. -/
theorem edges_on_port_eq (hkeyed : t.Keyed) (hD : D.Perm t.deviceEdges) (hD' : D'.Perm t.deviceEdges) {l : LinkId}
    {ls : List LinkId} (hwalk : t.WalkWithin src dst cfg (l :: ls)) (hnone : ∀ l', ¬ t.Twin src l l') :
    (usableFrom src D).filter (fun e => e.port = t.entryPort (l :: ls)) =
      (usableFrom src D').filter fun e => e.port = t.entryPort (l :: ls) := by
  obtain ⟨e₀, he₀, rfl, hport₀⟩ := hwalk.edge hkeyed
  have hone : ∀ e ∈ (usableFrom src D).filter (fun e => e.port = t.entryPort (e₀.link :: ls)), e = e₀ := by
    intro e he
    obtain ⟨he, hport⟩ := List.mem_filter.mp he
    have hmem : e ∈ usableFrom src t.deviceEdges := (hD.filter _).subset he
    have hlink : e.link = e₀.link := by
      by_contra hne
      exact hnone _ (twin_of_ne hkeyed he₀ hmem ((of_decide_eq_true hport).trans hport₀.symm) hne)
    obtain ⟨sw, hat⟩ := (edgeAt_of_mem_deviceEdges (List.mem_filter.mp hmem).1).1
    obtain ⟨sw₀, hat₀⟩ := (edgeAt_of_mem_deviceEdges (List.mem_filter.mp he₀).1).1
    exact (hat.unique hat₀ hkeyed hlink).2
  have hperm : ((usableFrom src D).filter fun e => e.port = t.entryPort (e₀.link :: ls)).Perm
      ((usableFrom src D').filter fun e => e.port = t.entryPort (e₀.link :: ls)) :=
    (((hD.trans hD'.symm).filter _).filter _)
  -- both lists repeat this edge
  rw [List.eq_replicate_of_mem hone, List.eq_replicate_of_mem fun e he => hone e (hperm.symm.subset he), hperm.length_eq]

/-- **Settled enumerations do not depend on the order.** -/
theorem Settled.take_eq (h : t.Settled src dst cfg) (hjoin : t.Joinable src dst) (hkeyed : t.Keyed) (hint : t.Integral)
    (o o' : t.EdgeOrder) :
    (t.pathsFrom src dst cfg o.devs).take cfg.maxPaths.toNat = (t.pathsFrom src dst cfg o'.devs).take cfg.maxPaths.toNat := by
  have hD := o.devs_perm hkeyed
  have hD' := o'.devs_perm hkeyed
  have hperm : (t.pathsFrom src dst cfg o.devs).Perm (t.pathsFrom src dst cfg o'.devs) := pathsFrom_perm (hD.trans hD'.symm)
  refine take_eq_of_fibers hperm (pathsFrom_in_order hkeyed (edges_of_perm hD) o.devs_sorted)
    (pathsFrom_in_order hkeyed (edges_of_perm hD') o'.devs_sorted) ?_
  intro c
  by_cases hnil : (t.pathsFrom src dst cfg o.devs).filter (fun q => t.walkKey q.links = c) = []
  · have hsame := (hperm.filter fun q => t.walkKey q.links = c).symm
    rw [hnil] at hsame
    exact Or.inl (hnil.trans hsame.eq_nil.symm)
  · obtain ⟨q, hfiber⟩ := List.exists_mem_of_ne_nil _ hnil
    obtain ⟨hmem, hkey⟩ := List.mem_filter.mp hfiber
    obtain rfl : t.walkKey q.links = c := of_decide_eq_true hkey
    have hwalk := (mem_pathsFrom_links_iff hkeyed hint hD).mp (List.mem_map_of_mem hmem)
    obtain ⟨l, ls, hlinks⟩ := hwalk.exists_cons
    rw [hlinks] at hwalk ⊢
    by_cases htwin : ∃ l', t.Twin src l l'
    · obtain ⟨l', htwin⟩ := htwin
      exact Or.inr ((cutBefore_iff hkeyed hint hD).mp (h hjoin l l' ls hwalk htwin))
    · left
      have hport := edges_on_port_eq hkeyed hD hD' hwalk (not_exists.mp htwin)
      have hkey : t.walkKey (l :: ls) = toLex (ls.length + 1, t.entryPort (l :: ls)) := rfl
      rw [hkey, filter_pathsFrom hkeyed (edges_of_perm hD), filter_pathsFrom hkeyed (edges_of_perm hD'), hport]

/-! ## Not settled: the order shows -/

/-- A twin takes the place of the first link. -/
theorem Twin.walk {l l' : LinkId} (h : t.Twin src l l') (hint : t.Integral) {ls : List LinkId}
    (hwalk : t.WalkWithin src dst cfg (l :: ls)) : t.WalkWithin src dst cfg (l' :: ls) := by
  obtain ⟨_, ⟨sw', link'⟩, hport⟩ := h
  obtain ⟨sws, hwalk, hwithin⟩ := hwalk
  cases hwalk with
  | @enter sw _ _ _ link rest =>
    have hsw : sw' = sw := by
      obtain ⟨rec, hrec, hroot, _⟩ := link
      obtain ⟨rec', hrec', hroot', _⟩ := link'
      -- a port is of one switch
      rw [entryPort_cons hrec', entryPort_cons hrec] at hport
      rw [← hroot', ← hint.linkPortRoot hrec', hport, hint.linkPortRoot hrec, hroot]
    rw [hsw] at link'
    exact ⟨_, .enter link' rest, hwithin⟩

/-- Sorted first, an edge stands before the other ones of its port. -/
theorem first_on_port {e : Edge} (he : e ∈ usableFrom src t.deviceEdges) :
    ∃ rest, (usableFrom src (EdgeOrder.first t e).devs).filter (fun e' => e'.port = e.port) = e :: rest := by
  have hties : ∀ a b : Edge, (decide (a.port = e.port) && (decide (a.other.device = src) && edgeUsable a)) = true →
      (decide (b.port = e.port) && (decide (b.other.device = src) && edgeUsable b)) = true → ¬ deviceEdgeBefore b a := by
    intro a b ha hb
    simp only [Bool.and_eq_true, decide_eq_true_eq] at ha hb
    rw [not_deviceEdgeBefore_iff]
    unfold deviceEdgeKey
    rw [ha.1, ha.2.1, hb.1, hb.2.1]
  obtain ⟨hmem, hfrom⟩ := List.mem_filter.mp he
  unfold usableFrom
  rw [List.filter_filter]
  exact exists_cons_of_first hties hmem (by simp [hfrom])

/-- A path over some edges that begins with the link of one of them is one over that edge alone. -/
theorem mem_pathsOfRank_single (hkeyed : t.Keyed) {n : Nat} {U : List Edge} (hU : ∀ e ∈ U, ∃ sw, t.EdgeAt sw e) {e : Edge}
    (he : e ∈ U) {q : FabricPath} (hq : q ∈ t.pathsOfRank src dst cfg n U) (hhead : q.links.head? = some e.link) :
    q ∈ t.pathsOfRank src dst cfg n [e] := by
  obtain ⟨e', he', hone, hhead'⟩ := mem_pathsOfRank hq
  rw [hhead, Option.some.injEq] at hhead'
  obtain ⟨sw, hat⟩ := hU e he
  obtain ⟨sw', hat'⟩ := hU e' he'
  rwa [(hat.unique hat' hkeyed hhead').2]

/-- **The first walk of a key** goes through the edge that is sorted first. -/
theorem first_of_key (hkeyed : t.Keyed) (hint : t.Integral) {e : Edge} (he : e ∈ usableFrom src t.deviceEdges)
    {ls : List LinkId} (hwalk : t.WalkWithin src dst cfg (e.link :: ls)) :
    ∃ q, (t.pathsFrom src dst cfg (EdgeOrder.first t e).devs)[((t.pathsFrom src dst cfg (EdgeOrder.first t e).devs).filter
      fun q => t.walkKey q.links < t.walkKey (e.link :: ls)).length]? = some q ∧ q.links.head? = some e.link := by
  have hD := (EdgeOrder.first t e).devs_perm hkeyed
  have hedges := edges_of_perm hD
  have hat := (edgeAt_of_mem_deviceEdges (List.mem_filter.mp he).1).1
  have hkey : t.walkKey (e.link :: ls) = toLex (ls.length + 1, e.port) :=
    congrArg (fun port => toLex (ls.length + 1, port)) (entryPort_edge hkeyed hat ls)
  -- what stands under the key is what the edges of the port lead to, this edge first
  obtain ⟨rest, hrest⟩ := first_on_port he
  have hfiber : (t.pathsFrom src dst cfg (EdgeOrder.first t e).devs).filter
      (fun q => t.walkKey q.links = t.walkKey (e.link :: ls)) = t.pathsOfRank src dst cfg ls.length (e :: rest) := by
    rw [hkey, filter_pathsFrom hkeyed hedges, hrest]
  have hport : ∀ e' ∈ e :: rest, ∃ sw, t.EdgeAt sw e' := by
    intro e' he'
    rw [← hrest] at he'
    exact hedges e' (List.mem_filter.mp (List.mem_filter.mp he').1).1
  obtain ⟨w, hw, hlinks⟩ := List.mem_map.mp ((mem_pathsFrom_links_iff hkeyed hint hD).mpr hwalk)
  have hunder : w ∈ t.pathsOfRank src dst cfg ls.length (e :: rest) := by
    rw [← hfiber]
    exact List.mem_filter.mpr ⟨hw, decide_eq_true (congrArg t.walkKey hlinks)⟩
  have halone := mem_pathsOfRank_single hkeyed hport List.mem_cons_self hunder (by rw [hlinks]; rfl)
  obtain ⟨q, others, hcons⟩ := List.exists_cons_of_ne_nil (List.ne_nil_of_mem halone)
  have hsplit : t.pathsOfRank src dst cfg ls.length (e :: rest) =
      q :: (others ++ t.pathsOfRank src dst cfg ls.length rest) := by
    show t.pathsOfRank src dst cfg ls.length ([e] ++ rest) = _
    rw [pathsOfRank_append, hcons, List.cons_append]
  rw [hsplit] at hfiber
  refine ⟨q, getElem?_of_fiber (pathsFrom_in_order hkeyed hedges (EdgeOrder.first t e).devs_sorted) hfiber, ?_⟩
  have hq : q ∈ t.pathsOfRank src dst cfg ls.length [e] := by
    rw [hcons]
    exact List.mem_cons_self
  obtain ⟨e', he', _, hhead⟩ := mem_pathsOfRank hq
  obtain rfl := List.mem_singleton.mp he'
  exact hhead

/-- **Enumerations that do not depend on the order are settled**: else each of two twins can lead the walks of a key. -/
theorem settled_of_same (hkeyed : t.Keyed) (hint : t.Integral)
    (hsame : ∀ o o' : t.EdgeOrder, t.enumeratePathsIn o src dst cfg = t.enumeratePathsIn o' src dst cfg) :
    t.Settled src dst cfg := by
  intro hjoin l l' ls hwalk htwin
  have hwalk' := htwin.walk hint hwalk
  obtain ⟨e, he, rfl, _⟩ := hwalk.edge hkeyed
  obtain ⟨e', he', rfl, _⟩ := hwalk'.edge hkeyed
  have hkey : t.walkKey (e'.link :: ls) = t.walkKey (e.link :: ls) :=
    congrArg (fun port => toLex (ls.length + 1, port)) htwin.2.2
  obtain ⟨q, hq, hhead⟩ := first_of_key hkeyed hint he hwalk
  obtain ⟨q', hq', hhead'⟩ := first_of_key hkeyed hint he' hwalk'
  have hD := (EdgeOrder.first t e).devs_perm hkeyed
  have hD' := (EdgeOrder.first t e').devs_perm hkeyed
  have hperm : (t.pathsFrom src dst cfg (EdgeOrder.first t e').devs).Perm
      (t.pathsFrom src dst cfg (EdgeOrder.first t e).devs) := pathsFrom_perm (hD'.trans hD.symm)
  rw [hkey, (hperm.filter _).length_eq] at hq'
  rw [cutBefore_iff hkeyed hint hD]
  by_contra hfew
  -- the two enumerations have different walks at this place
  have hplace := congrArg (fun paths => paths[((t.pathsFrom src dst cfg (EdgeOrder.first t e).devs).filter
    fun q => t.walkKey q.links < t.walkKey (e.link :: ls)).length]?) (hsame (.first t e) (.first t e'))
  rw [enumeratePathsIn_eq hkeyed hjoin, enumeratePathsIn_eq hkeyed hjoin, List.getElem?_take_of_lt (not_le.mp hfew),
    List.getElem?_take_of_lt (not_le.mp hfew), hq, hq'] at hplace
  rw [Option.some.inj hplace, hhead'] at hhead
  exact htwin.1 (Option.some.inj hhead)

/-- **When the sorts leave nothing open** for enumeration. -/
theorem same_iff_settled (hkeyed : t.Keyed) (hint : t.Integral) :
    (∀ o o' : t.EdgeOrder, t.enumeratePathsIn o src dst cfg = t.enumeratePathsIn o' src dst cfg) ↔
      t.Settled src dst cfg := by
  refine ⟨settled_of_same hkeyed hint, ?_⟩
  intro h o o'
  by_cases hjoin : t.Joinable src dst
  · rw [enumeratePathsIn_eq hkeyed hjoin, enumeratePathsIn_eq hkeyed hjoin]
    exact h.take_eq hjoin hkeyed hint o o'
  · rw [enumeratePathsIn_of_not_joinable hjoin, enumeratePathsIn_of_not_joinable hjoin]

end FabricTopology

/-- Over the same paths the same decision is made. -/
theorem computeRouteIn_congr {topo : FabricTopology} {o o' : topo.EdgeOrder} {src dst : DeviceId} {policy : RoutePolicy}
    (h : topo.enumeratePathsIn o src dst policy.traversal = topo.enumeratePathsIn o' src dst policy.traversal)
    (measurements : List Measurement) (id : RouteDecisionId) (gen : RouteGeneration) (snapshotId : TopologySnapshotId)
    (now : UInt64) (epoch : CoordinatorEpoch) :
    computeRouteIn topo o src dst policy measurements id gen snapshotId now epoch =
      computeRouteIn topo o' src dst policy measurements id gen snapshotId now epoch := by
  unfold computeRouteIn
  rw [h]

/-- **When selection does not depend on the sorts.** Enumeration under a configuration is the same for all results of the
    sorts, and so are the enumeration of a policy and the path selected from it, iff the configuration is settled. -/
theorem selection_determined_iff {topo : FabricTopology} (hkeyed : topo.Keyed) (hok : topo.checkIntegrity = [])
    (src dst : DeviceId) :
    (∀ cfg, (∀ o o' : topo.EdgeOrder,
      topo.enumeratePathsIn o src dst cfg = topo.enumeratePathsIn o' src dst cfg) ↔ topo.Settled src dst cfg) ∧
    ∀ (policy : RoutePolicy) (measurements : List Measurement) (id : RouteDecisionId) (gen : RouteGeneration)
      (snapshotId : TopologySnapshotId) (now : UInt64) (epoch : CoordinatorEpoch),
      (∀ o o' : topo.EdgeOrder,
        topo.enumeratePathsIn o src dst policy.traversal = topo.enumeratePathsIn o' src dst policy.traversal ∧
          (computeRouteIn topo o src dst policy measurements id gen snapshotId now epoch).selected =
            (computeRouteIn topo o' src dst policy measurements id gen snapshotId now epoch).selected) ↔
        topo.Settled src dst policy.traversal := by
  have hint := FabricTopology.checkIntegrity_eq_nil_iff.mp hok
  refine ⟨fun cfg => FabricTopology.same_iff_settled hkeyed hint, ?_⟩
  intro policy measurements id gen snapshotId now epoch
  rw [← FabricTopology.same_iff_settled hkeyed hint]
  constructor
  · intro h o o'
    exact (h o o').1
  · intro h o o'
    exact ⟨h o o', congrArg RouteDecision.selected (computeRouteIn_congr (h o o') measurements id gen snapshotId now epoch)⟩

/-- The three redundant paths of a scenario, whose links are all on different ports. -/
theorem selection_determined_twoSwitchRedundant :
    let t := (FabricRegistry.after [.applyBulk (buildSyntheticScan .twoSwitchRedundant)]).current
    (t.Keyed ∧ t.checkIntegrity = []) ∧
      ((∀ o o' : t.EdgeOrder, t.enumeratePathsIn o ⟨1⟩ ⟨2⟩ {} = t.enumeratePathsIn o' ⟨1⟩ ⟨2⟩ {}) ↔ t.Settled ⟨1⟩ ⟨2⟩ {}) := by
  intro t
  have hwf := (FabricRegistry.reachable_after [.applyBulk (buildSyntheticScan .twoSwitchRedundant)]).wellFormed
  have hok := FabricTopology.checkIntegrity_eq_nil_iff.mpr hwf.integral
  exact ⟨⟨hwf.keyed, hok⟩, (selection_determined_iff hwf.keyed hok ⟨1⟩ ⟨2⟩).1 {}⟩

/-- A second link from the port of a device: which of the two is sorted first is enumerated first, and selected. -/
theorem selection_depends_on_sort :
    let t := (FabricRegistry.after [.applyBulk (buildSyntheticScan .singleSwitchTwoGpu), .addLink
      { id := ⟨102⟩, rootSwitch := ⟨10⟩, port := ⟨⟨10⟩, 0⟩, otherEnd := .toDevice ⟨1⟩, state := .up }]).current
    t.checkIntegrity = [] ∧ ∃ o o' : t.EdgeOrder,
      (t.enumeratePathsIn o ⟨1⟩ ⟨2⟩ {}).map (·.links) = [[⟨100⟩, ⟨101⟩], [⟨102⟩, ⟨101⟩]] ∧
      (t.enumeratePathsIn o' ⟨1⟩ ⟨2⟩ {}).map (·.links) = [[⟨102⟩, ⟨101⟩], [⟨100⟩, ⟨101⟩]] ∧
      (computeRouteIn t o ⟨1⟩ ⟨2⟩ {} [] ⟨1⟩ ⟨0⟩ ⟨[]⟩ 0 0).selected.map (·.links) = some [⟨100⟩, ⟨101⟩] ∧
      (computeRouteIn t o' ⟨1⟩ ⟨2⟩ {} [] ⟨1⟩ ⟨0⟩ ⟨[]⟩ 0 0).selected.map (·.links) = some [⟨102⟩, ⟨101⟩] := by
  intro t
  refine ⟨by decide +kernel, .first t ⟨⟨100⟩, ⟨⟨10⟩, 0⟩, .toDevice ⟨1⟩, .up, .up⟩,
    .first t ⟨⟨102⟩, ⟨⟨10⟩, 0⟩, .toDevice ⟨1⟩, .up, .up⟩, ?_, ?_, ?_, ?_⟩
  · decide +kernel
  · decide +kernel
  · decide +kernel
  · decide +kernel

end NVSwitchFabric
