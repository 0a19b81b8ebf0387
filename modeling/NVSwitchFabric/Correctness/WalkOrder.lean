import NVSwitchFabric.Correctness.SortTies
import Mathlib.Data.List.Pairwise

/-!
# `Correctness.WalkOrder` — the one order in which walks are listed

Once the sorts are through, nothing about the order of walks is open any more. The edges of a switch stand by port and link,
the edges of the source as the sort has left them, and enumeration is breadth first. So walks stand by their length, and those
of one length by the edges they go through, from the first on (`pathsFrom_strict`). `mem_listed_iff` says with that which
walks the limit on paths leaves out: those that as many others as it asks for stand before.
-/

namespace NVSwitchFabric

open Lib

namespace FabricTopology

variable {t : FabricTopology} {src dst : DeviceId} {cfg : TraversalConfig} {o : t.EdgeOrder}

/-- The place of a link's edge: under a switch by port and link, under the source as the sort has left it. -/
def EdgeOrder.steps (o : t.EdgeOrder) : List LinkId → List (Nat ×ₗ PortId ×ₗ LinkId)
  | []      => []
  | l :: ls => toLex ((o.devs.map (·.link)).idxOf l, toLex (t.entryPort [l], l)) ::
                 ls.map fun l => toLex (0, toLex (t.entryPort [l], l))

/-- The one walk is listed before the other. -/
def EdgeOrder.Before (o : t.EdgeOrder) (ls ls' : List LinkId) : Prop := List.Shortlex (· < ·) (o.steps ls) (o.steps ls')

/-- As many walks as the limit asks for are listed before this one. -/
def EdgeOrder.CutOff (o : t.EdgeOrder) (src dst : DeviceId) (cfg : TraversalConfig) (ls : List LinkId) : Prop :=
  ∃ before : List (List LinkId), before.Nodup ∧ cfg.maxPaths.toNat ≤ before.length ∧
    ∀ w ∈ before, t.WalkWithin src dst cfg w ∧ o.Before w ls

theorem EdgeOrder.Before.asymm {ls ls' : List LinkId} (h : o.Before ls ls') : ¬ o.Before ls' ls :=
  Std.Asymm.asymm (r := List.Shortlex (· < ·)) _ _ h

/-! ## One link further -/

theorem EdgeOrder.steps_concat (o : t.EdgeOrder) {ls : List LinkId} (h : ls ≠ []) (l : LinkId) :
    o.steps (ls ++ [l]) = o.steps ls ++ [toLex (0, toLex (t.entryPort [l], l))] := by
  cases ls with
  | nil => exact absurd rfl h
  | cons l₀ ls =>
    show _ :: (ls ++ [l]).map _ = _
    rw [List.map_append]
    rfl

/-- The edges of a switch stand strictly by port and link. -/
theorem swEdges_strict (hkeyed : t.Keyed) (sw : SwitchId) :
    ((t.swEdges.find? sw).getD []).Pairwise fun e e' => switchEdgeKey e < switchEdgeKey e' := by
  cases hraw : t.rawSwitchEdges.find? sw with
  | none =>
    unfold swEdges
    rw [SortedMap.find?_mapVals, hraw]
    exact List.Pairwise.nil
  | some raw =>
    obtain ⟨es, hes⟩ : ∃ es, t.swEdges.find? sw = some es := by
      unfold swEdges
      rw [SortedMap.find?_mapVals, hraw]
      exact ⟨_, rfl⟩
    have hnodup := swEdges_links_nodup hkeyed sw
    rw [hes] at hnodup ⊢
    refine (((EdgeOrder.own t).edges hraw hes).ordered.and (List.pairwise_map.mp hnodup)).imp ?_
    rintro e e' ⟨hle, hne⟩
    refine lt_of_le_of_ne ((not_switchEdgeBefore_iff e e').mp hle) ?_
    intro heq
    exact hne (congrArg (fun k => (ofLex k).2) heq)

/-- **The ways on from a switch stand in order.** -/
theorem onward_strict (hkeyed : t.Keyed) (o : t.EdgeOrder) {ls : List LinkId} (h : ls ≠ []) (sw : SwitchId)
    (keep : Edge → Bool) :
    (((t.swEdges.find? sw).getD []).filter keep).Pairwise fun e e' => o.Before (ls ++ [e.link]) (ls ++ [e'.link]) := by
  refine ((swEdges_strict hkeyed sw).sublist List.filter_sublist).imp_of_mem ?_
  intro e e' he he' hlt
  have hport : ∀ e ∈ ((t.swEdges.find? sw).getD []).filter keep, t.entryPort [e.link] = e.port :=
    fun e he => entryPort_edge hkeyed ⟨sw, mem_swEdges_iff.mp (List.mem_filter.mp he).1⟩ []
  unfold EdgeOrder.Before
  rw [o.steps_concat h, o.steps_concat h, hport e he, hport e' he']
  apply List.Shortlex.append_left
  rw [List.shortlex_singleton_iff, Prod.Lex.toLex_lt_toLex]
  exact Or.inr ⟨rfl, hlt⟩

theorem extensions_branch (hkeyed : t.Keyed) (o : t.EdgeOrder) (cfg : TraversalConfig) :
    Worklist.Branches (Partial.extensions cfg t.swEdges) (fun p => p.links ≠ []) (fun p => o.steps p.links)
      fun k => o.steps k.links where
  entry := by
    intro p hp k hk
    obtain ⟨e, _, _, _, rfl⟩ := mem_through_iff.mp hk
    exact ⟨_, o.steps_concat hp e.link⟩
  ordered := by
    intro p hp
    unfold Partial.extensions Partial.through
    rw [List.pairwise_map]
    exact onward_strict hkeyed o hp p.cur _

theorem arrivals_branch (hkeyed : t.Keyed) (o : t.EdgeOrder) (src dst : DeviceId) :
    Worklist.Branches (t.arrivals src dst) (fun p => p.links ≠ []) (fun p => o.steps p.links)
      fun q => o.steps q.links where
  entry := by
    intro p hp q hq
    obtain ⟨e, _, _, _, _, rfl⟩ := mem_finishes_iff.mp hq
    exact ⟨_, o.steps_concat hp e.link⟩
  ordered := by
    intro p hp
    unfold arrivals finishes
    rw [List.pairwise_map]
    exact onward_strict hkeyed o hp p.cur _

/-! ## Whole walks -/

/-- The ways in stand in order. -/
theorem seeds_strict (hkeyed : t.Keyed) (o : t.EdgeOrder) (src : DeviceId) :
    ((usableFrom src o.devs).map Partial.seed).Pairwise fun p p' => o.Before p.links p'.links := by
  have hnodup : (o.devs.map (·.link)).Nodup :=
    (((o.devs_perm hkeyed).map _).nodup_iff).mpr (deviceEdges_links_nodup hkeyed)
  have hplace : (o.devs.map (·.link)).Pairwise fun l l' =>
      (o.devs.map (·.link)).idxOf l < (o.devs.map (·.link)).idxOf l' := by
    rw [List.pairwise_iff_getElem]
    intro i j hi hj hij
    rwa [hnodup.idxOf_getElem i hi, hnodup.idxOf_getElem j hj]
  rw [List.pairwise_map]
  refine ((List.pairwise_map.mp hplace).sublist List.filter_sublist).imp ?_
  intro e e' hlt
  show List.Shortlex (· < ·) [_] [_]
  rw [List.shortlex_singleton_iff, Prod.Lex.toLex_lt_toLex]
  exact Or.inl hlt

/-- **Enumeration lists walks in strict order.** -/
theorem pathsFrom_strict (hkeyed : t.Keyed) (o : t.EdgeOrder) (src dst : DeviceId) (cfg : TraversalConfig) :
    (t.pathsFrom src dst cfg o.devs).Pairwise fun q q' => o.Before q.links q'.links := by
  have hone : ∀ p ∈ (usableFrom src o.devs).map Partial.seed, p.links ≠ [] ∧ (o.steps p.links).length = 1 := by
    intro p hp
    obtain ⟨e, _, rfl⟩ := List.mem_map.mp hp
    exact ⟨List.cons_ne_nil _ _, rfl⟩
  have htree := (extensions_branch hkeyed o cfg).levels_shortlex (t.extensions_entry cfg).item cfg.maxDepth.toNat 1 _ hone
    (seeds_strict hkeyed o src)
  exact (arrivals_branch hkeyed o src dst).flatMap_shortlex (fun _ hp => treeOver_item hp) htree

/-- **A walk is listed unless the limit cuts it off.** -/
theorem mem_listed_iff (hkeyed : t.Keyed) (hint : t.Integral) {q : FabricPath}
    (hq : q ∈ t.pathsFrom src dst cfg o.devs) :
    q ∈ (t.pathsFrom src dst cfg o.devs).take cfg.maxPaths.toNat ↔ ¬ o.CutOff src dst cfg q.links := by
  have hstrict := pathsFrom_strict hkeyed o src dst cfg
  obtain ⟨front, back, hsplit⟩ := List.append_of_mem hq
  have hall := hstrict
  rw [hsplit, List.pairwise_append, List.pairwise_cons] at hall
  obtain ⟨_, ⟨hback, _⟩, hfront⟩ := hall
  have hfresh : q ∉ front := fun hmem => (hfront q hmem q List.mem_cons_self).asymm (hfront q hmem q List.mem_cons_self)
  -- what stands before it is what the list has in front of it
  have hbefore : ∀ q' ∈ t.pathsFrom src dst cfg o.devs, q' ∈ front ↔ o.Before q'.links q.links := by
    intro q' hq'
    refine ⟨fun hmem => hfront q' hmem q List.mem_cons_self, ?_⟩
    intro hlt
    rw [hsplit] at hq'
    rcases List.mem_append.mp hq' with hmem | hmem
    · exact hmem
    rcases List.mem_cons.mp hmem with rfl | hmem
    · exact absurd hlt hlt.asymm
    · exact absurd (hback q' hmem) hlt.asymm
  have hcut : o.CutOff src dst cfg q.links ↔ cfg.maxPaths.toNat ≤ front.length :=
    exists_walks_iff hkeyed hint (o.devs_perm hkeyed) (hsplit ▸ List.sublist_append_left _ _) hbefore
  rw [hcut, not_le, hsplit, List.take_append]
  constructor
  · intro hmem
    rcases List.mem_append.mp hmem with hmem | hmem
    · exact absurd (List.mem_of_mem_take hmem) hfresh
    · have hpos := List.length_pos_of_mem hmem
      rw [List.length_take] at hpos
      omega
  · intro hroom
    apply List.mem_append_right
    obtain ⟨n, hn⟩ := Nat.exists_eq_succ_of_ne_zero (Nat.sub_ne_zero_of_lt hroom)
    rw [hn, List.take_succ_cons]
    exact List.mem_cons_self

/-- What is listed before a walk that the limit keeps, it keeps too. -/
theorem listed_of_before (hkeyed : t.Keyed) {q q' : FabricPath} {n : Nat} (hq : q ∈ t.pathsFrom src dst cfg o.devs)
    (hq' : q' ∈ (t.pathsFrom src dst cfg o.devs).take n) (hlt : o.Before q.links q'.links) :
    q ∈ (t.pathsFrom src dst cfg o.devs).take n := by
  have hstrict := pathsFrom_strict hkeyed o src dst cfg
  rw [← List.take_append_drop n (t.pathsFrom src dst cfg o.devs)] at hstrict hq
  rcases List.mem_append.mp hq with hmem | hmem
  · exact hmem
  · exact absurd hlt ((List.pairwise_append.mp hstrict).2.2 q' hq' q hmem).asymm

/-- Of two listed paths over different links, one is before the other. -/
theorem before_or_before (hkeyed : t.Keyed) {q q' : FabricPath} (hq : q ∈ t.pathsFrom src dst cfg o.devs)
    (hq' : q' ∈ t.pathsFrom src dst cfg o.devs) (hne : q.links ≠ q'.links) :
    o.Before q.links q'.links ∨ o.Before q'.links q.links := by
  have hsymm : Std.Symm fun q q' : FabricPath => o.Before q.links q'.links ∨ o.Before q'.links q.links :=
    ⟨fun _ _ => Or.symm⟩
  have hordered := (pathsFrom_strict hkeyed o src dst cfg).imp
    fun {q q'} hlt => (Or.inl hlt : o.Before q.links q'.links ∨ o.Before q'.links q.links)
  exact hordered.forall hq hq' fun heq => hne (congrArg FabricPath.links heq)

end FabricTopology

end NVSwitchFabric
