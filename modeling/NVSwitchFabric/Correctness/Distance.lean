import NVSwitchFabric.Correctness.PathHops
import NVSwitchFabric.Correctness.PathOrder
import NVSwitchFabric.Correctness.Reachability
import NVSwitchFabric.Correctness.SwitchWalks
import Mathlib.Order.Bounds.Basic

/-!
# `Correctness.Distance` — the first path is a shortest way

Enumeration only follows simple paths, and it stops at a number of paths. Neither makes its first path longer than it need
be: a walk that returns to a switch can be cut short there (`Onward.simple`), and a limit cuts off longer paths. So the
first path goes through as few switches as any walk does (`first_path_shortest`).

On a fabric whose switches are linked both ways, a walk can be taken back (`SwitchWalk.mirror`). Then the distance from
one device to another is the one back, and so is the verdict of reachability (`mirrored_symmetric`).
-/

namespace NVSwitchFabric

open Lib

namespace FabricTopology

variable {t : FabricTopology} {up : LinkRecord → Prop} {src dst : DeviceId} {cfg : TraversalConfig}

/-! ## Cutting walks short -/

/-- From any switch that the rest of a walk goes through, a part of it leads on. -/
theorem Onward.drop {sw s : SwitchId} {sws : List SwitchId} {ls : List LinkId} (h : t.Onward up dst sw sws ls)
    (hs : s ∈ sw :: sws) : ∃ sws' ls', t.Onward up dst s sws' ls' ∧ s :: sws' <:+ sw :: sws := by
  induction h with
  | @arrive sw l link =>
    obtain rfl := List.mem_singleton.mp hs
    exact ⟨[], [l], .arrive link, List.suffix_rfl⟩
  | @cross sw s' l sws ls link rest ih =>
    rcases List.mem_cons.mp hs with rfl | hs
    · exact ⟨s' :: sws, l :: ls, .cross link rest, List.suffix_rfl⟩
    · obtain ⟨sws', ls', hrest, hsuffix⟩ := ih hs
      exact ⟨sws', ls', hrest, hsuffix.trans (List.suffix_cons _ _)⟩

/-- **A walk can be made simple** without making it longer. -/
theorem Onward.simple {sw : SwitchId} {sws : List SwitchId} {ls : List LinkId} (h : t.Onward up dst sw sws ls) :
    ∃ sws' ls', t.Onward up dst sw sws' ls' ∧ (sw :: sws').Nodup ∧ sws'.length ≤ sws.length := by
  induction h with
  | @arrive sw l link => exact ⟨[], [l], .arrive link, List.nodup_singleton sw, le_rfl⟩
  | @cross sw s l sws ls link _ ih =>
    obtain ⟨sws', ls', hrest, hnodup, hlen⟩ := ih
    by_cases hback : sw ∈ s :: sws'
    · -- the walk comes back to where it starts, and may start there
      obtain ⟨short, ls'', hshort, hsuffix⟩ := hrest.drop hback
      have hlen' := hsuffix.length_le
      simp only [List.length_cons] at hlen' ⊢
      exact ⟨short, ls'', hshort, hnodup.sublist hsuffix.sublist, by omega⟩
    · exact ⟨s :: sws', l :: ls', .cross link hrest, List.nodup_cons.mpr ⟨hback, hnodup⟩, Nat.succ_le_succ hlen⟩

theorem SwitchWalk.simple {sws : List SwitchId} {ls : List LinkId} (h : t.SwitchWalk up src dst sws ls) :
    ∃ sws' ls', t.SwitchWalk up src dst sws' ls' ∧ sws'.Nodup ∧ sws'.length ≤ sws.length := by
  cases h with
  | @enter s l sws ls link rest =>
    obtain ⟨sws', ls', hrest, hnodup, hlen⟩ := rest.simple
    exact ⟨s :: sws', l :: ls', .enter link hrest, hnodup, Nat.succ_le_succ hlen⟩

/-! ## The first path -/

/-- The numbers of switches that walks from device to device go through. -/
def walkLengths (t : FabricTopology) (src dst : DeviceId) : Set Nat :=
  { n | ∃ sws ls, t.SwitchWalk LinkRecord.Usable src dst sws ls ∧ sws.length = n }

/-- A path has a hop for each switch. -/
theorem Found.hops_length {q : FabricPath} (h : Found t src dst cfg q) : q.hops.length = q.switchSequence.length := by
  have hswitches := congrArg List.length h.shaped.1.hopSwitches
  rwa [List.length_map] at hswitches

theorem Onward.length_eq {sw : SwitchId} {sws : List SwitchId} {ls : List LinkId} (h : t.Onward up dst sw sws ls) :
    ls.length = sws.length + 1 := by
  induction h with
  | arrive link => rfl
  | cross link _ ih => exact congrArg Nat.succ ih

/-- Walks over as many links go through as many switches. -/
theorem SwitchWalk.length_eq {sws : List SwitchId} {ls : List LinkId} (h : t.SwitchWalk up src dst sws ls) :
    ls.length = sws.length + 1 := by
  cases h with
  | enter link rest => exact congrArg Nat.succ rest.length_eq

theorem Found.links_length {q : FabricPath} (h : Found t src dst cfg q) (hwf : t.WellFormed)
    (hdepth : 0 < cfg.maxDepth.toNat) : q.links.length = q.hops.length + 1 := by
  rw [h.hops_length]
  exact (h.walk hwf.keyed hwf.integral hdepth).1.length_eq

/-- The head of an enumeration has the fewest hops of all paths of the tree. -/
theorem head_le {q p : FabricPath} (h : (t.enumeratePaths src dst cfg).head? = some q) (hp : p ∈ t.pathsInOrder src dst cfg) :
    q.hops.length ≤ p.hops.length := by
  have hjoin := (joinable_of_enumerated (List.mem_of_head? h)).1
  rw [enumeratePaths_eq hjoin] at h
  have hsorted : (t.pathsInOrder src dst cfg).Pairwise fun p q => p.hops.length ≤ q.hops.length :=
    t.pathsFrom_sorted src dst cfg t.deviceEdges
  cases hall : t.pathsInOrder src dst cfg with
  | nil => rw [hall] at hp; nomatch hp
  | cons first rest =>
    rw [hall] at h hp hsorted
    cases hmax : cfg.maxPaths.toNat with
    | zero => rw [hmax] at h; nomatch h
    | succ n =>
      rw [hmax, List.take_succ_cons] at h
      obtain rfl : first = q := Option.some.inj h
      rcases List.mem_cons.mp hp with rfl | hp
      · exact le_rfl
      · exact (List.pairwise_cons.mp hsorted).1 p hp

/-- **The head of an enumeration** is a walk, and none is shorter. -/
theorem head_least (hwf : t.WellFormed) (hallow : cfg.allowSwitchSwitching = true) {q : FabricPath}
    (h : (t.enumeratePaths src dst cfg).head? = some q) : IsLeast (t.walkLengths src dst) q.switchSequence.length := by
  have hmem := List.mem_of_head? h
  have hdepth := (joinable_of_enumerated hmem).2
  have hfound := enumeratePaths_found hmem
  obtain ⟨hwalk, hwithin⟩ := hfound.walk hwf.keyed hwf.integral hdepth
  refine ⟨⟨_, _, hwalk, rfl⟩, ?_⟩
  rintro n ⟨sws, ls, hother, rfl⟩
  obtain ⟨sws', ls', hsimple, hnodup, hle⟩ := hother.simple
  by_contra hless
  have hbound : sws'.length ≤ cfg.maxDepth.toNat := by
    have hlen := hwithin.depth
    omega
  -- the shorter walk is in the tree, and the tree is in order
  obtain ⟨p, hp, hlinks⟩ := List.mem_map.mp ((mem_links_iff hwf.keyed hwf.integral).mpr
    ⟨sws', hsimple, hnodup, hbound, Or.inl hallow⟩)
  have hpfound := (mem_pathsInOrder_iff hdepth).mp hp
  have hplen := hpfound.links_length hwf hdepth
  have hlen := hsimple.length_eq
  have hfirst := head_le h hp
  rw [hfound.hops_length] at hfirst
  rw [hlinks] at hplen
  omega

/-- A walk within the depth makes an enumeration begin. -/
theorem head_of_walk (hwf : t.WellFormed) (hallow : cfg.allowSwitchSwitching = true) (hroom : cfg.maxPaths ≠ 0)
    (hjoin : t.Joinable src dst) {sws : List SwitchId} {ls : List LinkId}
    (h : t.SwitchWalk LinkRecord.Usable src dst sws ls) (hlen : sws.length ≤ cfg.maxDepth.toNat) :
    ∃ q, (t.enumeratePaths src dst cfg).head? = some q := by
  obtain ⟨sws', ls', hsimple, hnodup, hle⟩ := h.simple
  obtain ⟨p, hp, _⟩ := List.mem_map.mp ((mem_links_iff hwf.keyed hwf.integral).mpr
    ⟨sws', hsimple, hnodup, hle.trans hlen, Or.inl hallow⟩)
  rw [← Option.isSome_iff_exists, List.isSome_head?, enumeratePaths_eq hjoin, Ne, List.take_eq_nil_iff, not_or]
  exact ⟨fun hzero => hroom (UInt32.toNat_inj.mp hzero), List.ne_nil_of_mem hp⟩

/-- Switches are linked both ways: where a usable link leads from one to another, one leads back. -/
def LinkedBothWays (t : FabricTopology) : Prop :=
  ∀ a b l, t.Leads LinkRecord.Usable a l (LinkEnd.AtSwitch b) → ∃ l', t.Leads LinkRecord.Usable b l' (LinkEnd.AtSwitch a)

/-- What is left of a walk, taken back, and a way on from where it ends. -/
theorem Onward.mirror (hm : t.LinkedBothWays) {sw : SwitchId} {sws : List SwitchId} {ls : List LinkId}
    (h : t.Onward LinkRecord.Usable dst sw sws ls) : ∀ {sws' : List SwitchId} {ls' : List LinkId},
      t.Onward LinkRecord.Usable src sw sws' ls' →
        ∃ ls'', t.SwitchWalk LinkRecord.Usable dst src ((sw :: sws).reverse ++ sws') ls'' := by
  induction h with
  | arrive link => exact fun hback => ⟨_, .enter link hback⟩
  | @cross sw s l sws ls link _ ih =>
    intro sws' ls' hback
    obtain ⟨l', hl'⟩ := hm sw s l link
    obtain ⟨ls'', hwalk⟩ := ih (.cross hl' hback)
    rw [List.reverse_cons, List.append_assoc]
    exact ⟨ls'', hwalk⟩

/-- **A walk can be taken back** through the same switches. -/
theorem SwitchWalk.mirror (hm : t.LinkedBothWays) {sws : List SwitchId} {ls : List LinkId}
    (h : t.SwitchWalk LinkRecord.Usable src dst sws ls) : ∃ ls', t.SwitchWalk LinkRecord.Usable dst src sws.reverse ls' := by
  cases h with
  | @enter s l sws ls link rest =>
    obtain ⟨ls', hwalk⟩ := rest.mirror hm (.arrive link)
    rw [List.append_nil] at hwalk
    exact ⟨ls', hwalk⟩

theorem Joinable.symm (h : t.Joinable src dst) : t.Joinable dst src := ⟨h.destination, h.source, h.distinct.symm⟩

theorem Apart.symm (h : t.Apart src dst) : t.Apart dst src := by
  obtain ⟨sp, dp, hsp, hdp, hne⟩ := h
  exact ⟨dp, sp, hdp, hsp, hne.symm⟩

/-- The head of an enumeration has one in the other direction that is no longer. -/
theorem head_mirror (hwf : t.WellFormed) (hm : t.LinkedBothWays) (hallow : cfg.allowSwitchSwitching = true) {q : FabricPath}
    (h : (t.enumeratePaths src dst cfg).head? = some q) : ∃ q', (t.enumeratePaths dst src cfg).head? = some q' ∧
      q'.switchSequence.length ≤ q.switchSequence.length := by
  have hmem := List.mem_of_head? h
  obtain ⟨hjoin, hdepth⟩ := joinable_of_enumerated hmem
  have hroom : cfg.maxPaths ≠ 0 := by
    intro hzero
    unfold enumeratePaths at hmem
    rw [hzero] at hmem
    nomatch hmem
  obtain ⟨hwalk, hwithin⟩ := (enumeratePaths_found hmem).walk hwf.keyed hwf.integral hdepth
  obtain ⟨ls', hback⟩ := hwalk.mirror hm
  obtain ⟨q', hq'⟩ := head_of_walk hwf hallow hroom hjoin.symm hback (by rw [List.length_reverse]; exact hwithin.depth)
  refine ⟨q', hq', ?_⟩
  have hle := (head_least hwf hallow hq').2 ⟨_, _, hback, rfl⟩
  rwa [List.length_reverse] at hle

/-- **Reachability is symmetric on a mirrored fabric**: if a device can be reached from another, then so can that from it;
    and the shortest paths that the two enumerations return, whatever their bounds, go through as many switches. -/
theorem mirrored_symmetric {r : FabricRegistry} (hr : r.Reachable) (hm : r.current.LinkedBothWays) (src dst : DeviceId) :
    (r.current.Reached src dst ↔ r.current.Reached dst src) ∧
      ∀ cfg : TraversalConfig, cfg.allowSwitchSwitching = true →
        (r.paths src dst cfg).head?.map (·.switchSequence.length) =
          (r.paths dst src cfg).head?.map (·.switchSequence.length) := by
  have hwf := hr.wellFormed
  have hreach : ∀ {src dst : DeviceId}, r.current.Reached src dst → r.current.Reached dst src := by
    intro src dst h
    rcases reached_iff.mp h with ⟨rfl, s, hs⟩ | ⟨hapart, hsome⟩
    · exact reached_iff.mpr (Or.inl ⟨rfl, s, hs⟩)
    · obtain ⟨q, hq⟩ := Option.isSome_iff_exists.mp (List.isSome_head?.mpr hsome)
      obtain ⟨q', hq', _⟩ := head_mirror hwf hm rfl hq
      exact reached_iff.mpr (Or.inr ⟨fun h => hapart h.symm, List.ne_nil_of_mem (List.mem_of_head? hq')⟩)
  refine ⟨⟨hreach, hreach⟩, ?_⟩
  intro cfg hallow
  unfold FabricRegistry.paths
  cases hhead : (r.current.enumeratePaths src dst cfg).head? with
  | none =>
    cases hback : (r.current.enumeratePaths dst src cfg).head? with
    | none => rfl
    | some q' =>
      obtain ⟨q, hq, _⟩ := head_mirror hwf hm hallow hback
      rw [hhead] at hq
      nomatch hq
  | some q =>
    obtain ⟨q', hback, hle⟩ := head_mirror hwf hm hallow hhead
    obtain ⟨q₀, hq₀, hge⟩ := head_mirror hwf hm hallow hback
    obtain rfl := Option.some.inj (hhead.symm.trans hq₀)
    rw [hback]
    exact congrArg some (le_antisymm hge hle)

/-- Two switches that are linked both ways, with a device on each. -/
theorem mirrored_symmetric_twoSwitchLinear :
    let r := FabricRegistry.after [.applyBulk (buildSyntheticScan .twoSwitchLinear)]
    r.current.Reached ⟨1⟩ ⟨2⟩ ∧ r.current.Reached ⟨2⟩ ⟨1⟩ := by
  intro r
  have hback : ∀ e ∈ r.current.links.entries, e.2.otherEnd.kind = .switch →
      ∃ e' ∈ r.current.links.entries, e'.2.rootSwitch = e.2.otherEnd.sw ∧ e'.2.otherEnd.kind = .switch ∧
        e'.2.otherEnd.sw = e.2.rootSwitch ∧ usableState e'.2.state = true ∧
          (r.current.ports.find? e'.2.port).any (fun p => usableState p.state) = true := by
    decide +kernel
  have hm : r.current.LinkedBothWays := by
    rintro a b l ⟨rec, hrec, rfl, ⟨hkind, rfl⟩, _, _⟩
    obtain ⟨e', he', hroot, hkind', hfar, hup, hport⟩ := hback (l, rec) (SortedMap.find?_eq_some_iff.mp hrec) hkind
    obtain ⟨p, hp, hstate⟩ := (Option.any_eq_true ..).mp hport
    exact ⟨e'.1, e'.2, SortedMap.find?_eq_some_iff.mpr he', hroot, ⟨hkind', hfar⟩, hup, p, hp, hstate⟩
  have hreached : r.current.Reached ⟨1⟩ ⟨2⟩ := reached_iff_positive.mpr (by decide +kernel)
  exact ⟨hreached, (mirrored_symmetric (FabricRegistry.reachable_after _) hm ⟨1⟩ ⟨2⟩).1.mp hreached⟩

end FabricTopology

end NVSwitchFabric
