import NVSwitchFabric.Correctness.UsablePaths
import NVSwitchFabric.Model.Scenario

/-!
# `Correctness.SwitchWalks` — enumeration finds every simple walk, once

A `SwitchWalk` is what enumeration looks for, in terms of links alone: one from the source to a switch, one from each
switch to the next, and one from the last switch to the destination, each on a usable port. Which links count is a
parameter, since the same walks are compared before and after the states of links change; for enumeration it is the
links that are up or degraded.

An explored partial path is a walk that has not arrived (`Explored.walk`), and each walk that is `Within` the bounds
is found from its seed (`Onward.found`), so the link sequences of the search tree are those of the walks
(`mem_links_iff`). No sequence occurs twice (`links_nodup`): links under one switch are distinct, and a level
of the tree holds the sequences of one length.
-/

namespace NVSwitchFabric

open Lib

/-- The far end is this device. -/
def LinkEnd.AtDevice (d : DeviceId) (e : LinkEnd) : Prop := e.kind = .device ∧ e.device = d

/-- The far end is this switch. -/
def LinkEnd.AtSwitch (s : SwitchId) (e : LinkEnd) : Prop := e.kind = .switch ∧ e.sw = s

/-- The link is up or degraded. -/
def LinkRecord.Usable (rec : LinkRecord) : Prop := usableState rec.state = true

namespace FabricTopology

variable {t : FabricTopology} {up : LinkRecord → Prop} {src dst : DeviceId} {cfg : TraversalConfig}

/-! ## Walks -/

/-- The link is rooted at the switch, ends as described, counts as up and is on a usable port. -/
def Leads (t : FabricTopology) (up : LinkRecord → Prop) (sw : SwitchId) (l : LinkId) (far : LinkEnd → Prop) : Prop :=
  ∃ rec, t.links.find? l = some rec ∧ rec.rootSwitch = sw ∧ far rec.otherEnd ∧ up rec ∧ t.PortUsable rec.port

/-- The rest of a walk: through the switches in turn, and to the device. -/
inductive Onward (t : FabricTopology) (up : LinkRecord → Prop) (dst : DeviceId) :
    SwitchId → List SwitchId → List LinkId → Prop where
  | arrive {sw : SwitchId} {l : LinkId} (link : t.Leads up sw l (LinkEnd.AtDevice dst)) : Onward t up dst sw [] [l]
  | cross {sw s : SwitchId} {l : LinkId} {sws : List SwitchId} {ls : List LinkId} (link : t.Leads up sw l (LinkEnd.AtSwitch s))
      (rest : Onward t up dst s sws ls) : Onward t up dst sw (s :: sws) (l :: ls)

/-- A walk from device to device through the switches in turn, over the links in turn. -/
inductive SwitchWalk (t : FabricTopology) (up : LinkRecord → Prop) (src dst : DeviceId) :
    List SwitchId → List LinkId → Prop where
  | enter {s : SwitchId} {l : LinkId} {sws : List SwitchId} {ls : List LinkId} (link : t.Leads up s l (LinkEnd.AtDevice src))
      (rest : t.Onward up dst s sws ls) : SwitchWalk t up src dst (s :: sws) (l :: ls)

/-- The walk repeats no switch and is one that the bounds let enumeration search. -/
structure Within (cfg : TraversalConfig) (sws : List SwitchId) : Prop where
  distinct : sws.Nodup
  depth    : sws.length ≤ cfg.maxDepth.toNat
  crossing : cfg.allowSwitchSwitching = true ∨ sws.length = 1

section
variable {t' : FabricTopology} {up' : LinkRecord → Prop} {sws : List SwitchId} {ls : List LinkId}

/-- A walk is one in another snapshot too if each of its links leads the same way there. -/
theorem Onward.transfer {sw : SwitchId} (h : t.Onward up dst sw sws ls)
    (hleads : ∀ l ∈ ls, ∀ sw far, t.Leads up sw l far → t'.Leads up' sw l far) : t'.Onward up' dst sw sws ls := by
  induction h with
  | arrive link => exact .arrive (hleads _ List.mem_cons_self _ _ link)
  | cross link _ ih =>
    exact .cross (hleads _ List.mem_cons_self _ _ link) (ih fun l hl => hleads l (List.mem_cons_of_mem _ hl))

theorem SwitchWalk.transfer (h : t.SwitchWalk up src dst sws ls)
    (hleads : ∀ l ∈ ls, ∀ sw far, t.Leads up sw l far → t'.Leads up' sw l far) : t'.SwitchWalk up' src dst sws ls := by
  cases h with
  | enter link rest =>
    exact .enter (hleads _ List.mem_cons_self _ _ link) (rest.transfer fun l hl => hleads l (List.mem_cons_of_mem _ hl))

/-- Each link of a walk leads somewhere. -/
theorem Onward.exists_leads {sw : SwitchId} (h : t.Onward up dst sw sws ls) : ∀ l ∈ ls, ∃ sw far, t.Leads up sw l far := by
  induction h with
  | arrive link =>
    intro l hl
    obtain rfl := List.mem_singleton.mp hl
    exact ⟨_, _, link⟩
  | cross link _ ih =>
    intro l hl
    rcases List.mem_cons.mp hl with rfl | hl
    · exact ⟨_, _, link⟩
    · exact ih l hl

theorem SwitchWalk.exists_leads (h : t.SwitchWalk up src dst sws ls) : ∀ l ∈ ls, ∃ sw far, t.Leads up sw l far := by
  cases h with
  | enter link rest =>
    intro l hl
    rcases List.mem_cons.mp hl with rfl | hl
    · exact ⟨_, _, link⟩
    · exact rest.exists_leads l hl

end

/-! ## Edges of walks -/

/-- A usable edge leads where it ends. -/
theorem EdgeAt.leads {sw : SwitchId} {e : Edge} (h : t.EdgeAt sw e) (hkeyed : t.Keyed) (husable : edgeUsable e = true)
    {far : LinkEnd → Prop} (hfar : far e.other) : t.Leads LinkRecord.Usable sw e.link far := by
  obtain ⟨⟨rec', hrec', hup⟩, hport⟩ := (h.usable_iff hkeyed).mp husable
  obtain ⟨id, rec, hrec, hroot, rfl⟩ := h
  have hkey : rec.id = id := hkeyed.links hrec
  have hid : t.links.find? (t.edgeOf rec).link = some rec := by
    show t.links.find? rec.id = some rec
    rw [hkey, hrec]
  obtain rfl := Option.some.inj (hid.symm.trans hrec')
  exact ⟨rec, hid, hroot, hfar, hup, hport⟩

/-- A link of a walk has a usable edge. -/
theorem Leads.edge {sw : SwitchId} {l : LinkId} {far : LinkEnd → Prop} (h : t.Leads LinkRecord.Usable sw l far)
    (hkeyed : t.Keyed) : ∃ e, t.EdgeAt sw e ∧ edgeUsable e = true ∧ e.link = l ∧ far e.other := by
  obtain ⟨rec, hrec, hroot, hfar, hup, hport⟩ := h
  have hat : t.EdgeAt sw (t.edgeOf rec) := ⟨l, rec, hrec, hroot, rfl⟩
  have hid : (t.edgeOf rec).link = l := hkeyed.links hrec
  refine ⟨t.edgeOf rec, hat, (hat.usable_iff hkeyed).mpr ⟨?_, hport⟩, hid, hfar⟩
  rw [hid]
  exact ⟨rec, hrec, hup⟩

theorem atDevice_iff {e : LinkEnd} {d : DeviceId} : e.AtDevice d ↔ isDeviceEnd e = true ∧ e.device = d := by
  unfold LinkEnd.AtDevice isDeviceEnd
  rw [decide_eq_true_eq]

theorem atSwitch_iff {e : LinkEnd} {s : SwitchId} : e.AtSwitch s ↔ isSwitchEnd e = true ∧ e.sw = s := by
  unfold LinkEnd.AtSwitch isSwitchEnd
  rw [decide_eq_true_eq]

/-- On an integral topology the port of an edge is one of the switch it is rooted at. -/
theorem EdgeAt.port_sw {sw : SwitchId} {e : Edge} (h : t.EdgeAt sw e) (hint : t.Integral) : e.port.sw = sw := by
  obtain ⟨id, rec, hrec, rfl, rfl⟩ := h
  exact hint.linkPortRoot hrec

/-! ## Explored paths are walks -/

/-- **Going on from an explored path** makes a walk. -/
theorem Explored.walk {p : Partial} (h : Explored t src cfg p) (hkeyed : t.Keyed) (hint : t.Integral) :
    ∀ {sws : List SwitchId} {ls : List LinkId}, t.Onward LinkRecord.Usable dst p.cur sws ls →
      t.SwitchWalk LinkRecord.Usable src dst (p.switches ++ sws) (p.links ++ ls) := by
  induction h with
  | @seed e edge atSrc usable =>
    intro sws ls hrest
    obtain ⟨⟨sw, hat⟩, hdev⟩ := mem_deviceEdges_iff.mp edge
    obtain rfl : e.port.sw = sw := hat.port_sw hint
    exact .enter (hat.leads hkeyed usable (atDevice_iff.mpr ⟨hdev, atSrc⟩)) hrest
  | @extend p es e _ here edge usable toSwitch _ _ _ ih =>
    intro sws ls hrest
    have hlink := (edgeAt_of_mem_swEdges here edge).leads hkeyed usable (atSwitch_iff.mpr ⟨toSwitch, rfl⟩)
    have hwalk := ih (.cross hlink hrest)
    rw [List.append_cons, List.append_cons p.links] at hwalk
    exact hwalk

/-- Without switching from switch to switch, paths stay on their first one. -/
theorem Explored.direct {p : Partial} (h : Explored t src cfg p) :
    cfg.allowSwitchSwitching = true ∨ p.switches.length = 1 := by
  cases h with
  | seed => exact Or.inr rfl
  | extend _ _ _ _ _ allowed => exact Or.inl allowed

/-- **A found path is a walk within the bounds.** -/
theorem Found.walk {q : FabricPath} (h : Found t src dst cfg q) (hkeyed : t.Keyed) (hint : t.Integral)
    (hdepth : 0 < cfg.maxDepth.toNat) :
    t.SwitchWalk LinkRecord.Usable src dst q.switchSequence q.links ∧ Within cfg q.switchSequence := by
  obtain ⟨hnodup, hlen⟩ := h.simple hdepth
  cases h with
  | @finish p es e known here edge usable toDevice atDst =>
    have hlink := (edgeAt_of_mem_swEdges here edge).leads hkeyed usable (atDevice_iff.mpr ⟨toDevice, atDst⟩)
    have hwalk := known.walk hkeyed hint (.arrive hlink)
    rw [List.append_nil] at hwalk
    exact ⟨hwalk, hnodup, hlen, known.direct⟩

/-! ## Walks are found -/

/-- **The rest of a walk is found** from an explored path that stands where it begins. -/
theorem Onward.found {sw : SwitchId} {sws : List SwitchId} {ls : List LinkId}
    (h : t.Onward LinkRecord.Usable dst sw sws ls) (hkeyed : t.Keyed) :
    ∀ {p : Partial}, Explored t src cfg p → p.cur = sw → Within cfg (p.switches ++ sws) →
      ∃ q, Found t src dst cfg q ∧ q.links = p.links ++ ls := by
  induction h with
  | arrive link =>
    rintro p hp rfl _
    obtain ⟨e, hat, husable, rfl, hfar⟩ := link.edge hkeyed
    obtain ⟨hdev, hdst⟩ := atDevice_iff.mp hfar
    obtain ⟨es, hes, he⟩ := mem_getD_iff.mp (mem_swEdges_iff.mpr hat)
    exact ⟨_, .finish hp hes he husable hdev hdst, rfl⟩
  | @cross sw s l sws ls link rest ih =>
    rintro p hp rfl ⟨hdistinct, hlen, hcross⟩
    obtain ⟨e, hat, husable, rfl, hfar⟩ := link.edge hkeyed
    obtain ⟨hsw, rfl⟩ := atSwitch_iff.mp hfar
    obtain ⟨es, hes, he⟩ := mem_getD_iff.mp (mem_swEdges_iff.mpr hat)
    have hlonger : p.switches.length + (sws.length + 1) ≤ cfg.maxDepth.toNat := by
      rwa [List.length_append, List.length_cons] at hlen
    have hfresh : e.other.sw ∉ p.switches := by
      intro hmem
      exact List.disjoint_of_nodup_append hdistinct hmem List.mem_cons_self
    -- the walk goes on from a partial path, so it has more than one switch
    have hallow : cfg.allowSwitchSwitching = true := by
      refine hcross.resolve_right ?_
      have hpos : 0 < p.switches.length := by
        cases hp with
        | seed => exact Nat.zero_lt_one
        | extend => exact List.length_pos_iff.mpr (List.append_ne_nil_of_right_ne_nil _ (List.cons_ne_nil _ _))
      rw [List.length_append, List.length_cons]
      omega
    rw [← hp.crossing.mem_visited_iff] at hfresh
    have hext : Explored t src cfg (p.extend t.swEdges e) :=
      .extend hp hes he husable hsw hallow hfresh (by omega)
    rw [List.append_cons] at hdistinct hlen hcross
    obtain ⟨q, hq, hlinks⟩ := ih hext rfl ⟨hdistinct, hlen, hcross⟩
    refine ⟨q, hq, hlinks.trans ?_⟩
    exact (List.append_cons p.links e.link ls).symm

/-- **A walk within the bounds is found.** -/
theorem SwitchWalk.found {sws : List SwitchId} {ls : List LinkId} (h : t.SwitchWalk LinkRecord.Usable src dst sws ls)
    (hkeyed : t.Keyed) (hint : t.Integral) (hwithin : Within cfg sws) : ∃ q, Found t src dst cfg q ∧ q.links = ls := by
  cases h with
  | enter link rest =>
    obtain ⟨e, hat, husable, rfl, hfar⟩ := link.edge hkeyed
    obtain ⟨hdev, hsrc⟩ := atDevice_iff.mp hfar
    obtain rfl := hat.port_sw hint
    exact rest.found hkeyed (.seed (mem_deviceEdges_iff.mpr ⟨⟨_, hat⟩, hdev⟩) hsrc husable) rfl hwithin

/-- **The link sequences of the search tree are those of the walks within the bounds.** -/
theorem mem_links_iff (hkeyed : t.Keyed) (hint : t.Integral) {ls : List LinkId} :
    ls ∈ (t.pathsInOrder src dst cfg).map (·.links) ↔
      ∃ sws, t.SwitchWalk LinkRecord.Usable src dst sws ls ∧ Within cfg sws := by
  rw [List.mem_map]
  rcases Nat.eq_zero_or_pos cfg.maxDepth.toNat with hzero | hdepth
  · -- a depth of zero admits neither paths nor walks
    constructor
    · rintro ⟨q, hq, _⟩
      unfold pathsInOrder searchTree at hq
      rw [hzero] at hq
      exact absurd hq List.not_mem_nil
    · rintro ⟨sws, ⟨⟩, hwithin⟩
      have hdeep := hwithin.depth
      rw [hzero] at hdeep
      exact absurd hdeep (Nat.not_succ_le_zero _)
  · constructor
    · rintro ⟨q, hq, rfl⟩
      exact ⟨q.switchSequence, ((mem_pathsInOrder_iff hdepth).mp hq).walk hkeyed hint hdepth⟩
    · rintro ⟨sws, hwalk, hwithin⟩
      obtain ⟨q, hq, hlinks⟩ := hwalk.found hkeyed hint hwithin
      exact ⟨q, (mem_pathsInOrder_iff hdepth).mpr hq, hlinks⟩

/-! ## No sequence of links twice -/

/-- The links under one switch are distinct. -/
theorem swEdges_links_nodup (hkeyed : t.Keyed) (sw : SwitchId) :
    (((t.swEdges.find? sw).getD []).map (·.link)).Nodup := by
  rw [((t.swEdges_perm sw).map _).nodup_iff, rawSwitchEdges_eq, List.map_map]
  have hkeys : (t.links.entries.filter fun l => l.2.rootSwitch = sw).map ((fun e => e.link) ∘ fun l => t.edgeOf l.2) =
      (t.links.entries.filter fun l => l.2.rootSwitch = sw).map Prod.fst := by
    apply List.map_congr_left
    rintro ⟨id, rec⟩ hl
    exact hkeyed.links (SortedMap.find?_eq_some_iff.mpr (List.mem_filter.mp hl).1)
  rw [hkeys]
  exact t.links.keys_nodup.sublist (List.filter_sublist.map _)

/-- Edges of one link are the same, under one switch. -/
theorem EdgeAt.unique {sw sw' : SwitchId} {e e' : Edge} (h : t.EdgeAt sw e) (h' : t.EdgeAt sw' e') (hkeyed : t.Keyed)
    (hlink : e.link = e'.link) : sw = sw' ∧ e = e' := by
  obtain ⟨id, rec, hrec, rfl, rfl⟩ := h
  obtain ⟨id', rec', hrec', rfl, rfl⟩ := h'
  have hid : id = id' := by
    rw [← hkeyed.links hrec, ← hkeyed.links hrec']
    exact hlink
  subst hid
  obtain rfl := Option.some.inj (hrec.symm.trans hrec')
  exact ⟨rfl, rfl⟩

/-- The links of the device edges are distinct. -/
theorem deviceEdges_links_nodup (hkeyed : t.Keyed) : (t.deviceEdges.map (·.link)).Nodup := by
  unfold deviceEdges
  rw [((List.perm_insertionSort _ _).map _).nodup_iff]
  have hall : ((t.swEdges.entries.flatMap fun e => e.2).map (·.link)).Nodup := by
    rw [List.map_flatMap, List.nodup_flatMap]
    have hentry : ∀ e ∈ t.swEdges.entries, t.swEdges.find? e.1 = some e.2 :=
      fun e he => SortedMap.find?_eq_some_iff.mpr he
    constructor
    · intro e he
      have hnodup := swEdges_links_nodup hkeyed e.1
      rwa [hentry e he] at hnodup
    · have hkeys : t.swEdges.entries.Pairwise fun e e' => e.1 ≠ e'.1 := List.pairwise_map.mp t.swEdges.keys_nodup
      refine hkeys.imp_of_mem ?_
      intro e e' he he' hne l hl hl'
      obtain ⟨a, ha, rfl⟩ := List.mem_map.mp hl
      obtain ⟨a', ha', heq⟩ := List.mem_map.mp hl'
      have hat := edgeAt_of_mem_swEdges (hentry e he) ha
      have hat' := edgeAt_of_mem_swEdges (hentry e' he') ha'
      exact hne (hat.unique hat' hkeyed heq.symm).1
  exact hall.sublist (List.filter_sublist.map _)

/-- Distinct links make distinct longer sequences. -/
theorem nodup_map_concat {es : List Edge} (h : (es.map (·.link)).Nodup) (keep : Edge → Bool) (ls : List LinkId) :
    ((es.filter keep).map fun e => ls ++ [e.link]).Nodup := by
  have hkept : ((es.filter keep).map (·.link)).Nodup := h.sublist (List.filter_sublist.map _)
  have hsplit : ((es.filter keep).map fun e => ls ++ [e.link]) =
      ((es.filter keep).map (·.link)).map fun l => ls ++ [l] := by
    rw [List.map_map]
    rfl
  rw [hsplit]
  refine hkept.map ?_
  intro l l' heq
  exact List.singleton_inj.mp (List.append_cancel_left heq)

/-- **The search tree yields no sequence of links twice.** -/
theorem links_nodup (hkeyed : t.Keyed) : ((t.pathsInOrder src dst cfg).map (·.links)).Nodup := by
  have hkid : ∀ p : Partial, ∀ k ∈ p.extensions cfg t.swEdges, ∃ l, k.links = p.links ++ [l] := by
    intro p k hk
    obtain ⟨e, _, _, _, rfl⟩ := mem_through_iff.mp hk
    exact ⟨e.link, rfl⟩
  have hkids : ∀ p : Partial, ((p.extensions cfg t.swEdges).map (·.links)).Nodup := by
    intro p
    unfold Partial.extensions Partial.through
    rw [List.map_map]
    exact nodup_map_concat (swEdges_links_nodup hkeyed p.cur) _ p.links
  have harrive : ∀ p : Partial, ∀ q ∈ t.arrivals src dst p, ∃ l, q.links = p.links ++ [l] := by
    intro p q hq
    obtain ⟨e, _, _, _, _, rfl⟩ := mem_finishes_iff.mp hq
    exact ⟨e.link, rfl⟩
  have harrivals : ∀ p : Partial, ((t.arrivals src dst p).map (·.links)).Nodup := by
    intro p
    unfold arrivals finishes
    rw [List.map_map]
    exact nodup_map_concat (swEdges_links_nodup hkeyed p.cur) _ p.links
  have hseeds : (((t.deviceEdges.filter fun e => e.other.device = src && edgeUsable e).map Partial.seed).map
      (·.links)).Nodup := by
    rw [List.map_map]
    exact nodup_map_concat (deviceEdges_links_nodup hkeyed) _ []
  have hlength : ∀ p ∈ (t.deviceEdges.filter fun e => e.other.device = src && edgeUsable e).map Partial.seed,
      p.links.length = 1 := by
    intro p hp
    obtain ⟨e, _, rfl⟩ := List.mem_map.mp hp
    rfl
  exact Worklist.nodup_keys_flatMap harrive harrivals (Worklist.levels_nodup hkid hkids _ 1 _ hlength hseeds)

/-! ## Complete enumerations -/

/-- An enumeration that is not cut short holds all paths of the search tree. -/
theorem enumeratePaths_all (hjoin : t.Joinable src dst)
    (hfew : (t.enumeratePaths src dst cfg).length < cfg.maxPaths.toNat) :
    t.enumeratePaths src dst cfg = t.pathsInOrder src dst cfg := by
  rw [enumeratePaths_eq hjoin] at hfew ⊢
  rw [List.length_take] at hfew
  exact List.take_of_length_le (by omega)

/-- Of distinct elements, the first `n` are all in a shorter list only if all elements are. -/
theorem take_subset_iff {α : Type} {l l' : List α} {n : Nat} (hdistinct : l'.Nodup) (hshort : l.length < n) :
    (∀ x ∈ l'.take n, x ∈ l) ↔ ∀ x ∈ l', x ∈ l := by
  constructor
  · intro h
    have hle : (l'.take n).length ≤ l.length :=
      ((hdistinct.sublist (List.take_sublist n l')).subperm h).length_le
    rw [List.length_take] at hle
    rwa [List.take_of_length_le (by omega)] at h
  · intro h x hx
    exact h x (List.mem_of_mem_take hx)

/-- **Comparing enumerations.** If the first one is not cut short, it holds all link sequences that the second one
    returns exactly if it holds all those of the second search tree. -/
theorem enumeratePaths_subset_iff {t' : FabricTopology} (hkeyed' : t'.Keyed) (hjoin : t.Joinable src dst)
    (hjoin' : t'.Joinable src dst) (hfew : (t.enumeratePaths src dst cfg).length < cfg.maxPaths.toNat) :
    (∀ ls ∈ (t'.enumeratePaths src dst cfg).map (·.links), ls ∈ (t.enumeratePaths src dst cfg).map (·.links)) ↔
      ∀ ls ∈ (t'.pathsInOrder src dst cfg).map (·.links), ls ∈ (t.pathsInOrder src dst cfg).map (·.links) := by
  have hall := enumeratePaths_all hjoin hfew
  rw [hall] at hfew ⊢
  rw [enumeratePaths_eq hjoin', List.map_take]
  refine take_subset_iff (links_nodup hkeyed') ?_
  rwa [List.length_map]

/-- **Enumeration is complete and without duplicates.** If it returns fewer than `maxPaths` paths, each walk from the
    source to the destination is returned exactly once that goes through distinct switches, at most `maxDepth` of them,
    over links and ports that are up or degraded. -/
theorem enumeratePaths_complete (hkeyed : t.Keyed) (hint : t.checkIntegrity = []) (hjoin : t.Joinable src dst)
    (hallow : cfg.allowSwitchSwitching = true)
    (hfew : (t.enumeratePaths src dst cfg).length < cfg.maxPaths.toNat) :
    ∀ sws ls, t.SwitchWalk LinkRecord.Usable src dst sws ls → sws.Nodup → sws.length ≤ cfg.maxDepth.toNat →
      ((t.enumeratePaths src dst cfg).map (·.links)).count ls = 1 := by
  intro sws ls hwalk hdistinct hlen
  have hint := checkIntegrity_eq_nil_iff.mp hint
  rw [enumeratePaths_all hjoin hfew]
  refine List.count_eq_one_of_mem (links_nodup hkeyed) ?_
  exact (mem_links_iff hkeyed hint).mpr ⟨sws, hwalk, hdistinct, hlen, Or.inl hallow⟩

/-- Of the two redundant switches a walk may cross both. -/
theorem enumeratePaths_complete_twoSwitchRedundant :
    let t := (FabricRegistry.after [.applyBulk (buildSyntheticScan .twoSwitchRedundant)]).current
    t.SwitchWalk LinkRecord.Usable ⟨1⟩ ⟨2⟩ [⟨10⟩, ⟨11⟩] [⟨100⟩, ⟨120⟩, ⟨103⟩] ∧
      ((t.enumeratePaths ⟨1⟩ ⟨2⟩ {}).map (·.links)).count [⟨100⟩, ⟨120⟩, ⟨103⟩] = 1 := by
  intro t
  have hwf := (FabricRegistry.reachable_after [.applyBulk (buildSyntheticScan .twoSwitchRedundant)]).wellFormed
  have hpath : ∃ q ∈ t.enumeratePaths ⟨1⟩ ⟨2⟩ {}, q.switchSequence = [⟨10⟩, ⟨11⟩] ∧
      q.links = [⟨100⟩, ⟨120⟩, ⟨103⟩] := by
    decide +kernel
  obtain ⟨q, hq, hsws, hlinks⟩ := hpath
  obtain ⟨hwalk, hwithin⟩ := (enumeratePaths_found hq).walk hwf.keyed hwf.integral (by decide)
  rw [hsws, hlinks] at hwalk
  rw [hsws] at hwithin
  exact ⟨hwalk, enumeratePaths_complete hwf.keyed (checkIntegrity_eq_nil_iff.mpr hwf.integral)
    (joinable_of_enumerated hq).1 rfl (by decide +kernel) _ _ hwalk hwithin.distinct hwithin.depth⟩

end FabricTopology

end NVSwitchFabric
