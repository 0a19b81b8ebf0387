import NVSwitchFabric.Correctness.KeyText
import NVSwitchFabric.Correctness.UsablePaths
import NVSwitchFabric.Correctness.WalkOrder

/-!
# `Correctness.CanonicalKeys` — which paths have the same canonical key

The hops of an enumerated path follow from the ports of its links (`Found.over`), and their text shows these ports. So two
paths of an enumeration have the same key iff their links are on the same ports (`canonicalKey_eq_iff`). Links of a port are
not told apart: keys identify paths where the limit on paths leaves out all but the first walk over the same ports.
-/

namespace NVSwitchFabric

open Lib

/-! ## Hops over ports -/

/-- Where a path stands before it leaves by the ports. -/
def standsAt (outs : List PortId) (cur : SwitchId) : SwitchId :=
  match outs with
  | []       => cur
  | out :: _ => out.sw

/-- The hops of a path that is entered on a port, left by some others, and stands at a switch then. -/
def hopsAlong (adj : SortedMap SwitchId (List Edge)) : PortId → List PortId → SwitchId → List PathHop
  | entry, [],          cur => [{ sw := cur, inPort := entry }]
  | entry, out :: outs, cur =>
    { sw := out.sw, inPort := entry, outPort := out, exitToSwitch := true } ::
      hopsAlong adj (reversePort adj out.sw (standsAt outs cur)) outs cur

/-- The hops of a path that is left by one more port to a device. -/
def hopsOver (adj : SortedMap SwitchId (List Edge)) (entry : PortId) (outs : List PortId) (out : PortId) : List PathHop :=
  modifyBack (fun h => { h with outPort := out, exitToDevice := true }) (hopsAlong adj entry outs out.sw)

section
variable (adj : SortedMap SwitchId (List Edge))

theorem hopsAlong_ne_nil (entry : PortId) (outs : List PortId) (cur : SwitchId) : hopsAlong adj entry outs cur ≠ [] := by
  cases outs with
  | nil => exact List.cons_ne_nil _ _
  | cons _ _ => exact List.cons_ne_nil _ _

theorem standsAt_concat (outs : List PortId) (out : PortId) (cur : SwitchId) :
    standsAt (outs ++ [out]) cur = standsAt outs out.sw := by
  cases outs with
  | nil => rfl
  | cons _ _ => rfl

/-- One port further, the last hop is left and another one entered. -/
theorem hopsAlong_concat (entry : PortId) (outs : List PortId) (out : PortId) (cur : SwitchId) :
    hopsAlong adj entry (outs ++ [out]) cur =
      modifyBack (fun h => { h with outPort := out, exitToSwitch := true }) (hopsAlong adj entry outs out.sw) ++
        [{ sw := cur, inPort := reversePort adj out.sw cur }] := by
  induction outs generalizing entry with
  | nil => rfl
  | cons o outs ih =>
    rw [List.cons_append, hopsAlong, hopsAlong, standsAt_concat, ih, modifyBack_cons _ _ (hopsAlong_ne_nil adj _ _ _)]
    rfl

/-- The switches of the hops are those of the ports they are left by. -/
theorem hopsOver_outPorts (entry : PortId) (outs : List PortId) (out : PortId) :
    (hopsOver adj entry outs out).map (fun h => (h.sw, h.outPort)) = (outs ++ [out]).map fun p => (p.sw, p) := by
  unfold hopsOver
  induction outs generalizing entry with
  | nil => rfl
  | cons o outs ih =>
    rw [hopsAlong, modifyBack_cons _ _ (hopsAlong_ne_nil adj _ _ _), List.map_cons, ih]
    rfl

/-- The first hop is entered on the entry port. -/
theorem hopsOver_cons (entry : PortId) (outs : List PortId) (out : PortId) :
    ∃ h hs, hopsOver adj entry outs out = h :: hs ∧ h.sw = standsAt outs out.sw ∧ h.inPort = entry := by
  unfold hopsOver
  cases outs with
  | nil => exact ⟨_, _, rfl, rfl, rfl⟩
  | cons o outs =>
    rw [hopsAlong, modifyBack_cons _ _ (hopsAlong_ne_nil adj _ _ _)]
    exact ⟨_, _, rfl, rfl, rfl⟩

end

/-! ## Ports in the text -/

/-- The port that a switch and a printed index stand for. -/
def portOf (sw : SwitchId) (label : Str) : PortId := ⟨sw, UInt32.ofNat (ofDecimal label)⟩

theorem portOf_label {p : PortId} (h : p.isUnknown = false) : portOf p.sw (portLabel p) = p := by
  have hlabel : portLabel p = decimal p.index.toNat := by
    unfold portLabel
    rw [h]
    rfl
  unfold portOf
  rw [hlabel, ofDecimal_decimal, UInt32.ofNat_toNat]

/-- The ports of the links, read off what the hops show. -/
def portsShown (shown : List (SwitchId × Str × Str)) : List PortId :=
  match shown with
  | []      => []
  | s :: ss => portOf s.1 s.2.1 :: (s :: ss).map fun s => portOf s.1 s.2.2

/-- Known ports are read back. -/
theorem portsShown_hopsOver (adj : SortedMap SwitchId (List Edge)) {entry : PortId} {outs : List PortId} {out : PortId}
    (hat : entry.sw = standsAt outs out.sw) (hknown : ∀ p ∈ entry :: (outs ++ [out]), p.isUnknown = false) :
    portsShown ((hopsOver adj entry outs out).map PathHop.shown) = entry :: (outs ++ [out]) := by
  have houts : ((hopsOver adj entry outs out).map PathHop.shown).map (fun s => portOf s.1 s.2.2) = outs ++ [out] := by
    have hread : (outs ++ [out]).map (fun p => portOf p.sw (portLabel p)) = outs ++ [out] :=
      (List.map_congr_left fun p hp => portOf_label (hknown p (List.mem_cons_of_mem _ hp))).trans (List.map_id _)
    have hmap := congrArg (List.map fun s : SwitchId × PortId => portOf s.1 (portLabel s.2))
      (hopsOver_outPorts adj entry outs out)
    rw [List.map_map, List.map_map] at hmap
    rw [List.map_map]
    exact hmap.trans hread
  obtain ⟨h, hs, hcons, hsw, hin⟩ := hopsOver_cons adj entry outs out
  rw [hcons] at houts ⊢
  show portOf h.sw (portLabel h.inPort) :: _ = _
  rw [hin, hsw, ← hat, portOf_label (hknown entry List.mem_cons_self)]
  exact congrArg _ houts

namespace FabricTopology

variable {t : FabricTopology} {src dst : DeviceId} {cfg : TraversalConfig} {o : t.EdgeOrder}

/-! ## Paths over ports -/

/-- The ports that links are on. -/
def linkPorts (t : FabricTopology) (ls : List LinkId) : List PortId := ls.map fun l => t.entryPort [l]

theorem linkPorts_concat {sw : SwitchId} {e : Edge} (hkeyed : t.Keyed) (h : t.EdgeAt sw e) (ls : List LinkId) :
    t.linkPorts (ls ++ [e.link]) = t.linkPorts ls ++ [e.port] := by
  have hport : t.entryPort [e.link] = e.port := entryPort_edge hkeyed ⟨sw, h⟩ []
  unfold linkPorts
  rw [List.map_append, List.map_singleton, hport]

/-- **The hops of an explored path follow from the ports of its links.** -/
theorem Explored.along {p : Partial} (h : Explored t src cfg p) (hkeyed : t.Keyed) (hint : t.Integral) :
    ∃ entry outs, t.linkPorts p.links = entry :: outs ∧ p.hops = hopsAlong t.swEdges entry outs p.cur ∧
      entry.sw = standsAt outs p.cur := by
  induction h with
  | @seed e edge _ _ =>
    obtain ⟨sw, hat⟩ := (edgeAt_of_mem_deviceEdges edge).1
    exact ⟨e.port, [], linkPorts_concat hkeyed hat [], rfl, rfl⟩
  | @extend p es e _ here edge _ _ _ _ _ ih =>
    obtain ⟨entry, outs, hports, hhops, hentry⟩ := ih
    have hat := edgeAt_of_mem_swEdges here edge
    have hcur := hat.port_sw hint
    refine ⟨entry, outs ++ [e.port], ?_, ?_, ?_⟩
    · show t.linkPorts (p.links ++ [e.link]) = _
      rw [linkPorts_concat hkeyed hat, hports, List.cons_append]
    · show modifyBack _ p.hops ++ [_] = _
      rw [hopsAlong_concat, hcur, hhops]
      rfl
    · rw [standsAt_concat, hcur]
      exact hentry

/-- **So do those of a found one.** -/
theorem Found.over {q : FabricPath} (h : Found t src dst cfg q) (hkeyed : t.Keyed) (hint : t.Integral) :
    ∃ entry outs out, t.linkPorts q.links = entry :: (outs ++ [out]) ∧ q.hops = hopsOver t.swEdges entry outs out ∧
      entry.sw = standsAt outs out.sw := by
  cases h with
  | @finish p es e known here edge _ _ _ =>
    obtain ⟨entry, outs, hports, hhops, hentry⟩ := known.along hkeyed hint
    have hat := edgeAt_of_mem_swEdges here edge
    rw [← hat.port_sw hint] at hhops hentry
    refine ⟨entry, outs, e.port, ?_, ?_, hentry⟩
    · show t.linkPorts (p.links ++ [e.link]) = _
      rw [linkPorts_concat hkeyed hat, hports, List.cons_append]
    · show modifyBack _ p.hops = _
      rw [hhops]
      rfl

theorem Found.ends {q : FabricPath} (h : Found t src dst cfg q) : q.source = src ∧ q.destination = dst := by
  cases h with
  | finish => exact ⟨rfl, rfl⟩

/-- The ports of links are known. -/
theorem Found.ports_known {q : FabricPath} (h : Found t src dst cfg q) (hkeyed : t.Keyed) (hint : t.Integral) :
    ∀ p ∈ t.linkPorts q.links, p.isUnknown = false := by
  intro p hp
  obtain ⟨l, hl, rfl⟩ := List.mem_map.mp hp
  obtain ⟨rec, hrec, _⟩ := h.links_usable hkeyed l hl
  rw [entryPort_cons hrec]
  exact hint.port_known (hint.linkPort hrec)

/-- **Found paths have the same key iff their links are on the same ports.** -/
theorem canonicalKey_eq_iff (hkeyed : t.Keyed) (hint : t.Integral) {p q : FabricPath} (hp : Found t src dst cfg p)
    (hq : Found t src dst cfg q) : p.canonicalKey = q.canonicalKey ↔ t.linkPorts p.links = t.linkPorts q.links := by
  have hpknown := hp.ports_known hkeyed hint
  have hqknown := hq.ports_known hkeyed hint
  have hpends := hp.ends
  have hqends := hq.ends
  obtain ⟨entry, outs, out, hports, hhops, hentry⟩ := hp.over hkeyed hint
  obtain ⟨entry', outs', out', hports', hhops', hentry'⟩ := hq.over hkeyed hint
  rw [hports] at hpknown ⊢
  rw [hports'] at hqknown ⊢
  constructor
  · intro h
    have hne : ∀ entry outs out, hopsOver t.swEdges entry outs out ≠ [] := by
      intro entry outs out hnil
      obtain ⟨_, _, hcons, _⟩ := hopsOver_cons t.swEdges entry outs out
      rw [hnil] at hcons
      exact absurd hcons (List.cons_ne_nil _ _).symm
    obtain ⟨_, _, hshown⟩ := canonicalKey_says (hhops ▸ hne _ _ _) (hhops' ▸ hne _ _ _) h
    rw [hhops, hhops'] at hshown
    rw [← portsShown_hopsOver t.swEdges hentry hpknown, hshown, portsShown_hopsOver t.swEdges hentry' hqknown]
  · intro h
    obtain ⟨rfl, hrest⟩ := List.cons.inj h
    obtain ⟨rfl, hout⟩ := List.append_inj' hrest rfl
    obtain rfl := List.singleton_inj.mp hout
    unfold FabricPath.canonicalKey
    rw [hpends.1, hpends.2, hqends.1, hqends.2, hhops, hhops']

/-! ## Keys of one enumeration -/

/-- Different paths have different keys. -/
def KeysIdentify (paths : List FabricPath) : Prop :=
  ∀ p ∈ paths, ∀ q ∈ paths, p.links ≠ q.links → p.canonicalKey ≠ q.canonicalKey

/-- Where there is something to join, the limit on paths cuts off the later one of any two walks over the same ports. -/
def EdgeOrder.Apart (o : t.EdgeOrder) (src dst : DeviceId) (cfg : TraversalConfig) : Prop :=
  t.Joinable src dst → ∀ ls ls', t.WalkWithin src dst cfg ls → t.WalkWithin src dst cfg ls' →
    t.linkPorts ls = t.linkPorts ls' → o.Before ls ls' → o.CutOff src dst cfg ls'

/-- Paths of the tree are found, in any order of the device edges. -/
theorem found_of_mem_pathsFrom {D : List Edge} (hD : D.Perm t.deviceEdges) {q : FabricPath}
    (hq : q ∈ t.pathsFrom src dst cfg D) : Found t src dst cfg q := by
  have hdepth : 0 < cfg.maxDepth.toNat := by
    apply Nat.pos_of_ne_zero
    intro hzero
    unfold pathsFrom at hq
    rw [hzero] at hq
    exact absurd hq List.not_mem_nil
  exact (mem_pathsInOrder_iff hdepth).mp ((pathsFrom_perm hD).subset hq)

/-- Two listed paths with one key, the one before the other, break the condition. -/
theorem EdgeOrder.Apart.key_ne (h : o.Apart src dst cfg) (hkeyed : t.Keyed) (hint : t.Integral) (hjoin : t.Joinable src dst)
    {p q : FabricPath} (hp : p ∈ t.pathsFrom src dst cfg o.devs)
    (hq : q ∈ (t.pathsFrom src dst cfg o.devs).take cfg.maxPaths.toNat) (hlt : o.Before p.links q.links) :
    p.canonicalKey ≠ q.canonicalKey := by
  intro hkey
  have hD := o.devs_perm hkeyed
  have hall := List.mem_of_mem_take hq
  have hwalk : ∀ q ∈ t.pathsFrom src dst cfg o.devs, t.WalkWithin src dst cfg q.links :=
    fun q hq => (mem_pathsFrom_links_iff hkeyed hint hD).mp (List.mem_map_of_mem hq)
  have hports := (canonicalKey_eq_iff hkeyed hint (found_of_mem_pathsFrom hD hp) (found_of_mem_pathsFrom hD hall)).mp hkey
  exact (mem_listed_iff hkeyed hint hall).mp hq (h hjoin _ _ (hwalk p hp) (hwalk q hall) hports hlt)

/-- **When canonical keys identify paths**: for each result of the sorts, iff the later one of any two walks over the same
    ports is cut off. -/
theorem keys_identify_iff (hkeyed : t.Keyed) (hok : t.checkIntegrity = []) (src dst : DeviceId) (cfg : TraversalConfig)
    (o : t.EdgeOrder) : KeysIdentify (t.enumeratePathsIn o src dst cfg) ↔ o.Apart src dst cfg := by
  have hint := checkIntegrity_eq_nil_iff.mp hok
  have hD := o.devs_perm hkeyed
  constructor
  · intro h hjoin ls ls' hwalk hwalk' hports hlt
    rw [enumeratePathsIn_eq hkeyed hjoin] at h
    obtain ⟨p, hp, rfl⟩ := List.mem_map.mp ((mem_pathsFrom_links_iff hkeyed hint hD).mpr hwalk)
    obtain ⟨q, hq, rfl⟩ := List.mem_map.mp ((mem_pathsFrom_links_iff hkeyed hint hD).mpr hwalk')
    by_contra hopen
    -- both are listed, with one key
    have hlisted := (mem_listed_iff hkeyed hint hq).mpr hopen
    have hlisted' := listed_of_before hkeyed hp hlisted hlt
    have hne : p.links ≠ q.links := by
      intro heq
      rw [heq] at hlt
      exact hlt.asymm hlt
    exact h p hlisted' q hlisted hne
      ((canonicalKey_eq_iff hkeyed hint (found_of_mem_pathsFrom hD hp) (found_of_mem_pathsFrom hD hq)).mpr hports)
  · intro h p hp q hq hne
    by_cases hjoin : t.Joinable src dst
    · rw [enumeratePathsIn_eq hkeyed hjoin] at hp hq
      have hall := List.mem_of_mem_take hp
      have hall' := List.mem_of_mem_take hq
      rcases before_or_before hkeyed hall hall' hne with hlt | hlt
      · exact h.key_ne hkeyed hint hjoin hall hq hlt
      · exact (h.key_ne hkeyed hint hjoin hall' hp hlt).symm
    · rw [enumeratePathsIn_of_not_joinable hjoin] at hp
      exact absurd hp List.not_mem_nil

/-- In this scenario no port has two links. -/
theorem keys_identify_twoSwitchRedundant :
    let t := (FabricRegistry.after [.applyBulk (buildSyntheticScan .twoSwitchRedundant)]).current
    KeysIdentify (t.enumeratePathsIn (.own t) ⟨1⟩ ⟨2⟩ {}) ∧ (EdgeOrder.own t).Apart ⟨1⟩ ⟨2⟩ {} := by
  intro t
  have hwf := (FabricRegistry.reachable_after [.applyBulk (buildSyntheticScan .twoSwitchRedundant)]).wellFormed
  have hok := checkIntegrity_eq_nil_iff.mpr hwf.integral
  have hkeys : KeysIdentify (t.enumeratePathsIn (.own t) ⟨1⟩ ⟨2⟩ {}) := by
    unfold KeysIdentify
    decide +kernel
  exact ⟨hkeys, (keys_identify_iff hwf.keyed hok ⟨1⟩ ⟨2⟩ {} (.own t)).mp hkeys⟩

/-- Two links attach the source to one port: the two paths are printed alike. -/
theorem parallel_links_share_key :
    let t := (FabricRegistry.after [.applyBulk (buildSyntheticScan .singleSwitchTwoGpu), .addLink
      { id := ⟨102⟩, rootSwitch := ⟨10⟩, port := ⟨⟨10⟩, 0⟩, otherEnd := .toDevice ⟨1⟩, state := .up }]).current
    t.checkIntegrity = [] ∧ (t.enumeratePaths ⟨1⟩ ⟨2⟩ {}).map (·.links) = [[⟨100⟩, ⟨101⟩], [⟨102⟩, ⟨101⟩]] ∧
      (t.enumeratePaths ⟨1⟩ ⟨2⟩ {}).map (·.canonicalKey) =
        List.replicate 2 (ascii "path[src=1,dst=2]\x7bsw=[(10;in=0;out=1;dev)]\x7d") ∧
      ¬ KeysIdentify (t.enumeratePaths ⟨1⟩ ⟨2⟩ {}) := by
  intro t
  refine ⟨by decide +kernel, by decide +kernel, by decide +kernel, ?_⟩
  unfold KeysIdentify
  decide +kernel

end FabricTopology

end NVSwitchFabric
