import NVSwitchFabric.Correctness.PathHops
import NVSwitchFabric.Correctness.Recheck

/-!
# `Correctness.UsablePaths` — usable paths and granted paths

A `SwitchPath` follows links from the source to the destination, whatever their states. Enumeration orders those that are
`Open` to it: usable links, usable out-ports, and a usable port to enter the first switch on
(`mem_pathsInOrder_iff_open`). A path is `Usable` when everything on it is up or degraded, which is more: the switches,
and the ports on which later switches are entered, are left to the hard filters, and these accept other states as well.

Two results compare the two. `candidates_usable_iff` says when all candidates of a grant are usable, and
`allowed_of_usable_path` that a usable path among the first ones enumerated is enough for a grant.
-/

namespace NVSwitchFabric

open Lib

namespace FabricTopology

variable {t : FabricTopology} {src dst : DeviceId} {cfg : TraversalConfig}

/-! ## Switch paths -/

/-- A partial path over links that exist. -/
inductive Crossing (t : FabricTopology) (src : DeviceId) : Partial → Prop where
  | enter {sw : SwitchId} {e : Edge} (edge : t.EdgeAt sw e) (fromDevice : isDeviceEnd e.other = true)
      (atSrc : e.other.device = src) : Crossing t src (.seed e)
  | cross {p : Partial} {e : Edge} (known : Crossing t src p) (edge : t.EdgeAt p.cur e)
      (toSwitch : isSwitchEnd e.other = true) : Crossing t src (p.extend t.swEdges e)

/-- A path over links that exist, from the source to the destination. -/
inductive SwitchPath (t : FabricTopology) (src dst : DeviceId) : FabricPath → Prop where
  | leave {p : Partial} {e : Edge} (known : Crossing t src p) (edge : t.EdgeAt p.cur e)
      (toDevice : isDeviceEnd e.other = true) (atDst : e.other.device = dst) :
      SwitchPath t src dst (t.finish src dst p e)

/-- What enumeration asks of a path. -/
structure Open (t : FabricTopology) (q : FabricPath) : Prop where
  links    : ∀ l ∈ q.links, t.LinkUsable l
  outPorts : ∀ h ∈ q.hops, t.PortUsable h.outPort
  entry    : ∀ pid ∈ (q.hops.map (·.inPort)).head?, t.PortUsable pid

/-- Every element of the path exists and is up or degraded; its ports are each hop's out-port and, where it is known,
    in-port. -/
structure Usable (t : FabricTopology) (q : FabricPath) : Prop where
  switches : ∀ s ∈ q.switchSequence, t.SwitchUsable s
  hops     : ∀ h ∈ q.hops, t.SwitchUsable h.sw
  links    : ∀ l ∈ q.links, t.LinkUsable l
  ports    : ∀ pid ∈ q.knownPorts, t.PortUsable pid

theorem EdgeAt.usable_iff {sw : SwitchId} {e : Edge} (h : t.EdgeAt sw e) (hkeyed : t.Keyed) :
    edgeUsable e = true ↔ t.LinkUsable e.link ∧ t.PortUsable e.port := by
  constructor
  · intro husable
    exact h.usable hkeyed husable
  · rintro ⟨⟨rec', hrec', hlink⟩, pr, hpr, hport⟩
    obtain ⟨id, rec, hrec, _, rfl⟩ := h
    have hid : rec.id = id := hkeyed.links hrec
    have hsame : t.links.find? rec.id = some rec := by rw [hid, hrec]
    obtain rfl := Option.some.inj (hsame.symm.trans hrec')
    have hrecPort : t.ports.find? rec.port = some pr := hpr
    have hstate : (t.edgeOf rec).portState = pr.state := by
      unfold edgeOf lookupPort
      dsimp only
      rw [hrecPort]
    unfold edgeUsable
    rw [hstate, hport]
    exact Bool.and_eq_true_iff.mpr ⟨hlink, rfl⟩

/-! ### Enumerated paths are open switch paths -/

theorem Explored.crossing {p : Partial} (h : Explored t src cfg p) : Crossing t src p := by
  induction h with
  | seed edge atSrc _ =>
    obtain ⟨⟨sw, hat⟩, hdev⟩ := edgeAt_of_mem_deviceEdges edge
    exact .enter hat hdev atSrc
  | extend _ here edge _ toSwitch _ _ _ ih => exact .cross ih (edgeAt_of_mem_swEdges here edge) toSwitch

theorem Found.switchPath {q : FabricPath} (h : Found t src dst cfg q) : SwitchPath t src dst q := by
  cases h with
  | finish known here edge _ toDevice atDst =>
    exact .leave known.crossing (edgeAt_of_mem_swEdges here edge) toDevice atDst

/-- The visited set of a partial path holds its switches. -/
theorem Crossing.mem_visited_iff {p : Partial} (h : Crossing t src p) (s : SwitchId) :
    s ∈ p.visited ↔ s ∈ p.switches := by
  induction h with
  | enter => exact Iff.rfl
  | @cross p e _ _ _ ih =>
    show s ∈ e.other.sw :: p.visited ↔ s ∈ p.switches ++ [e.other.sw]
    rw [List.mem_cons, List.mem_append, List.mem_singleton, ih, or_comm]

/-- Explored paths do not repeat switches and are as deep as allowed. -/
theorem Explored.simple {p : Partial} (h : Explored t src cfg p) (hdepth : 0 < cfg.maxDepth.toNat) :
    p.switches.Nodup ∧ p.switches.length ≤ cfg.maxDepth.toNat := by
  induction h with
  | seed => exact ⟨List.nodup_singleton _, hdepth⟩
  | @extend p es e known _ _ _ _ _ fresh depth ih =>
    rw [known.crossing.mem_visited_iff] at fresh
    constructor
    · exact List.nodup_append_comm.mp (List.nodup_cons.mpr ⟨fresh, ih.1⟩)
    · show (p.switches ++ [e.other.sw]).length ≤ _
      rw [List.length_append]
      exact depth

theorem Found.simple {q : FabricPath} (h : Found t src dst cfg q) (hdepth : 0 < cfg.maxDepth.toNat) :
    q.switchSequence.Nodup ∧ q.switchSequence.length ≤ cfg.maxDepth.toNat := by
  cases h with
  | finish known => exact known.simple hdepth

theorem Found.isOpen {q : FabricPath} (h : Found t src dst cfg q) (hkeyed : t.Keyed) : t.Open q := by
  obtain ⟨⟨_, e, he, husable, hin⟩, hout⟩ := h.shaped
  refine ⟨h.links_usable hkeyed, hout, ?_⟩
  intro pid hpid
  rw [hin, List.head?_cons] at hpid
  obtain rfl := Option.some.inj hpid
  obtain ⟨⟨sw, hat⟩, _⟩ := edgeAt_of_mem_deviceEdges he
  exact hat.portUsable husable

/-! ### Open switch paths are enumerated -/

/-- A partial path has a last hop. -/
theorem Crossing.hops_concat {p : Partial} (h : Crossing t src p) : ∃ init last, p.hops = init ++ [last] := by
  cases h with
  | enter => exact ⟨[], _, rfl⟩
  | cross => exact ⟨_, _, rfl⟩

/-- The links and ports of a path that is still to go on are usable: all its links, the port it was entered on, and
    every port it was left through. -/
structure Clear (t : FabricTopology) (links : List LinkId) (hops : List PathHop) : Prop where
  links : ∀ l ∈ links, t.LinkUsable l
  entry : ∀ pid ∈ (hops.map (·.inPort)).head?, t.PortUsable pid
  left  : ∀ h ∈ hops.dropLast, t.PortUsable h.outPort

/-- A path is clear if a longer one is, which leaves its last switch through some port and goes on. -/
theorem Clear.of_longer {links more : List LinkId} {init rest : List PathHop} {last last' : PathHop}
    (hlinks : ∀ l ∈ links ++ more, t.LinkUsable l)
    (hentry : ∀ pid ∈ ((init ++ last' :: rest).map (·.inPort)).head?, t.PortUsable pid)
    (hleft : ∀ h ∈ init, t.PortUsable h.outPort) (hin : last'.inPort = last.inPort) : t.Clear links (init ++ [last]) := by
  refine ⟨fun l hl => hlinks l (List.mem_append_left _ hl), ?_, ?_⟩
  · -- both are entered on the same port
    have hhead : ((init ++ last' :: rest).map (·.inPort)).head? = ((init ++ [last]).map (·.inPort)).head? := by
      cases init with
      | nil => exact congrArg some hin
      | cons h init => rfl
    rwa [hhead] at hentry
  · rwa [List.dropLast_concat]

/-- **A clear partial path is explored**, if it repeats no switch and is not too deep. -/
theorem Crossing.explored {p : Partial} (h : Crossing t src p) (hkeyed : t.Keyed)
    (hallow : cfg.allowSwitchSwitching = true) :
    p.switches.Nodup → p.switches.length ≤ cfg.maxDepth.toNat → t.Clear p.links p.hops → Explored t src cfg p := by
  induction h with
  | @enter sw e edge fromDevice atSrc =>
    intro _ _ hclear
    have hlink := hclear.links e.link (List.mem_singleton.mpr rfl)
    have hport := hclear.entry e.port rfl
    exact .seed (mem_deviceEdges_iff.mpr ⟨⟨sw, edge⟩, fromDevice⟩) atSrc
      ((edge.usable_iff hkeyed).mpr ⟨hlink, hport⟩)
  | @cross p e known edge toSwitch ih =>
    rintro hnodup hlen ⟨hlinks, hentry, hleft⟩
    obtain ⟨init, last, hhops⟩ := known.hops_concat
    -- the hops of `p`, its last one left through `e`, and one more
    have hextended : (p.extend t.swEdges e).hops =
        init ++ { last with outPort := e.port, exitToSwitch := true } ::
          [{ sw := e.other.sw, inPort := reversePort t.swEdges p.cur e.other.sw }] := by
      show modifyBack _ p.hops ++ [_] = _
      rw [hhops, modifyBack_concat, List.append_assoc]
      rfl
    have hswitches : (p.switches ++ [e.other.sw]).Nodup := hnodup
    rw [List.nodup_append_comm] at hswitches
    obtain ⟨hfresh, hpnodup⟩ := List.nodup_cons.mp hswitches
    have hdepth : p.switches.length < cfg.maxDepth.toNat := by
      have hle : (p.switches ++ [e.other.sw]).length ≤ cfg.maxDepth.toNat := hlen
      rw [List.length_append] at hle
      exact hle
    have hexits : (p.extend t.swEdges e).hops.dropLast =
        init ++ [{ last with outPort := e.port, exitToSwitch := true }] := by
      rw [hextended, List.append_cons, List.dropLast_concat]
    rw [hexits] at hleft
    rw [hextended] at hentry
    have hp : Explored t src cfg p := by
      apply ih hpnodup hdepth.le
      rw [hhops]
      exact .of_longer hlinks hentry (fun h hh => hleft h (List.mem_append_left _ hh)) rfl
    have hlink := hlinks e.link (List.mem_append_right _ (List.mem_singleton.mpr rfl))
    have hport := hleft _ (List.mem_append_right _ (List.mem_singleton.mpr rfl))
    obtain ⟨es, hes, he⟩ := mem_getD_iff.mp (mem_swEdges_iff.mpr edge)
    refine .extend hp hes he ((edge.usable_iff hkeyed).mpr ⟨hlink, hport⟩) toSwitch hallow ?_ hdepth
    rw [known.mem_visited_iff]
    exact hfresh

theorem SwitchPath.switches_pos {q : FabricPath} (h : SwitchPath t src dst q) : 0 < q.switchSequence.length := by
  cases h with
  | leave known =>
    cases known with
    | enter => exact Nat.zero_lt_one
    | @cross p e =>
      show 0 < (p.switches ++ [e.other.sw]).length
      rw [List.length_append]
      exact Nat.succ_pos _

theorem SwitchPath.found {q : FabricPath} (h : SwitchPath t src dst q) (hkeyed : t.Keyed)
    (hallow : cfg.allowSwitchSwitching = true) (hnodup : q.switchSequence.Nodup)
    (hlen : q.switchSequence.length ≤ cfg.maxDepth.toNat) (hopen : t.Open q) : Found t src dst cfg q := by
  cases h with
  | @leave p e known edge toDevice atDst =>
    obtain ⟨init, last, hhops⟩ := known.hops_concat
    have hfinished : (t.finish src dst p e).hops =
        init ++ [{ last with outPort := e.port, exitToDevice := true }] := by
      show modifyBack _ p.hops = _
      rw [hhops, modifyBack_concat]
    obtain ⟨hlinks, hout, hentry⟩ := hopen
    rw [hfinished] at hout hentry
    have hp : Explored t src cfg p := by
      apply known.explored hkeyed hallow hnodup hlen
      rw [hhops]
      exact .of_longer hlinks hentry (fun h hh => hout h (List.mem_append_left _ hh)) rfl
    have hlink := hlinks e.link (List.mem_append_right _ (List.mem_singleton.mpr rfl))
    have hport := hout _ (List.mem_append_right _ (List.mem_singleton.mpr rfl))
    obtain ⟨es, hes, he⟩ := mem_getD_iff.mp (mem_swEdges_iff.mpr edge)
    exact .finish hp hes he ((edge.usable_iff hkeyed).mpr ⟨hlink, hport⟩) toDevice atDst

/-- **What enumeration orders**: the open switch paths that repeat no switch and are not too deep. -/
theorem mem_pathsInOrder_iff_open (hkeyed : t.Keyed) (hallow : cfg.allowSwitchSwitching = true)
    (hdepth : 0 < cfg.maxDepth.toNat) {q : FabricPath} :
    q ∈ t.pathsInOrder src dst cfg ↔ SwitchPath t src dst q ∧ q.switchSequence.Nodup ∧
      q.switchSequence.length ≤ cfg.maxDepth.toNat ∧ t.Open q := by
  rw [mem_pathsInOrder_iff hdepth]
  constructor
  · intro h
    obtain ⟨hnodup, hlen⟩ := h.simple hdepth
    exact ⟨h.switchPath, hnodup, hlen, h.isOpen hkeyed⟩
  · rintro ⟨hpath, hnodup, hlen, hopen⟩
    exact hpath.found hkeyed hallow hnodup hlen hopen

/-! ## Usable elements -/

theorem usable_iff {q : FabricPath} :
    t.Usable q ↔ (∀ s ∈ q.switchSequence, t.SwitchUsable s) ∧ (∀ h ∈ q.hops, t.SwitchUsable h.sw) ∧
      (∀ l ∈ q.links, t.LinkUsable l) ∧ ∀ pid ∈ q.knownPorts, t.PortUsable pid :=
  ⟨fun h => ⟨h.switches, h.hops, h.links, h.ports⟩, fun h => ⟨h.1, h.2.1, h.2.2.1, h.2.2.2⟩⟩

instance (t : FabricTopology) (q : FabricPath) : Decidable (t.Usable q) := decidable_of_iff _ usable_iff.symm

theorem fresh_of_usable {st : EntityState} (h : usableState st = true) : st.isStaleOrRevalidation = false := by
  revert h
  cases st <;> simp [usableState, EntityState.isStaleOrRevalidation]

/-- A usable switch is a current one that is not merely present or supported. -/
theorem usableState_iff {st : EntityState} :
    usableState st = true ↔ currentState st = true ∧ st ≠ .present ∧ st ≠ .supported := by
  cases st <;> simp [usableState, currentState]

theorem mem_knownPorts_iff {q : FabricPath} {pid : PortId} :
    pid ∈ q.knownPorts ↔ ∃ h ∈ q.hops, h.inPort.isUnknown = false ∧ pid = h.inPort ∨ pid = h.outPort := by
  unfold FabricPath.knownPorts
  rw [List.mem_flatMap]
  refine exists_congr fun h => and_congr_right fun _ => ?_
  rw [List.mem_append, List.mem_singleton]
  cases h.inPort.isUnknown <;> simp

/-! ## What the filters leave open -/

/-- What neither enumeration nor the hard filters make sure of: no switch is merely present or supported, and the ports
    on which the later switches are entered are usable where they are known. -/
structure Crossable (t : FabricTopology) (sws : List SwitchId) : Prop where
  switches : ∀ s ∈ sws, ∀ rec, t.lookupSwitch s = some rec → rec.state ≠ .present ∧ rec.state ≠ .supported
  reverse  : ∀ pid ∈ reversePorts t.swEdges sws, pid.isUnknown = false → t.PortUsable pid

/-- **A returned path that passes the hard filters** is usable if its switches can be crossed. -/
theorem Found.usable_iff {policy : RoutePolicy} {q : FabricPath} (h : Found t src dst cfg q) (hkeyed : t.Keyed)
    (hfilter : t.hardFilter policy q = true) : t.Usable q ↔ t.Crossable q.switchSequence := by
  obtain ⟨hentered, hout⟩ := h.shaped
  constructor
  · intro husable
    constructor
    · intro s hs rec hrec
      obtain ⟨rec', hrec', hstate⟩ := husable.switches s hs
      obtain rfl := Option.some.inj (hrec.symm.trans hrec')
      exact (usableState_iff.mp hstate).2
    · intro pid hpid hknown
      -- a reverse port is the in-port of some hop
      obtain ⟨e, _, _, hin⟩ := hentered.inPorts
      have hmem : pid ∈ q.hops.map (·.inPort) := by
        rw [hin]
        exact List.mem_cons_of_mem _ hpid
      obtain ⟨hop, hhop, rfl⟩ := List.mem_map.mp hmem
      exact husable.ports _ (mem_knownPorts_iff.mpr ⟨hop, hhop, Or.inl ⟨hknown, rfl⟩⟩)
  · intro hcross
    have hswitches : ∀ s ∈ q.switchSequence, t.SwitchUsable s := by
      intro s hs
      obtain ⟨rec, hrec, hcurrent⟩ := hardFilter_switches hfilter s hs
      exact ⟨rec, hrec, usableState_iff.mpr ⟨hcurrent, hcross.switches s hs rec hrec⟩⟩
    refine ⟨hswitches, ?_, h.links_usable hkeyed, ?_⟩
    · intro hop hhop
      apply hswitches
      rw [← hentered.hopSwitches]
      exact List.mem_map_of_mem hhop
    · intro pid hpid
      obtain ⟨hop, hhop, ⟨hknown, rfl⟩ | rfl⟩ := mem_knownPorts_iff.mp hpid
      · rcases hentered.inPort hhop with hport | hrev
        · exact hport
        · exact hcross.reverse _ hrev hknown
      · exact hout hop hhop

/-- **A usable path passes the hard filters**, unless the policy excludes degraded ones. -/
theorem Usable.hardFilter {policy : RoutePolicy} {q : FabricPath} (h : t.Usable q)
    (hdegraded : policy.requireNonDegradedPath = false)
    (hbandwidth : policy.requiredMinRelativeBandwidth.isPositive = false) : t.hardFilter policy q = true := by
  have hport : ∀ pid ∈ q.knownPorts, t.portFresh pid = true := by
    intro pid hpid
    obtain ⟨pr, hpr, hstate⟩ := h.ports pid hpid
    unfold portFresh lookupPort
    rw [hpr]
    exact Bool.not_eq_true' _ ▸ fresh_of_usable hstate
  unfold FabricTopology.hardFilter
  rw [hdegraded, hbandwidth]
  simp only [Bool.false_and, Bool.not_false, Bool.and_true, Bool.and_eq_true, List.all_eq_true, Bool.or_eq_true]
  -- the switches, then the ports of the hops, then the links
  refine ⟨⟨?_, ?_⟩, ?_⟩
  · intro s hs
    obtain ⟨rec, hrec, hstate⟩ := h.switches s hs
    unfold switchCurrent lookupSwitch
    rw [hrec]
    exact (usableState_iff.mp hstate).1
  · intro hop hhop
    constructor
    · cases hknown : hop.inPort.isUnknown with
      | true => exact Or.inl rfl
      | false => exact Or.inr (hport _ (mem_knownPorts_iff.mpr ⟨hop, hhop, Or.inl ⟨hknown, rfl⟩⟩))
    · exact hport _ (mem_knownPorts_iff.mpr ⟨hop, hhop, Or.inr rfl⟩)
  · intro l hl
    obtain ⟨rec, hrec, hstate⟩ := h.links l hl
    unfold linkFresh lookupLink
    rw [hrec]
    exact Bool.not_eq_true' _ ▸ fresh_of_usable hstate

/-- A partial path enters its first switch on the port of a link. -/
theorem Crossing.entry {p : Partial} (h : Crossing t src p) :
    ∃ sw e, t.EdgeAt sw e ∧ (p.hops.map (·.inPort)).head? = some e.port := by
  induction h with
  | @enter sw e edge => exact ⟨sw, e, edge, rfl⟩
  | @cross p e _ _ _ ih =>
    obtain ⟨sw, e₀, hat, hhead⟩ := ih
    refine ⟨sw, e₀, hat, ?_⟩
    show ((modifyBack _ p.hops ++ [_]).map _).head? = _
    rw [List.map_append, map_modifyBack, List.head?_append, hhead]
    · rfl
    · intro h
      rfl

theorem SwitchPath.entry {q : FabricPath} (h : SwitchPath t src dst q) :
    ∃ sw e, t.EdgeAt sw e ∧ (q.hops.map (·.inPort)).head? = some e.port := by
  cases h with
  | @leave p e known _ _ _ =>
    obtain ⟨sw, e₀, hat, hhead⟩ := known.entry
    refine ⟨sw, e₀, hat, ?_⟩
    show ((modifyBack _ p.hops).map _).head? = _
    rw [map_modifyBack, hhead]
    intro h
    rfl

/-- The sentinel is no port of an integral snapshot. -/
theorem Integral.port_known (hint : t.Integral) {pid : PortId} (h : t.ports.contains pid = true) :
    pid.isUnknown = false := by
  obtain ⟨rec, hrec⟩ := SortedMap.contains_iff.mp h
  have hindex : pid.index.toNat < 256 := hint.portIndex hrec
  unfold PortId.isUnknown
  rw [Bool.and_eq_false_iff]
  left
  rw [beq_eq_false_iff_ne]
  intro heq
  rw [heq] at hindex
  exact absurd hindex (by decide)

/-- A usable switch path on an integral snapshot is open to enumeration: the port it enters on is a known one. -/
theorem SwitchPath.isOpen {q : FabricPath} (h : SwitchPath t src dst q) (hint : t.Integral) (husable : t.Usable q) :
    t.Open q := by
  refine ⟨husable.links, ?_, ?_⟩
  · intro hop hhop
    exact husable.ports _ (mem_knownPorts_iff.mpr ⟨hop, hhop, Or.inr rfl⟩)
  · intro pid hpid
    obtain ⟨sw, e, ⟨id, rec, hrec, _, rfl⟩, hhead⟩ := h.entry
    obtain rfl := Option.some.inj (hhead.symm.trans hpid)
    obtain ⟨hop, hhop, hin⟩ := List.mem_map.mp (List.mem_of_mem_head? hpid)
    apply husable.ports
    refine mem_knownPorts_iff.mpr ⟨hop, hhop, Or.inl ⟨?_, hin.symm⟩⟩
    rw [hin]
    exact hint.port_known (hint.linkPort hrec)

end FabricTopology

/-! ## The bounds of a request -/

theorem toNat_min (a b : UInt64) : (min a b).toNat = min a.toNat b.toNat := by
  show (if a ≤ b then a else b).toNat = _
  split
  · next hle => exact (min_eq_left (UInt64.le_iff_toNat_le.mp hle)).symm
  · next hlt =>
    rw [UInt64.le_iff_toNat_le, not_le] at hlt
    exact (min_eq_right hlt.le).symm

theorem traversal_maxPaths (policy : RoutePolicy) : policy.traversal.maxPaths.toNat =
    (min (policy.maxAllowedHops + 1) (UInt64.ofNat Limits.kMaxCandidatePaths)).toNat := by
  unfold RoutePolicy.traversal
  dsimp only
  rw [UInt64.toNat_toUInt32, toNat_min]
  apply Nat.mod_eq_of_lt
  exact lt_of_le_of_lt (min_le_right _ _) (by decide)

theorem traversal_maxDepth (policy : RoutePolicy) :
    policy.traversal.maxDepth.toNat = min policy.maxAllowedHops.toNat Limits.kMaxPathDepth := by
  unfold RoutePolicy.traversal
  dsimp only
  rw [UInt64.toNat_toUInt32, toNat_min, Nat.mod_eq_of_lt]
  · rfl
  · exact lt_of_le_of_lt (min_le_right _ _) (by decide)

/-! ## Grants -/

variable {topo : FabricTopology} {src dst : DeviceId} {policy : RoutePolicy}

open FabricTopology in
/-- **A usable path is found**, if it is among the first paths in breadth-first order: a snapshot without partitions, two
    devices that are present and up, a policy that does not exclude degraded paths, and a usable switch path that
    repeats no switch and is not too long. -/
theorem allowed_of_usable_path {s d : DeviceRecord} {q : FabricPath} (hint : topo.checkIntegrity = [])
    (hkeyed : topo.Keyed) (hnone : topo.partitions.size = 0) (hsrc : topo.lookupDevice src = some s)
    (hdst : topo.lookupDevice dst = some d) (hs : s.present = true ∧ s.state = .up)
    (hd : d.present = true ∧ d.state = .up) (hne : src ≠ dst) (hdegraded : policy.requireNonDegradedPath = false)
    (hbandwidth : policy.requiredMinRelativeBandwidth.isPositive = false) (hpath : SwitchPath topo src dst q)
    (hnodup : q.switchSequence.Nodup)
    (hlen : q.switchSequence.length ≤ min policy.maxAllowedHops.toNat Limits.kMaxPathDepth)
    (husable : topo.Usable q)
    (hfirst : (topo.pathsInOrder src dst policy.traversal).idxOf q <
      (min (policy.maxAllowedHops + 1) (UInt64.ofNat Limits.kMaxCandidatePaths)).toNat)
    (measurements : List Measurement) (id : RouteDecisionId) (gen : RouteGeneration)
    (snapshotId : TopologySnapshotId) (now : UInt64) (epoch : CoordinatorEpoch) :
    (computeRoute topo src dst policy measurements id gen snapshotId now epoch).outcome.isAllowed = true := by
  have hentries : topo.partitions.entries = [] := List.length_eq_zero_iff.mp hnone
  have hadm : admitEndpoints topo src dst = none := by
    unfold admitEndpoints
    rw [hsrc, hdst]
    dsimp only
    rw [hs.1, hs.2, hd.1, hd.2, if_neg hne]
    rfl
  have hgate : topo.gateRefuses src dst policy = false := by
    unfold gateRefuses activePartitions
    rw [hentries]
    rfl
  have hjoin : topo.Joinable src dst :=
    ⟨⟨s, hsrc, by rw [hs.2]; rfl⟩, ⟨d, hdst, by rw [hd.2]; rfl⟩, hne⟩
  rw [← traversal_maxDepth] at hlen
  rw [← traversal_maxPaths] at hfirst
  -- enumeration orders the path, and does not stop before it
  have hfound : Found topo src dst policy.traversal q :=
    hpath.found hkeyed rfl hnodup hlen (hpath.isOpen (checkIntegrity_eq_nil_iff.mp hint) husable)
  have hmem : q ∈ topo.enumeratePaths src dst policy.traversal := by
    have hq := (mem_pathsInOrder_iff (hpath.switches_pos.trans_le hlen)).mpr hfound
    rw [enumeratePaths_eq hjoin]
    exact (List.mem_take_iff_idxOf_lt hq).mpr hfirst
  rw [computeRoute_allowed_iff, granted_iff_exists]
  exact ⟨hadm, hgate, q, hmem, husable.hardFilter hdegraded hbandwidth⟩

/-- A device whose record is present and up. -/
theorem FabricTopology.device_of_any {t : FabricTopology} {id : DeviceId}
    (h : (t.lookupDevice id).any (fun rec => rec.present && rec.state = .up) = true) :
    ∃ rec, t.lookupDevice id = some rec ∧ rec.present = true ∧ rec.state = .up := by
  obtain ⟨rec, hrec, hup⟩ := (Option.any_eq_true _ _).mp h
  rw [Bool.and_eq_true, decide_eq_true_eq] at hup
  exact ⟨rec, hrec, hup⟩

open Scan in
/-- Two GPUs on three switches, the first two of them down. -/
def crowded : FabricTopology :=
  (FabricRegistry.after [.applyBulk (concat [oneSwitch ⟨10⟩ 2, oneSwitch ⟨11⟩ 2, oneSwitch ⟨12⟩ 2,
      addDeviceLink ⟨1⟩ ⟨10⟩ 0 ⟨100⟩, addDeviceLink ⟨2⟩ ⟨10⟩ 1 ⟨101⟩, addDeviceLink ⟨1⟩ ⟨11⟩ 0 ⟨110⟩,
      addDeviceLink ⟨2⟩ ⟨11⟩ 1 ⟨111⟩, addDeviceLink ⟨1⟩ ⟨12⟩ 0 ⟨120⟩, addDeviceLink ⟨2⟩ ⟨12⟩ 1 ⟨121⟩]),
    .setSwitchState ⟨10⟩ .down, .setSwitchState ⟨11⟩ .down]).current

theorem crowded_keyed : crowded.Keyed := (FabricRegistry.reachable_after _).wellFormed.keyed

theorem crowded_device (id : DeviceId) (h : id = ⟨1⟩ ∨ id = ⟨2⟩) :
    ∃ rec, crowded.lookupDevice id = some rec ∧ rec.present = true ∧ rec.state = .up := by
  apply FabricTopology.device_of_any
  rcases h with rfl | rfl
  · decide +kernel
  · decide +kernel

/-- The path over the third switch is usable, and comes third. -/
theorem crowded_path :
    ∃ q, FabricTopology.SwitchPath crowded ⟨1⟩ ⟨2⟩ q ∧ q.switchSequence.Nodup ∧ q.switchSequence.length ≤ 1 ∧
      crowded.Usable q ∧
      (crowded.pathsInOrder ⟨1⟩ ⟨2⟩ ({ maxAllowedHops := 2 } : RoutePolicy).traversal).idxOf q = 2 := by
  have hpath : ∃ q ∈ crowded.pathsInOrder ⟨1⟩ ⟨2⟩ ({ maxAllowedHops := 2 } : RoutePolicy).traversal,
      q.switchSequence.length ≤ 1 ∧ crowded.Usable q ∧
      (crowded.pathsInOrder ⟨1⟩ ⟨2⟩ ({ maxAllowedHops := 2 } : RoutePolicy).traversal).idxOf q = 2 := by
    decide +kernel
  obtain ⟨q, hq, hlen, husable, hthird⟩ := hpath
  obtain ⟨hswitchPath, hnodup, _, _⟩ :=
    (FabricTopology.mem_pathsInOrder_iff_open crowded_keyed rfl (by decide)).mp hq
  exact ⟨q, hswitchPath, hnodup, hlen, husable, hthird⟩

/-- With room for three candidates the path over the third switch is found. -/
theorem allowed_of_usable_path_crowded :
    (computeRoute crowded ⟨1⟩ ⟨2⟩ { maxAllowedHops := 2 } [] ⟨1⟩ ⟨0⟩ ⟨[]⟩ 0 0).outcome.isAllowed = true := by
  obtain ⟨s, hsrc, hs⟩ := crowded_device ⟨1⟩ (Or.inl rfl)
  obtain ⟨d, hdst, hd⟩ := crowded_device ⟨2⟩ (Or.inr rfl)
  obtain ⟨q, hpath, hnodup, hlen, husable, hthird⟩ := crowded_path
  exact allowed_of_usable_path (by decide +kernel) crowded_keyed (by decide +kernel) hsrc hdst hs hd (by decide) rfl
    (by decide) hpath hnodup (hlen.trans (by decide)) husable (by rw [hthird]; decide) [] ⟨1⟩ ⟨0⟩ ⟨[]⟩ 0 0

/-- With room for two it is not: the paths over the switches that are down come first. -/
theorem crowded_out :
    crowded.checkIntegrity = [] ∧ crowded.partitions.size = 0 ∧
      (∀ id : DeviceId, id = ⟨1⟩ ∨ id = ⟨2⟩ →
        ∃ rec, crowded.lookupDevice id = some rec ∧ rec.present = true ∧ rec.state = .up) ∧
      (∃ q, FabricTopology.SwitchPath crowded ⟨1⟩ ⟨2⟩ q ∧ q.switchSequence.Nodup ∧ q.switchSequence.length ≤ 1 ∧
        crowded.Usable q) ∧
      (computeRoute crowded ⟨1⟩ ⟨2⟩ { maxAllowedHops := 1 } [] ⟨1⟩ ⟨0⟩ ⟨[]⟩ 0 0).outcome = .noRoute := by
  obtain ⟨q, hpath, hnodup, hlen, husable, _⟩ := crowded_path
  refine ⟨by decide +kernel, by decide +kernel, crowded_device, ⟨q, hpath, hnodup, hlen, husable⟩, ?_⟩
  decide +kernel

end NVSwitchFabric
