import NVSwitchFabric.Lib.Worklist
import NVSwitchFabric.Model.Topology
import Mathlib.Data.List.Sort
import Mathlib.Algebra.Order.BigOperators.Group.List
import Mathlib.Algebra.Order.Ring.Nat

/-!
# `Model.Paths` — bounded path enumeration and device reachability

`FabricTopology::enumeratePaths` and `deviceReachability` (topology.cpp). The frontier loop is an instance of
`Lib.Worklist`: a partial path that may still grow by `r` switches weighs `(e + 1) ^ r`, where `e` bounds the
number of edges out of a switch, so a popped path outweighs all its one-switch extensions together and the
loop ends whatever the topology.

The search itself (`search`) takes the adjacency index and the sorted device edges as arguments;
`enumeratePaths` passes the ones the source builds.
-/

namespace NVSwitchFabric

open Lib

/-! ## Paths -/

/-- One switch of a path: the port the path arrives on and the port it leaves by. -/
structure PathHop where
  sw           : SwitchId
  inPort       : PortId := ⟨⟨0⟩, 0⟩
  outPort      : PortId := ⟨⟨0⟩, 0⟩
  exitToDevice : Bool := false
  exitToSwitch : Bool := false
deriving DecidableEq

/-- A switch-mediated path from source to destination. -/
structure FabricPath where
  id             : PathId := ⟨0⟩
  source         : DeviceId
  destination    : DeviceId
  hops           : List PathHop := []
  links          : List LinkId := []
  switchSequence : List SwitchId := []
  switchGens     : List (SwitchId × SwitchGeneration) := []
  portGens       : List (PortId × PortGeneration) := []
  topologyGen    : TopologyGeneration := ⟨0⟩
  partitionGen   : PartitionGeneration := ⟨0⟩
  switchGen      : SwitchGeneration := ⟨0⟩
  portGen        : PortGeneration := ⟨0⟩
  capable        : Bool := false
  state          : EntityState := .unknown
  provenance     : Provenance := .unsupported
  evidenceSource : EvidenceSource := .unknown
deriving DecidableEq

/-- Port index as `canonicalKey` prints it. -/
def portLabel (p : PortId) : Str := if p.isUnknown then ascii "-1" else decimal p.index.toNat

/-- One hop as `canonicalKey` prints it. -/
def PathHop.label (h : PathHop) : Str :=
  ascii "(" ++ decimal h.sw.value.toNat ++ ascii ";in=" ++ portLabel h.inPort ++
  ascii ";out=" ++ portLabel h.outPort ++ ascii ";" ++
  (if h.exitToDevice then ascii "dev" else if h.exitToSwitch then ascii "sw" else []) ++ ascii ")"

/-- `FabricPath::canonicalKey`. -/
def FabricPath.canonicalKey (p : FabricPath) : Str :=
  ascii "path[src=" ++ decimal p.source.value.toNat ++
  ascii ",dst=" ++ decimal p.destination.value.toNat ++ ascii "]" ++
  ascii "\x7bsw=[" ++ (ascii ",").intercalate (p.hops.map PathHop.label) ++ ascii "]\x7d"

/-- Bounds of a traversal. -/
structure TraversalConfig where
  maxPaths             : UInt32 := UInt32.ofNat Limits.kMaxCandidatePaths
  maxDepth             : UInt32 := UInt32.ofNat Limits.kMaxPathDepth
  allowSwitchSwitching : Bool := true

/-! ## Edges -/

/-- A link seen from its root switch, with the states of the link and of its port. -/
structure Edge where
  link      : LinkId
  port      : PortId
  other     : LinkEnd
  linkState : EntityState
  portState : EntityState
deriving DecidableEq

def edgeUsable (e : Edge) : Bool := usableState e.linkState && usableState e.portState
def isDeviceEnd (e : LinkEnd) : Bool := e.kind = .device
def isSwitchEnd (e : LinkEnd) : Bool := e.kind = .switch

/-- The order of the edges of one switch: by port, then by link. -/
def switchEdgeBefore (a b : Edge) : Prop := if a.port ≠ b.port then a.port < b.port else a.link < b.link

/-- The order of the device edges: by device, then by port. -/
def deviceEdgeBefore (a b : Edge) : Prop :=
  if a.other.device ≠ b.other.device then a.other.device < b.other.device else a.port < b.port

instance (a b : Edge) : Decidable (switchEdgeBefore a b) :=
  inferInstanceAs (Decidable (if a.port ≠ b.port then a.port < b.port else a.link < b.link))

instance (a b : Edge) : Decidable (deviceEdgeBefore a b) :=
  inferInstanceAs (Decidable
    (if a.other.device ≠ b.other.device then a.other.device < b.other.device else a.port < b.port))

namespace FabricTopology

/-- The edge of a link; a link on a port without a record counts as down. -/
def edgeOf (t : FabricTopology) (link : LinkRecord) : Edge where
  link := link.id
  port := link.port
  other := link.otherEnd
  linkState := link.state
  portState := match t.lookupPort link.port with
    | some p => p.state
    | none   => .down

/-- The edges of each root switch, in link order. -/
def rawSwitchEdges (t : FabricTopology) : SortedMap SwitchId (List Edge) :=
  t.links.entries.foldl (fun m l =>
    m.insert l.2.rootSwitch ((m.find? l.2.rootSwitch).getD [] ++ [t.edgeOf l.2])) .empty

/-- The adjacency index: the edges of each switch, sorted. -/
def swEdges (t : FabricTopology) : SortedMap SwitchId (List Edge) :=
  t.rawSwitchEdges.mapVals fun es => es.insertionSort fun a b => ¬ switchEdgeBefore b a

/-- The edges that attach a device to a switch, sorted. -/
def deviceEdges (t : FabricTopology) : List Edge :=
  ((t.swEdges.entries.flatMap fun e => e.2).filter fun e => isDeviceEnd e.other).insertionSort
    fun a b => ¬ deviceEdgeBefore b a

end FabricTopology

/-! ## The search -/

/-- A partial path: the switch it has reached, and what it has collected so far. -/
structure Partial where
  cur      : SwitchId
  hops     : List PathHop
  links    : List LinkId
  switches : List SwitchId
  visited  : List SwitchId

/-- Apply `f` to the last element (`back()`). -/
def modifyBack {α : Type} (f : α → α) : List α → List α
  | []          => []
  | [x]         => [f x]
  | x :: y :: l => x :: modifyBack f (y :: l)

/-- Enter the first switch through a device edge. -/
def Partial.seed (e : Edge) : Partial where
  cur := e.port.sw
  hops := [{ sw := e.port.sw, inPort := e.port }]
  links := [e.link]
  switches := [e.port.sw]
  visited := [e.port.sw]

/-- The port a path arriving from `cur` enters `nxt` on: that of the first edge of `nxt` back to `cur`. -/
def reversePort (adj : SortedMap SwitchId (List Edge)) (cur nxt : SwitchId) : PortId :=
  match ((adj.find? nxt).getD []).find? fun re => isSwitchEnd re.other && re.other.sw = cur with
  | some re => re.port
  | none    => .unknown

/-- Leave through `e` to the switch at its far end. -/
def Partial.extend (adj : SortedMap SwitchId (List Edge)) (p : Partial) (e : Edge) : Partial where
  cur := e.other.sw
  hops := modifyBack (fun h => { h with outPort := e.port, exitToSwitch := true }) p.hops ++
    [{ sw := e.other.sw, inPort := reversePort adj p.cur e.other.sw }]
  links := p.links ++ [e.link]
  switches := p.switches ++ [e.other.sw]
  visited := e.other.sw :: p.visited

namespace FabricTopology

/-- Leave through `e` to the destination device: the finished path. -/
def finish (t : FabricTopology) (src dst : DeviceId) (p : Partial) (e : Edge) : FabricPath :=
  let links := p.links ++ [e.link]
  { source := src
    destination := dst
    hops := modifyBack (fun h => { h with outPort := e.port, exitToDevice := true }) p.hops
    links := links
    switchSequence := p.switches
    topologyGen := t.topologyGen
    capable := true
    provenance := t.provenance
    state := if links.any fun lid => (t.lookupLink lid).any (·.degraded) then .degraded else .up }

/-- The inner loop: follow every usable edge out of the current switch, pushing extensions (`kids`) and
    finished paths (`result`), until the result is full. -/
def expandEdges (t : FabricTopology) (src dst : DeviceId) (cfg : TraversalConfig)
    (adj : SortedMap SwitchId (List Edge)) (p : Partial) :
    List Edge → List Partial × List FabricPath → List Partial × List FabricPath
  | [],      st => st
  | e :: es, (kids, result) =>
    if !edgeUsable e then expandEdges t src dst cfg adj p es (kids, result)
    else if cfg.maxPaths.toNat ≤ result.length then (kids, result)
    else if isDeviceEnd e.other then
      -- other devices are not intermediate relays
      if e.other.device = dst then
        expandEdges t src dst cfg adj p es (kids, result ++ [t.finish src dst p e])
      else expandEdges t src dst cfg adj p es (kids, result)
    else if isSwitchEnd e.other then
      if !cfg.allowSwitchSwitching then expandEdges t src dst cfg adj p es (kids, result)
      else if e.other.sw ∈ p.visited then expandEdges t src dst cfg adj p es (kids, result)
      else if cfg.maxDepth.toNat ≤ p.switches.length then
        expandEdges t src dst cfg adj p es (kids, result)
      else expandEdges t src dst cfg adj p es (kids ++ [p.extend adj e], result)
    else expandEdges t src dst cfg adj p es (kids, result)

/-- One round of the frontier loop. -/
def expand (t : FabricTopology) (src dst : DeviceId) (cfg : TraversalConfig)
    (adj : SortedMap SwitchId (List Edge)) (result : List FabricPath) (p : Partial) :
    Option (List Partial × List FabricPath) :=
  if cfg.maxPaths.toNat ≤ result.length then none
  else match adj.find? p.cur with
    | none    => some ([], result)
    | some es => some (expandEdges t src dst cfg adj p es ([], result))

end FabricTopology

/-! ## Termination of the frontier loop -/

/-- A bound on the number of edges out of any one switch. -/
def edgeBound (adj : SortedMap SwitchId (List Edge)) : Nat :=
  (adj.entries.map fun e => e.2.length).sum

theorem length_le_edgeBound {adj : SortedMap SwitchId (List Edge)} {sw : SwitchId} {es : List Edge}
    (h : adj.find? sw = some es) : es.length ≤ edgeBound adj :=
  List.le_sum_of_mem (List.mem_map.mpr ⟨_, SortedMap.find?_eq_some_iff.mp h, rfl⟩)

/-- What a partial path weighs: `(e + 1) ^ r` for `r` switches still to go. -/
def Partial.weight (cfg : TraversalConfig) (adj : SortedMap SwitchId (List Edge)) (p : Partial) : Nat :=
  (edgeBound adj + 1) ^ (cfg.maxDepth.toNat - p.switches.length)

/-- What the inner loop pushes beyond `kids` extends `p` by one switch each, and there is at most one push
    per edge; a path of full depth is not extended. -/
theorem FabricTopology.expandEdges_kids (t : FabricTopology) (src dst : DeviceId) (cfg : TraversalConfig)
    (adj : SortedMap SwitchId (List Edge)) (p : Partial) :
    ∀ (es : List Edge) (kids : List Partial) (result : List FabricPath),
      ∃ new, (t.expandEdges src dst cfg adj p es (kids, result)).1 = kids ++ new ∧
        new.length ≤ es.length ∧
        ∀ k ∈ new, k.switches.length = p.switches.length + 1 ∧
          p.switches.length < cfg.maxDepth.toNat := by
  intro es
  induction es with
  | nil => intro kids result; exact ⟨[], by simp [expandEdges]⟩
  | cons e es ih =>
    have hskip : ∀ kids result, ∃ new,
        (t.expandEdges src dst cfg adj p es (kids, result)).1 = kids ++ new ∧
        new.length ≤ (e :: es).length ∧
        ∀ k ∈ new, k.switches.length = p.switches.length + 1 ∧
          p.switches.length < cfg.maxDepth.toNat := by
      intro kids result
      obtain ⟨new, heq, hlen, hnew⟩ := ih kids result
      exact ⟨new, heq, Nat.le_succ_of_le hlen, hnew⟩
    intro kids result
    unfold expandEdges
    split
    · exact hskip kids result
    split
    · exact ⟨[], by simp⟩
    split
    · split
      · exact hskip kids _
      · exact hskip kids result
    split
    · split
      · exact hskip kids result
      split
      · exact hskip kids result
      split
      · exact hskip kids result
      · next hdepth =>
        -- the one branch that pushes: `p` extended through `e`
        obtain ⟨new, heq, hlen, hnew⟩ := ih (kids ++ [p.extend adj e]) result
        refine ⟨p.extend adj e :: new, by simp [heq], by simpa using hlen, ?_⟩
        intro k hk
        rcases List.mem_cons.mp hk with rfl | hk
        · exact ⟨by simp [Partial.extend], by omega⟩
        · exact hnew k hk
    · exact hskip kids result

/-- Items that each weigh at most `w` weigh together at most `length * w`. -/
theorem sum_map_le_length_mul {α : Type} {f : α → Nat} {w : Nat} {l : List α} (h : ∀ a ∈ l, f a ≤ w) :
    (l.map f).sum ≤ l.length * w := by
  have := List.sum_le_card_nsmul (l.map f) w (by
    intro x hx
    obtain ⟨a, ha, rfl⟩ := List.mem_map.mp hx
    exact h a ha)
  simpa using this

/-- **A round of the loop decreases the weight of the frontier.** -/
theorem FabricTopology.expand_decreasing {t : FabricTopology} {src dst : DeviceId} {cfg : TraversalConfig}
    {adj : SortedMap SwitchId (List Edge)} {result result' : List FabricPath} {p : Partial}
    {kids : List Partial} (h : t.expand src dst cfg adj result p = some (kids, result')) :
    (kids.map (Partial.weight cfg adj)).sum < p.weight cfg adj := by
  have hpos : 0 < p.weight cfg adj := Nat.pow_pos (Nat.succ_pos _)
  unfold expand at h
  split at h
  · exact absurd h (by simp)
  split at h
  · obtain ⟨rfl, _⟩ := Prod.mk.inj (Option.some.inj h)
    exact hpos
  · next es hes =>
    obtain ⟨new, heq, hlen, hnew⟩ := t.expandEdges_kids src dst cfg adj p es [] result
    rw [Option.some.inj h, List.nil_append] at heq
    subst heq
    cases kids with
    | nil => exact hpos
    | cons k ks =>
      -- the children are one switch deeper, and there are at most as many as edges
      have hdepth := (hnew k List.mem_cons_self).2
      have hkid : ∀ k' ∈ k :: ks, k'.weight cfg adj ≤
          (edgeBound adj + 1) ^ (cfg.maxDepth.toNat - p.switches.length - 1) := by
        intro k' hk'
        rw [Partial.weight, (hnew k' hk').1, Nat.sub_add_eq]
      have hpow : p.weight cfg adj = (edgeBound adj + 1) *
          (edgeBound adj + 1) ^ (cfg.maxDepth.toNat - p.switches.length - 1) := by
        rw [Partial.weight, ← Nat.pow_succ', Nat.succ_eq_add_one, Nat.sub_add_cancel (by omega)]
      calc ((k :: ks).map (Partial.weight cfg adj)).sum
          ≤ (k :: ks).length *
              (edgeBound adj + 1) ^ (cfg.maxDepth.toNat - p.switches.length - 1) :=
            sum_map_le_length_mul hkid
        _ < (edgeBound adj + 1) *
              (edgeBound adj + 1) ^ (cfg.maxDepth.toNat - p.switches.length - 1) :=
            Nat.mul_lt_mul_of_pos_right
              (Nat.lt_succ_of_le (hlen.trans (length_le_edgeBound hes))) (Nat.pow_pos (Nat.succ_pos _))
        _ = p.weight cfg adj := hpow.symm

namespace FabricTopology

/-- The frontier loop. -/
def frontierLoop (t : FabricTopology) (src dst : DeviceId) (cfg : TraversalConfig)
    (adj : SortedMap SwitchId (List Edge)) : Worklist Partial (List FabricPath) where
  step := t.expand src dst cfg adj
  weight := Partial.weight cfg adj
  decreasing := expand_decreasing

/-- The search over a given adjacency index and given device edges. -/
def search (t : FabricTopology) (src dst : DeviceId) (cfg : TraversalConfig)
    (adj : SortedMap SwitchId (List Edge)) (devEdges : List Edge) : List FabricPath :=
  (t.frontierLoop src dst cfg adj).run
    ((devEdges.filter fun e => e.other.device = src && edgeUsable e).map Partial.seed) []

/-- `FabricTopology::enumeratePaths`. -/
def enumeratePaths (t : FabricTopology) (src dst : DeviceId) (cfg : TraversalConfig) :
    List FabricPath :=
  if cfg.maxPaths = 0 || cfg.maxDepth = 0 then []
  else match t.lookupDevice src, t.lookupDevice dst with
    | some srec, some drec =>
      if !endpointState srec.state then []
      else if !endpointState drec.state then []
      else if src = dst then []
      else t.search src dst cfg t.swEdges t.deviceEdges
    | _, _ => []

/-! ## Reachability -/

/-- `FabricTopology::deviceReachability`. -/
def deviceReachability (t : FabricTopology) (src dst : DeviceId) : Reachability :=
  match t.lookupDevice src with
  | none => .insufficientEvidence
  | some s => match t.lookupDevice dst with
    | none => .insufficientEvidence
    | some d =>
      let unreachableState (st : EntityState) : Bool := st = .down || st = .absent || st = .unreachable
      let anySwitchDown := t.switches.entries.any fun e =>
        unreachableState e.2.state || e.2.state.isStaleOrRevalidation
      let anyPortDown := t.ports.entries.any fun e =>
        e.2.state = .down || e.2.state = .unreachable || e.2.state = .disabled ||
        e.2.state.isStaleOrRevalidation
      -- the last partition, in id order, that is authoritative and lists the device
      let partitionOf (dev : DeviceId) : Option FabricPartition :=
        t.partitions.entries.foldl (fun acc e =>
          if e.2.state.isStaleOrRevalidation then acc
          else if dev ∈ e.2.members then some e.2 else acc) none
      let blocked : Bool := match partitionOf src, partitionOf dst with
        | some sp, some dp => sp.id ≠ dp.id
        | _, _ => false
      if src = dst then .reachable
      else if s.state.isStaleOrRevalidation then .endpointStale
      else if d.state.isStaleOrRevalidation then .endpointStale
      else if s.state = .unsupported || d.state = .unsupported then .unsupported
      else if unreachableState s.state || unreachableState d.state then .unreachable
      else if blocked then .partitionBlocked
      else
        let paths := t.enumeratePaths src dst {}
        if paths.isEmpty then
          if anySwitchDown then .switchDown
          else if anyPortDown then .portDown
          else if t.switches.entries.any fun e => e.2.state.isStaleOrRevalidation then
            .revalidationRequired
          else .unreachable
        else if paths.any fun p => p.state = .up then .reachable
        else .reachableDegraded

end FabricTopology

end NVSwitchFabric
