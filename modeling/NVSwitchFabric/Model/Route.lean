import NVSwitchFabric.Model.Paths
import Mathlib.Data.Rat.Defs

/-!
# `Model.Route` — route governance

`computeRoute` and `routeDecisionStillAuthoritative` (route.cpp) with the policy and decision records of
`route.h`. `computeRoute` is cut where the source comments it: endpoint admission, partition gate,
enumeration, hard per-path filters, ranking; each stage is a definition of its own and the decision is
assembled from them.

Floating point: a `double` of the policy is its 64-bit pattern (only the test `> 0.0` is made on it), and a
ranking value is the exact number the source's expression denotes. The two measured factors are read from the
request's measurements alone, so they are the same on every candidate and rounding them cannot change a
ranking.
-/

namespace NVSwitchFabric

open Lib

/-! ## Policy -/

/-- A C++ `double`, as its bit pattern. -/
structure Double where
  bits : UInt64
deriving DecidableEq

/-- `d > 0.0`: the sign bit is clear and the value is neither zero nor a NaN. -/
def Double.isPositive (d : Double) : Bool := 0 < d.bits && d.bits ≤ 0x7FF0000000000000

/-- `1.0`. -/
def Double.one : Double := ⟨0x3FF0000000000000⟩

/-- Named ranking factors; `decodePolicy` casts any byte to one. -/
inductive RouteFactor where
  | fewerSwitches | fewerHops | directness | redundancy | measuredThroughput | measuredLatency
  | activeLinkCount | degradation | congestionEvidence | freshness | confidence
  | failureDomainDiversity | policyPreference
  | undeclared (code : UInt8) (h : ¬ code.toNat < 13)
deriving DecidableEq

/-- `(uint8_t)f`. -/
def RouteFactor.toByte : RouteFactor → UInt8
  | fewerSwitches => 0 | fewerHops => 1 | directness => 2 | redundancy => 3 | measuredThroughput => 4
  | measuredLatency => 5 | activeLinkCount => 6 | degradation => 7 | congestionEvidence => 8
  | freshness => 9 | confidence => 10 | failureDomainDiversity => 11 | policyPreference => 12
  | undeclared c _ => c

/-- `(RouteFactor)c`. -/
def RouteFactor.ofByte (c : UInt8) : RouteFactor :=
  if h : c.toNat < 13 then
    match c.toNat with
    | 0 => fewerSwitches | 1 => fewerHops | 2 => directness | 3 => redundancy
    | 4 => measuredThroughput | 5 => measuredLatency | 6 => activeLinkCount | 7 => degradation
    | 8 => congestionEvidence | 9 => freshness | 10 => confidence | 11 => failureDomainDiversity
    | _ => policyPreference
  else undeclared c h

/-- `RoutePolicy`, with its defaults. -/
structure RoutePolicy where
  id                           : PolicyId := ⟨[]⟩
  requireSufficientsSwitches   : Bool := true
  requireSufficientsPorts      : Bool := true
  requireNonDegradedPath       : Bool := false
  insidePartition              : Bool := true
  maxAllowedSwitches           : UInt64 := 256
  maxAllowedHops               : UInt64 := UInt64.ofNat Limits.kMaxPathDepth
  requiredMinRelativeBandwidth : Double := ⟨0⟩
  preferRedundantPath          : Bool := false
  requireFreshEvidence         : Bool := true
  maxStalenessNanos            : UInt64 := 0
  factors                      : List (RouteFactor × Double) :=
    [(.fewerSwitches, .one), (.fewerHops, .one), (.directness, .one), (.degradation, .one),
     (.congestionEvidence, .one)]
deriving DecidableEq

/-- The traversal bounds `computeRoute` derives from a policy; `maxAllowedHops + 1` is a 64-bit sum. -/
def RoutePolicy.traversal (p : RoutePolicy) : TraversalConfig where
  maxPaths := (min (p.maxAllowedHops + 1) (UInt64.ofNat Limits.kMaxCandidatePaths)).toUInt32
  maxDepth := (min p.maxAllowedHops (UInt64.ofNat Limits.kMaxPathDepth)).toUInt32
  allowSwitchSwitching := true

/-! ## Decision -/

structure RouteDecision where
  id               : RouteDecisionId := ⟨0⟩
  gen              : RouteGeneration := ⟨0⟩
  source           : DeviceId
  destination      : DeviceId
  sourceKnown      : Bool := false
  destinationKnown : Bool := false
  fabricGen        : FabricGeneration := ⟨0⟩
  topologyGen      : TopologyGeneration := ⟨0⟩
  partitionGen     : PartitionGeneration := ⟨0⟩
  partition        : PartitionId := ⟨[]⟩
  partitionKnown   : Bool := false
  outcome          : RouteOutcome := .noRoute
  outcomeReason    : Str := []
  authoritative    : Bool := false
  candidatePaths   : List FabricPath := []
  selected         : Option FabricPath := none
  policy           : PolicyId := ⟨[]⟩
  policySnapshot   : RoutePolicy := {}
  factorScores     : List (RouteFactor × Rat) := []
  explanation      : Str := []
  snapshotId       : TopologySnapshotId := ⟨[]⟩
  observation      : ObservationId := ⟨0⟩
  observationKnown : Bool := false
  epoch            : CoordinatorEpoch := 0
  createdAtNanos   : UInt64 := 0

/-- `ROUTE_ALLOWED` or `ROUTE_ALLOWED_DEGRADED`. -/
def RouteOutcome.isAllowed (o : RouteOutcome) : Bool := o = .routeAllowed || o = .routeAllowedDegraded

/-- Return the decision with a refusal. -/
def RouteDecision.refuse (d : RouteDecision) (o : RouteOutcome) (reason : String) : RouteDecision :=
  { d with outcome := o, outcomeReason := ascii reason }

/-! ## Measurements and ranking factors -/

/-- `std::numeric_limits<double>::max()`. -/
def doubleMax : Rat := (2 ^ 53 - 1) * 2 ^ 971

structure BestMeasurement where
  bestThroughput : Rat := 0
  bestLatencyUs  : Rat := doubleMax
  has            : Bool := false

/-- The measurement counts for the pair: known, for these endpoints, current, of a supported kind. -/
def measures (src dst : DeviceId) (m : Measurement) : Bool :=
  m.sourceKnown && m.destinationKnown && m.source = src && m.destination = dst && m.matched &&
  m.kind ≠ .unsupported

/-- `bestFor`: highest throughput and lowest latency measured for the pair. -/
def bestFor (measurements : List Measurement) (src dst : DeviceId) : BestMeasurement :=
  (measurements.filter (measures src dst)).foldl (fun b m =>
    { bestThroughput := if b.bestThroughput < m.bytesPerSec then m.bytesPerSec else b.bestThroughput
      bestLatencyUs := if m.latencyUsPerOp < b.bestLatencyUs then m.latencyUsPerOp else b.bestLatencyUs
      has := true }) {}

/-- `factorValue`: a scalar for a candidate path, lower is better. -/
def factorValue (f : RouteFactor) (p : FabricPath) (topo : FabricTopology) (meas : BestMeasurement) : Rat :=
  match f with
  | .fewerSwitches | .fewerHops | .directness | .failureDomainDiversity => p.hops.length
  | .redundancy => -(p.hops.length : Rat)
  | .measuredThroughput =>
    if !meas.has || meas.bestThroughput ≤ 0 then doubleMax else -meas.bestThroughput
  | .measuredLatency => if !meas.has || doubleMax ≤ meas.bestLatencyUs then doubleMax else meas.bestLatencyUs
  | .activeLinkCount =>
    -(p.links.foldl (fun acc lid => match topo.lookupLink lid with
      | some l => acc + (if l.state = .up then 1 else 1 / 2)
      | none   => acc) (0 : Rat))
  | .degradation => if p.state = .degraded then 1 else 0
  | .congestionEvidence =>
    p.links.foldl (fun acc lid => match topo.lookupLink lid with
      | some l => if l.degraded then acc + 1 else acc
      | none   => acc) (0 : Rat)
  | .freshness | .confidence | .policyPreference | .undeclared _ _ => 0

/-- The ranking comparator: factor values in declared order, then the canonical key. -/
def rankBefore (topo : FabricTopology) (meas : BestMeasurement) (a b : FabricPath) :
    List (RouteFactor × Double) → Bool
  | [] => a.canonicalKey < b.canonicalKey
  | (fac, _) :: factors =>
    if factorValue fac a topo meas < factorValue fac b topo meas then true
    else if factorValue fac b topo meas < factorValue fac a topo meas then false
    else rankBefore topo meas a b factors

/-- `std::stable_sort` of the candidates under the ranking comparator. -/
def rankPaths (topo : FabricTopology) (meas : BestMeasurement) (policy : RoutePolicy)
    (paths : List FabricPath) : List FabricPath :=
  paths.insertionSort fun a b => ¬ rankBefore topo meas b a policy.factors = true

/-- The ports a path names: each hop's in-port where it is known, and its out-port. -/
def FabricPath.knownPorts (p : FabricPath) : List PortId :=
  p.hops.flatMap fun h => (if h.inPort.isUnknown then [] else [h.inPort]) ++ [h.outPort]

/-! ## Partition gate -/

/-- Both endpoints are members. -/
def FabricPartition.joins (p : FabricPartition) (src dst : DeviceId) : Bool :=
  p.members.contains src && p.members.contains dst

namespace FabricTopology

/-- `activePartitions` of the source: the partitions neither stale nor awaiting revalidation. -/
def activePartitions (t : FabricTopology) : List FabricPartition :=
  (t.partitions.entries.map Prod.snd).filter fun p => !p.state.isStaleOrRevalidation

/-- `part` of the source: the last of them, in id order, that joins the endpoints. -/
def gatePartition (t : FabricTopology) (src dst : DeviceId) : Option FabricPartition :=
  t.activePartitions.foldl (fun acc p => if p.joins src dst then some p else acc) none

def anyStalePartition (t : FabricTopology) : Bool := t.partitions.entries.any fun e => e.2.state = .stale

/-- The partition gate refuses the pair: there are active partitions, none joins the endpoints, and the
    policy asks to stay inside one. -/
def gateRefuses (t : FabricTopology) (src dst : DeviceId) (policy : RoutePolicy) : Bool :=
  !t.activePartitions.isEmpty && (t.gatePartition src dst).isNone && policy.insidePartition

/-! ## Hard per-path filters -/

/-- The switch has a record in a current state. -/
def switchCurrent (t : FabricTopology) (sw : SwitchId) : Bool :=
  match t.lookupSwitch sw with
  | some rec => currentState rec.state
  | none     => false

/-- The port has a record that is neither stale nor awaiting revalidation. -/
def portFresh (t : FabricTopology) (pid : PortId) : Bool :=
  match t.lookupPort pid with
  | some pr => !pr.state.isStaleOrRevalidation
  | none    => false

/-- The link has a record that is neither stale nor awaiting revalidation. -/
def linkFresh (t : FabricTopology) (lid : LinkId) : Bool :=
  match t.lookupLink lid with
  | some l => !l.state.isStaleOrRevalidation
  | none   => false

/-- The hard filters a candidate must pass before any scoring. -/
def hardFilter (t : FabricTopology) (policy : RoutePolicy) (p : FabricPath) : Bool :=
  p.switchSequence.all t.switchCurrent &&
  p.hops.all (fun h => (h.inPort.isUnknown || t.portFresh h.inPort) && t.portFresh h.outPort) &&
  p.links.all t.linkFresh &&
  !(policy.requireNonDegradedPath && p.state = .degraded) &&
  !(policy.requiredMinRelativeBandwidth.isPositive && p.state = .degraded)

/-! ## Generation capture -/

/-- The generations of the switches of a path. -/
def captureSwitchGens (t : FabricTopology) (p : FabricPath) : List (SwitchId × SwitchGeneration) :=
  p.switchSequence.filterMap fun sw => (t.lookupSwitch sw).map fun rec => (sw, rec.gen)

/-- The generations of the known ports of a path. -/
def capturePortGens (t : FabricTopology) (p : FabricPath) : List (PortId × PortGeneration) :=
  p.knownPorts.filterMap fun pid => (t.lookupPort pid).map fun pr => (pid, pr.gen)

/-- The smallest captured generation, when there is one. -/
def minGen {κ Tag : Type} (gens : List (κ × Gen Tag)) (dflt : Gen Tag) : Gen Tag :=
  match gens with
  | []      => dflt
  | g :: gs => gs.foldl (fun m x => min m x.2) g.2

/-- An eligible path with the generations it was granted under. -/
def capture (t : FabricTopology) (p : FabricPath) : FabricPath :=
  { p with
    capable := true
    switchGens := t.captureSwitchGens p
    portGens := t.capturePortGens p
    switchGen := minGen (t.captureSwitchGens p) p.switchGen
    portGen := minGen (t.capturePortGens p) p.portGen }

/-- The candidates that pass the hard filters, with their generations. -/
def eligiblePaths (t : FabricTopology) (policy : RoutePolicy) (raw : List FabricPath) : List FabricPath :=
  (raw.filter (t.hardFilter policy)).map t.capture

end FabricTopology

/-! ## The decision procedure -/

/-- The refusal for a request that no path was enumerated for. -/
def noPathOutcome : Reachability → RouteOutcome × String
  | .partitionBlocked     => (.partitionBlocked, "partition blocked")
  | .switchDown           => (.switchDown, "switch down")
  | .portDown             => (.portDown, "port down")
  | .revalidationRequired => (.revalidationRequired, "revalidation required")
  | .topologyStale        => (.staleTopology, "stale topology")
  | .endpointStale        => (.revalidationRequired, "endpoint stale")
  | .unsupported          => (.unsupported, "unsupported")
  | .insufficientEvidence => (.insufficientEvidence, "insufficient evidence")
  | _                     => (.noRoute, "no path")

/-- Endpoint admission: the refusal of a pair of endpoints, or `none` when both may be routed. -/
def admitEndpoints (topo : FabricTopology) (src dst : DeviceId) : Option (RouteOutcome × String) :=
  match topo.lookupDevice src, topo.lookupDevice dst with
  | some s, some dd =>
    if !s.present || !dd.present then some (.noRoute, "endpoint absent")
    else if src = dst then some (.noRoute, "same endpoint")
    else if !currentState s.state then some (.revalidationRequired, "source not current")
    else if !currentState dd.state then some (.revalidationRequired, "destination not current")
    else if s.state = .unsupported || dd.state = .unsupported then
      some (.unsupported, "endpoint unsupported")
    else none
  | _, _ => some (.noRoute, "source or destination not in topology")

/-- The decision with the partition the gate admitted the pair through, if any. -/
def RouteDecision.withPartition (d : RouteDecision) : Option FabricPartition → RouteDecision
  | some part => { d with partition := part.id, partitionKnown := true, partitionGen := part.gen }
  | none      => d

/-- The grant of the best-ranked candidate. -/
def RouteDecision.grant (d : RouteDecision) (topo : FabricTopology) (policy : RoutePolicy)
    (meas : BestMeasurement) (best : FabricPath) (ranked : List FabricPath) : RouteDecision :=
  { d with
    candidatePaths := ranked
    selected := some best
    factorScores := policy.factors.map fun f => (f.1, factorValue f.1 best topo meas)
    outcome := if best.state = .degraded then .routeAllowedDegraded else .routeAllowed
    authoritative := true
    explanation := ascii "selected " ++ best.canonicalKey ++ ascii " after applying " ++
      decimal policy.factors.length ++ ascii " named factors" }

/-- The decision before any stage has run. -/
def openDecision (topo : FabricTopology) (src dst : DeviceId) (policy : RoutePolicy) (id : RouteDecisionId)
    (gen : RouteGeneration) (snapshotId : TopologySnapshotId) (now : UInt64) (epoch : CoordinatorEpoch) :
    RouteDecision where
  epoch := epoch
  id := id
  gen := gen
  source := src
  destination := dst
  sourceKnown := true
  destinationKnown := true
  fabricGen := topo.fabricGen
  topologyGen := topo.topologyGen
  policy := policy.id
  snapshotId := snapshotId
  createdAtNanos := now
  policySnapshot := policy

/-- `computeRoute`. The source returns `Ok` on every path. -/
def computeRoute (topo : FabricTopology) (src dst : DeviceId) (policy : RoutePolicy)
    (measurements : List Measurement) (id : RouteDecisionId) (gen : RouteGeneration)
    (snapshotId : TopologySnapshotId) (now : UInt64) (epoch : CoordinatorEpoch) : RouteDecision :=
  let d := openDecision topo src dst policy id gen snapshotId now epoch
  match admitEndpoints topo src dst with
  | some (outcome, reason) => d.refuse outcome reason
  | none =>
    if topo.gateRefuses src dst policy then
      d.refuse (if topo.anyStalePartition then .stalePartition else .partitionBlocked)
        "no active partition contains both endpoints"
    else
      let d := d.withPartition (topo.gatePartition src dst)
      let raw := topo.enumeratePaths src dst policy.traversal
      if raw.isEmpty then
        let refusal := noPathOutcome (topo.deviceReachability src dst)
        d.refuse refusal.1 refusal.2
      else
        let meas := bestFor measurements src dst
        let ranked := rankPaths topo meas policy (topo.eligiblePaths policy raw)
        match ranked with
        | [] =>
          d.refuse (if topo.switches.entries.any fun e => e.2.state.isStaleOrRevalidation then .staleSwitch
            else .noRoute) "no eligible path"
        | best :: _ => d.grant topo policy meas best ranked

/-! ## The authority re-check -/

/-- The endpoint still has a record in an endpoint state. -/
def endpointHolds (topo : FabricTopology) (id : DeviceId) : Bool :=
  match topo.lookupDevice id with
  | some s => endpointState s.state
  | none   => false

/-- The partition still has a record, authoritative and at the captured generation. -/
def partitionHolds (topo : FabricTopology) (id : PartitionId) (g : PartitionGeneration) : Bool :=
  match topo.lookupPartition id with
  | some part => !part.state.isStaleOrRevalidation && part.gen = g
  | none      => false

/-- The switch still has a record, usable and at the captured generation. -/
def switchHolds (topo : FabricTopology) (sg : SwitchId × SwitchGeneration) : Bool :=
  match topo.lookupSwitch sg.1 with
  | some rec => usableState rec.state && rec.gen = sg.2
  | none     => false

/-- The port still has a record, usable and at the captured generation. -/
def portHolds (topo : FabricTopology) (pg : PortId × PortGeneration) : Bool :=
  match topo.lookupPort pg.1 with
  | some pr => usableState pr.state && pr.gen = pg.2
  | none    => false

/-- `routeDecisionStillAuthoritative`. -/
def routeDecisionStillAuthoritative (d : RouteDecision) (topo : FabricTopology) : Bool :=
  d.outcome.isAllowed &&
  d.epoch = topo.epoch &&
  endpointHolds topo d.source &&
  endpointHolds topo d.destination &&
  (!d.partitionKnown || partitionHolds topo d.partition d.partitionGen) &&
  (match d.selected with
   | some p => p.switchGens.all (switchHolds topo) && p.portGens.all (portHolds topo)
   | none   => true)

end NVSwitchFabric
