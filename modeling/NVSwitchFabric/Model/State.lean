import Mathlib.Order.Basic

/-!
# `Model.State` — operational states and evidence classes

The enumerations of `state.h`, `provenance.h`, `identity.h` and `evidence.h`. An enumeration that the decoders
fill by casting a byte has, beside its declared enumerators, the constructor `undeclared`, which holds a byte
that is none of them: in the source such a value is an ordinary value of the enumeration type, and it compares
unequal to every enumerator.
-/

namespace NVSwitchFabric

inductive EntityState where
  | unknown | present | absent | supported | unsupported | up | down | degraded | disabled
  | unreachable | partitioned | stale | revalidationRequired | incompatible
  | undeclared (code : UInt8) (h : ¬ code.toNat < 14)
deriving DecidableEq

inductive PartitionState where
  | active | inactive | reconfiguring | revalidationRequired | stale | unsupported
  | undeclared (code : UInt8) (h : ¬ code.toNat < 6)
deriving DecidableEq

inductive Provenance where
  | real | synthetic | unsupported
  | undeclared (code : UInt8) (h : ¬ code.toNat < 3)
deriving DecidableEq

inductive EvidenceSource where
  | unknown | nvml | cudaRuntime | cudaDriver | nvidiaFabricManager | operatingSystem | benchmark
  | persisted | derived | syntheticFixture
  | undeclared (code : UInt8) (h : ¬ code.toNat < 10)
deriving DecidableEq

/-- `LinkEnd::Kind`. -/
inductive EndKind where
  | device | switch
  | undeclared (code : UInt8) (h : ¬ code.toNat < 2)
deriving DecidableEq

inductive Reachability where
  | reachable | reachableDegraded | unreachable | partitionBlocked | switchDown | portDown
  | endpointStale | topologyStale | revalidationRequired | insufficientEvidence | unsupported
deriving DecidableEq

inductive FabricHealth where
  | healthy | degraded | partiallyReachable | partitioned | switchFailure | portFailure | endpointFailure
  | revalidationRequired | insufficientEvidence | unsupported
deriving DecidableEq

inductive RouteOutcome where
  | routeAllowed | routeAllowedDegraded | noRoute | partitionBlocked | switchDown | portDown
  | staleTopology | stalePartition | staleSwitch | revalidationRequired | insufficientEvidence
  | policyRejected | unsupported
deriving DecidableEq

inductive MeasurementKind where
  | realGpuPeerTransferNvswitchTopologyPresent | realGpuPeerTransfer | realGpuSingleDevice
  | syntheticFixture | unsupported
deriving DecidableEq

/-! ## The byte of an enumerator, and the cast of a byte -/

namespace EntityState

def toByte : EntityState → UInt8
  | unknown => 0 | present => 1 | absent => 2 | supported => 3 | unsupported => 4 | up => 5
  | down => 6 | degraded => 7 | disabled => 8 | unreachable => 9 | partitioned => 10 | stale => 11
  | revalidationRequired => 12 | incompatible => 13
  | undeclared c _ => c

/-- `(EntityState)c`. -/
def ofByte (c : UInt8) : EntityState :=
  if h : c.toNat < 14 then
    match c.toNat with
    | 0 => unknown | 1 => present | 2 => absent | 3 => supported | 4 => unsupported | 5 => up
    | 6 => down | 7 => degraded | 8 => disabled | 9 => unreachable | 10 => partitioned | 11 => stale
    | 12 => revalidationRequired | _ => incompatible
  else undeclared c h

theorem ofByte_toByte (s : EntityState) : ofByte s.toByte = s := by
  cases s with
  | undeclared c h => exact dif_neg h
  | _ => rfl

end EntityState

namespace PartitionState

def toByte : PartitionState → UInt8
  | active => 0 | inactive => 1 | reconfiguring => 2 | revalidationRequired => 3 | stale => 4
  | unsupported => 5
  | undeclared c _ => c

/-- `(PartitionState)c`. -/
def ofByte (c : UInt8) : PartitionState :=
  if h : c.toNat < 6 then
    match c.toNat with
    | 0 => active | 1 => inactive | 2 => reconfiguring | 3 => revalidationRequired | 4 => stale
    | _ => unsupported
  else undeclared c h

theorem ofByte_toByte (s : PartitionState) : ofByte s.toByte = s := by
  cases s with
  | undeclared c h => exact dif_neg h
  | _ => rfl

end PartitionState

namespace Provenance

def toByte : Provenance → UInt8
  | real => 0 | synthetic => 1 | unsupported => 2
  | undeclared c _ => c

/-- `(Provenance)c`. -/
def ofByte (c : UInt8) : Provenance :=
  if h : c.toNat < 3 then
    match c.toNat with
    | 0 => real | 1 => synthetic | _ => unsupported
  else undeclared c h

theorem ofByte_toByte (s : Provenance) : ofByte s.toByte = s := by
  cases s with
  | undeclared c h => exact dif_neg h
  | _ => rfl

end Provenance

namespace EvidenceSource

def toByte : EvidenceSource → UInt8
  | unknown => 0 | nvml => 1 | cudaRuntime => 2 | cudaDriver => 3 | nvidiaFabricManager => 4
  | operatingSystem => 5 | benchmark => 6 | persisted => 7 | derived => 8 | syntheticFixture => 9
  | undeclared c _ => c

/-- `(EvidenceSource)c`. -/
def ofByte (c : UInt8) : EvidenceSource :=
  if h : c.toNat < 10 then
    match c.toNat with
    | 0 => unknown | 1 => nvml | 2 => cudaRuntime | 3 => cudaDriver | 4 => nvidiaFabricManager
    | 5 => operatingSystem | 6 => benchmark | 7 => persisted | 8 => derived | _ => syntheticFixture
  else undeclared c h

theorem ofByte_toByte (s : EvidenceSource) : ofByte s.toByte = s := by
  cases s with
  | undeclared c h => exact dif_neg h
  | _ => rfl

end EvidenceSource

namespace EndKind

def toByte : EndKind → UInt8
  | device => 0 | switch => 1
  | undeclared c _ => c

/-- `(LinkEnd::Kind)c`. -/
def ofByte (c : UInt8) : EndKind :=
  if h : c.toNat < 2 then
    match c.toNat with
    | 0 => device | _ => switch
  else undeclared c h

theorem ofByte_toByte (s : EndKind) : ofByte s.toByte = s := by
  cases s with
  | undeclared c h => exact dif_neg h
  | _ => rfl

end EndKind

/-- `(uint8_t)outcome`. -/
def RouteOutcome.toByte : RouteOutcome → UInt8
  | routeAllowed => 0 | routeAllowedDegraded => 1 | noRoute => 2 | partitionBlocked => 3
  | switchDown => 4 | portDown => 5 | staleTopology => 6 | stalePartition => 7 | staleSwitch => 8
  | revalidationRequired => 9 | insufficientEvidence => 10 | policyRejected => 11 | unsupported => 12

/-! ## State predicates -/

/-- `currentState` (route.cpp): good enough to route over, before the usability filters. -/
def currentState : EntityState → Bool
  | .up | .degraded | .present | .supported => true
  | _ => false

/-- `usableState` (route.cpp), `traversableState` (topology.cpp): up or degraded. -/
def usableState (s : EntityState) : Bool := s = .up || s = .degraded

/-- The endpoint states that path enumeration and the authority re-check accept. -/
def endpointState (s : EntityState) : Bool := usableState s || s = .present

/-- The partition states that the gates skip: not authoritative. -/
def PartitionState.isStaleOrRevalidation (s : PartitionState) : Bool :=
  s = .stale || s = .revalidationRequired

/-- Stale or awaiting revalidation. -/
def EntityState.isStaleOrRevalidation (s : EntityState) : Bool :=
  s = .stale || s = .revalidationRequired

end NVSwitchFabric
