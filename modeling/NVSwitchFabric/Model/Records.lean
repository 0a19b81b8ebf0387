import NVSwitchFabric.Model.Identity
import NVSwitchFabric.Model.State

/-!
# `Model.Records` — typed topology records and resource bounds

The five records of a topology snapshot (`records.h`), the dynamic evidence the registry stores or merges
(`evidence.h`), the typed errors (`error.h`) and the bounds (`limits.h`). Every record ends in the same six
fields, which say where it was observed and by which worker incarnation; they are the parent structure
`Origin`.
-/

namespace NVSwitchFabric

/-! ## Errors -/

inductive ErrorCode where
  | none | notFound | unsupported | invalidArgument | invalidTopology | invalidPartition
  | staleGeneration | staleSwitch | stalePort | stalePartition | staleBoot | staleEpoch
  | staleMeasurement | revalidationRequired | backendUnavailable | backendError | switchDown | portDown
  | partitionBlocked | noPath | insufficientEvidence | integrityFailure | protocolError | resourceLimit
  | cancelled | alreadyExists | internal
deriving DecidableEq

structure Error where
  code    : ErrorCode
  message : String
deriving DecidableEq

/-- `Result<T>`. -/
abbrev Result (α : Type) := Except Error α

/-- What is returned behind a check was not refused by it. -/
theorem check_eq_ok_iff {ε α : Type} {c : Prop} [Decidable c] {e : ε} {x : Except ε α} {a : α} :
    (if c then .error e else x) = .ok a ↔ ¬ c ∧ x = .ok a := by
  by_cases h : c
  · rw [if_pos h]
    exact ⟨fun heq => absurd heq (by simp), fun hno => absurd h hno.1⟩
  · rw [if_neg h]
    exact ⟨fun heq => ⟨h, heq⟩, fun hboth => hboth.2⟩

/-! ## Bounds -/

namespace Limits

def kMaxDevices : Nat := 1024
def kMaxSwitches : Nat := 256
def kMaxPortsPerSwitch : Nat := 256
def kMaxPorts : Nat := 65536
def kMaxLinks : Nat := 131072
def kMaxPartitions : Nat := 256
def kMaxCandidatePaths : Nat := 65536
def kMaxPathDepth : Nat := 16
def kMaxMeasurements : Nat := 262144
def kMaxConnections : Nat := 256
def kMaxFrameBytes : Nat := 16 * 1024 * 1024
def kMaxHistory : Nat := 2 ^ 20
def kMaxPersistenceBytes : Nat := 256 * 1024 * 1024

end Limits

/-! ## Records -/

/-- The far end of a link. -/
structure LinkEnd where
  kind   : EndKind := .device
  device : DeviceId := ⟨0⟩
  sw     : SwitchId := ⟨0⟩
deriving DecidableEq

namespace LinkEnd

def toDevice (d : DeviceId) : LinkEnd := ⟨.device, d, ⟨0⟩⟩

def toSwitch (s : SwitchId) : LinkEnd := ⟨.switch, ⟨0⟩, s⟩

end LinkEnd

/-- Who observed a record, and how. `workerKnown` makes `worker` and `workerBoot` the dynamic source that
    fencing acts on. -/
structure Origin where
  worker      : WorkerId := ⟨[]⟩
  workerKnown : Bool := false
  workerBoot  : WorkerBootId := 0
  provenance  : Provenance := .unsupported
  source      : EvidenceSource := .unknown
  topologyGen : TopologyGeneration := ⟨0⟩
deriving DecidableEq

/-- The record is attributed to incarnation `(w, b)`. -/
def Origin.attributedTo (o : Origin) (w : WorkerId) (b : WorkerBootId) : Bool :=
  o.workerKnown && o.worker = w && o.workerBoot = b

/-- The record is dynamic evidence: worker-owned or observed on hardware. -/
def Origin.isDynamic (o : Origin) : Bool := o.workerKnown || o.provenance = .real

/-- The same record, attributed to incarnation `(w, b)`. -/
def Origin.stamp (o : Origin) (w : WorkerId) (b : WorkerBootId) : Origin :=
  { o with workerKnown := true, worker := w, workerBoot := b }

structure DeviceGeneration where
  name     : Str := []
  observed : Bool := false
deriving DecidableEq

structure DeviceRecord extends Origin where
  id                  : DeviceId
  generation          : DeviceGeneration := {}
  present             : Bool := false
  backendId           : Str := []
  vendor              : Str := []
  product             : Str := []
  state               : EntityState := .unknown
  partition           : PartitionId := ⟨[]⟩
  attachedSwitch      : SwitchId := ⟨0⟩
  attachedSwitchKnown : Bool := false
deriving DecidableEq

structure SwitchRecord extends Origin where
  id                 : SwitchId
  gen                : SwitchGeneration := ⟨0⟩
  generationName     : Str := []
  generationObserved : Bool := false
  vendor             : Str := []
  product            : Str := []
  family             : Str := []
  portCount          : UInt32 := 0
  state              : EntityState := .unknown
  fabric             : FabricId := ⟨[]⟩
  fabricKnown        : Bool := false
  partition          : PartitionId := ⟨[]⟩
  partitionKnown     : Bool := false
deriving DecidableEq

structure SwitchPortRecord extends Origin where
  id                    : PortId
  gen                   : PortGeneration := ⟨0⟩
  attached              : LinkEnd := {}
  attachedKnown         : Bool := false
  state                 : EntityState := .unknown
  activeLinkCount       : UInt32 := 0
  activeLinkCountKnown  : Bool := false
  nominalBandwidthMBps  : UInt64 := 0
  nominalBandwidthKnown : Bool := false
deriving DecidableEq

structure LinkRecord extends Origin where
  id            : LinkId
  gen           : LinkGeneration := ⟨0⟩
  rootSwitch    : SwitchId
  port          : PortId
  otherEnd      : LinkEnd := {}
  otherEndKnown : Bool := false
  state         : EntityState := .unknown
  degraded      : Bool := false
deriving DecidableEq

structure FabricPartition extends Origin where
  id       : PartitionId
  gen      : PartitionGeneration := ⟨0⟩
  fabric   : FabricId := ⟨[]⟩
  members  : List DeviceId := []
  switches : List SwitchId := []
  state    : PartitionState := .active
deriving DecidableEq

/-! ## Dynamic evidence -/

structure Measurement where
  id                : MeasurementId := ⟨0⟩
  runId             : MeasurementId := ⟨0⟩
  source            : DeviceId
  destination       : DeviceId
  sourceKnown       : Bool := false
  destinationKnown  : Bool := false
  payloadBytes      : UInt64 := 0
  iterations        : UInt64 := 0
  elapsedNanos      : UInt64 := 0
  elapsedKnown      : Bool := false
  syncMethod        : Str := []
  integrityVerified : Bool := false
  matched           : Bool := false
  kind              : MeasurementKind := .unsupported
  topologyGen       : TopologyGeneration := ⟨0⟩
  worker            : WorkerId := ⟨[]⟩
  workerKnown       : Bool := false
  workerBoot        : WorkerBootId := 0
  provenance        : Provenance := .unsupported
  evidenceSource    : EvidenceSource := .unknown

namespace Measurement

/-- Bytes per second, as an exact number (the source computes it in double precision). -/
def bytesPerSec (m : Measurement) : Rat :=
  if !m.elapsedKnown || m.elapsedNanos = 0 then 0
  else (m.payloadBytes.toNat * m.iterations.toNat * 1000000000 : Rat) / m.elapsedNanos.toNat

/-- Microseconds per operation, as an exact number. -/
def latencyUsPerOp (m : Measurement) : Rat :=
  if !m.elapsedKnown || m.iterations = 0 then 0
  else (m.elapsedNanos.toNat / m.iterations.toNat : Rat) / 1000

end Measurement

/-- Degradation reported for one link (the fields the registry merges). -/
structure LinkDegradation where
  link      : LinkId
  linkKnown : Bool := false
  degraded  : Bool := false

/-- A congestion observation (the fields the registry merges). -/
structure CongestionObservation where
  links : List LinkDegradation := []

end NVSwitchFabric
