import NVSwitchFabric.Model.Codec
import NVSwitchFabric.Model.Route

/-!
# `Runtime.Messages` — frames and their payloads

The frame of transport.h and the payloads the worker and the coordinator exchange (worker.cpp, coordinator.cpp). A
payload is read by a `Read` that stops at the first field it cannot read, as the handler's `break` does; what
follows the last field it reads is ignored.
-/

namespace NVSwitchFabric

/-! ## Frames -/

inductive MsgType where
  | hello | register | publishTopology | publishMeasurement | queryRoute | routeResult | workerReady
  | ping | pong | error
deriving DecidableEq

def MsgType.toByte : MsgType → UInt8
  | hello => 1 | register => 2 | publishTopology => 3 | publishMeasurement => 4 | queryRoute => 5
  | routeResult => 6 | workerReady => 7 | ping => 8 | pong => 9 | error => 10

structure Frame where
  type    : MsgType := .hello
  payload : List UInt8 := []
deriving DecidableEq

def kFrameMagic : UInt32 := 0x4E564631
def kFrameVersion : UInt8 := 1
def kWireProtocolVersion : UInt8 := 1

/-- The first twelve bytes of a frame, which the header CRC covers. -/
def frameHeader (f : Frame) : List UInt8 :=
  List.flatten [ByteWriter.u32 kFrameMagic, ByteWriter.u8 kFrameVersion, ByteWriter.u8 f.type.toByte,
    ByteWriter.u16 0, ByteWriter.u32 (UInt32.ofNat f.payload.length)]

/-- `encodeFrame`. -/
def encodeFrame (f : Frame) : List UInt8 :=
  List.flatten [frameHeader f, ByteWriter.u32 (crc32 (frameHeader f)), f.payload,
    ByteWriter.u32 (crc32 f.payload)]

/-- Read a payload from its start. -/
def Read.run? {α : Type} (p : Read α) (payload : List UInt8) : Option α := (p { buf := payload }).1

/-- **A payload that was written reads back.** -/
theorem Read.Reads.run? {α : Type} {p : Read α} {bs : List UInt8} {a : α} (h : Reads p bs a) :
    p.run? bs = some a := by
  unfold Read.run?
  rw [h { buf := bs } [] (by simp) (Nat.zero_le _)]

/-! ## Registration -/

/-- The worker's REGISTER payload (`Worker::connect`). -/
def encodeRegister (epoch : CoordinatorEpoch) (worker : WorkerId) (boot : WorkerBootId) : List UInt8 :=
  List.flatten [ByteWriter.u8 kWireProtocolVersion, ByteWriter.u64 epoch, ByteWriter.str worker.value,
    ByteWriter.u64 boot]

/-- The fields of a REGISTER payload: epoch, worker and boot. The version byte is read and not looked at. -/
def readRegister : Read (CoordinatorEpoch × WorkerId × WorkerBootId) := do
  let _ver ← Read.u8
  let ep ← Read.u64
  let wid ← Read.str
  let b ← Read.u64
  return (ep, ⟨wid⟩, b)

/-! ## Publications -/

/-- The worker's PUBLISH_TOPOLOGY payload (`Worker::publishTopology`). -/
def encodePublishTopology (epoch : CoordinatorEpoch) (worker : WorkerId) (boot : WorkerBootId)
    (topo : FabricTopology) : List UInt8 :=
  let blob := encodeTopology topo
  List.flatten [ByteWriter.u8 kWireProtocolVersion, ByteWriter.u64 epoch, ByteWriter.str worker.value,
    ByteWriter.u64 boot, ByteWriter.u32 (UInt32.ofNat blob.length), blob]

/-- The blob of a PUBLISH_TOPOLOGY payload, if the payload names the current epoch and the identity the
    connection is registered as. -/
def readPublishTopology (epoch : CoordinatorEpoch) (worker : WorkerId) (boot : WorkerBootId) :
    Read (List UInt8) := do
  let _ver ← Read.u8
  let ep ← Read.u64
  let wid ← Read.str
  let b ← Read.u64
  let blobLen ← Read.u32
  if ep ≠ epoch then Read.reject
  else if (⟨wid⟩ : WorkerId) ≠ worker || b ≠ boot then Read.reject
  else if Limits.kMaxFrameBytes < blobLen.toNat then Read.reject
  else Read.bytes blobLen.toNat

/-- The worker's PUBLISH_MEASUREMENT payload (`Worker::publishMeasurement`). -/
def encodePublishMeasurement (epoch : CoordinatorEpoch) (m : Measurement) : List UInt8 :=
  List.flatten [ByteWriter.u64 epoch, ByteWriter.ident m.source, ByteWriter.ident m.destination,
    ByteWriter.u64 m.payloadBytes, ByteWriter.u64 m.iterations, ByteWriter.u64 m.elapsedNanos]

/-- The measurement of a PUBLISH_MEASUREMENT payload, attributed to the identity of the connection. -/
def readPublishMeasurement (epoch : CoordinatorEpoch) (worker : WorkerId) (boot : WorkerBootId) :
    Read Measurement := do
  let ep ← Read.u64
  if ep ≠ epoch then Read.reject
  else
    let src ← Read.ident
    let dst ← Read.ident
    let bytes ← Read.u64
    let iters ← Read.u64
    let nanos ← Read.u64
    return {
      source := src
      destination := dst
      sourceKnown := true
      destinationKnown := true
      payloadBytes := bytes
      iterations := iters
      elapsedNanos := nanos
      elapsedKnown := true
      kind := .syntheticFixture
      provenance := .synthetic
      workerKnown := true
      worker := worker
      workerBoot := boot
      integrityVerified := true }

/-! ## Route queries -/

/-- `readDouble`. -/
def Read.double : Read Double := do return ⟨← Read.u64⟩

/-- `encodePolicy`. -/
def encodePolicy (p : RoutePolicy) : List UInt8 :=
  List.flatten [ByteWriter.strId p.id, ByteWriter.flag p.requireSufficientsSwitches,
    ByteWriter.flag p.requireSufficientsPorts, ByteWriter.flag p.requireNonDegradedPath,
    ByteWriter.flag p.insidePartition, ByteWriter.u64 p.maxAllowedSwitches,
    ByteWriter.u64 p.maxAllowedHops, ByteWriter.u64 p.requiredMinRelativeBandwidth.bits,
    ByteWriter.flag p.preferRedundantPath, ByteWriter.flag p.requireFreshEvidence,
    ByteWriter.u64 p.maxStalenessNanos, ByteWriter.u32 (UInt32.ofNat p.factors.length),
    p.factors.flatMap fun f => ByteWriter.u8 f.1.toByte ++ ByteWriter.u64 f.2.bits]

/-- One factor of an encoded policy. -/
def readFactor : Read (RouteFactor × Double) := do
  let f ← Read.u8
  let wt ← Read.double
  return (.ofByte f, wt)

/-- `decodePolicy`. -/
def decodePolicy : Read RoutePolicy := do
  let id ← Read.strId
  let requireSufficientsSwitches ← Read.flag
  let requireSufficientsPorts ← Read.flag
  let requireNonDegradedPath ← Read.flag
  let insidePartition ← Read.flag
  let maxAllowedSwitches ← Read.u64
  let maxAllowedHops ← Read.u64
  let requiredMinRelativeBandwidth ← Read.double
  let preferRedundantPath ← Read.flag
  let requireFreshEvidence ← Read.flag
  let maxStalenessNanos ← Read.u64
  let fc ← Read.u32
  if 24 < fc.toNat then Read.reject
  else
    let factors ← Read.many readFactor fc.toNat
    return { id, requireSufficientsSwitches, requireSufficientsPorts, requireNonDegradedPath, insidePartition,
             maxAllowedSwitches, maxAllowedHops, requiredMinRelativeBandwidth, preferRedundantPath,
             requireFreshEvidence, maxStalenessNanos, factors }

/-- The client's QUERY_ROUTE payload (`Worker::queryRoute`). -/
def encodeQueryRoute (src dst : DeviceId) (policy : RoutePolicy) : List UInt8 :=
  let pol := encodePolicy policy
  List.flatten [ByteWriter.ident src, ByteWriter.ident dst, ByteWriter.u32 (UInt32.ofNat pol.length), pol]

/-- The endpoints and the policy bytes of a QUERY_ROUTE payload. -/
def readQueryRoute : Read (DeviceId × DeviceId × List UInt8) := do
  let src ← Read.ident
  let dst ← Read.ident
  let polLen ← Read.u32
  if Limits.kMaxFrameBytes < polLen.toNat then Read.reject
  else
    let pol ← Read.bytes polLen.toNat
    return (src, dst, pol)

/-- `encodeDecision`. -/
def encodeDecision (d : RouteDecision) : List UInt8 :=
  List.flatten [ByteWriter.u8 d.outcome.toByte, ByteWriter.str d.outcomeReason,
    ByteWriter.str (match d.selected with
      | some p => p.canonicalKey
      | none   => []),
    ByteWriter.u32 (UInt32.ofNat d.candidatePaths.length), ByteWriter.flag d.authoritative,
    ByteWriter.u64 d.epoch, ByteWriter.gen d.topologyGen, ByteWriter.gen d.partitionGen]

end NVSwitchFabric
