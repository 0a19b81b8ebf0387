import NVSwitchFabric.Model.Scenario
import NVSwitchFabric.Runtime.Transport

/-!
# `Runtime.Worker` — what a worker sends, and what it makes of an answer

`Worker` of worker.cpp: the identity it registered with and the stream it reads its answers from. What it sends is the bytes
it hands to its socket; what it receives is the list of chunks that its socket delivers until the connection ends. Its
decoder of a decision is not the coordinator's `decodeDecision`; the two are side by side here. Both name the field they
could not read.

Left out: the socket, and the command line of `workerMain`.
-/

namespace NVSwitchFabric

/-! ## Policies -/

/-- `encodePolicyLite`. -/
def encodePolicyLite (p : RoutePolicy) : List UInt8 :=
  List.flatten [ByteWriter.str p.id.value, ByteWriter.flag p.requireSufficientsSwitches,
    ByteWriter.flag p.requireSufficientsPorts, ByteWriter.flag p.requireNonDegradedPath,
    ByteWriter.flag p.insidePartition, ByteWriter.u64 p.maxAllowedSwitches, ByteWriter.u64 p.maxAllowedHops,
    ByteWriter.u64 p.requiredMinRelativeBandwidth.bits, ByteWriter.flag p.preferRedundantPath,
    ByteWriter.flag p.requireFreshEvidence, ByteWriter.u64 p.maxStalenessNanos,
    ByteWriter.u32 (UInt32.ofNat p.factors.length),
    p.factors.flatMap fun f => ByteWriter.u8 f.1.toByte ++ ByteWriter.u64 f.2.bits]

/-! ## Decisions -/

/-- A decoder that reports the field it could not read. -/
abbrev Decode (α : Type) : Type := StateT ByteReader Result α

/-- Read a field, or report it missing. -/
def Decode.field {α : Type} (what : String) (p : Read α) : Decode α := fun r =>
  match p r with
  | (some a, r') => .ok (a, r')
  | (none, _)    => .error ⟨.protocolError, what⟩

/-- Decode a payload from its start. -/
def Decode.of {α : Type} (q : Decode α) (payload : List UInt8) : Result α :=
  match q { buf := payload } with
  | .ok (a, _) => .ok a
  | .error e   => .error e

/-- The fields of a `RouteDecision` that a decoder may set, with their defaults. The outcome is the cast of a byte, and is
    kept as its value. -/
structure ReceivedDecision where
  outcome       : UInt8
  outcomeReason : Str
  authoritative : Bool
  source        : DeviceId := ⟨0⟩
  destination   : DeviceId := ⟨0⟩
  selected      : Option FabricPath := none
  epoch         : CoordinatorEpoch := 0
  topologyGen   : TopologyGeneration := ⟨0⟩
  partitionGen  : PartitionGeneration := ⟨0⟩

/-- The path that stands for a selected one: of its key only whether it is empty is kept. -/
def selectedOf (key : Str) (src dst : DeviceId) : Option FabricPath :=
  if key.isEmpty then none else some { source := src, destination := dst }

/-- `decodeDecision` of the coordinator, which nothing calls. -/
def decodeDecision : Decode ReceivedDecision := do
  let o ← .field "outcome" Read.u8
  let reason ← .field "reason" Read.str
  let key ← .field "key" Read.str
  let _cc ← .field "candidates" Read.u32
  let au ← .field "authoritative" Read.flag
  let epoch ← .field "epoch" Read.u64
  let tg ← .field "topogen" Read.gen
  let pg ← .field "partgen" Read.gen
  return {
    outcome := o
    outcomeReason := reason
    authoritative := au
    selected := selectedOf key ⟨0⟩ ⟨0⟩
    epoch := epoch
    topologyGen := tg
    partitionGen := pg }

/-- The decoder at the end of `queryRoute`. -/
def decodeRouteResult (src dst : DeviceId) : Decode ReceivedDecision := do
  let o ← .field "outcome" Read.u8
  let reason ← .field "reason" Read.str
  let key ← .field "key" Read.str
  let _cc ← .field "candidates" Read.u32
  let au ← .field "authoritative" Read.flag
  return {
    outcome := o
    outcomeReason := reason
    authoritative := au
    source := src
    destination := dst
    selected := selectedOf key src dst }

/-! ## The worker -/

structure Worker where
  worker : WorkerId := ⟨[]⟩
  boot   : WorkerBootId := 0
  stream : FrameStream := {}

namespace Worker

/-- `sendFrame`: the bytes that are sent. -/
def sendFrame (type : MsgType) (payload : List UInt8) : Result (List UInt8) :=
  .ok (encodeFrame { type := type, payload := payload })

/-- `connect`, once the socket is connected: it sends HELLO and REGISTER, and keeps the identity it has registered. -/
def connect (worker : WorkerId) (boot : WorkerBootId) (epoch : CoordinatorEpoch) (w : Worker) :
    Result (List (List UInt8) × Worker) := do
  let hello ← sendFrame .hello (ByteWriter.u8 kWireProtocolVersion)
  let register ← sendFrame .register (encodeRegister epoch worker boot)
  return ([hello, register], { w with worker, boot })

/-- `publishMeasurement`. -/
def publishMeasurement (m : Measurement) (epoch : CoordinatorEpoch) : Result (List UInt8) :=
  sendFrame .publishMeasurement (encodePublishMeasurement epoch m)

/-- `publishTopology`. -/
def publishTopology (topo : FabricTopology) (epoch : CoordinatorEpoch) (w : Worker) : Result (List UInt8) :=
  sendFrame .publishTopology (encodePublishTopology epoch w.worker w.boot topo)

/-- `recvFrame` on what the socket delivers: the first frame to be complete. Frames that are completed by the same chunk
    are lost. -/
def recvFrame (w : Worker) : List (List UInt8) → Result Frame × Worker
  | []              => (.error ⟨.protocolError, "connection closed"⟩, w)
  | chunk :: chunks =>
    if chunk.isEmpty then (.error ⟨.protocolError, "connection closed"⟩, w)
    else
      let fed := w.stream.feed chunk
      let w' := { w with stream := fed.2 }
      match fed.2.err with
      | some e => (.error e, w')
      | none   =>
        match fed.1 with
        | f :: _ => (.ok f, w')
        | []     => recvFrame w' chunks

/-- `queryRoute`, from when its frame has been sent. -/
def queryRoute (src dst : DeviceId) (chunks : List (List UInt8)) (w : Worker) : Result ReceivedDecision × Worker :=
  let received := w.recvFrame chunks
  match received.1 with
  | .error e => (.error e, received.2)
  | .ok f    =>
    if f.type ≠ .routeResult then (.error ⟨.protocolError, "expected route result"⟩, received.2)
    else ((decodeRouteResult src dst).of f.payload, received.2)

/-- The measurement of `workerMain`. -/
def mainMeasurement : Measurement where
  source := ⟨1⟩
  destination := ⟨2⟩
  sourceKnown := true
  destinationKnown := true
  payloadBytes := 8 * 1024 * 1024
  iterations := 10
  elapsedNanos := 5000000
  elapsedKnown := true
  kind := .syntheticFixture
  provenance := .synthetic
  integrityVerified := true

/-- `workerMain`: what it sends. It registers, publishes the topology of a scenario, and a measurement of it unless it is
    the empty one. -/
def workerMain (worker : WorkerId) (boot : WorkerBootId) (epoch : CoordinatorEpoch) (scenario : ScenarioType) :
    Result (List (List UInt8)) := do
  let (greeting, w) ← ({} : Worker).connect worker boot epoch
  let reg := (applyScenarioToRegistry scenario .new).2
  let published ← w.publishTopology reg.snapshot epoch
  if scenario = .empty then return greeting ++ [published]
  else
    let measured ← publishMeasurement mainMeasurement epoch
    return greeting ++ [published, measured]

end Worker

end NVSwitchFabric
