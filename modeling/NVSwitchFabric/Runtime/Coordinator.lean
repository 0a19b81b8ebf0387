import NVSwitchFabric.Model.Persistence
import NVSwitchFabric.Runtime.Transport

/-!
# `Runtime.Coordinator` — the coordinator and its connections

`Coordinator` (coordinator.cpp): the registry it owns, the two boot maps, and the open connections with the locals
of their `handleConnection` loops. `step` handles one event of one connection: it is accepted, delivers a frame,
or closes; any interleaving of connections is a list of events. A frame is handled in one step, as far as the
registry and the boot maps are concerned (each has its own lock in the source).

The bytes sent back on a connection are kept with it. `handleConnection` is one connection by itself, from what it
receives to its close. Left out: the sockets and threads.
-/

namespace NVSwitchFabric

open Lib

/-! ## State -/

/-- The locals of one `handleConnection`, and what it has sent. -/
structure Connection where
  worker     : WorkerId := ⟨[]⟩
  boot       : WorkerBootId := 0
  registered : Bool := false
  sent       : List (List UInt8) := []

/-- Who the connection is registered as. -/
def Connection.identity (conn : Connection) : Option (WorkerId × WorkerBootId) :=
  if conn.registered then some (conn.worker, conn.boot) else none

/-- The connection after sending a frame. -/
def Connection.send (f : Frame) (conn : Connection) : Connection :=
  { conn with sent := conn.sent ++ [encodeFrame f] }

structure Coordinator where
  registry    : FabricRegistry := {}
  persistPath : Str := []
  disk        : Disk := SortedMap.empty
  /-- The next connection id. -/
  connSeq     : Nat := 0
  /-- The open connections. -/
  conns       : SortedMap Nat Connection := SortedMap.empty
  maxBoot     : SortedMap WorkerId WorkerBootId := SortedMap.empty
  activeBoot  : SortedMap WorkerId WorkerBootId := SortedMap.empty

namespace Coordinator

/-- A coordinator of a registry, before it has accepted a connection. -/
def serving (registry : FabricRegistry) (persistPath : Str) (disk : Disk) : Coordinator where
  registry := registry
  persistPath := persistPath
  disk := disk

/-- A coordinator as constructed, with an empty registry, once its epoch is set. -/
def fresh (epoch : CoordinatorEpoch) (persistPath : Str) (disk : Disk) : Coordinator :=
  serving (FabricRegistry.new.setEpoch epoch) persistPath disk

/-- `epoch()`. -/
def epoch (c : Coordinator) : CoordinatorEpoch := c.registry.epoch

/-- Who connection `id` is registered as, while it is open. -/
def identity (c : Coordinator) (id : Nat) : Option (WorkerId × WorkerBootId) :=
  (c.conns.find? id).bind Connection.identity

/-! ## Frame handlers -/

/-- The identity a REGISTER frame is admitted as: not of an older epoch, not of a boot below the highest one seen
    for the worker, not that of the worker's active incarnation. -/
def admits (c : Coordinator) (f : Frame) : Option (WorkerId × WorkerBootId) :=
  if f.type ≠ .register then none
  else match readRegister.run? f.payload with
    | none            => none
    | some (ep, w, b) =>
      if ep < c.registry.epoch then none
      else if (c.maxBoot.find? w).any fun m => b < m then none
      else if c.activeBoot.find? w = some b then none
      else some (w, b)

/-- Record an admitted boot: the highest one seen for the worker, and its active one. -/
def register (c : Coordinator) (id : Nat) (conn : Connection) (w : WorkerId) (b : WorkerBootId) : Coordinator :=
  { c with
    maxBoot := if (c.maxBoot.find? w).all fun m => m < b then c.maxBoot.insert w b else c.maxBoot
    activeBoot := c.activeBoot.insert w b
    conns := c.conns.insert id { conn with worker := w, boot := b, registered := true } }

/-- The records of a published topology, attributed to the incarnation that published it. -/
def stampedBulk (topo : FabricTopology) (w : WorkerId) (b : WorkerBootId) : BulkEdit where
  devices := topo.devices.entries.map fun e => { e.2 with toOrigin := e.2.toOrigin.stamp w b }
  switches := topo.switches.entries.map fun e => { e.2 with toOrigin := e.2.toOrigin.stamp w b }
  ports := topo.ports.entries.map fun e => { e.2 with toOrigin := e.2.toOrigin.stamp w b }
  links := topo.links.entries.map fun e => { e.2 with toOrigin := e.2.toOrigin.stamp w b }
  partitions := topo.partitions.entries.map fun e => { e.2 with toOrigin := e.2.toOrigin.stamp w b }

/-- `applyWorkerTopology`. A rejection is discarded. -/
def applyWorkerTopology (c : Coordinator) (topo : FabricTopology) (w : WorkerId) (b : WorkerBootId) :
    Coordinator :=
  { c with registry := (c.registry.applyBulk (stampedBulk topo w b)).2 }

/-- Persist the registry, when a path is set. A failure is discarded. -/
def autoPersist (c : Coordinator) : Coordinator :=
  if c.persistPath.isEmpty then c
  else { c with disk := (c.registry.persistTo c.persistPath c.disk).2 }

def handlePublishTopology (c : Coordinator) (w : WorkerId) (b : WorkerBootId) (payload : List UInt8) :
    Coordinator :=
  match (readPublishTopology c.registry.epoch w b).run? payload with
  | none      => c
  | some blob =>
    match decodeTopology blob with
    | .error _ => c
    | .ok topo => (c.applyWorkerTopology topo w b).autoPersist

def handlePublishMeasurement (c : Coordinator) (w : WorkerId) (b : WorkerBootId) (payload : List UInt8) :
    Coordinator :=
  match (readPublishMeasurement c.registry.epoch w b).run? payload with
  | none   => c
  | some m => { c with registry := (c.registry.publishMeasurement m).2 }

def handleQueryRoute (c : Coordinator) (id : Nat) (conn : Connection) (payload : List UInt8) (now : UInt64) :
    Coordinator :=
  match readQueryRoute.run? payload with
  | none => c
  | some (src, dst, pol) =>
    match decodePolicy.run? pol with
    | none        => c
    | some policy =>
      let routed := c.registry.route src dst policy now
      { c with
        registry := routed.2
        conns := c.conns.insert id (conn.send { type := .routeResult, payload := encodeDecision routed.1 }) }

/-- One frame on an open connection. -/
def handleFrame (c : Coordinator) (id : Nat) (conn : Connection) (f : Frame) (now : UInt64) : Coordinator :=
  match f.type with
  | .register =>
    match c.admits f with
    | some (w, b) => c.register id conn w b
    | none        => c
  | .publishTopology =>
    if conn.registered then c.handlePublishTopology conn.worker conn.boot f.payload else c
  | .publishMeasurement =>
    if conn.registered then c.handlePublishMeasurement conn.worker conn.boot f.payload else c
  | .queryRoute => if conn.registered then c.handleQueryRoute id conn f.payload now else c
  | .ping => { c with conns := c.conns.insert id (conn.send { type := .pong }) }
  | _ => c

/-- The end of `handleConnection`: the worker is gone. Its active boot is dropped if it is still this one, and its
    evidence is fenced; a refusal to fence is discarded. -/
def handleClose (c : Coordinator) (id : Nat) (conn : Connection) : Coordinator :=
  let c :=
    if conn.registered then
      { c with
        activeBoot := if c.activeBoot.find? conn.worker = some conn.boot then
          c.activeBoot.erase conn.worker else c.activeBoot
        registry := (c.registry.invalidateForWorker conn.worker conn.boot).2 }
    else c
  { c with conns := c.conns.erase id }

/-! ## Steps -/

/-- What happens on the connections; a frame comes with the time it is handled at. -/
inductive Event where
  | accept
  | frame (id : Nat) (f : Frame) (now : UInt64)
  | close (id : Nat)

/-- Handle one event. An event of a connection that is not open does nothing. -/
def step (c : Coordinator) : Event → Coordinator
  | .accept =>
    if Limits.kMaxConnections ≤ c.conns.size then c
    else { c with conns := c.conns.insert c.connSeq {}, connSeq := c.connSeq + 1 }
  | .frame id f now =>
    match c.conns.find? id with
    | some conn => c.handleFrame id conn f now
    | none      => c
  | .close id =>
    match c.conns.find? id with
    | some conn => c.handleClose id conn
    | none      => c

/-! ## Receiving -/

/-- The size of the receive buffer: the most that one receive delivers. -/
def kReceiveBuffer : Nat := 4096

/-- Handle frames in order, the `n`-th frame of the connection at time `clock n`. -/
def handleFrames (c : Coordinator) (id : Nat) (clock : Nat → UInt64) (n : Nat) : List Frame → Coordinator
  | []          => c
  | f :: frames => handleFrames (c.step (.frame id f (clock n))) id clock (n + 1) frames

/-- The loop of `handleConnection`, over what it receives. It ends with a receive on which the stream fails, and leaves
    the frames which that has completed. -/
def receiveLoop (c : Coordinator) (id : Nat) (clock : Nat → UInt64) (n : Nat) (stream : FrameStream) :
    List (List UInt8) → Coordinator
  | []              => c
  | chunk :: chunks =>
    let fed := stream.feed chunk
    if !fed.2.ok then c
    else receiveLoop (c.handleFrames id clock n fed.1) id clock (n + fed.1.length) fed.2 chunks

/-- `handleConnection` on what the connection receives until its end. -/
def handleConnection (c : Coordinator) (id : Nat) (clock : Nat → UInt64) (chunks : List (List UInt8)) :
    Coordinator :=
  (c.receiveLoop id clock 0 {} chunks).step (.close id)

/-! ## Restarts -/

/-- `restoreFromAndRevalidate`: apply the persisted records as one bulk and expire the dynamic ones; both results
    are discarded. -/
def restoreFromAndRevalidate (path : Str) (c : Coordinator) : Result Unit × Coordinator :=
  match FabricRegistry.restoreFrom path c.disk with
  | .error e => (.error e, c)
  | .ok res  =>
    let applied := (c.registry.applyBulk (BulkEdit.ofTopology res.snapshot)).2
    (.ok (), { c with registry := applied.expireDynamicEvidence.2 })

/-- Everything that can change a coordinator: its connections, whoever holds the reference that `registry()` hands
    out, and a restore. -/
inductive Action where
  | event (e : Event)
  | mutate (op : RegistryOp)
  | restore (path : Str)

def act (c : Coordinator) : Action → Coordinator
  | .event e      => c.step e
  | .mutate op    => { c with registry := c.registry.exec op }
  | .restore path => (c.restoreFromAndRevalidate path).2

end Coordinator

end NVSwitchFabric
