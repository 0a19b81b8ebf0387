import NVSwitchFabric.Lib.Channel
import NVSwitchFabric.Lib.Run
import NVSwitchFabric.Runtime.Coordinator

/-!
# `Runtime.Network` — the coordinator behind its sockets

The coordinator together with the peers it talks to and the bytes under way. A peer writes any bytes; the receive loop of
its connection takes off the wire what one receive delivers, at most a buffer, completes frames with it, and handles
them one after another before it receives again. The loops of the connections run in any interleaving, frame by frame, so
a `Move` is one of their rounds: a connection request, a write, a receive, a frame that is handled, a read of what the
coordinator has sent, the end of a connection.

What a move makes the coordinator do is an event of `Runtime.Coordinator` (`event?`), and `trace` collects them. Left out:
the network may lose what was under way when a connection ends, on both sides.
-/

namespace NVSwitchFabric

open Lib

/-! ## Peers and moves -/

/-- One connection, as far as it is not the coordinator's: what is under way to it, the frames it has completed and not
    handled, and what the peer has read. -/
structure Peer where
  up       : Channel UInt8 Error := {}
  inbox    : List Frame := []
  received : Nat := 0
  reader   : FrameStream := {}
  answers  : List Frame := []

/-- A round of one of the loops, or a request for a connection. -/
inductive Move where
  | connect
  | send (id : Nat) (bytes : List UInt8)
  | receive (id n : Nat)
  | handle (id : Nat) (now : UInt64)
  | read (id n : Nat)
  | hangUp (id : Nat)
deriving DecidableEq

/-- The connection a move is on. -/
def Move.on : Move → Option Nat
  | .connect                                                          => none
  | .send id _ | .receive id _ | .handle id _ | .read id _ | .hangUp id => some id

namespace Peer

/-- What is under way to the peer: the bytes sent to it that it has not received. -/
def down (p : Peer) (conn : Connection) : Channel UInt8 Error :=
  { wire := conn.sent.flatten.drop p.received, parser := p.reader }

/-- One receive of the loop: at most a buffer. -/
def receive (n : Nat) (p : Peer) : List Frame × Channel UInt8 Error :=
  p.up.receive framing (min n Coordinator.kReceiveBuffer)

/-- The peer receives up to `n` bytes. -/
def read (n : Nat) (conn : Connection) (p : Peer) : Peer :=
  let got := (p.down conn).receive framing n
  { p with
    received := p.received + ((p.down conn).wire.take n).length
    reader := got.2.parser
    answers := p.answers ++ got.1 }

/-- What a move on the connection makes the coordinator do. The loop ends when it cannot make sense of what it receives;
    it receives again, and notices the end of the connection, once it has handled what it has. -/
def event? (p : Peer) : Move → Option Coordinator.Event
  | .receive id n  => if p.inbox.isEmpty && (p.receive n).2.parser.err.isSome then some (.close id) else none
  | .handle id now => p.inbox.head?.map fun f => .frame id f now
  | .hangUp id     => if p.inbox.isEmpty then some (.close id) else none
  | _              => none

/-- The peer after a move on its connection; `none` when the connection has ended. -/
def after (p : Peer) (conn : Option Connection) : Move → Option Peer
  | .send _ bytes => some { p with up := p.up.send bytes }
  | .receive _ n  =>
    if !p.inbox.isEmpty then some p
    else if (p.receive n).2.parser.err.isSome then none
    else some { p with up := (p.receive n).2, inbox := (p.receive n).1 }
  | .handle _ _   => some { p with inbox := p.inbox.tail }
  | .read _ n     => some (conn.elim p fun conn => p.read n conn)
  | .hangUp _     => if p.inbox.isEmpty then none else some p
  | .connect      => some p

end Peer

/-! ## The network -/

structure Network where
  coordinator : Coordinator
  peers       : SortedMap Nat Peer := .empty

namespace Network

/-- What the move makes the coordinator do. -/
def event? (net : Network) (m : Move) : Option Coordinator.Event :=
  match m.on with
  | none    => some .accept
  | some id => (net.peers.find? id).bind fun p => p.event? m

/-- The peers after a move. -/
def peersAfter (net : Network) (m : Move) : SortedMap Nat Peer :=
  match m.on with
  | none    =>
    if Limits.kMaxConnections ≤ net.coordinator.conns.size then net.peers
    else net.peers.insert net.coordinator.connSeq {}
  | some id => match net.peers.find? id with
    | none   => net.peers
    | some p => match p.after (net.coordinator.conns.find? id) m with
      | none    => net.peers.erase id
      | some p' => net.peers.insert id p'

def step (net : Network) (m : Move) : Network where
  coordinator := (net.event? m).elim net.coordinator net.coordinator.step
  peers := net.peersAfter m

/-- A coordinator without connections, and nobody connected to it. -/
def start (registry : FabricRegistry) (persistPath : Str) (disk : Disk) : Network where
  coordinator := .serving registry persistPath disk

/-! ## What happens in a run -/

/-- The events of the coordinator. -/
def trace : Network → List Move → List Coordinator.Event
  | _, []          => []
  | net, m :: moves => (net.event? m).toList ++ trace (net.step m) moves

/-- What is written on a connection by one move. -/
def write? (net : Network) (id : Nat) : Move → Option (List UInt8)
  | .send i bytes => if i = id && net.peers.contains id then some bytes else none
  | _             => none

/-- What is written on a connection while it is open. -/
def written (id : Nat) : Network → List Move → List (List UInt8)
  | _, []           => []
  | net, m :: moves => (net.write? id m).toList ++ written id (net.step m) moves

/-- The frame that an event handles on a connection. -/
def frameOn (id : Nat) : Coordinator.Event → Option Frame
  | .frame i f _ => if i = id then some f else none
  | _            => none

/-- The frames handled on a connection. -/
def framesOn (id : Nat) (events : List Coordinator.Event) : List Frame := events.filterMap (frameOn id)

end Network

end NVSwitchFabric
