import NVSwitchFabric.Correctness.Deliverable
import NVSwitchFabric.Correctness.Handled
import NVSwitchFabric.Correctness.Histories

/-!
# `Correctness.Footprint` — what peers can make a coordinator hold

A peer may write anything, at any pace, and never finish a frame. What the loop of its connection holds is then less than
one frame of the largest size and one receive (`Peer.Within`): it does not receive while it has a frame to handle, and a
header that announces more than a frame may have ends the connection. Connections, records and histories have limits of
their own, so what a coordinator holds is bounded over all runs (`footprint_bounded`).

The tables of boots are not: they keep an entry for each worker that has registered.
-/

namespace NVSwitchFabric

open Lib

/-! ## One connection -/

/-- The size of an encoded frame. -/
def Frame.size (f : Frame) : Nat := kHeader + f.payload.length + 4

/-- The size of the largest frame. -/
def kLargestFrame : Nat := kHeader + Limits.kMaxFrameBytes + 4

/-- An incomplete frame is shorter than the largest one. -/
theorem length_lt_of_more {buf : List UInt8} (h : frameHead buf = .more) : buf.length < kLargestFrame := by
  unfold frameHead at h
  unfold kLargestFrame
  split at h
  · omega
  split at h
  · nomatch h
  next type length hfields =>
  dsimp only at h
  have hlength := length_le_of_frameFields hfields
  split at h
  · omega
  split at h
  · nomatch h
  split at h <;> nomatch h

/-- A frame takes up what is used of the buffer for it. -/
theorem size_le_of_item {buf rest : List UInt8} {f : Frame} (h : frameHead buf = .item f rest) :
    f.size + rest.length ≤ buf.length := by
  obtain ⟨length, hlen, _, _, _, hpayload, rfl⟩ := frameHead_item h
  have htake : f.payload.length ≤ length := by
    rw [hpayload]
    exact List.length_take_le _ _
  unfold Frame.size
  rw [List.length_drop]
  omega

namespace Peer

variable {p p' : Peer}

/-- What the loop of the connection holds: the frames it has completed and not handled, and what it has not used. -/
def held (p : Peer) : Nat := (p.inbox.map Frame.size).sum + p.up.parser.buf.length

/-- Less than one frame and one receive. -/
structure Within (p : Peer) : Prop where
  settled : framing.Settled p.up.parser
  held    : p.held < kLargestFrame + Coordinator.kReceiveBuffer

theorem within_new : Within {} := ⟨framing.settled_fresh, by decide⟩

/-- **What is received fits**, if everything received before has been handled. -/
theorem Within.receive (h : p.Within) (n : Nat) (hok : (p.receive n).2.parser.err = none) :
    ({ p with up := (p.receive n).2, inbox := (p.receive n).1 } : Peer).Within where
  settled := h.settled.next hok
  held := by
    let chunk := p.up.wire.take (min n Coordinator.kReceiveBuffer)
    have hchunk : chunk.length ≤ Coordinator.kReceiveBuffer := by
      rw [List.length_take]
      omega
    have hbuf := length_lt_of_more h.settled.more
    have hsize := framing.drain_size_le size_le_of_item (p.up.parser.buf ++ chunk)
    rw [← h.settled.feed chunk, List.length_append] at hsize
    show ((framing.feed p.up.parser chunk).1.map Frame.size).sum + (framing.feed p.up.parser chunk).2.buf.length < _
    omega

/-- A move on the connection. -/
theorem Within.after (h : p.Within) {conn : Option Connection} {m : Move} (hafter : p.after conn m = some p') : p'.Within := by
  cases m with
  | connect | send =>
    obtain rfl := Option.some.inj hafter
    exact ⟨h.settled, h.held⟩
  | receive id n =>
    unfold Peer.after at hafter
    dsimp only at hafter
    split at hafter
    · obtain rfl := Option.some.inj hafter
      exact h
    split at hafter
    · nomatch hafter
    · next hok =>
      obtain rfl := Option.some.inj hafter
      exact h.receive n (by simpa using hok)
  | handle id now =>
    obtain rfl := Option.some.inj hafter
    refine ⟨h.settled, lt_of_le_of_lt ?_ h.held⟩
    unfold Peer.held
    cases p.inbox with
    | nil => exact le_rfl
    | cons f inbox => simp
  | read id n =>
    obtain rfl := Option.some.inj hafter
    cases conn with
    | none => exact h
    | some conn => exact ⟨h.settled, h.held⟩
  | hangUp id =>
    unfold Peer.after at hafter
    dsimp only at hafter
    split at hafter
    · nomatch hafter
    · obtain rfl := Option.some.inj hafter
      exact h

end Peer

/-! ## All connections -/

namespace Coordinator

/-- **The number of connections is limited.** -/
theorem step_conns_size {c : Coordinator} (e : Event) (h : c.conns.size ≤ Limits.kMaxConnections) :
    (c.step e).conns.size ≤ Limits.kMaxConnections := by
  have hsame : (∀ i, (c.step e).IsOpen i → c.IsOpen i) → (c.step e).conns.size ≤ Limits.kMaxConnections := by
    intro hopen
    refine (SortedMap.size_le_of_contains fun i hi => ?_).trans h
    exact SortedMap.contains_iff.mpr (hopen i (SortedMap.contains_iff.mp hi))
  cases e with
  | accept =>
    unfold step
    dsimp only
    split
    · exact h
    · next hroom => exact (SortedMap.size_insert_le ..).trans (by omega)
  | frame id f now =>
    rcases c.step_frame_cases id f now with ⟨conn, w, b, hconn, _, heq⟩ | ⟨_, hserved⟩
    · exact hsame fun i => heq ▸ (isOpen_insert hconn i).mp
    · exact hsame fun i => (hserved.isOpen i).mp
  | close id =>
    refine hsame fun i => ?_
    rintro ⟨conn, hconn⟩
    rw [step_close_conns] at hconn
    split at hconn
    · nomatch hconn
    · exact ⟨conn, hconn⟩

end Coordinator

namespace Network

variable {net : Network}

/-- What the loops hold together. -/
def held (net : Network) : Nat := (net.peers.entries.map fun e => e.2.held).sum

/-- Connections are within their number and each within its bound, and the registry is one that operations lead to. -/
structure Fits (net : Network) : Prop where
  conns    : net.coordinator.conns.size ≤ Limits.kMaxConnections
  peers    : net.peers.All Peer.Within
  registry : net.coordinator.registry.Reachable

theorem peersAfter_within (h : net.peers.All Peer.Within) (m : Move) : (net.peersAfter m).All Peer.Within := by
  unfold peersAfter
  split
  · split
    · exact h
    · exact h.insert Peer.within_new
  split
  · exact h
  · next id _ p hp =>
    split
    · intro k q hq
      rw [SortedMap.find?_erase] at hq
      split at hq
      · nomatch hq
      · exact h hq
    · next p' hafter => exact h.insert ((h hp).after hafter)

theorem Fits.step (h : net.Fits) (m : Move) : (net.step m).Fits := by
  have hpeers := peersAfter_within h.peers m
  unfold Network.step
  cases net.event? m with
  | none => exact ⟨h.conns, hpeers, h.registry⟩
  | some e => exact ⟨Coordinator.step_conns_size e h.conns, hpeers, Coordinator.step_reachable e h.registry⟩

/-- **What a coordinator holds is bounded.** Whatever its peers write and however it arrives, there are no more connections
    than the limit; on each of them less is held than a largest frame and a receive; and the records and both histories
    of the registry are within their limits. -/
theorem footprint_bounded {registry : FabricRegistry} (hreg : registry.Reachable) (persistPath : Str) (disk : Disk)
    (moves : List Move) :
    let last := runAll step (start registry persistPath disk) moves
    last.peers.size ≤ Limits.kMaxConnections ∧
      (∀ id p, last.peers.find? id = some p → p.held < kLargestFrame + Coordinator.kReceiveBuffer) ∧
      last.held ≤ Limits.kMaxConnections * (kLargestFrame + Coordinator.kReceiveBuffer) ∧
      last.coordinator.registry.current.WithinLimits ∧ last.coordinator.registry.Bounded := by
  intro last
  have hstart : (start registry persistPath disk).Fits := ⟨Nat.zero_le _, SortedMap.All.empty, hreg⟩
  have hfits : last.Fits := (Steps.of_runAll step (start registry persistPath disk) moves).invariant
    (fun _ m h _ => h.step m) hstart
  -- a connection that is open here is open at the coordinator
  have hpeers : last.peers.size ≤ Limits.kMaxConnections := by
    refine (SortedMap.size_le_of_contains fun id hid => ?_).trans hfits.conns
    obtain ⟨p, hp⟩ := SortedMap.contains_iff.mp hid
    obtain ⟨rs, hpaired⟩ := answered_run registry persistPath disk moves id
    exact SortedMap.contains_iff.mpr (hpaired.served_of_peer hp).2
  refine ⟨hpeers, fun id p hp => (hfits.peers hp).held, ?_, hfits.registry.wellFormed.limits, hfits.registry.bounded⟩
  have hsum : last.held ≤ last.peers.entries.length * (kLargestFrame + Coordinator.kReceiveBuffer) := by
    refine sum_map_le_length_mul fun e he => ?_
    exact (hfits.peers (SortedMap.find?_eq_some_iff.mpr he)).held.le
  exact hsum.trans (Nat.mul_le_mul_right _ hpeers)

/-- A peer that does not finish its frame. -/
theorem footprint_bounded_unfinished :
    let moves : List Move := [.connect, .send 0 ((encodeFrame { type := .ping }).take 15), .receive 0 10, .receive 0 10]
    let last := runAll step (start .new [] .empty) moves
    last.held = 15 ∧ last.held ≤ Limits.kMaxConnections * (kLargestFrame + Coordinator.kReceiveBuffer) :=
  ⟨by decide +kernel, (footprint_bounded (FabricRegistry.reachable_after []) [] .empty _).2.2.1⟩

end Network

end NVSwitchFabric
