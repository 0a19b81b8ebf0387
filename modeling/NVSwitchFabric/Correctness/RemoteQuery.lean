import NVSwitchFabric.Correctness.PolicyRoundTrip
import NVSwitchFabric.Correctness.Handled

/-!
# `Correctness.RemoteQuery` — a remote route query is a local one

A client that waits for the answer to a QUERY_ROUTE gets the decision that the registry routes at one moment between its
request and the answer: the moment at which the coordinator handles the frame (`remote_query`). In between, the other
connections may do anything, and the bytes may be cut up in any way in both directions.

The frame is the only one handled on the connection in that time, so the connection is what it was when the query was
written (`kept`).
-/

namespace NVSwitchFabric

open Lib Coordinator

open Read (Reads)

/-! ## The request and the answer -/

/-- The frame of `Worker::queryRoute`. -/
def queryFrame (src dst : DeviceId) (policy : RoutePolicy) : Frame :=
  { type := .queryRoute, payload := encodeQueryRoute src dst policy }

/-- The frame that answers with a decision. -/
def RouteDecision.frame (d : RouteDecision) : Frame :=
  { type := .routeResult, payload := encodeDecision d }

/-- What `queryRoute` returns for a decision. -/
def RouteDecision.received (d : RouteDecision) (src dst : DeviceId) : ReceivedDecision where
  outcome := d.outcome.toByte
  outcomeReason := d.outcomeReason
  authoritative := d.authoritative
  source := src
  destination := dst
  selected := selectedOf d.selectedKey src dst

theorem length_encodeQueryRoute (src dst : DeviceId) (policy : RoutePolicy) :
    (encodeQueryRoute src dst policy).length = 20 + (encodePolicy policy).length := by
  unfold encodeQueryRoute
  simp only [List.flatten_cons, List.flatten_nil, List.length_append, List.length_nil, length_u32, ByteWriter.ident,
    ByteWriter.u64, length_leBytes]
  omega

/-- **A query reads back**, if its frame can be sent. -/
theorem readQueryRoute_encode {policy : RoutePolicy} (src dst : DeviceId)
    (hfit : (encodeQueryRoute src dst policy).length ≤ Limits.kMaxFrameBytes) :
    readQueryRoute.run? (encodeQueryRoute src dst policy) = some (src, dst, encodePolicy policy) := by
  have hlen := length_encodeQueryRoute src dst policy
  have hmax : Limits.kMaxFrameBytes < 2 ^ 32 := by decide
  have hcount : (UInt32.ofNat (encodePolicy policy).length).toNat = (encodePolicy policy).length :=
    Read.toNat_ofNat_of_lt (by omega)
  have hread : Reads readQueryRoute (ByteWriter.ident src ++ (ByteWriter.ident dst ++
      (ByteWriter.u32 (UInt32.ofNat (encodePolicy policy).length) ++ (encodePolicy policy ++ []))))
      (src, dst, encodePolicy policy) := by
    refine (Reads.ident src).bind <| (Reads.ident dst).bind <| (Reads.u32 _).bind ?_
    rw [if_neg (by rw [hcount]; omega), hcount]
    exact (Reads.bytes _).bind (Reads.pure _)
  exact hread.run?

/-- The coordinator answers it. -/
theorem Coordinator.reply?_query {c : Coordinator} {conn : Connection} {policy : RoutePolicy} (hreg : conn.registered = true)
    (hpolicy : policy.Encodable) (src dst : DeviceId) (now : UInt64)
    (hfit : (encodeQueryRoute src dst policy).length ≤ Limits.kMaxFrameBytes) :
    c.reply? conn (queryFrame src dst policy) now =
      some { type := .routeResult, payload := encodeDecision (c.registry.route src dst policy now).1 } := by
  have hread : decodePolicy.run? (encodePolicy policy) = some policy := (Reads.policy hpolicy).run?
  have hreply : c.reply? conn (queryFrame src dst policy) now =
      if conn.registered then c.answer? (encodeQueryRoute src dst policy) now else none := rfl
  rw [hreply, if_pos hreg]
  unfold answer?
  rw [readQueryRoute_encode src dst hfit, Option.bind_some]
  dsimp only
  rw [hread, Option.map_some]

namespace Network

variable {net : Network} {id : Nat}

/-- **A remote query is a local one.** From any state that the network can be in, let a registered peer with nothing
    outstanding write a query and wait, and let all connections do anything else until the query is handled. Then there is
    one moment in between such that all that is sent back is the decision which the registry routes at that moment, and
    `queryRoute` returns it however its bytes are cut up. -/
theorem remote_query (registry : FabricRegistry) (persistPath : Str) (disk : Disk) (before after : List Move) (id : Nat)
    (conn : Connection) {src dst : DeviceId} {policy : RoutePolicy} (hpolicy : policy.Encodable)
    (hfit : (encodeQueryRoute src dst policy).length ≤ Limits.kMaxFrameBytes)
    (hwaits : ∀ m ∈ after, ∀ bytes, m ≠ .send id bytes) :
    let net := runAll step (start registry persistPath disk) before
    let moves := .send id (encodeFrame (queryFrame src dst policy)) :: after
    net.Idle id conn → conn.registered = true → (runAll step net moves).Handled id →
      ∃ earlier now later, trace net moves = earlier ++ .frame id (queryFrame src dst policy) now :: later ∧
        let d := ((runAll Coordinator.step net.coordinator earlier).registry.route src dst policy now).1
        (∃ conn', (runAll step net moves).coordinator.conns.find? id = some conn' ∧
          conn'.sent = conn.sent ++ [encodeFrame d.frame]) ∧
        ∀ (w : Worker) (chunks : List (List UInt8)), w.stream = {} → Receives (encodeFrame d.frame) chunks →
          (w.queryRoute src dst chunks).1 = .ok (d.received src dst) := by
  intro net moves hidle hreg hhandled
  obtain ⟨p, hp, _⟩ := hidle.peer
  obtain ⟨rs, hpaired⟩ := answered_run registry persistPath disk before id
  obtain ⟨hbelow, _⟩ := hpaired.served_of_peer hp
  have hpeer' : ∃ p', (runAll step net moves).peers.find? id = some p' := hhandled.imp fun _ h => h.1
  obtain ⟨p', hp'⟩ := hpeer'
  obtain ⟨_, conn', hconn'⟩ := (hpaired.run moves).served_of_peer hp'
  -- the query is the only frame handled
  have hwritten : written id net moves = [queryFrame src dst policy].map encodeFrame := by
    rw [written_cons, write?_send hp, written_eq_nil hwaits]
    rfl
  have hframes : framesOn id (trace net moves) = [] ++ [queryFrame src dst policy] := by
    refine framesOn_handled hidle hbelow hwritten ?_ hhandled
    intro f hf
    obtain rfl := List.mem_singleton.mp hf
    exact hfit
  obtain ⟨earlier, now, later, htrace, hearlier, hlater⟩ := split_at_frame hframes
  have hlast : (runAll step net moves).coordinator = runAll Coordinator.step
      ((runAll Coordinator.step net.coordinator earlier).step (.frame id (queryFrame src dst policy) now)) later := by
    rw [run_coordinator, htrace]
    exact List.foldl_append ..
  -- the connection is open at the end, hence at the moment of the query, hence as it was
  have hbelow' := hbelow.trans_le (connSeq_le_run net.coordinator earlier)
  obtain ⟨connc, hopen⟩ : (runAll Coordinator.step net.coordinator earlier).IsOpen id := by
    have hend : (runAll Coordinator.step (runAll Coordinator.step net.coordinator earlier)
        (.frame id (queryFrame src dst policy) now :: later)).IsOpen id := ⟨conn', hlast ▸ hconn'⟩
    exact isOpen_of_run hbelow' hend
  have hconn : (runAll Coordinator.step net.coordinator earlier).conns.find? id = some conn := by
    rw [hopen, ← kept hbelow hearlier hopen, hidle.served]
  obtain ⟨conn₁, hconn₁, hsent, _⟩ := step_frame_sent hconn (queryFrame src dst policy) now
  rw [reply?_query hreg hpolicy src dst now hfit] at hsent
  refine ⟨earlier, now, later, htrace, ⟨conn', hconn', ?_⟩, ?_⟩
  · rw [hlast] at hconn'
    obtain rfl := Option.some.inj (hconn₁.symm.trans (kept (hbelow'.trans_le (connSeq_le_step _ _)) hlater hconn'))
    exact hsent
  · intro w chunks hw hcut
    exact Worker.queryRoute_answer ((FabricRegistry.route_reason _ src dst policy now).trans (by decide))
      ((FabricRegistry.route_selectedKey _ src dst policy now).trans (by decide))
      ((FabricRegistry.length_encodeDecision_le _ src dst policy now).trans (by decide)) hw hcut src dst

/-- A worker registers. -/
def registerMoves : List Move :=
  [.connect, .send 0 (encodeFrame { type := .register, payload := encodeRegister 0 ⟨ascii "w"⟩ 1 }), .receive 0 100,
    .handle 0 1]

/-- Its query arrives in two pieces, and another worker registers in between. -/
def queryMoves : List Move :=
  [.receive 0 10, .connect, .send 1 (encodeFrame { type := .register, payload := encodeRegister 0 ⟨ascii "v"⟩ 1 }),
    .receive 0 4096, .receive 1 100, .handle 1 2, .handle 0 3]

/-- It asks without factors to rank by. -/
def queryPolicy : RoutePolicy := { factors := [] }

set_option maxRecDepth 1000 in
theorem remote_query_queryMoves :
    let net := runAll step (start .new [] .empty) registerMoves
    let moves := .send 0 (encodeFrame (queryFrame ⟨1⟩ ⟨2⟩ queryPolicy)) :: queryMoves
    ∃ earlier now later conn', trace net moves = earlier ++ .frame 0 (queryFrame ⟨1⟩ ⟨2⟩ queryPolicy) now :: later ∧
      (runAll step net moves).coordinator.conns.find? 0 = some conn' ∧ conn'.sent =
        [encodeFrame ((runAll Coordinator.step net.coordinator earlier).registry.route ⟨1⟩ ⟨2⟩ queryPolicy now).1.frame] := by
  intro net moves
  have hopen : (net.peers.find? 0).any (fun p => p.inbox.isEmpty && p.up.wire.isEmpty && p.up.parser.buf.isEmpty &&
      p.up.parser.err.isNone) = true := by decide +kernel
  have hconn : (net.coordinator.conns.find? 0).any (fun conn => conn.registered && conn.sent.isEmpty) = true := by
    decide +kernel
  have hdone : ((runAll step net moves).peers.find? 0).any (fun p => p.inbox.isEmpty && p.up.wire.isEmpty) = true := by
    decide +kernel
  have hfit : (encodeQueryRoute ⟨1⟩ ⟨2⟩ queryPolicy).length ≤ Limits.kMaxFrameBytes := by decide +kernel
  obtain ⟨⟨⟨wire, buf, err⟩, inbox, received, reader, answers⟩, hp, hidle⟩ := (Option.any_eq_true ..).mp hopen
  obtain ⟨conn, hconn, hreg⟩ := (Option.any_eq_true ..).mp hconn
  obtain ⟨p', hp', hidle'⟩ := (Option.any_eq_true ..).mp hdone
  simp only [Bool.and_eq_true, List.isEmpty_iff, Option.isNone_iff_eq_none] at hidle hreg hidle'
  obtain ⟨⟨⟨rfl, rfl⟩, rfl⟩, rfl⟩ := hidle
  obtain ⟨earlier, now, later, htrace, ⟨conn', hconn', hsent⟩, _⟩ :=
    remote_query .new [] .empty registerMoves queryMoves 0 conn ⟨by decide, by decide⟩ hfit (by simp [queryMoves])
      ⟨⟨_, hp, rfl, rfl⟩, hconn⟩ hreg.1 ⟨p', hp', hidle'⟩
  rw [hreg.2, List.nil_append] at hsent
  exact ⟨earlier, now, later, conn', htrace, hconn', hsent⟩

end Network

end NVSwitchFabric
