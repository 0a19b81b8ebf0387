import NVSwitchFabric.Correctness.Delivery
import NVSwitchFabric.Correctness.RouteAnswer

/-!
# `Correctness.Replies` — what a peer reads back

A frame is answered at once or never (`reply?`): a PING by a PONG, a QUERY_ROUTE that can be read, on a registered
connection, by the decision that the registry routes at that moment. What a connection has sent is its replies and
nothing else (`Answered`), and what its peer has read is the first of them, in order and each once
(`replies_delivered`), however the bytes are cut up and whatever happens on the other connections.
-/

namespace NVSwitchFabric

open Lib Coordinator

namespace Coordinator

variable {c : Coordinator} {id : Nat} {conn : Connection}

/-! ## Replies -/

/-- The answer to a route query. -/
def answer? (c : Coordinator) (payload : List UInt8) (now : UInt64) : Option Frame :=
  (readQueryRoute.run? payload).bind fun (src, dst, pol) =>
    (decodePolicy.run? pol).map fun policy =>
      { type := .routeResult, payload := encodeDecision (c.registry.route src dst policy now).1 }

/-- What is sent back for a frame. -/
def reply? (c : Coordinator) (conn : Connection) (f : Frame) (now : UInt64) : Option Frame :=
  match f.type with
  | .ping       => some { type := .pong }
  | .queryRoute => if conn.registered then c.answer? f.payload now else none
  | _           => none

/-- What an event sends on a connection. -/
def replyOn (id : Nat) (c : Coordinator) : Event → Option Frame
  | .frame i f now => if i = id then (c.conns.find? id).bind fun conn => c.reply? conn f now else none
  | _              => none

/-- The replies sent on a connection in a run. -/
def replies (id : Nat) : Coordinator → List Event → List Frame
  | _, []          => []
  | c, e :: events => (c.replyOn id e).toList ++ replies id (c.step e) events

/-- A reply is small. -/
theorem reply?_fits {f g : Frame} {now : UInt64} (h : c.reply? conn f now = some g) :
    g.payload.length ≤ Limits.kMaxFrameBytes := by
  unfold reply? at h
  split at h
  · obtain rfl := Option.some.inj h
    exact Nat.zero_le _
  · split at h
    · obtain ⟨⟨src, dst, pol⟩, _, h⟩ := Option.bind_eq_some_iff.mp h
      obtain ⟨policy, _, rfl⟩ := Option.map_eq_some_iff.mp h
      exact (c.registry.length_encodeDecision_le src dst policy now).trans (by decide)
    · exact absurd h (by simp)
  · exact absurd h (by simp)

/-! ## What is sent -/

theorem handleQueryRoute_sent (hconn : c.conns.find? id = some conn) (payload : List UInt8) (now : UInt64) (i : Nat) :
    (c.handleQueryRoute id conn payload now).conns.find? i =
      if i = id then some ((c.answer? payload now).elim conn fun g => conn.send g) else c.conns.find? i := by
  have hself : (if i = id then some conn else c.conns.find? i) = c.conns.find? i := by
    by_cases h : i = id
    · rw [if_pos h, h, hconn]
    · rw [if_neg h]
  unfold handleQueryRoute answer?
  cases readQueryRoute.run? payload with
  | none => exact hself.symm
  | some query =>
    obtain ⟨src, dst, pol⟩ := query
    dsimp only
    rw [Option.bind_some]
    cases decodePolicy.run? pol with
    | none => exact hself.symm
    | some policy => exact SortedMap.find?_insert _ _ _ _

/-- Only a query and a PING are answered. -/
theorem reply?_eq_none {f : Frame} (hquery : f.type ≠ .queryRoute) (hping : f.type ≠ .ping) (c : Coordinator)
    (conn : Connection) (now : UInt64) : c.reply? conn f now = none := by
  unfold reply?
  split
  · next htype => exact absurd htype hping
  · next htype => exact absurd htype hquery
  · rfl

/-- **A frame sends its reply** on its connection, and nothing on the others. -/
theorem step_frame_sent (hconn : c.conns.find? id = some conn) (f : Frame) (now : UInt64) :
    ∃ conn', (c.step (.frame id f now)).conns.find? id = some conn' ∧
      conn'.sent = conn.sent ++ ((c.reply? conn f now).map encodeFrame).toList ∧
      ∀ i, i ≠ id → (c.step (.frame id f now)).conns.find? i = c.conns.find? i := by
  have hstep : c.step (.frame id f now) = c.handleFrame id conn f now := by
    unfold step
    dsimp only
    rw [hconn]
  have hquiet : ∀ c' : Coordinator, c'.conns = c.conns → c.reply? conn f now = none →
      ∃ conn', c'.conns.find? id = some conn' ∧
        conn'.sent = conn.sent ++ ((c.reply? conn f now).map encodeFrame).toList ∧
        ∀ i, i ≠ id → c'.conns.find? i = c.conns.find? i := by
    intro c' hsame hnone
    rw [hsame, hnone]
    exact ⟨conn, hconn, (List.append_nil _).symm, fun _ _ => rfl⟩
  rw [hstep]
  unfold handleFrame
  split
  · next htype =>
    have hnone : c.reply? conn f now = none := reply?_eq_none (by simp [htype]) (by simp [htype]) c conn now
    split
    · next w b _ =>
      -- registering keeps what has been sent
      refine ⟨{ conn with worker := w, boot := b, registered := true }, SortedMap.find?_insert_self _ _ _, ?_, ?_⟩
      · rw [hnone]
        exact (List.append_nil _).symm
      · intro i hi
        exact SortedMap.find?_insert_ne _ _ hi
    · exact hquiet c rfl hnone
  · next htype =>
    refine hquiet _ ?_ (reply?_eq_none (by simp [htype]) (by simp [htype]) c conn now)
    split
    · unfold handlePublishTopology
      split
      · rfl
      split
      · rfl
      · unfold autoPersist
        split <;> rfl
    · rfl
  · next htype =>
    refine hquiet _ ?_ (reply?_eq_none (by simp [htype]) (by simp [htype]) c conn now)
    split
    · unfold handlePublishMeasurement
      split <;> rfl
    · rfl
  · next htype =>
    have hreply : c.reply? conn f now = if conn.registered then c.answer? f.payload now else none := by
      unfold reply?
      rw [htype]
    split
    · next hreg =>
      rw [hreply, if_pos hreg]
      refine ⟨_, (handleQueryRoute_sent hconn f.payload now id).trans (if_pos rfl), ?_, ?_⟩
      · cases c.answer? f.payload now with
        | none => exact (List.append_nil _).symm
        | some g => rfl
      · intro i hi
        exact (handleQueryRoute_sent hconn f.payload now i).trans (if_neg hi)
    · next hreg =>
      refine hquiet c rfl ?_
      rw [hreply, if_neg hreg]
  · next htype =>
    have hreply : c.reply? conn f now = some { type := .pong } := by
      unfold reply?
      rw [htype]
    rw [hreply]
    refine ⟨conn.send { type := .pong }, SortedMap.find?_insert_self _ _ _, rfl, ?_⟩
    intro i hi
    exact SortedMap.find?_insert_ne _ _ hi
  · next hquery hping => exact hquiet c rfl (reply?_eq_none hquery hping c conn now)

end Coordinator

namespace Network

variable {net : Network} {id : Nat} {m : Move} {rs : List Frame}

/-! ## What the peer reads -/

theorem replies_append (id : Nat) (c : Coordinator) (events later : List Event) :
    replies id c (events ++ later) = replies id c events ++ replies id (runAll Coordinator.step c events) later := by
  induction events generalizing c with
  | nil => rfl
  | cons e events ih =>
    show (c.replyOn id e).toList ++ replies id (c.step e) (events ++ later) = _
    rw [ih, ← List.append_assoc]
    rfl

/-- A connection on which `rs` have been sent: the peer has read some, and the others are under way to it. -/
inductive Answered (net : Network) (id : Nat) (rs : List Frame) : Prop where
  | opened {p : Peer} {conn : Connection} {transit : List Frame} (peer : net.peers.find? id = some p)
      (served : net.coordinator.conns.find? id = some conn) (below : id < net.coordinator.connSeq)
      (sent : conn.sent = rs.map encodeFrame) (received : p.received ≤ conn.sent.flatten.length)
      (reads : rs = p.answers ++ transit) (carries : (p.down conn).Carries framing transit)
  | ended (peer : net.peers.find? id = none) (served : net.coordinator.conns.find? id = none)
      (below : id < net.coordinator.connSeq)
  | unborn (peer : net.peers.find? id = none) (served : net.coordinator.conns.find? id = none)
      (above : net.coordinator.connSeq ≤ id) (nothing : rs = [])

/-- What one event does to a connection it is not about. -/
theorem conns_other {i : Nat} {e : Event} (he : e = .close i ∨ ∃ f now, e = .frame i f now) (hne : id ≠ i)
    (c : Coordinator) : (c.step e).conns.find? id = c.conns.find? id ∧ c.replyOn id e = none := by
  rcases he with rfl | ⟨f, now, rfl⟩
  · refine ⟨?_, rfl⟩
    rw [step_close_conns, if_neg hne]
  · refine ⟨?_, if_neg hne.symm⟩
    cases hconn : c.conns.find? i with
    | none =>
      rw [step_frame_closed f now fun ⟨conn, h⟩ => absurd (hconn.symm.trans h) (by simp)]
    | some conn =>
      obtain ⟨_, _, _, hother⟩ := step_frame_sent hconn f now
      exact hother id hne

theorem drop_length_take {α : Type} (l : List α) (n : Nat) : l.drop (l.take n).length = l.drop n := by
  rw [List.length_take]
  rcases Nat.le_total n l.length with h | h
  · rw [Nat.min_eq_left h]
  · rw [Nat.min_eq_right h, List.drop_length, List.drop_eq_nil_of_le h]

/-- Sending a frame puts it under way. -/
theorem down_send {p : Peer} {conn conn' : Connection} {bytes : List UInt8} (hsent : conn'.sent = conn.sent ++ [bytes])
    (hreceived : p.received ≤ conn.sent.flatten.length) : p.down conn' = (p.down conn).send bytes := by
  unfold Peer.down Channel.send
  rw [hsent, List.flatten_append, List.flatten_singleton, List.drop_append_of_le_length hreceived]

/-- A move that makes the coordinator do nothing. -/
theorem step_quiet (id : Nat) (h : net.event? m = none) :
    (net.step m).coordinator = net.coordinator ∧ replies id net.coordinator (net.event? m).toList = [] := by
  rw [h]
  refine ⟨?_, rfl⟩
  unfold step
  rw [h]
  rfl

/-- **A frame is handled**, and its reply is under way. -/
theorem Answered.handled {p : Peer} {conn : Connection} {transit : List Frame} {f : Frame} {now : UInt64}
    (hevent : net.event? m = some (.frame id f now)) (hp : (net.step m).peers.find? id = some p)
    (hbelow : id < (net.step m).coordinator.connSeq) (hconn : net.coordinator.conns.find? id = some conn)
    (hsent : conn.sent = rs.map encodeFrame) (hreceived : p.received ≤ conn.sent.flatten.length)
    (hreads : rs = p.answers ++ transit) (hcarries : (p.down conn).Carries framing transit) :
    Answered (net.step m) id (rs ++ replies id net.coordinator (net.event? m).toList) := by
  obtain ⟨conn', hconn', hgrown, _⟩ := step_frame_sent hconn f now
  have hreply : replies id net.coordinator (net.event? m).toList = (net.coordinator.reply? conn f now).toList := by
    rw [hevent]
    show (net.coordinator.replyOn id (.frame id f now)).toList ++ [] = _
    unfold replyOn
    dsimp only
    rw [if_pos rfl, hconn, Option.bind_some, List.append_nil]
  have hserved : (net.step m).coordinator.conns.find? id = some conn' := by
    rw [step_coordinator, hevent]
    exact hconn'
  rw [hreply]
  cases hg : net.coordinator.reply? conn f now with
  | none =>
    rw [hg] at hgrown
    have hgrown : conn'.sent = conn.sent := hgrown.trans (List.append_nil _)
    have hdown : p.down conn' = p.down conn := by
      unfold Peer.down
      rw [hgrown]
    have hcarries : (p.down conn').Carries framing transit := hdown ▸ hcarries
    rw [Option.toList_none, List.append_nil]
    exact .opened hp hserved hbelow (hgrown.trans hsent) (hgrown ▸ hreceived) hreads hcarries
  | some g =>
    rw [hg] at hgrown
    have hhead : framing.head (encodeFrame g) = .item g [] := by
      have := frameHead_encodeFrame (reply?_fits hg) []
      rwa [List.append_nil] at this
    have hdown : (p.down conn').Carries framing (transit ++ [g]) := by
      rw [down_send hgrown hreceived]
      exact hcarries.send hhead
    have hreads : rs ++ [g] = p.answers ++ (transit ++ [g]) := by rw [hreads, List.append_assoc]
    refine .opened hp hserved hbelow ?_ ?_ hreads hdown
    · rw [hgrown, hsent, List.map_append]
      rfl
    · rw [hgrown, List.flatten_append, List.length_append]
      exact Nat.le_add_right_of_le hreceived

/-- What a peer has read and what is left is what there was to read. -/
theorem down_read (p : Peer) (n : Nat) (conn : Connection) :
    (p.read n conn).down conn = ((p.down conn).receive framing n).2 := by
  have hwire : conn.sent.flatten.drop (p.received + ((p.down conn).wire.take n).length) = (p.down conn).wire.drop n := by
    rw [← List.drop_drop]
    exact drop_length_take _ n
  show Channel.mk (conn.sent.flatten.drop (p.received + ((p.down conn).wire.take n).length)) _ = _
  rw [hwire]
  rfl

/-- **One move on an open connection.** -/
theorem Answered.step_self {p : Peer} {conn : Connection} {transit : List Frame} (hon : m.on = some id)
    (hp : net.peers.find? id = some p) (hconn : net.coordinator.conns.find? id = some conn)
    (hbelow : id < net.coordinator.connSeq) (hsent : conn.sent = rs.map encodeFrame)
    (hreceived : p.received ≤ conn.sent.flatten.length) (hreads : rs = p.answers ++ transit)
    (hcarries : (p.down conn).Carries framing transit) :
    Answered (net.step m) id (rs ++ replies id net.coordinator (net.event? m).toList) := by
  obtain ⟨hafter, hevent⟩ := Network.step_self hon hp
  have hseq : id < (net.step m).coordinator.connSeq := (step_connSeq hon).symm ▸ hbelow
  -- nothing is sent, and the peer reads nothing
  have hsame : ∀ p' : Peer, net.event? m = none → p.after (net.coordinator.conns.find? id) m = some p' →
      p'.received = p.received → p'.reader = p.reader → p'.answers = p.answers →
      Answered (net.step m) id (rs ++ replies id net.coordinator (net.event? m).toList) := by
    intro p' hnone hp' hrec hreader hanswers
    obtain ⟨hkeep, hnil⟩ := step_quiet id hnone
    rw [hnil, List.append_nil]
    have hdown : p'.down conn = p.down conn := by
      unfold Peer.down
      rw [hrec, hreader]
    exact .opened (hafter.trans hp') (hkeep ▸ hconn) hseq hsent (hrec ▸ hreceived) (hanswers ▸ hreads)
      (hdown ▸ hcarries)
  -- the connection ends
  have hclosed : net.event? m = some (.close id) → p.after (net.coordinator.conns.find? id) m = none →
      Answered (net.step m) id (rs ++ replies id net.coordinator (net.event? m).toList) := by
    intro hclose hnone
    refine .ended (hafter.trans hnone) ?_ hseq
    rw [step_coordinator, hclose]
    exact (step_close_conns id id).trans (if_pos rfl)
  cases m with
  | connect => exact absurd hon (by simp [Move.on])
  | send i bytes => exact hsame _ hevent rfl rfl rfl rfl
  | receive i n =>
    obtain rfl := Option.some.inj hon
    unfold Peer.event? at hevent
    dsimp only at hevent
    cases hinbox : p.inbox.isEmpty with
    | false =>
      rw [hinbox] at hevent
      exact hsame p hevent (by simp [Peer.after, hinbox]) rfl rfl rfl
    | true =>
      cases herr : (p.receive n).2.parser.err.isSome with
      | false =>
        rw [hinbox, herr] at hevent
        exact hsame { p with up := (p.receive n).2, inbox := (p.receive n).1 } hevent
          (by simp [Peer.after, hinbox, herr]) rfl rfl rfl
      | true =>
        rw [hinbox, herr] at hevent
        exact hclosed hevent (by simp [Peer.after, hinbox, herr])
  | handle i now =>
    obtain rfl := Option.some.inj hon
    unfold Peer.event? at hevent
    dsimp only at hevent
    cases hinbox : p.inbox with
    | nil =>
      rw [hinbox] at hevent
      exact hsame _ hevent rfl rfl rfl rfl
    | cons f inbox =>
      rw [hinbox] at hevent
      exact .handled hevent hafter hseq hconn hsent hreceived hreads hcarries
  | read i n =>
    obtain rfl := Option.some.inj hon
    obtain ⟨hkeep, hnil⟩ := step_quiet i hevent
    rw [hnil, List.append_nil]
    obtain ⟨_, later, hsplit, hnext⟩ := hcarries.receive n
    have hp' : (net.step (.read i n)).peers.find? i = some (p.read n conn) := by
      rw [hafter, hconn]
      rfl
    refine .opened hp' (hkeep ▸ hconn) hseq hsent ?_ ?_ (down_read p n conn ▸ hnext)
    · show p.received + ((conn.sent.flatten.drop p.received).take n).length ≤ _
      rw [List.length_take, List.length_drop]
      omega
    · show rs = (p.answers ++ ((p.down conn).receive framing n).1) ++ later
      rw [hreads, List.append_assoc, ← hsplit]
  | hangUp i =>
    obtain rfl := Option.some.inj hon
    unfold Peer.event? at hevent
    dsimp only at hevent
    cases hinbox : p.inbox.isEmpty with
    | false =>
      rw [hinbox] at hevent
      exact hsame p hevent (by simp [Peer.after, hinbox]) rfl rfl rfl
    | true =>
      rw [hinbox] at hevent
      exact hclosed hevent (by simp [Peer.after, hinbox])

/-- **One move.** -/
theorem Answered.step (h : Answered net id rs) (m : Move) :
    Answered (net.step m) id (rs ++ replies id net.coordinator (net.event? m).toList) := by
  cases hon : m.on with
  | none =>
    obtain rfl := eq_connect hon
    have hnone : replies id net.coordinator (net.event? .connect).toList = [] := rfl
    rw [hnone, List.append_nil]
    rcases step_connect net with heq | heq
    · rw [heq]
      exact h
    · rw [heq]
      have hother : id ≠ net.coordinator.connSeq → ∀ {α : Type} (map : SortedMap Nat α) (a : α),
          (map.insert net.coordinator.connSeq a).find? id = map.find? id :=
        fun hne _ map a => SortedMap.find?_insert_ne map a hne
      cases h with
      | opened peer served below sent received reads carries =>
        exact .opened ((hother below.ne _ _).trans peer) ((hother below.ne _ _).trans served)
          (Nat.lt_succ_of_lt below) sent received reads carries
      | ended peer served below =>
        exact .ended ((hother below.ne _ _).trans peer) ((hother below.ne _ _).trans served) (Nat.lt_succ_of_lt below)
      | unborn peer served above nothing =>
        rcases above.eq_or_lt with hid | hlt
        · obtain rfl := nothing
          subst hid
          exact .opened (SortedMap.find?_insert_self _ _ _) (SortedMap.find?_insert_self _ _ _) (Nat.lt_succ_self _)
            rfl (Nat.zero_le _) rfl (Channel.carries_fresh framing)
        · exact .unborn ((hother hlt.ne' _ _).trans peer) ((hother hlt.ne' _ _).trans served) hlt nothing
  | some i =>
    have hseq : (net.step m).coordinator.connSeq = net.coordinator.connSeq := step_connSeq hon
    by_cases hi : id = i
    · subst hi
      cases h with
      | opened peer served below sent received reads carries =>
        exact Answered.step_self hon peer served below sent received reads carries
      | ended peer served below =>
        obtain ⟨hsame, _, hevent⟩ := step_none hon peer
        obtain ⟨hkeep, _⟩ := step_quiet id hevent
        exact .ended hsame (hkeep ▸ served) (hseq ▸ below)
      | unborn peer served above nothing =>
        obtain ⟨hsame, _, hevent⟩ := step_none hon peer
        obtain ⟨hkeep, hnil⟩ := step_quiet id hevent
        exact .unborn hsame (hkeep ▸ served) (hseq ▸ above) (by rw [nothing, hnil]; rfl)
    · obtain ⟨hsame, _, _⟩ := net.step_other hon hi
      have hother : (net.step m).coordinator.conns.find? id = net.coordinator.conns.find? id ∧
          replies id net.coordinator (net.event? m).toList = [] := by
        cases he : net.event? m with
        | none =>
          obtain ⟨hkeep, _⟩ := step_quiet id he
          exact ⟨by rw [hkeep], rfl⟩
        | some e =>
          have hstep : (net.step m).coordinator = net.coordinator.step e := by
            rw [step_coordinator, he]
            rfl
          rw [event?_on hon] at he
          obtain ⟨p, _, he⟩ := Option.bind_eq_some_iff.mp he
          obtain ⟨hconns, hnone⟩ := conns_other (event?_cases hon he) hi net.coordinator
          refine ⟨by rw [hstep, hconns], ?_⟩
          show (net.coordinator.replyOn id e).toList ++ [] = []
          rw [hnone]
          rfl
      obtain ⟨hserved, hnil⟩ := hother
      rw [hnil, List.append_nil]
      cases h with
      | opened peer served below sent received reads carries =>
        exact .opened (hsame.trans peer) (hserved.trans served) (hseq ▸ below) sent received reads carries
      | ended peer served below => exact .ended (hsame.trans peer) (hserved.trans served) (hseq ▸ below)
      | unborn peer served above nothing =>
        exact .unborn (hsame.trans peer) (hserved.trans served) (hseq ▸ above) nothing

theorem Answered.run (moves : List Move) : ∀ {net : Network} {rs : List Frame}, Answered net id rs →
    Answered (runAll Network.step net moves) id (rs ++ replies id net.coordinator (trace net moves)) := by
  induction moves with
  | nil =>
    intro net rs h
    exact (List.append_nil rs).symm ▸ h
  | cons m moves ih =>
    intro net rs h
    have hend := ih (h.step m)
    rw [List.append_assoc, step_coordinator, ← replies_append] at hend
    exact hend

/-- **A peer reads the replies to what the coordinator handled for it.** In every run of the network, whatever the peers
    write and however the bytes are cut up and interleaved both ways, what the peer of an open connection has read are the
    first of the replies sent on its connection, in order and each once; all of them, if nothing is under way to it. -/
theorem replies_delivered (registry : FabricRegistry) (persistPath : Str) (disk : Disk) (moves : List Move) (id : Nat) :
    let net := start registry persistPath disk
    let last := runAll step net moves
    ∀ p, last.peers.find? id = some p →
      ∃ conn rest, last.coordinator.conns.find? id = some conn ∧
        conn.sent = (replies id net.coordinator (trace net moves)).map encodeFrame ∧
        replies id net.coordinator (trace net moves) = p.answers ++ rest ∧ ((p.down conn).wire = [] → rest = []) := by
  intro net last p hp
  have hstart : Answered net id [] := .unborn rfl rfl (Nat.zero_le id) rfl
  have hend := hstart.run moves
  rw [List.nil_append] at hend
  cases hend with
  | opened peer served _ sent _ reads carries =>
    obtain rfl := Option.some.inj (hp.symm.trans peer)
    exact ⟨_, _, served, sent, reads, carries.eq_nil⟩
  | ended peer => exact absurd (hp.symm.trans peer) (by simp)
  | unborn peer => exact absurd (hp.symm.trans peer) (by simp)

/-- The pong is read, in two pieces. -/
theorem replies_delivered_pong :
    let moves := pingMoves ++ [.read 0 3, .read 0 100]
    ∃ p, (runAll step (start .new [] .empty) moves).peers.find? 0 = some p ∧
      p.answers = replies 0 (start .new [] .empty).coordinator (trace (start .new [] .empty) moves) ∧
      p.answers = [{ type := .pong }] := by
  intro moves
  have hread : ((runAll step (start .new [] .empty) moves).peers.find? 0).map Peer.answers = some [{ type := .pong }] := by
    decide +kernel
  have hwire : ((runAll step (start .new [] .empty) moves).peers.find? 0).all (fun p =>
      ((runAll step (start .new [] .empty) moves).coordinator.conns.find? 0).all fun conn =>
        (p.down conn).wire.isEmpty) = true := by decide +kernel
  obtain ⟨p, hp, hanswers⟩ := Option.map_eq_some_iff.mp hread
  obtain ⟨conn, rest, hconn, _, hall, hnil⟩ := replies_delivered .new [] .empty moves 0 p hp
  rw [hp, Option.all_some, hconn, Option.all_some, List.isEmpty_iff] at hwire
  rw [hnil hwire, List.append_nil] at hall
  exact ⟨p, hp, hall.symm, hanswers⟩

end Network

end NVSwitchFabric
