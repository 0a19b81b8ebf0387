import NVSwitchFabric.Correctness.CoordinatorStep
import NVSwitchFabric.Correctness.FrameRoundTrip
import NVSwitchFabric.Runtime.Network

/-!
# `Correctness.Delivery` — the network hands over frames

A run of the network is a run of the coordinator over the events of its trace (`run_coordinator`), so what holds of the
coordinator under any interleaving of frames holds of it behind its sockets.

On each connection the frames of the trace are those that its peer wrote, in that order and each once
(`frames_delivered`), as long as the peer writes frames; what the other peers write does not matter. The frames that
are written and not handled are the inbox of the connection and what its channel carries (`Awaits`). A step writes at the
end of them and handles the front, and a run does because its steps do.
-/

namespace NVSwitchFabric

open Lib Coordinator

/-- The first unused connection id grows with an accepted connection and does not change otherwise. -/
theorem Coordinator.step_connSeq (c : Coordinator) (e : Event) :
    (c.step e).connSeq = c.connSeq ∨ (e = .accept ∧ (c.step e).connSeq = c.connSeq + 1) := by
  cases e with
  | accept =>
    unfold Coordinator.step
    dsimp only
    split
    · exact Or.inl rfl
    · exact Or.inr ⟨rfl, rfl⟩
  | frame id f now =>
    rcases c.step_frame_cases id f now with ⟨conn, w, b, _, _, heq⟩ | ⟨_, hserved⟩
    · rw [heq]
      exact Or.inl rfl
    · exact Or.inl hserved.connSeq
  | close id =>
    refine Or.inl ?_
    unfold Coordinator.step
    dsimp only
    split
    · unfold handleClose
      dsimp only
      split <;> rfl
    · rfl

namespace Network

variable {net : Network} {id : Nat} {p : Peer} {m : Move} {items frames : List Frame}

/-! ## Runs of the network as runs of the coordinator -/

theorem trace_cons (net : Network) (m : Move) (moves : List Move) :
    trace net (m :: moves) = (net.event? m).toList ++ trace (net.step m) moves := rfl

theorem written_cons (id : Nat) (net : Network) (m : Move) (moves : List Move) :
    written id net (m :: moves) = (net.write? id m).toList ++ written id (net.step m) moves := rfl

theorem step_coordinator (net : Network) (m : Move) :
    (net.step m).coordinator = runAll Coordinator.step net.coordinator (net.event? m).toList := by
  unfold step
  cases net.event? m <;> rfl

/-- **A run of the network is a run of the coordinator.** -/
theorem run_coordinator (net : Network) (moves : List Move) :
    (runAll step net moves).coordinator = runAll Coordinator.step net.coordinator (trace net moves) := by
  induction moves generalizing net with
  | nil => rfl
  | cons m moves ih =>
    show (runAll step (net.step m) moves).coordinator = _
    rw [ih (net.step m), trace_cons, step_coordinator]
    exact (List.foldl_append ..).symm

/-! ## Steps on one connection -/

theorem framesOn_frame (id i : Nat) (f : Frame) (now : UInt64) :
    framesOn id [.frame i f now] = if i = id then [f] else [] := by
  by_cases h : i = id <;> simp [framesOn, frameOn, h]

theorem framesOn_append (id : Nat) (events later : List Event) :
    framesOn id (events ++ later) = framesOn id events ++ framesOn id later := List.filterMap_append

theorem write?_send (hp : net.peers.find? id = some p) (bytes : List UInt8) :
    net.write? id (.send id bytes) = some bytes := by
  have hopen : net.peers.contains id = true := SortedMap.contains_iff.mpr ⟨p, hp⟩
  simp [write?, hopen]

/-- Only a write on the connection writes on it. -/
theorem write?_eq_none (hm : ∀ bytes, m ≠ .send id bytes) : net.write? id m = none := by
  unfold write?
  split
  · next i bytes =>
    have hne : i ≠ id := fun h => hm bytes (h ▸ rfl)
    simp [hne]
  · rfl

theorem event?_on {i : Nat} (hon : m.on = some i) : net.event? m = (net.peers.find? i).bind fun p => p.event? m := by
  unfold event?
  rw [hon]

/-- The events of a connection are about that connection. -/
theorem event?_cases {i : Nat} {e : Event} (hon : m.on = some i) (h : p.event? m = some e) :
    e = .close i ∨ ∃ f now, e = .frame i f now := by
  unfold Peer.event? at h
  split at h
  · obtain rfl := Option.some.inj hon
    split at h
    · exact Or.inl (Option.some.inj h).symm
    · exact absurd h (by simp)
  · obtain rfl := Option.some.inj hon
    obtain ⟨f, _, rfl⟩ := Option.map_eq_some_iff.mp h
    exact Or.inr ⟨f, _, rfl⟩
  · obtain rfl := Option.some.inj hon
    split at h
    · exact Or.inl (Option.some.inj h).symm
    · exact absurd h (by simp)
  · exact absurd h (by simp)

/-- A move on another connection leaves a peer as it is. -/
theorem step_other (net : Network) {i : Nat} (hon : m.on = some i) (hne : id ≠ i) :
    (net.step m).peers.find? id = net.peers.find? id ∧ net.write? id m = none ∧
      framesOn id (net.event? m).toList = [] := by
  refine ⟨?_, ?_, ?_⟩
  · show (net.peersAfter m).find? id = _
    unfold peersAfter
    rw [hon]
    dsimp only
    split
    · rfl
    split
    · rw [SortedMap.find?_erase, if_neg hne]
    · rw [SortedMap.find?_insert, if_neg hne]
  · refine write?_eq_none ?_
    rintro bytes rfl
    exact hne (Option.some.inj hon)
  · cases he : net.event? m with
    | none => rfl
    | some e =>
      rw [event?_on hon] at he
      obtain ⟨p, _, he⟩ := Option.bind_eq_some_iff.mp he
      rcases event?_cases hon he with rfl | ⟨f, now, rfl⟩
      · rfl
      · exact (framesOn_frame id i f now).trans (if_neg (Ne.symm hne))

/-- A move on the connection, when it is open. -/
theorem step_self (hon : m.on = some id) (hp : net.peers.find? id = some p) :
    (net.step m).peers.find? id = p.after (net.coordinator.conns.find? id) m ∧ net.event? m = p.event? m := by
  constructor
  · show (net.peersAfter m).find? id = _
    unfold peersAfter
    rw [hon]
    dsimp only
    rw [hp]
    dsimp only
    cases hafter : p.after (net.coordinator.conns.find? id) m with
    | none => rw [SortedMap.find?_erase, if_pos rfl]
    | some p' => rw [SortedMap.find?_insert_self]
  · rw [event?_on hon, hp, Option.bind_some]

/-- A move on the connection, when it is not. -/
theorem step_none (hon : m.on = some id) (hp : net.peers.find? id = none) :
    (net.step m).peers.find? id = none ∧ net.write? id m = none ∧ net.event? m = none := by
  refine ⟨?_, ?_, by rw [event?_on hon, hp, Option.bind_none]⟩
  · show (net.peersAfter m).find? id = _
    unfold peersAfter
    rw [hon]
    dsimp only
    rw [hp]
    exact hp
  · have hclosed : net.peers.contains id = false := SortedMap.contains_eq_false.mpr hp
    unfold write?
    split
    · rw [hclosed, Bool.and_false]
      rfl
    · rfl

/-- A connection request opens the next connection, or none. -/
theorem step_connect (net : Network) :
    net.step .connect = net ∨
      net.step .connect = {
        coordinator := { net.coordinator with
          conns := net.coordinator.conns.insert net.coordinator.connSeq {}
          connSeq := net.coordinator.connSeq + 1 }
        peers := net.peers.insert net.coordinator.connSeq {} } := by
  by_cases hfull : Limits.kMaxConnections ≤ net.coordinator.conns.size
  · refine Or.inl ?_
    show Network.mk (net.coordinator.step .accept) (if _ then _ else _) = net
    unfold Coordinator.step
    dsimp only
    rw [if_pos hfull, if_pos hfull]
  · refine Or.inr ?_
    show Network.mk (net.coordinator.step .accept) (if _ then _ else _) = _
    unfold Coordinator.step
    dsimp only
    rw [if_neg hfull, if_neg hfull]

/-! ## What is written and not handled -/

/-- The frames that are written and not handled: the inbox, and what the channel carries. -/
def Awaits (p : Peer) (items : List Frame) : Prop :=
  ∃ transit, items = p.inbox ++ transit ∧ p.up.Carries framing transit

theorem awaits_new : Awaits {} [] := ⟨[], rfl, Channel.carries_fresh framing⟩

/-- An idle connection has nothing that is written and not handled. -/
theorem Awaits.eq_nil (h : Awaits p items) (hinbox : p.inbox = []) (hwire : p.up.wire = []) : items = [] := by
  obtain ⟨transit, rfl, hcarries⟩ := h
  rw [hinbox, hcarries.eq_nil hwire, List.append_nil]

/-- Frames that can be written. -/
def Fit (frames : List Frame) : Prop := ∀ f ∈ frames, f.payload.length ≤ Limits.kMaxFrameBytes

/-- **One move on an open connection** puts what it writes at the end of the frames that wait, and takes what it handles
    off the front. Only the peer ends the connection. -/
theorem Awaits.step (h : Awaits p items) (hon : m.on = some id) (hp : net.peers.find? id = some p)
    (hwrite : (net.write? id m).toList = frames.map encodeFrame) (hfit : Fit frames) :
    ∃ rest, items ++ frames = framesOn id (net.event? m).toList ++ rest ∧
      ((∃ p', (net.step m).peers.find? id = some p' ∧ Awaits p' rest) ∨
        (m = .hangUp id ∧ (net.step m).peers.find? id = none)) := by
  obtain ⟨hafter, hevent⟩ := step_self hon hp
  rw [hafter, hevent]
  obtain ⟨transit, rfl, hcarries⟩ := h
  have hnothing : (∀ bytes, m ≠ .send id bytes) → frames = [] := by
    intro hsend
    rw [write?_eq_none hsend] at hwrite
    exact List.map_eq_nil_iff.mp hwrite.symm
  cases m with
  | connect => exact absurd hon (by simp [Move.on])
  | send i bytes =>
    obtain rfl := Option.some.inj hon
    rw [write?_send hp] at hwrite
    obtain ⟨f, hf, hone⟩ := List.map_eq_singleton_iff.mp hwrite.symm
    subst hf
    have hhead : framing.head bytes = .item f [] := by
      have := frameHead_encodeFrame (f := f) (hfit f (List.mem_singleton.mpr rfl)) []
      rwa [List.append_nil, hone] at this
    refine ⟨p.inbox ++ (transit ++ [f]), by rw [List.append_assoc]; rfl, Or.inl ⟨_, rfl, ?_⟩⟩
    exact ⟨transit ++ [f], rfl, hcarries.send hhead⟩
  | receive i n =>
    obtain rfl := Option.some.inj hon
    obtain rfl := hnothing (by simp)
    rw [List.append_nil]
    obtain ⟨hok, later, hsplit, hnext⟩ := hcarries.receive (min n kReceiveBuffer)
    have herr : (p.receive n).2.parser.err.isSome = false := by
      show ((p.up.receive framing (min n kReceiveBuffer)).2.parser.err).isSome = false
      rw [hok]
      rfl
    unfold Peer.event? Peer.after
    dsimp only
    rw [herr, Bool.and_false]
    cases hinbox : p.inbox with
    | nil => exact ⟨transit, rfl, Or.inl ⟨_, rfl, later, hsplit, hnext⟩⟩
    | cons f inbox => exact ⟨f :: inbox ++ transit, rfl, Or.inl ⟨p, rfl, transit, by rw [hinbox], hcarries⟩⟩
  | handle i now =>
    obtain rfl := Option.some.inj hon
    obtain rfl := hnothing (by simp)
    rw [List.append_nil]
    refine ⟨p.inbox.tail ++ transit, ?_, Or.inl ⟨_, rfl, transit, rfl, hcarries⟩⟩
    unfold Peer.event?
    dsimp only
    cases p.inbox with
    | nil => rfl
    | cons f inbox =>
      show f :: inbox ++ transit = framesOn i [.frame i f now] ++ (inbox ++ transit)
      rw [framesOn_frame, if_pos rfl]
      rfl
  | read i n =>
    obtain rfl := Option.some.inj hon
    obtain rfl := hnothing (by simp)
    rw [List.append_nil]
    refine ⟨p.inbox ++ transit, rfl, Or.inl ⟨_, rfl, transit, ?_, ?_⟩⟩
    · cases net.coordinator.conns.find? i <;> rfl
    · cases net.coordinator.conns.find? i <;> exact hcarries
  | hangUp i =>
    obtain rfl := Option.some.inj hon
    obtain rfl := hnothing (by simp)
    rw [List.append_nil]
    unfold Peer.event? Peer.after
    dsimp only
    cases hinbox : p.inbox with
    | nil => exact ⟨transit, rfl, Or.inr ⟨rfl, rfl⟩⟩
    | cons f inbox => exact ⟨f :: inbox ++ transit, rfl, Or.inl ⟨p, rfl, transit, by rw [hinbox], hcarries⟩⟩

/-! ## Runs -/

theorem eq_connect (hon : m.on = none) : m = .connect := by
  cases m <;> first | rfl | exact absurd hon (by simp [Move.on])

/-- A move on a connection gives no id out. -/
theorem step_connSeq {i : Nat} (hon : m.on = some i) :
    (net.step m).coordinator.connSeq = net.coordinator.connSeq := by
  unfold step
  cases he : net.event? m with
  | none => rfl
  | some e =>
    rw [event?_on hon] at he
    obtain ⟨p, _, he⟩ := Option.bind_eq_some_iff.mp he
    rcases net.coordinator.step_connSeq e with h | ⟨rfl, _⟩
    · exact h
    · rcases event?_cases hon he with h | ⟨_, _, h⟩ <;> exact absurd h (by simp)

/-- What waits on a connection. Before it is open, nothing does; once it has ended, by `hung`, what was left waits for
    ever. -/
inductive Pending (net : Network) (id : Nat) (hung : Prop) (items : List Frame) : Prop where
  | opened {p : Peer} (peer : net.peers.find? id = some p) (below : id < net.coordinator.connSeq) (waits : Awaits p items)
  | ended (peer : net.peers.find? id = none) (below : id < net.coordinator.connSeq) (how : hung)
  | unborn (peer : net.peers.find? id = none) (above : net.coordinator.connSeq ≤ id) (nothing : items = [])

/-- **One move**, on whichever connection. -/
theorem Pending.step {hung : Prop} (h : Pending net id hung items) (hhung : m = .hangUp id → hung)
    (hwrite : (net.write? id m).toList = frames.map encodeFrame) (hfit : Fit frames) :
    ∃ rest, items ++ frames = framesOn id (net.event? m).toList ++ rest ∧ Pending (net.step m) id hung rest := by
  -- a move that neither writes nor handles here
  have hidle : net.write? id m = none → framesOn id (net.event? m).toList = [] → Pending (net.step m) id hung items →
      ∃ rest, items ++ frames = framesOn id (net.event? m).toList ++ rest ∧ Pending (net.step m) id hung rest := by
    intro hnone hquiet hnext
    rw [hnone] at hwrite
    obtain rfl := List.map_eq_nil_iff.mp hwrite.symm
    exact ⟨items, by rw [hquiet, List.append_nil, List.nil_append], hnext⟩
  cases hon : m.on with
  | none =>
    obtain rfl := eq_connect hon
    refine hidle rfl rfl ?_
    rcases step_connect net with heq | heq
    · rw [heq]
      exact h
    · have hseq : (net.step .connect).coordinator.connSeq = net.coordinator.connSeq + 1 := by rw [heq]
      have hpeer : (net.step .connect).peers.find? id =
          if id = net.coordinator.connSeq then some {} else net.peers.find? id := by
        rw [heq]
        exact SortedMap.find?_insert _ _ _ _
      cases h with
      | opened peer below waits => exact .opened (by rw [hpeer, if_neg below.ne, peer]) (by omega) waits
      | ended peer below how => exact .ended (by rw [hpeer, if_neg below.ne, peer]) (by omega) how
      | unborn peer above nothing =>
        rcases above.eq_or_lt with hid | hlt
        · -- the connection that is opened is this one
          obtain rfl := nothing
          exact .opened (by rw [hpeer, if_pos hid.symm]) (by omega) awaits_new
        · exact .unborn (by rw [hpeer, if_neg hlt.ne', peer]) (by omega) nothing
  | some i =>
    have hseq : (net.step m).coordinator.connSeq = net.coordinator.connSeq := step_connSeq hon
    by_cases hi : id = i
    · subst hi
      cases h with
      | opened peer below waits =>
        obtain ⟨rest, hsplit, hnext⟩ := waits.step hon peer hwrite hfit
        refine ⟨rest, hsplit, ?_⟩
        rcases hnext with ⟨p', hp', hwaits⟩ | ⟨hm, hnone⟩
        · exact .opened hp' (hseq ▸ below) hwaits
        · exact .ended hnone (hseq ▸ below) (hhung hm)
      | ended peer below how =>
        obtain ⟨hsame, hnone, hevent⟩ := step_none hon peer
        exact hidle hnone (by rw [hevent]; rfl) (.ended hsame (hseq ▸ below) how)
      | unborn peer above nothing =>
        obtain ⟨hsame, hnone, hevent⟩ := step_none hon peer
        exact hidle hnone (by rw [hevent]; rfl) (.unborn hsame (hseq ▸ above) nothing)
    · obtain ⟨hsame, hnone, hquiet⟩ := net.step_other hon hi
      refine hidle hnone hquiet ?_
      cases h with
      | opened peer below waits => exact .opened (hsame.trans peer) (hseq ▸ below) waits
      | ended peer below how => exact .ended (hsame.trans peer) (hseq ▸ below) how
      | unborn peer above nothing => exact .unborn (hsame.trans peer) (hseq ▸ above) nothing

/-- **A run**: what waited and what is written is what is handled and what waits then. -/
theorem Pending.run {hung : Prop} (moves : List Move) : ∀ {net : Network} {items frames : List Frame},
    Pending net id hung items → (Move.hangUp id ∈ moves → hung) →
    written id net moves = frames.map encodeFrame → Fit frames →
    ∃ rest, items ++ frames = framesOn id (trace net moves) ++ rest ∧ Pending (runAll Network.step net moves) id hung rest := by
  induction moves with
  | nil =>
    intro net items frames h _ hwritten _
    obtain rfl := List.map_eq_nil_iff.mp hwritten.symm
    exact ⟨items, List.append_nil items, h⟩
  | cons m moves ih =>
    intro net items frames h hhung hwritten hfit
    rw [written_cons] at hwritten
    obtain ⟨now, later, rfl, hnow, hlater⟩ := List.map_eq_append_iff.mp hwritten.symm
    obtain ⟨rest, hsplit, hnext⟩ := h.step (fun hm => hhung (hm ▸ List.mem_cons_self)) hnow.symm
      fun f hf => hfit f (List.mem_append_left _ hf)
    obtain ⟨rest', hsplit', hend⟩ := ih hnext (fun hm => hhung (List.mem_cons_of_mem _ hm)) hlater.symm
      fun f hf => hfit f (List.mem_append_right _ hf)
    refine ⟨rest', ?_, hend⟩
    rw [trace_cons, framesOn_append, List.append_assoc, ← hsplit', ← List.append_assoc, hsplit, List.append_assoc]

theorem pending_start (registry : FabricRegistry) (persistPath : Str) (disk : Disk) (id : Nat) (hung : Prop) :
    Pending (start registry persistPath disk) id hung [] := .unborn rfl (Nat.zero_le id) rfl

/-- **The network hands over frames.** In every run, whatever all peers write and however it is cut up and interleaved, the
    coordinator goes through the events of the trace. On a connection whose peer writes frames, the frames handled are the
    first of those written, in order and each once; all of them, if nothing is under way or in the inbox; and the
    connection stays open until the peer ends it. -/
theorem frames_delivered (registry : FabricRegistry) (persistPath : Str) (disk : Disk) (moves : List Move) :
    let net := start registry persistPath disk
    let last := runAll step net moves
    last.coordinator = runAll Coordinator.step net.coordinator (trace net moves) ∧
      ∀ (id : Nat) (frames : List Frame), Fit frames → written id net moves = frames.map encodeFrame →
        ∃ rest, frames = framesOn id (trace net moves) ++ rest ∧
          (∀ p, last.peers.find? id = some p → p.inbox = [] → p.up.wire = [] → rest = []) ∧
          (id < last.coordinator.connSeq → Move.hangUp id ∉ moves → ∃ p, last.peers.find? id = some p) := by
  intro net last
  refine ⟨run_coordinator net moves, ?_⟩
  intro id frames hfit hwritten
  obtain ⟨rest, hsplit, hend⟩ := (pending_start registry persistPath disk id (Move.hangUp id ∈ moves)).run moves
    (fun hm => hm) hwritten hfit
  rw [List.nil_append] at hsplit
  refine ⟨rest, hsplit, ?_, ?_⟩
  · intro p hp hinbox hwire
    cases hend with
    | opened peer _ waits =>
      obtain rfl := Option.some.inj (hp.symm.trans peer)
      exact waits.eq_nil hinbox hwire
    | ended peer => exact absurd (hp.symm.trans peer) (by simp)
    | unborn peer => exact absurd (hp.symm.trans peer) (by simp)
  · intro hbelow hnot
    cases hend with
    | opened peer => exact ⟨_, peer⟩
    | ended _ _ how => exact absurd how hnot
    | unborn _ above => exact absurd hbelow (not_lt.mpr above)

/-- A ping in two pieces, and next to it a connection that writes garbage and is closed for it. -/
def pingMoves : List Move :=
  [.connect, .connect, .send 1 (List.replicate 16 0), .receive 1 16, .send 0 (encodeFrame { type := .ping }),
    .receive 0 7, .receive 0 100, .handle 0 5]

theorem frames_delivered_pingMoves :
    framesOn 0 (trace (start .new [] .empty) pingMoves) = [{ type := .ping }] ∧
      ∃ p, (runAll step (start .new [] .empty) pingMoves).peers.find? 0 = some p := by
  have hfit : Fit [{ type := .ping }] := by
    intro f hf
    obtain rfl := List.mem_singleton.mp hf
    exact Nat.zero_le _
  have hidle : ((runAll step (start .new [] .empty) pingMoves).peers.find? 0).all
      (fun p => p.inbox.isEmpty && p.up.wire.isEmpty) = true := by decide +kernel
  obtain ⟨_, hall⟩ := frames_delivered .new [] .empty pingMoves
  obtain ⟨rest, hsplit, hnil, hopen⟩ := hall 0 [{ type := .ping }] hfit (by decide +kernel)
  obtain ⟨p, hp⟩ := hopen (by decide +kernel) (by decide +kernel)
  rw [hp, Option.all_some, Bool.and_eq_true, List.isEmpty_iff, List.isEmpty_iff] at hidle
  rw [hnil p hp hidle.1 hidle.2, List.append_nil] at hsplit
  exact ⟨hsplit.symm, p, hp⟩

end Network

end NVSwitchFabric
