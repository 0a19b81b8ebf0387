import NVSwitchFabric.Correctness.Replies

/-!
# `Correctness.Handled` — one connection in a run

What a run does to one connection, when the frames handled on it are known: without a frame it stays as it is (`kept`), and
without a REGISTER it keeps its identity (`identity_kept`). Once everything that an idle peer has written is handled, the
frames handled are those it has written (`framesOn_handled`).
-/

namespace NVSwitchFabric

open Lib Coordinator

namespace Coordinator

variable {c : Coordinator} {id : Nat}

/-! ## Events without a frame on the connection -/

theorem connSeq_le_step (c : Coordinator) (e : Event) : c.connSeq ≤ (c.step e).connSeq := by
  rcases c.step_connSeq e with h | ⟨_, h⟩ <;> omega

theorem connSeq_le_run (c : Coordinator) (events : List Event) : c.connSeq ≤ (runAll step c events).connSeq := by
  induction events generalizing c with
  | nil => exact Nat.le_refl _
  | cons e events ih => exact (c.connSeq_le_step e).trans (ih (c.step e))

/-- A connection that has ended, or is not there yet below the next id, does not come back. -/
theorem step_conns_none (hbelow : id < c.connSeq) (hnone : c.conns.find? id = none) (e : Event) :
    (c.step e).conns.find? id = none := by
  cases e with
  | accept =>
    unfold step
    dsimp only
    split
    · exact hnone
    · exact (SortedMap.find?_insert_ne _ _ hbelow.ne).trans hnone
  | frame i f now =>
    by_cases h : id = i
    · subst h
      rw [step_frame_closed f now fun ⟨conn, hconn⟩ => absurd (hnone.symm.trans hconn) (by simp)]
      exact hnone
    · exact (Network.conns_other (Or.inr ⟨f, now, rfl⟩) h c).1.trans hnone
  | close i =>
    rw [step_close_conns, hnone]
    exact ite_self none

theorem run_conns_none (hbelow : id < c.connSeq) (hnone : c.conns.find? id = none) (events : List Event) :
    (runAll step c events).conns.find? id = none := by
  induction events generalizing c with
  | nil => exact hnone
  | cons e events ih => exact ih (hbelow.trans_le (c.connSeq_le_step e)) (step_conns_none hbelow hnone e)

/-- **Without a frame on it** a connection that stays open stays as it is. -/
theorem kept {conn : Connection} (hbelow : id < c.connSeq) {events : List Event}
    (hframes : Network.framesOn id events = []) (hend : (runAll step c events).conns.find? id = some conn) :
    c.conns.find? id = some conn := by
  induction events generalizing c with
  | nil => exact hend
  | cons e events ih =>
    have hsplit : Network.framesOn id (e :: events) = Network.framesOn id [e] ++ Network.framesOn id events :=
      Network.framesOn_append id [e] events
    obtain ⟨hone, hrest⟩ := List.append_eq_nil_iff.mp (hsplit.symm.trans hframes)
    have hnext : (c.step e).conns.find? id = some conn :=
      ih (hbelow.trans_le (c.connSeq_le_step e)) hrest hend
    cases e with
    | accept =>
      unfold step at hnext
      dsimp only at hnext
      split at hnext
      · exact hnext
      · exact (SortedMap.find?_insert_ne _ _ hbelow.ne).symm.trans hnext
    | frame i f now =>
      by_cases h : id = i
      · rw [Network.framesOn_frame, if_pos h.symm] at hone
        exact absurd hone (by simp)
      · exact (Network.conns_other (Or.inr ⟨f, now, rfl⟩) h c).1.symm.trans hnext
    | close i =>
      rw [step_close_conns] at hnext
      by_cases h : id = i
      · rw [if_pos h] at hnext
        exact absurd hnext (by simp)
      · rwa [if_neg h] at hnext

/-- Only a REGISTER on it gives a connection another identity. -/
theorem step_identity (hbelow : id < c.connSeq) {e : Event} (hne : ∀ now f, e = .frame id f now → f.type ≠ .register)
    (hopen : (c.step e).IsOpen id) : (c.step e).identity id = c.identity id := by
  cases e with
  | accept =>
    unfold step
    dsimp only
    split
    · rfl
    · show ((c.conns.insert c.connSeq {}).find? id).bind Connection.identity = c.identity id
      rw [identity_insert, if_neg hbelow.ne]
      rfl
  | frame i f now =>
    rcases c.step_frame_cases i f now with ⟨conn, w, b, _, hadm, heq⟩ | ⟨_, hserved⟩
    · rw [heq, register_identity]
      refine if_neg ?_
      rintro rfl
      refine hne now f rfl ?_
      by_contra htype
      unfold admits at hadm
      rw [if_pos htype] at hadm
      exact absurd hadm (by simp)
    · exact hserved.identity id
  | close i =>
    rw [step_close_identity]
    refine if_neg ?_
    rintro rfl
    obtain ⟨conn, hconn⟩ := hopen
    rw [step_close_conns, if_pos rfl] at hconn
    exact absurd hconn (by simp)

/-- A connection that is open after some events was open before them. -/
theorem isOpen_of_run (hbelow : id < c.connSeq) {events : List Event} (h : (runAll step c events).IsOpen id) :
    c.IsOpen id := by
  obtain ⟨conn, hconn⟩ := h
  cases hfirst : c.conns.find? id with
  | some first => exact ⟨first, hfirst⟩
  | none => exact absurd ((run_conns_none hbelow hfirst events).symm.trans hconn) (by simp)

/-- **Without a REGISTER on it** a connection that stays open keeps its identity. -/
theorem identity_kept (hbelow : id < c.connSeq) {events : List Event}
    (hframes : ∀ f ∈ Network.framesOn id events, f.type ≠ .register) (hopen : (runAll step c events).IsOpen id) :
    (runAll step c events).identity id = c.identity id := by
  induction events generalizing c with
  | nil => rfl
  | cons e events ih =>
    have hsplit : Network.framesOn id (e :: events) = Network.framesOn id [e] ++ Network.framesOn id events :=
      Network.framesOn_append id [e] events
    have hbelow' := hbelow.trans_le (c.connSeq_le_step e)
    have hrest : (runAll step (c.step e) events).identity id = (c.step e).identity id :=
      ih hbelow' (fun f hf => hframes f (hsplit ▸ List.mem_append_right _ hf)) hopen
    refine hrest.trans (step_identity hbelow ?_ (isOpen_of_run hbelow' hopen))
    rintro now f rfl
    refine hframes f (hsplit ▸ List.mem_append_left _ ?_)
    rw [Network.framesOn_frame, if_pos rfl]
    exact List.mem_singleton.mpr rfl

end Coordinator

namespace Network

variable {net : Network} {id : Nat}

/-- A client that writes nothing more has written nothing more. -/
theorem written_eq_nil {moves : List Move} (h : ∀ m ∈ moves, ∀ bytes, m ≠ .send id bytes) (net : Network) :
    written id net moves = [] := by
  induction moves generalizing net with
  | nil => rfl
  | cons m moves ih =>
    rw [written_cons, write?_eq_none (h m List.mem_cons_self), ih fun m' hm' => h m' (List.mem_cons_of_mem _ hm')]
    rfl

/-- The event that handles a frame. -/
theorem frameOn_eq_some {e : Event} {f : Frame} (h : frameOn id e = some f) : ∃ now, e = .frame id f now := by
  cases e with
  | accept => exact absurd h (by simp [frameOn])
  | frame i g now =>
    unfold frameOn at h
    dsimp only at h
    split at h
    · next hi =>
      obtain rfl := Option.some.inj h
      exact ⟨now, by rw [hi]⟩
    · exact absurd h (by simp)
  | close i => exact absurd h (by simp [frameOn])

/-- The run splits where a frame on a connection is handled. -/
theorem split_at_frame {events : List Event} {fs gs : List Frame} {f : Frame} (h : framesOn id events = fs ++ f :: gs) :
    ∃ earlier now later, events = earlier ++ .frame id f now :: later ∧ framesOn id earlier = fs ∧
      framesOn id later = gs := by
  obtain ⟨earlier, rest, rfl, hearlier, hrest⟩ := List.filterMap_eq_append_iff.mp h
  obtain ⟨idle, e, later, rfl, hidle, he, hlater⟩ := List.filterMap_eq_cons_iff.mp hrest
  obtain ⟨now, rfl⟩ := frameOn_eq_some he
  refine ⟨earlier ++ idle, now, later, (List.append_assoc ..).symm, ?_, hlater⟩
  rw [framesOn_append]
  exact (congrArg (_ ++ ·) (List.filterMap_eq_nil_iff.mpr hidle)).trans ((List.append_nil _).trans hearlier)

/-! ## Peers that wait -/

/-- The peer has written only what is handled. -/
structure Idle (net : Network) (id : Nat) (conn : Connection) : Prop where
  peer   : ∃ p, net.peers.find? id = some p ∧ p.inbox = [] ∧ p.up = {}
  served : net.coordinator.conns.find? id = some conn

/-- All that the peer has written is handled. -/
def Handled (net : Network) (id : Nat) : Prop := ∃ p, net.peers.find? id = some p ∧ p.inbox = [] ∧ p.up.wire = []

/-- In every run from the start, a connection is open on both sides or on neither. -/
theorem answered_run (registry : FabricRegistry) (persistPath : Str) (disk : Disk) (moves : List Move) (id : Nat) :
    ∃ rs, Answered (runAll step (start registry persistPath disk) moves) id rs := by
  have hstart : Answered (start registry persistPath disk) id [] := .unborn rfl rfl (Nat.zero_le id) rfl
  exact ⟨_, hstart.run moves⟩

theorem Answered.served_of_peer {rs : List Frame} (h : Answered net id rs) {p : Peer}
    (hp : net.peers.find? id = some p) : id < net.coordinator.connSeq ∧ net.coordinator.IsOpen id := by
  cases h with
  | opened _ served below => exact ⟨below, _, served⟩
  | ended peer => exact absurd (hp.symm.trans peer) (by simp)
  | unborn peer => exact absurd (hp.symm.trans peer) (by simp)

/-- **What an idle peer writes is what is handled on its connection**, once nothing is left. -/
theorem framesOn_handled {conn : Connection} {moves : List Move} {frames : List Frame} (hidle : net.Idle id conn)
    (hbelow : id < net.coordinator.connSeq) (hwritten : written id net moves = frames.map encodeFrame) (hfit : Fit frames)
    (hhandled : (runAll step net moves).Handled id) : framesOn id (trace net moves) = frames := by
  obtain ⟨p, hp, hinbox, hup⟩ := hidle.peer
  obtain ⟨p', hp', hinbox', hwire'⟩ := hhandled
  have hempty : Awaits p [] := ⟨[], by rw [hinbox]; rfl, hup ▸ Channel.carries_fresh framing⟩
  have hpending : Pending net id True [] := .opened hp hbelow hempty
  obtain ⟨rest, hsplit, hend⟩ := hpending.run moves (fun _ => trivial) hwritten hfit
  cases hend with
  | opened peer _ waits =>
    obtain rfl := Option.some.inj (hp'.symm.trans peer)
    rw [waits.eq_nil hinbox' hwire', List.append_nil, List.nil_append] at hsplit
    exact hsplit.symm
  | ended peer => exact absurd (hp'.symm.trans peer) (by simp)
  | unborn peer => exact absurd (hp'.symm.trans peer) (by simp)

end Network

end NVSwitchFabric
