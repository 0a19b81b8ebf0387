import NVSwitchFabric.Correctness.Replies
import NVSwitchFabric.Correctness.Unlogged
import NVSwitchFabric.Lib.Observer

/-!
# `Correctness.Readers` — clients that only read are not noticed

A route query takes two ids and a place in the decision log, a PING sends a frame back, and what a client sends that has
not registered is ignored. None of this is seen by anyone else: a run of the coordinator and the run without these frames
serve the same topology and measurements, admit the same incarnations, leave the same files, and answer every frame with
the same bytes (`readers_unseen`).

What is seen of a coordinator is all of it but its decision log, the ids it numbers decisions by and what it has sent
(`seen`). An event does to what is seen what it does to the coordinator (`step_seen`), so leaving out events that are not
seen is an instance of `Lib.Observer`.
-/

namespace NVSwitchFabric

open Lib

/-! ## What is seen -/

/-- A connection but for what has been sent on it. -/
def Connection.unsent (conn : Connection) : Connection := { conn with sent := [] }

/-- **What a client is answered** does not depend on the log. -/
theorem FabricRegistry.encodeDecision_unlogged (r : FabricRegistry) (src dst : DeviceId) (policy : RoutePolicy)
    (now : UInt64) :
    encodeDecision (r.unlogged.route src dst policy now).1 = encodeDecision (r.route src dst policy now).1 := by
  rw [r.route_unlogged]
  rfl

namespace Coordinator

variable {c c' : Coordinator} {id : Nat}

/-- A coordinator but for what only its clients and its log know. -/
def seen (c : Coordinator) : Coordinator :=
  { c with registry := c.registry.unlogged, conns := c.conns.mapVals Connection.unsent }

theorem find?_seen (c : Coordinator) (i : Nat) : c.seen.conns.find? i = (c.conns.find? i).map Connection.unsent :=
  SortedMap.find?_mapVals _ _ _

theorem mapVals_unsent (conns : SortedMap Nat Connection) :
    (conns.mapVals Connection.unsent).mapVals Connection.unsent = conns.mapVals Connection.unsent := by
  apply SortedMap.ext_find?
  intro i
  rw [SortedMap.find?_mapVals, SortedMap.find?_mapVals, Option.map_map]
  rfl

/-- Coordinators that differ in nothing else look the same. -/
theorem seen_eq (hregistry : c.registry.unlogged = c'.registry.unlogged) (hpath : c.persistPath = c'.persistPath)
    (hdisk : c.disk = c'.disk) (hseq : c.connSeq = c'.connSeq)
    (hconns : c.conns.mapVals Connection.unsent = c'.conns.mapVals Connection.unsent) (hmax : c.maxBoot = c'.maxBoot)
    (hactive : c.activeBoot = c'.activeBoot) : c.seen = c'.seen := by
  obtain ⟨r, path, disk, seq, conns, maxBoot, activeBoot⟩ := c
  obtain ⟨r', path', disk', seq', conns', maxBoot', activeBoot'⟩ := c'
  obtain rfl : path = path' := hpath
  obtain rfl : disk = disk' := hdisk
  obtain rfl : seq = seq' := hseq
  obtain rfl : maxBoot = maxBoot' := hmax
  obtain rfl : activeBoot = activeBoot' := hactive
  unfold seen
  dsimp only at hregistry hconns ⊢
  rw [hregistry, hconns]

/-! ## Handlers -/

/-- What is written over a connection and looks like it is not seen. -/
theorem mapVals_insert_unsent {conn conn' : Connection} (hconn : c.conns.find? id = some conn)
    (hsame : conn'.unsent = conn.unsent) :
    (c.conns.insert id conn').mapVals Connection.unsent = c.conns.mapVals Connection.unsent := by
  rw [SortedMap.mapVals_insert, hsame]
  refine SortedMap.insert_eq_self ?_
  rw [SortedMap.find?_mapVals, hconn, Option.map_some]

/-- Answering a query is not seen. -/
theorem handleQueryRoute_seen {conn : Connection} (hconn : c.conns.find? id = some conn) (payload : List UInt8) (now : UInt64) :
    (c.handleQueryRoute id conn payload now).seen = c.seen := by
  unfold handleQueryRoute
  split
  · rfl
  split
  · rfl
  · exact seen_eq rfl rfl rfl rfl (mapVals_insert_unsent hconn rfl) rfl rfl

theorem autoPersist_seen (h : c.seen = c'.seen) : c.autoPersist.seen = c'.autoPersist.seen := by
  obtain ⟨hregistry, hpath, hdisk, hseq, hconns, hmax, hactive⟩ := Coordinator.mk.inj h
  unfold autoPersist
  rw [hpath]
  split
  · exact h
  · refine seen_eq hregistry rfl ?_ hseq hconns hmax hactive
    show (c.registry.persistTo c'.persistPath c.disk).2 = (c'.registry.persistTo c'.persistPath c'.disk).2
    rw [← c.registry.persistTo_unlogged, hregistry, c'.registry.persistTo_unlogged, hdisk]

theorem handlePublishTopology_seen (w : WorkerId) (b : WorkerBootId) (payload : List UInt8) :
    (c.handlePublishTopology w b payload).seen = (c.seen.handlePublishTopology w b payload).seen := by
  have hself : c.seen = c.seen.seen := seen_eq rfl rfl rfl rfl (mapVals_unsent _).symm rfl rfl
  have hread : (readPublishTopology c.seen.registry.epoch w b).run? payload =
      (readPublishTopology c.registry.epoch w b).run? payload := rfl
  unfold handlePublishTopology
  rw [hread]
  split
  · exact hself
  split
  · exact hself
  · refine autoPersist_seen (seen_eq ?_ rfl rfl rfl (mapVals_unsent _).symm rfl rfl)
    exact (c.registry.exec_unlogged (.applyBulk _)).symm

theorem handlePublishMeasurement_seen (w : WorkerId) (b : WorkerBootId) (payload : List UInt8) :
    (c.handlePublishMeasurement w b payload).seen = (c.seen.handlePublishMeasurement w b payload).seen := by
  have hread : (readPublishMeasurement c.seen.registry.epoch w b).run? payload =
      (readPublishMeasurement c.registry.epoch w b).run? payload := rfl
  unfold handlePublishMeasurement
  rw [hread]
  split
  · exact seen_eq rfl rfl rfl rfl (mapVals_unsent _).symm rfl rfl
  · exact seen_eq rfl rfl rfl rfl (mapVals_unsent _).symm rfl rfl

/-- A frame does to what is seen what it does to the coordinator. -/
theorem handleFrame_seen {conn : Connection} (hconn : c.conns.find? id = some conn) (f : Frame) (now : UInt64) :
    (c.handleFrame id conn f now).seen = (c.seen.handleFrame id conn.unsent f now).seen := by
  have hself : c.seen = c.seen.seen := seen_eq rfl rfl rfl rfl (mapVals_unsent _).symm rfl rfl
  have hconn' : c.seen.conns.find? id = some conn.unsent := by rw [find?_seen, hconn, Option.map_some]
  have hreg : conn.unsent.registered = conn.registered := rfl
  unfold handleFrame
  split
  · have hadm : c.seen.admits f = c.admits f := rfl
    rw [hadm]
    split
    · next w b _ =>
      refine seen_eq rfl rfl rfl rfl ?_ rfl rfl
      show (c.conns.insert id { conn with worker := w, boot := b, registered := true }).mapVals Connection.unsent =
        ((c.conns.mapVals Connection.unsent).insert id
          { conn.unsent with worker := w, boot := b, registered := true }).mapVals Connection.unsent
      rw [SortedMap.mapVals_insert, SortedMap.mapVals_insert, mapVals_unsent]
      rfl
    · exact hself
  · rw [hreg]
    split
    · exact handlePublishTopology_seen _ _ _
    · exact hself
  · rw [hreg]
    split
    · exact handlePublishMeasurement_seen _ _ _
    · exact hself
  · rw [hreg]
    split
    · rw [handleQueryRoute_seen hconn, handleQueryRoute_seen hconn', ← hself]
    · exact hself
  · refine seen_eq rfl rfl rfl rfl ?_ rfl rfl
    have hleft : (c.conns.insert id (conn.send { type := .pong })).mapVals Connection.unsent =
        c.conns.mapVals Connection.unsent := mapVals_insert_unsent hconn rfl
    have hright : (c.seen.conns.insert id (conn.unsent.send { type := .pong })).mapVals Connection.unsent =
        c.seen.conns.mapVals Connection.unsent := mapVals_insert_unsent hconn' rfl
    exact hleft.trans ((mapVals_unsent _).symm.trans hright.symm)
  · exact hself

theorem handleClose_seen (id : Nat) (conn : Connection) :
    (c.handleClose id conn).seen = (c.seen.handleClose id conn.unsent).seen := by
  have hregistry : (c.registry.invalidateForWorker conn.worker conn.boot).2.unlogged =
      (c.seen.registry.invalidateForWorker conn.worker conn.boot).2.unlogged :=
    (c.registry.exec_unlogged (.invalidateForWorker conn.worker conn.boot)).symm
  have hconns : (c.conns.erase id).mapVals Connection.unsent =
      ((c.conns.mapVals Connection.unsent).erase id).mapVals Connection.unsent := by
    rw [SortedMap.mapVals_erase, SortedMap.mapVals_erase, mapVals_unsent]
  have hreg : conn.unsent.registered = conn.registered := rfl
  unfold handleClose
  rw [hreg]
  split
  · exact seen_eq hregistry rfl rfl rfl hconns rfl rfl
  · exact seen_eq rfl rfl rfl rfl hconns rfl rfl

/-- **An event does to what is seen what it does to the coordinator.** -/
theorem step_seen (c : Coordinator) (e : Event) : (c.step e).seen = (c.seen.step e).seen := by
  have hself : c.seen = c.seen.seen := seen_eq rfl rfl rfl rfl (mapVals_unsent _).symm rfl rfl
  cases e with
  | accept =>
    have hsize : c.seen.conns.size = c.conns.size := SortedMap.size_mapVals _ _
    unfold step
    dsimp only
    rw [hsize]
    split
    · exact hself
    · refine seen_eq rfl rfl rfl rfl ?_ rfl rfl
      show (c.conns.insert c.connSeq {}).mapVals Connection.unsent =
        ((c.conns.mapVals Connection.unsent).insert c.connSeq {}).mapVals Connection.unsent
      rw [SortedMap.mapVals_insert, SortedMap.mapVals_insert, mapVals_unsent]
  | frame id f now =>
    unfold step
    dsimp only
    rw [find?_seen]
    cases hconn : c.conns.find? id with
    | none => exact hself
    | some conn => exact handleFrame_seen hconn f now
  | close id =>
    unfold step
    dsimp only
    rw [find?_seen]
    cases hconn : c.conns.find? id with
    | none => exact hself
    | some conn => exact handleClose_seen id conn

/-! ## Service -/

/-- Two coordinators that nobody can tell apart: they serve the same evidence and files, know the same incarnations, and
    answer every frame with the same bytes. -/
structure SameService (c c' : Coordinator) : Prop where
  current      : c.registry.current = c'.registry.current
  measurements : c.registry.measurements = c'.registry.measurements
  disk         : c.disk = c'.disk
  maxBoot      : c.maxBoot = c'.maxBoot
  activeBoot   : c.activeBoot = c'.activeBoot
  identity     : ∀ id, c.identity id = c'.identity id
  answers      : ∀ id f now, c.replyOn id (.frame id f now) = c'.replyOn id (.frame id f now)

theorem identity_seen (c : Coordinator) (id : Nat) : c.seen.identity id = c.identity id := by
  unfold identity
  rw [find?_seen]
  cases c.conns.find? id <;> rfl

theorem replyOn_seen (c : Coordinator) (id : Nat) (f : Frame) (now : UInt64) :
    c.seen.replyOn id (.frame id f now) = c.replyOn id (.frame id f now) := by
  have hanswer : c.seen.answer? f.payload now = c.answer? f.payload now := by
    have hencode : ∀ src dst policy, encodeDecision (c.seen.registry.route src dst policy now).1 =
        encodeDecision (c.registry.route src dst policy now).1 :=
      fun src dst policy => c.registry.encodeDecision_unlogged src dst policy now
    unfold answer?
    simp only [hencode]
  unfold replyOn
  dsimp only
  rw [if_pos rfl, if_pos rfl, find?_seen]
  cases c.conns.find? id with
  | none => rfl
  | some conn =>
    have hreg : conn.unsent.registered = conn.registered := rfl
    show c.seen.reply? conn.unsent f now = c.reply? conn f now
    unfold reply?
    rw [hanswer, hreg]

theorem sameService_of_seen (h : c.seen = c'.seen) : SameService c c' := by
  obtain ⟨hregistry, _, hdisk, _, _, hmax, hactive⟩ := Coordinator.mk.inj h
  have hcurrent : c.registry.unlogged.current = c'.registry.unlogged.current := congrArg _ hregistry
  have hmeasurements : c.registry.unlogged.measurements = c'.registry.unlogged.measurements := congrArg _ hregistry
  exact ⟨hcurrent, hmeasurements, hdisk, hmax, hactive,
    fun id => by rw [← c.identity_seen, h, c'.identity_seen],
    fun id f now => by rw [← c.replyOn_seen, h, c'.replyOn_seen]⟩

/-! ## Frames that are not noticed -/

/-- The events that may be noticed: of the frames, those that write evidence or register, from the connections that ever
    register. -/
def mayWrite (members : Nat → Bool) : Event → Bool
  | .frame id f _ =>
    members id && (f.type = .register || f.type = .publishTopology || f.type = .publishMeasurement)
  | _             => true

/-- Only the connections of `members` register. -/
def RegistersOnly (members : Nat → Bool) (e : Event) : Prop :=
  ∀ id f now, e = .frame id f now → f.type = .register → members id = true

/-- The other connections have no identity. -/
def Guests (members : Nat → Bool) (c : Coordinator) : Prop := ∀ id, members id = false → c.identity id = none

variable {members : Nat → Bool} {e : Event}

theorem Guests.step (h : c.Guests members) (he : RegistersOnly members e) : (c.step e).Guests members := by
  intro id hid
  cases hnext : (c.step e).identity id with
  | none => rfl
  | some who =>
    rcases step_identity_cases hnext with hold | ⟨f, now, rfl, hadm⟩
    · exact absurd ((h id hid).symm.trans hold) (by simp)
    · -- the connection that registers is a member
      exact absurd (he id f now rfl (type_of_admits hadm)) (by simp [hid])

/-- **A frame that does not write**, or comes from a connection that never registers, is not seen. -/
theorem step_unnoticed (h : c.Guests members) (he : RegistersOnly members e) (hkeep : mayWrite members e = false) :
    (c.step e).seen = c.seen := by
  cases e with
  | accept => exact absurd hkeep (by simp [mayWrite])
  | close id => exact absurd hkeep (by simp [mayWrite])
  | frame id f now =>
    unfold step
    dsimp only
    cases hconn : c.conns.find? id with
    | none => rfl
    | some conn =>
      have hguest : members id = false → conn.registered = false := by
        intro hid
        have hnone := h id hid
        rw [identity_of_find? hconn] at hnone
        unfold Connection.identity at hnone
        split at hnone
        · exact absurd hnone (by simp)
        · next hreg => exact Bool.eq_false_iff.mpr hreg
      -- a frame of a kind that writes comes from a guest
      have hwrites : f.type = .register ∨ f.type = .publishTopology ∨ f.type = .publishMeasurement → members id = false := by
        intro htype
        unfold mayWrite at hkeep
        rcases htype with h | h | h <;> simpa [h] using hkeep
      show (c.handleFrame id conn f now).seen = c.seen
      unfold handleFrame
      split
      · next htype => exact absurd (he id f now rfl htype) (by simp [hwrites (Or.inl htype)])
      · next htype =>
        rw [hguest (hwrites (Or.inr (Or.inl htype)))]
        rfl
      · next htype =>
        rw [hguest (hwrites (Or.inr (Or.inr htype)))]
        rfl
      · split
        · exact handleQueryRoute_seen hconn f.payload now
        · rfl
      · exact seen_eq rfl rfl rfl rfl (mapVals_insert_unsent hconn rfl) rfl rfl
      · rfl

/-- **Clients that only read are not noticed.** Take from any run of a coordinator all the frames that neither register nor
    publish, and everything that is sent on connections that never register. What is left makes a coordinator that nobody
    can tell from the one of the whole run. -/
theorem readers_unseen (registry : FabricRegistry) (persistPath : Str) (disk : Disk) (members : Nat → Bool)
    (events : List Event) (hmembers : ∀ e ∈ events, RegistersOnly members e) :
    SameService (runAll step (serving registry persistPath disk) events)
      (runAll step (serving registry persistPath disk) (events.filter (mayWrite members))) := by
  have hguests : (serving registry persistPath disk).Guests members := fun _ _ => rfl
  have hinv : ∀ (c : Coordinator) e, RegistersOnly members e → c.Guests members → (c.step e).Guests members :=
    fun _ _ he h => h.step he
  have hquiet : ∀ (c : Coordinator) e, RegistersOnly members e → c.Guests members → mayWrite members e = false →
      (c.step e).seen = c.seen := fun _ _ he h hkeep => step_unnoticed h he hkeep
  exact sameService_of_seen (see_runAll_filter hinv (see_congr step_seen) hquiet hguests hmembers)

/-- A worker registers, and is asked for a route and pinged; another client publishes without having registered. -/
def readerEvents : List Event :=
  [.accept, .frame 0 { type := .register, payload := encodeRegister 0 ⟨ascii "w"⟩ 1 } 0, .accept,
    .frame 1 { type := .ping } 1, .frame 1 { type := .publishMeasurement } 2, .frame 0 { type := .queryRoute } 3]

theorem readers_unseen_readerEvents :
    SameService (runAll step (serving .new [] .empty) readerEvents)
      (runAll step (serving .new [] .empty)
        [.accept, .frame 0 { type := .register, payload := encodeRegister 0 ⟨ascii "w"⟩ 1 } 0, .accept]) := by
  have hmembers : ∀ e ∈ readerEvents, RegistersOnly (fun id => id = 0) e := by
    rintro e he id f now rfl htype
    simp only [readerEvents, List.mem_cons, Event.frame.injEq, reduceCtorEq, List.not_mem_nil, false_or, or_false] at he
    rcases he with ⟨rfl, _⟩ | ⟨_, rfl, _⟩ | ⟨_, rfl, _⟩ | ⟨rfl, _⟩
    · rfl
    · exact absurd htype (by simp)
    · exact absurd htype (by simp)
    · rfl
  exact readers_unseen .new [] .empty _ readerEvents hmembers

end Coordinator

end NVSwitchFabric
