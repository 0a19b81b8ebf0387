import NVSwitchFabric.Runtime.Coordinator
import NVSwitchFabric.Correctness.WellFormed

/-!
# `Correctness.CoordinatorStep` — what one event does to the coordinator

Equations for each kind of event, in terms of the registry, the highest boots and the identities of the open
connections: an accepted connection has no identity (`step_accept_*`), an admitted REGISTER gives its connection one
(`step_register_*`), every other frame leaves boots and identities alone and changes the registry by one operation
of its incarnation at most (`step_frame_*`), and a close drops the connection and fences its identity
(`step_close_*`). The invariants of the runtime are proved from these.
-/

namespace NVSwitchFabric

open Lib

namespace Coordinator

variable {c : Coordinator}

/-- Connection `id` is open. -/
def IsOpen (c : Coordinator) (id : Nat) : Prop := ∃ conn, c.conns.find? id = some conn

theorem identity_of_not_open {id : Nat} (h : ¬ c.IsOpen id) : c.identity id = none := by
  unfold identity
  cases hconn : c.conns.find? id with
  | none => rfl
  | some conn => exact absurd ⟨conn, hconn⟩ h

theorem identity_of_find? {id : Nat} {conn : Connection} (h : c.conns.find? id = some conn) :
    c.identity id = conn.identity := by
  unfold identity
  rw [h, Option.bind_some]

theorem isOpen_of_identity {id : Nat} {who : WorkerId × WorkerBootId} (h : c.identity id = some who) :
    c.IsOpen id := by
  by_contra hclosed
  rw [identity_of_not_open hclosed] at h
  exact absurd h (by simp)

/-- A registered connection has the identity of its locals. -/
theorem identity_of_registered {conn : Connection} (h : conn.registered = true) :
    conn.identity = some (conn.worker, conn.boot) := if_pos h

/-- Writing connection `id` changes the identity of `id` only. -/
theorem identity_insert (conns : SortedMap Nat Connection) (id i : Nat) (conn : Connection) :
    ((conns.insert id conn).find? i).bind Connection.identity =
      if i = id then conn.identity else (conns.find? i).bind Connection.identity := by
  rw [SortedMap.find?_insert]
  by_cases h : i = id
  · rw [if_pos h, if_pos h, Option.bind_some]
  · rw [if_neg h, if_neg h]

/-- Writing back a connection with the same identity changes no identity. -/
theorem identity_insert_same {conns : SortedMap Nat Connection} {id : Nat} {old conn : Connection}
    (hold : conns.find? id = some old) (hsame : conn.identity = old.identity) (i : Nat) :
    ((conns.insert id conn).find? i).bind Connection.identity = (conns.find? i).bind Connection.identity := by
  rw [identity_insert]
  by_cases h : i = id
  · rw [if_pos h, h, hold, Option.bind_some, hsame]
  · rw [if_neg h]

/-! ## Accept -/

/-- Connection ids are handed out in increasing order. -/
def IdsBelow (c : Coordinator) : Prop := ∀ id, c.IsOpen id → id < c.connSeq

theorem step_accept_registry : (c.step .accept).registry = c.registry := by
  unfold step
  dsimp only
  split <;> rfl

theorem step_accept_maxBoot : (c.step .accept).maxBoot = c.maxBoot := by
  unfold step
  dsimp only
  split <;> rfl

theorem step_accept_activeBoot : (c.step .accept).activeBoot = c.activeBoot := by
  unfold step
  dsimp only
  split <;> rfl

theorem step_accept_identity (h : c.IdsBelow) (i : Nat) : (c.step .accept).identity i = c.identity i := by
  unfold step
  dsimp only
  split
  · rfl
  · show ((c.conns.insert c.connSeq {}).find? i).bind Connection.identity = c.identity i
    rw [identity_insert]
    by_cases hi : i = c.connSeq
    · rw [if_pos hi]
      have hclosed : ¬ c.IsOpen i := fun hopen => absurd (h i hopen) (by omega)
      exact (identity_of_not_open hclosed).symm
    · rw [if_neg hi]
      rfl

/-! ## Register -/

theorem step_register {id : Nat} {f : Frame} {now : UInt64} {conn : Connection} {w : WorkerId}
    {b : WorkerBootId} (hconn : c.conns.find? id = some conn) (hadm : c.admits f = some (w, b)) :
    c.step (.frame id f now) = c.register id conn w b := by
  have htype : f.type = .register := by
    by_contra hne
    unfold admits at hadm
    rw [if_pos hne] at hadm
    exact absurd hadm (by simp)
  unfold step
  dsimp only
  rw [hconn]
  dsimp only
  unfold handleFrame
  rw [htype]
  dsimp only
  rw [hadm]

/-- An admitted boot is at least the highest one seen. -/
theorem le_of_admits {f : Frame} {w : WorkerId} {b m : WorkerBootId} (hadm : c.admits f = some (w, b))
    (hmax : c.maxBoot.find? w = some m) : m ≤ b := by
  unfold admits at hadm
  split at hadm
  · exact absurd hadm (by simp)
  split at hadm
  · exact absurd hadm (by simp)
  split at hadm
  · exact absurd hadm (by simp)
  split at hadm
  · exact absurd hadm (by simp)
  next hstale =>
  split at hadm
  · exact absurd hadm (by simp)
  obtain ⟨rfl, rfl⟩ := Prod.mk.inj (Option.some.inj hadm)
  rw [hmax, Option.any_some, decide_eq_true_iff] at hstale
  exact not_lt.mp hstale

/-- An admitted boot is not that of the worker's active incarnation. -/
theorem active_ne_of_admits {f : Frame} {w : WorkerId} {b : WorkerBootId} (hadm : c.admits f = some (w, b)) :
    c.activeBoot.find? w ≠ some b := by
  intro hactive
  unfold admits at hadm
  split at hadm
  · exact absurd hadm (by simp)
  split at hadm
  · exact absurd hadm (by simp)
  split at hadm
  · exact absurd hadm (by simp)
  split at hadm
  · exact absurd hadm (by simp)
  split at hadm
  · exact absurd hadm (by simp)
  next hne =>
  obtain ⟨rfl, rfl⟩ := Prod.mk.inj (Option.some.inj hadm)
  exact hne hactive

/-- **Registering makes the boot the highest one of its worker**, and leaves the others. -/
theorem register_maxBoot {id : Nat} {f : Frame} {conn : Connection} {w : WorkerId} {b : WorkerBootId}
    (hadm : c.admits f = some (w, b)) (x : WorkerId) :
    (c.register id conn w b).maxBoot.find? x = if x = w then some b else c.maxBoot.find? x := by
  show (if (c.maxBoot.find? w).all fun m => m < b then c.maxBoot.insert w b else c.maxBoot).find? x = _
  by_cases hall : ((c.maxBoot.find? w).all fun m => m < b) = true
  · rw [if_pos hall, SortedMap.find?_insert]
  · rw [if_neg hall]
    by_cases hx : x = w
    · rw [if_pos hx, hx]
      cases hmax : c.maxBoot.find? w with
      | none => rw [hmax] at hall; exact absurd rfl hall
      | some m =>
        rw [hmax, Option.all_some, decide_eq_true_iff] at hall
        rw [le_antisymm (not_lt.mp hall) (le_of_admits hadm hmax)]
    · rw [if_neg hx]

theorem register_identity {id : Nat} {conn : Connection} {w : WorkerId} {b : WorkerBootId} (i : Nat) :
    (c.register id conn w b).identity i = if i = id then some (w, b) else c.identity i := by
  show ((c.conns.insert id { conn with worker := w, boot := b, registered := true }).find? i).bind
    Connection.identity = _
  rw [identity_insert]
  rfl

/-! ## Other frames -/

/-- The operations that frames of incarnation `(w, b)` make on the registry. -/
inductive MadeBy (w : WorkerId) (b : WorkerBootId) : RegistryOp → Prop where
  | topology (topo : FabricTopology) : MadeBy w b (.applyBulk (stampedBulk topo w b))
  | measurement (m : Measurement) : MadeBy w b (.publishMeasurement m)
  | query (src dst : DeviceId) (policy : RoutePolicy) (now : UInt64) : MadeBy w b (.route src dst policy now)

/-- Boots and identities are as before, and the registry is, or changed by one operation of the incarnation that
    connection `id` is registered as. -/
structure Served (c : Coordinator) (id : Nat) (c' : Coordinator) : Prop where
  maxBoot  : c'.maxBoot = c.maxBoot
  identity : ∀ i, c'.identity i = c.identity i
  connSeq  : c'.connSeq = c.connSeq
  isOpen   : ∀ i, c'.IsOpen i ↔ c.IsOpen i
  registry : c'.registry = c.registry ∨
    ∃ w b op, c.identity id = some (w, b) ∧ MadeBy w b op ∧ c'.registry = c.registry.exec op

theorem Served.refl (c : Coordinator) (id : Nat) : Served c id c :=
  ⟨rfl, fun _ => rfl, rfl, fun _ => Iff.rfl, Or.inl rfl⟩

/-- Persisting writes the disk only. -/
theorem Served.withDisk {id : Nat} {c' : Coordinator} (h : Served c id c') (disk : Disk) :
    Served c id { c' with disk := disk } :=
  ⟨h.maxBoot, h.identity, h.connSeq, h.isOpen, h.registry⟩

theorem isOpen_insert {id : Nat} {old conn : Connection} (hold : c.conns.find? id = some old) (i : Nat) :
    (∃ x, (c.conns.insert id conn).find? i = some x) ↔ c.IsOpen i := by
  rw [SortedMap.find?_insert]
  by_cases h : i = id
  · rw [if_pos h]
    exact iff_of_true ⟨conn, rfl⟩ ⟨old, h ▸ hold⟩
  · rw [if_neg h]
    exact Iff.rfl

theorem handlePublishTopology_served {id : Nat} {w : WorkerId} {b : WorkerBootId}
    (hid : c.identity id = some (w, b)) (payload : List UInt8) :
    Served c id (c.handlePublishTopology w b payload) := by
  unfold handlePublishTopology
  split
  · exact .refl c id
  split
  · exact .refl c id
  · next topo _ =>
    have hserved : Served c id (c.applyWorkerTopology topo w b) :=
      ⟨rfl, fun _ => rfl, rfl, fun _ => Iff.rfl,
        Or.inr ⟨w, b, .applyBulk (stampedBulk topo w b), hid, .topology topo, rfl⟩⟩
    unfold autoPersist
    split
    · exact hserved
    · exact hserved.withDisk _

theorem handlePublishMeasurement_served {id : Nat} {w : WorkerId} {b : WorkerBootId}
    (hid : c.identity id = some (w, b)) (payload : List UInt8) :
    Served c id (c.handlePublishMeasurement w b payload) := by
  unfold handlePublishMeasurement
  split
  · exact .refl c id
  · next m _ => exact ⟨rfl, fun _ => rfl, rfl, fun _ => Iff.rfl, Or.inr ⟨w, b, _, hid, .measurement m, rfl⟩⟩

theorem handleQueryRoute_served {id : Nat} {conn : Connection} (hconn : c.conns.find? id = some conn)
    {w : WorkerId} {b : WorkerBootId} (hid : c.identity id = some (w, b)) (payload : List UInt8)
    (now : UInt64) : Served c id (c.handleQueryRoute id conn payload now) := by
  unfold handleQueryRoute
  split
  · exact .refl c id
  split
  · exact .refl c id
  · next policy _ =>
    exact ⟨rfl, identity_insert_same hconn rfl, rfl, isOpen_insert hconn,
      Or.inr ⟨w, b, _, hid, .query _ _ policy now, rfl⟩⟩

theorem handlePublishTopology_activeBoot (w : WorkerId) (b : WorkerBootId) (payload : List UInt8) :
    (c.handlePublishTopology w b payload).activeBoot = c.activeBoot := by
  unfold handlePublishTopology
  split
  · rfl
  split
  · rfl
  · unfold autoPersist
    split <;> rfl

theorem handleQueryRoute_activeBoot (id : Nat) (conn : Connection) (payload : List UInt8) (now : UInt64) :
    (c.handleQueryRoute id conn payload now).activeBoot = c.activeBoot := by
  unfold handleQueryRoute
  split
  · rfl
  split <;> rfl

/-- **A frame that registers nothing** serves its connection. -/
theorem step_frame_served {id : Nat} {f : Frame} (now : UInt64) (hadm : c.admits f = none) :
    Served c id (c.step (.frame id f now)) := by
  unfold step
  dsimp only
  cases hconn : c.conns.find? id with
  | none => exact .refl c id
  | some conn =>
    show Served c id (c.handleFrame id conn f now)
    have hid : conn.registered = true → c.identity id = some (conn.worker, conn.boot) := by
      intro hreg
      rw [identity_of_find? hconn, identity_of_registered hreg]
    unfold handleFrame
    split
    · -- a registration, not admitted
      rw [hadm]
      exact .refl c id
    · split
      · next hreg => exact handlePublishTopology_served (hid hreg) f.payload
      · exact .refl c id
    · split
      · next hreg => exact handlePublishMeasurement_served (hid hreg) f.payload
      · exact .refl c id
    · split
      · next hreg => exact handleQueryRoute_served hconn (hid hreg) f.payload now
      · exact .refl c id
    · -- a ping
      exact ⟨rfl, identity_insert_same hconn rfl, rfl, isOpen_insert hconn, Or.inl rfl⟩
    · exact .refl c id

/-- A frame on a connection that is not open does nothing. -/
theorem step_frame_closed {id : Nat} (f : Frame) (now : UInt64) (h : ¬ c.IsOpen id) :
    c.step (.frame id f now) = c := by
  unfold step
  dsimp only
  cases hconn : c.conns.find? id with
  | none => rfl
  | some conn => exact absurd ⟨conn, hconn⟩ h

/-- A frame that registers nothing leaves the active boots. -/
theorem step_frame_activeBoot {id : Nat} {f : Frame} (now : UInt64) (hadm : c.admits f = none) :
    (c.step (.frame id f now)).activeBoot = c.activeBoot := by
  unfold step
  dsimp only
  split
  · next conn hconn =>
    show (c.handleFrame id conn f now).activeBoot = c.activeBoot
    unfold handleFrame
    split
    · rw [hadm]
    · split
      · exact handlePublishTopology_activeBoot _ _ _
      · rfl
    · split
      · unfold handlePublishMeasurement
        split <;> rfl
      · rfl
    · split
      · exact handleQueryRoute_activeBoot _ _ _ _
      · rfl
    · rfl
    · rfl
  · rfl

/-- **Inversion of a frame.** It registers its connection, or is not admitted and serves it. -/
theorem step_frame_cases (c : Coordinator) (id : Nat) (f : Frame) (now : UInt64) :
    (∃ conn w b, c.conns.find? id = some conn ∧ c.admits f = some (w, b) ∧
      c.step (.frame id f now) = c.register id conn w b) ∨
    ((c.IsOpen id → c.admits f = none) ∧ Served c id (c.step (.frame id f now))) := by
  cases hadm : c.admits f with
  | none => exact Or.inr ⟨fun _ => rfl, step_frame_served now hadm⟩
  | some who =>
    by_cases hopen : c.IsOpen id
    · obtain ⟨conn, hconn⟩ := hopen
      exact Or.inl ⟨conn, who.1, who.2, hconn, rfl, step_register hconn hadm⟩
    · right
      refine ⟨fun h => absurd h hopen, ?_⟩
      rw [step_frame_closed f now hopen]
      exact .refl c id

/-! ## Close -/

theorem step_close_maxBoot (id : Nat) : (c.step (.close id)).maxBoot = c.maxBoot := by
  unfold step
  dsimp only
  split
  · unfold handleClose
    dsimp only
    split <;> rfl
  · rfl

/-- **What a close leaves active**: all but the identity of its connection. -/
theorem step_close_activeBoot {id : Nat} {x : WorkerId} {b : WorkerBootId} :
    (c.step (.close id)).activeBoot.find? x = some b ↔
      c.activeBoot.find? x = some b ∧ c.identity id ≠ some (x, b) := by
  unfold step
  dsimp only
  cases hconn : c.conns.find? id with
  | none =>
    have hnone : c.identity id = none :=
      identity_of_not_open fun ⟨conn, h⟩ => absurd (hconn.symm.trans h) (by simp)
    rw [hnone]
    exact (and_iff_left (by simp)).symm
  | some conn =>
    rw [identity_of_find? hconn]
    show (c.handleClose id conn).activeBoot.find? x = some b ↔ _
    unfold handleClose Connection.identity
    dsimp only
    cases conn.registered with
    | false => exact (and_iff_left (by simp)).symm
    | true =>
      show (if c.activeBoot.find? conn.worker = some conn.boot then c.activeBoot.erase conn.worker
        else c.activeBoot).find? x = some b ↔
          c.activeBoot.find? x = some b ∧ some (conn.worker, conn.boot) ≠ some (x, b)
      by_cases hactive : c.activeBoot.find? conn.worker = some conn.boot
      · rw [if_pos hactive, SortedMap.find?_erase]
        by_cases hx : x = conn.worker
        · subst hx
          rw [if_pos rfl, hactive]
          simp
        · rw [if_neg hx]
          exact (and_iff_left fun h => hx (congrArg Prod.fst (Option.some.inj h)).symm).symm
      · rw [if_neg hactive]
        refine (and_iff_left_of_imp fun h heq => hactive ?_).symm
        obtain ⟨rfl, rfl⟩ := Prod.mk.inj (Option.some.inj heq)
        exact h

theorem step_close_conns (id i : Nat) :
    (c.step (.close id)).conns.find? i = if i = id then none else c.conns.find? i := by
  unfold step
  dsimp only
  cases hconn : c.conns.find? id with
  | none =>
    by_cases h : i = id
    · rw [if_pos h, h]
      exact hconn
    · rw [if_neg h]
  | some conn =>
    have hconns : (c.handleClose id conn).conns = c.conns.erase id := by
      unfold handleClose
      dsimp only
      split <;> rfl
    show (c.handleClose id conn).conns.find? i = _
    rw [hconns, SortedMap.find?_erase]

theorem step_close_identity (id i : Nat) :
    (c.step (.close id)).identity i = if i = id then none else c.identity i := by
  show ((c.step (.close id)).conns.find? i).bind Connection.identity = _
  rw [step_close_conns]
  by_cases h : i = id
  · rw [if_pos h, if_pos h]
    rfl
  · rw [if_neg h, if_neg h]
    rfl

/-- A close fences the identity of the connection. -/
theorem step_close_registry (id : Nat) :
    (c.step (.close id)).registry =
      (c.identity id).elim c.registry fun who => (c.registry.invalidateForWorker who.1 who.2).2 := by
  unfold step
  dsimp only
  cases hconn : c.conns.find? id with
  | none =>
    rw [identity_of_not_open fun ⟨conn, h⟩ => absurd (hconn.symm.trans h) (by simp)]
    rfl
  | some conn =>
    rw [identity_of_find? hconn]
    show (c.handleClose id conn).registry = _
    unfold handleClose Connection.identity
    dsimp only
    split <;> rfl

/-! ## Invariants of every run -/

/-- Connection ids stay below the next one. -/
theorem step_idsBelow (e : Event) (h : c.IdsBelow) : (c.step e).IdsBelow := by
  cases e with
  | accept =>
    unfold step
    dsimp only
    split
    · exact h
    · rintro id ⟨conn, hconn⟩
      show id < c.connSeq + 1
      have hconn' : (c.conns.insert c.connSeq {}).find? id = some conn := hconn
      rw [SortedMap.find?_insert] at hconn'
      split at hconn'
      · omega
      · have hlt := h id ⟨conn, hconn'⟩
        omega
  | frame id f now =>
    intro i hi
    rcases c.step_frame_cases id f now with ⟨conn, w, b, hconn, _, heq⟩ | ⟨_, hserved⟩
    · rw [heq] at hi ⊢
      exact h i ((isOpen_insert hconn i).mp hi)
    · rw [hserved.connSeq]
      exact h i ((hserved.isOpen i).mp hi)
  | close id =>
    -- closing hands out no id
    have hseq : (c.step (.close id)).connSeq = c.connSeq := by
      unfold step
      dsimp only
      split
      · unfold handleClose
        dsimp only
        split <;> rfl
      · rfl
    rintro i ⟨conn, hconn⟩
    rw [step_close_conns] at hconn
    rw [hseq]
    split at hconn
    · exact absurd hconn (by simp)
    · exact h i ⟨conn, hconn⟩

/-- Only a REGISTER is admitted. -/
theorem type_of_admits {f : Frame} {who : WorkerId × WorkerBootId} (h : c.admits f = some who) : f.type = .register := by
  by_contra hne
  unfold admits at h
  rw [if_pos hne] at h
  exact absurd h (by simp)

/-- **A connection has the identity it had**, or the one that its last registration was admitted as. -/
theorem step_identity_cases {e : Event} {id : Nat} {who : WorkerId × WorkerBootId} (h : (c.step e).identity id = some who) :
    c.identity id = some who ∨ ∃ f now, e = .frame id f now ∧ c.admits f = some who := by
  cases e with
  | accept =>
    unfold step at h
    dsimp only at h
    split at h
    · exact Or.inl h
    · change ((c.conns.insert c.connSeq {}).find? id).bind Connection.identity = some who at h
      rw [identity_insert] at h
      split at h
      · exact absurd h (by simp [Connection.identity])
      · exact Or.inl h
  | frame i f now =>
    rcases c.step_frame_cases i f now with ⟨conn, w, b, _, hadm, heq⟩ | ⟨_, hserved⟩
    · rw [heq, register_identity] at h
      split at h
      · next hid =>
        subst hid
        exact Or.inr ⟨f, now, rfl, hadm.trans h⟩
      · exact Or.inl h
    · rw [hserved.identity] at h
      exact Or.inl h
  | close i =>
    rw [step_close_identity] at h
    split at h
    · exact absurd h (by simp)
    · exact Or.inl h

/-- **An event keeps the registry, or runs one operation on it.** -/
theorem step_registry_cases (c : Coordinator) (e : Event) :
    (c.step e).registry = c.registry ∨
      ∃ op, (∀ ep, op ≠ .setEpoch ep) ∧ (c.step e).registry = c.registry.exec op := by
  cases e with
  | accept => exact Or.inl step_accept_registry
  | frame id f now =>
    rcases c.step_frame_cases id f now with ⟨conn, w, b, _, _, heq⟩ | ⟨_, hserved⟩
    · rw [heq]
      exact Or.inl rfl
    · rcases hserved.registry with h | ⟨w, b, op, _, hmade, h⟩
      · exact Or.inl h
      · exact Or.inr ⟨op, fun ep => by cases hmade <;> simp, h⟩
  | close id =>
    rw [step_close_registry]
    cases c.identity id with
    | none => exact Or.inl rfl
    | some who => exact Or.inr ⟨.invalidateForWorker who.1 who.2, by simp, rfl⟩

/-- Events leave the epoch alone. -/
theorem step_epoch (c : Coordinator) (e : Event) : (c.step e).registry.epoch = c.registry.epoch := by
  rcases c.step_registry_cases e with h | ⟨op, hop, h⟩
  · rw [h]
  · rw [h]
    exact FabricRegistry.exec_epoch _ op hop

/-- A coordinator as constructed has a reachable registry. -/
theorem fresh_reachable (epoch : CoordinatorEpoch) (persistPath : Str) (disk : Disk) :
    (fresh epoch persistPath disk).registry.Reachable := by
  have hnew : FabricRegistry.new.Reachable := ⟨_, Or.inl rfl, .refl⟩
  exact hnew.exec (.setEpoch epoch)

/-- Events lead from reachable registries to reachable ones. -/
theorem step_reachable (e : Event) (h : c.registry.Reachable) : (c.step e).registry.Reachable := by
  rcases c.step_registry_cases e with heq | ⟨op, _, heq⟩
  · rwa [heq]
  · rw [heq]
    exact h.exec op

end Coordinator

end NVSwitchFabric
