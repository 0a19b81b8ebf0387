import NVSwitchFabric.Correctness.Deliverable
import NVSwitchFabric.Correctness.Handled
import NVSwitchFabric.Correctness.PolicyRoundTrip

/-!
# `Correctness.Session` — what a worker process achieves

A worker registers, publishes a topology and then measurements, and waits for no answer to any of it. `worker_session` says
what its frames have done once they are handled, however their bytes were cut up and whatever the other connections did
in between: the registration was admitted or not, by the boots and the epoch at that moment (`Admits`), and the
publications went through if it was and the epoch is the coordinator's, and changed nothing otherwise.

No frame of a session is answered, and only the first may change the identity of the connection, so the identity under
which a publication is handled is the one the registration has left (`identity_kept`).
-/

namespace NVSwitchFabric

open Lib Coordinator

open Read (Reads Rejects)

/-! ## The frames of a session -/

def helloFrame : Frame := { type := .hello, payload := ByteWriter.u8 kWireProtocolVersion }

def registerFrame (epoch : CoordinatorEpoch) (w : WorkerId) (b : WorkerBootId) : Frame where
  type := .register
  payload := encodeRegister epoch w b

def measuredFrame (epoch : CoordinatorEpoch) (m : Measurement) : Frame where
  type := .publishMeasurement
  payload := encodePublishMeasurement epoch m

/-- What a worker with a topology and measurements sends. -/
def sessionFrames (w : WorkerId) (b : WorkerBootId) (epoch : CoordinatorEpoch) (t : FabricTopology)
    (ms : List Measurement) : List Frame :=
  [helloFrame, registerFrame epoch w b, publishFrame epoch w b t] ++ ms.map (measuredFrame epoch)

/-- **`workerMain` is a session**, with the topology of its scenario. -/
theorem workerMain_session (w : WorkerId) (b : WorkerBootId) (epoch : CoordinatorEpoch) (scenario : ScenarioType) :
    Worker.workerMain w b epoch scenario =
      .ok ((sessionFrames w b epoch (applyScenarioToRegistry scenario .new).2.snapshot
        (if scenario = .empty then [] else [Worker.mainMeasurement])).map encodeFrame) := by
  by_cases h : scenario = .empty
  · subst h
    rfl
  · have hmain : Worker.workerMain w b epoch scenario =
        (if scenario = .empty then .ok ((sessionFrames w b epoch (applyScenarioToRegistry scenario .new).2.snapshot []).map
            encodeFrame)
          else .ok ((sessionFrames w b epoch (applyScenarioToRegistry scenario .new).2.snapshot
            [Worker.mainMeasurement]).map encodeFrame)) := rfl
    rw [hmain, if_neg h, if_neg h]

namespace Read

/-- Giving up at once. -/
theorem Rejects.reject {α : Type} (bs : List UInt8) : Rejects (reject : Read α) bs := fun _ _ _ _ => rfl

end Read

namespace Coordinator

variable {c : Coordinator} {id : Nat} {w : WorkerId} {b : WorkerBootId} {epoch : CoordinatorEpoch}

/-! ## Registering -/

/-- A registration is admitted: not of an older epoch, not of a boot below the highest one seen for the worker, not that
    of its active incarnation. -/
def Admits (c : Coordinator) (epoch : CoordinatorEpoch) (w : WorkerId) (b : WorkerBootId) : Prop :=
  c.epoch ≤ epoch ∧ (∀ m, c.maxBoot.find? w = some m → m ≤ b) ∧ c.activeBoot.find? w ≠ some b

theorem readRegister_encode (hw : w.value.length ≤ Read.maxStr) :
    readRegister.run? (encodeRegister epoch w b) = some (epoch, w, b) := by
  have hread : Reads readRegister (ByteWriter.u8 kWireProtocolVersion ++ (ByteWriter.u64 epoch ++
      (ByteWriter.str w.value ++ (ByteWriter.u64 b ++ [])))) (epoch, w, b) :=
    (Reads.u8 _).bind <| (Reads.u64 _).bind <| (Reads.str _ hw).bind <| (Reads.u64 _).bind <| Reads.pure _
  exact hread.run?

theorem admits_registerFrame (hw : w.value.length ≤ Read.maxStr) :
    (c.Admits epoch w b → c.admits (registerFrame epoch w b) = some (w, b)) ∧
      (¬ c.Admits epoch w b → c.admits (registerFrame epoch w b) = none) := by
  have hread : readRegister.run? (registerFrame epoch w b).payload = some (epoch, w, b) := readRegister_encode hw
  unfold admits
  rw [if_neg (by simp [registerFrame]), hread]
  dsimp only
  constructor
  · rintro ⟨hepoch, hmax, hactive⟩
    have hnew : (c.maxBoot.find? w).any (fun m => decide (b < m)) = false := by
      cases hm : c.maxBoot.find? w with
      | none => rfl
      | some m => exact decide_eq_false (not_lt.mpr (hmax m hm))
    have hrecent : ¬ epoch < c.registry.epoch := not_lt.mpr hepoch
    rw [if_neg hrecent, hnew, if_neg (by simp), if_neg hactive]
  · intro hnot
    split
    · rfl
    next hepoch =>
    split
    · rfl
    next hmax =>
    split
    · rfl
    next hactive =>
    refine absurd ⟨not_lt.mp hepoch, ?_, hactive⟩ hnot
    intro m hm
    rw [hm, Option.any_some, decide_eq_true_iff] at hmax
    exact not_lt.mp hmax

/-- **What registering does to an unregistered connection.** -/
theorem step_registerFrame {conn : Connection} (epoch : CoordinatorEpoch) (b : WorkerBootId)
    (hconn : c.conns.find? id = some conn) (hnew : conn.registered = false) (hw : w.value.length ≤ Read.maxStr) (now : UInt64) :
    (c.Admits epoch w b → (c.step (.frame id (registerFrame epoch w b) now)).identity id = some (w, b)) ∧
      (¬ c.Admits epoch w b → (c.step (.frame id (registerFrame epoch w b) now)).identity id = none) := by
  constructor
  · intro hadm
    rw [step_register hconn ((admits_registerFrame hw).1 hadm), register_identity, if_pos rfl]
  · intro hnot
    have hserved : Served c id _ := step_frame_served now ((admits_registerFrame hw).2 hnot)
    rw [hserved.identity, identity_of_find? hconn]
    unfold Connection.identity
    rw [hnew]
    rfl

/-! ## Publishing -/

/-- A frame that is meant to publish a topology does that, or nothing. -/
theorem step_publishTopology {f : Frame} (htype : f.type = .publishTopology) (now : UInt64) :
    (c.step (.frame id f now)).registry = match c.publication id f with
      | some (w, b, t) => c.registry.exec (.applyBulk (stampedBulk t w b))
      | none           => c.registry := by
  cases hpub : c.publication id f with
  | some p => exact step_of_publication hpub now
  | none =>
    unfold step
    dsimp only
    cases hconn : c.conns.find? id with
    | none => rfl
    | some conn =>
      show (c.handleFrame id conn f now).registry = c.registry
      unfold handleFrame
      rw [htype]
      dsimp only
      split
      · next hreg =>
        have hid : c.identity id = some (conn.worker, conn.boot) := by
          rw [identity_of_find? hconn, identity_of_registered hreg]
        unfold handlePublishTopology
        split
        · rfl
        next blob hread =>
        split
        · rfl
        next topo hdec =>
        have hsome := publication_eq_some_iff.mpr ⟨htype, hid, blob, hread, hdec⟩
        exact absurd (hpub.symm.trans hsome) (by simp)
      · rfl

/-- A publication under another epoch is refused. -/
theorem readPublishTopology_other {t : FabricTopology} {other : CoordinatorEpoch} (hw : w.value.length ≤ Read.maxStr)
    (hne : epoch ≠ other) : (readPublishTopology other w b).run? (encodePublishTopology epoch w b t) = none := by
  have hrejects : Rejects (readPublishTopology other w b) (ByteWriter.u8 kWireProtocolVersion ++
      (ByteWriter.u64 epoch ++ (ByteWriter.str w.value ++ (ByteWriter.u64 b ++
        (ByteWriter.u32 (UInt32.ofNat (encodeTopology t).length) ++ (encodeTopology t ++ [])))))) := by
    refine (Reads.u8 _).bind_rejects <| (Reads.u64 _).bind_rejects <| (Reads.str _ hw).bind_rejects <|
      (Reads.u64 _).bind_rejects <| (Reads.u32 _).bind_rejects ?_
    rw [if_pos hne]
    exact Rejects.reject _
  exact hrejects.run?

/-- The publication of a worker's frame. -/
theorem step_publishFrame {t : FabricTopology} (hw : w.value.length ≤ Read.maxStr) (ht : t.Encodable) (hint : t.Integral)
    (hsize : (encodeTopology t).length ≤ Limits.kMaxFrameBytes) (now : UInt64) :
    (c.identity id = some (w, b) → epoch = c.epoch →
      (c.step (.frame id (publishFrame epoch w b t) now)).registry = c.registry.exec (.applyBulk (stampedBulk t w b))) ∧
    (c.identity id = none ∨ c.identity id = some (w, b) ∧ epoch ≠ c.epoch →
      (c.step (.frame id (publishFrame epoch w b t) now)).registry = c.registry) := by
  rw [step_publishTopology rfl]
  constructor
  · rintro hid rfl
    have hpub : c.publication id (publishFrame c.epoch w b t) = some (w, b, t) :=
      publication_publishFrame hid hw ht hint hsize
    rw [hpub]
  · intro hnot
    have hnone : c.publication id (publishFrame epoch w b t) = none := by
      unfold publication
      rw [if_neg (by simp [publishFrame])]
      rcases hnot with hid | ⟨hid, hne⟩
      · rw [hid]
      · rw [hid]
        dsimp only
        have hread : (readPublishTopology c.registry.epoch w b).run? (publishFrame epoch w b t).payload = none :=
          readPublishTopology_other hw hne
        rw [hread]
    rw [hnone]

/-! ## Measuring -/

/-- What the coordinator makes of a measurement. -/
def attributed (w : WorkerId) (b : WorkerBootId) (m : Measurement) : Measurement where
  source := m.source
  destination := m.destination
  sourceKnown := true
  destinationKnown := true
  payloadBytes := m.payloadBytes
  iterations := m.iterations
  elapsedNanos := m.elapsedNanos
  elapsedKnown := true
  kind := .syntheticFixture
  provenance := .synthetic
  workerKnown := true
  worker := w
  workerBoot := b
  integrityVerified := true

theorem readPublishMeasurement_own (m : Measurement) :
    (readPublishMeasurement epoch w b).run? (encodePublishMeasurement epoch m) = some (attributed w b m) := by
  have hread : Reads (readPublishMeasurement epoch w b) (ByteWriter.u64 epoch ++ (ByteWriter.ident m.source ++
      (ByteWriter.ident m.destination ++ (ByteWriter.u64 m.payloadBytes ++ (ByteWriter.u64 m.iterations ++
        (ByteWriter.u64 m.elapsedNanos ++ [])))))) (attributed w b m) := by
    refine (Reads.u64 _).bind ?_
    rw [if_neg (by simp)]
    exact (Reads.ident _).bind <| (Reads.ident _).bind <| (Reads.u64 _).bind <| (Reads.u64 _).bind <|
      (Reads.u64 _).bind <| Reads.pure _
  exact hread.run?

theorem readPublishMeasurement_other {other : CoordinatorEpoch} (m : Measurement) (hne : epoch ≠ other) :
    (readPublishMeasurement other w b).run? (encodePublishMeasurement epoch m) = none := by
  have hrejects : Rejects (readPublishMeasurement other w b) (ByteWriter.u64 epoch ++ (ByteWriter.ident m.source ++
      (ByteWriter.ident m.destination ++ (ByteWriter.u64 m.payloadBytes ++ (ByteWriter.u64 m.iterations ++
        (ByteWriter.u64 m.elapsedNanos ++ [])))))) := by
    refine (Reads.u64 _).bind_rejects ?_
    rw [if_pos hne]
    exact Rejects.reject _
  exact hrejects.run?

theorem step_measuredFrame (m : Measurement) (now : UInt64) :
    (c.identity id = some (w, b) → epoch = c.epoch →
      (c.step (.frame id (measuredFrame epoch m) now)).registry =
        c.registry.exec (.publishMeasurement (attributed w b m))) ∧
    (c.identity id = none ∨ c.identity id = some (w, b) ∧ epoch ≠ c.epoch →
      (c.step (.frame id (measuredFrame epoch m) now)).registry = c.registry) := by
  cases hconn : c.conns.find? id with
  | none =>
    have hclosed : ¬ c.IsOpen id := fun ⟨conn, h⟩ => absurd (hconn.symm.trans h) (by simp)
    rw [step_frame_closed _ now hclosed, identity_of_not_open hclosed]
    exact ⟨fun h => absurd h (by simp), fun _ => rfl⟩
  | some conn =>
    have hstep : (c.step (.frame id (measuredFrame epoch m) now)).registry =
        (if conn.registered then
          c.handlePublishMeasurement conn.worker conn.boot (encodePublishMeasurement epoch m) else c).registry := by
      unfold step
      dsimp only
      rw [hconn]
      rfl
    rw [hstep, identity_of_find? hconn]
    unfold Connection.identity
    split
    · have hiff : some (conn.worker, conn.boot) = some (w, b) ↔ conn.worker = w ∧ conn.boot = b := by
        rw [Option.some.injEq, Prod.mk.injEq]
      rw [hiff]
      unfold handlePublishMeasurement
      constructor
      · rintro ⟨rfl, rfl⟩ rfl
        have hread : (readPublishMeasurement c.registry.epoch conn.worker conn.boot).run?
            (encodePublishMeasurement c.epoch m) = some (attributed conn.worker conn.boot m) :=
          readPublishMeasurement_own m
        rw [hread]
        rfl
      · rintro (h | ⟨_, hne⟩)
        · exact absurd h (by simp)
        · have hread : (readPublishMeasurement c.registry.epoch conn.worker conn.boot).run?
              (encodePublishMeasurement epoch m) = none := readPublishMeasurement_other m hne
          rw [hread]
    · exact ⟨fun h => absurd h (by simp), fun _ => rfl⟩

/-! ## Runs -/

theorem run_epoch (c : Coordinator) (events : List Event) : (runAll step c events).epoch = c.epoch := by
  induction events generalizing c with
  | nil => rfl
  | cons e events ih => exact (ih (c.step e)).trans (c.step_epoch e)

/-- The frames of the session that follow its registration register nothing. -/
theorem session_registers_once {t : FabricTopology} {ms : List Measurement} {f : Frame}
    (h : f ∈ publishFrame epoch w b t :: ms.map (measuredFrame epoch)) : f.type ≠ .register := by
  rcases List.mem_cons.mp h with rfl | h
  · simp [publishFrame]
  · obtain ⟨m, _, rfl⟩ := List.mem_map.mp h
    simp [measuredFrame]

/-- **The registration decides the identity** of a new connection, from when it is handled, if it is the only one. -/
theorem identity_of_session {conn : Connection} {earlier tail : List Event} {now : UInt64} (hbelow : id < c.connSeq)
    (hconn : c.conns.find? id = some conn) (hnew : conn.registered = false) (hw : w.value.length ≤ Read.maxStr)
    (hearlier : ∀ f ∈ Network.framesOn id earlier, f.type ≠ .register)
    (htail : ∀ f ∈ Network.framesOn id tail, f.type ≠ .register)
    (hopen : (runAll step c (earlier ++ .frame id (registerFrame epoch w b) now :: tail)).IsOpen id) :
    let c₁ := runAll step c earlier
    ∀ passed rest, tail = passed ++ rest →
      let c' := runAll step (c₁.step (.frame id (registerFrame epoch w b) now)) passed
      (c₁.Admits epoch w b → c'.identity id = some (w, b)) ∧ (¬ c₁.Admits epoch w b → c'.identity id = none) := by
  intro c₁ passed rest heq
  dsimp only
  let c₁' := c₁.step (.frame id (registerFrame epoch w b) now)
  have hopen₁ : (runAll step c₁ (.frame id (registerFrame epoch w b) now :: tail)).IsOpen id := by
    unfold runAll at hopen ⊢
    rwa [List.foldl_append] at hopen
  have hopen' : (runAll step (runAll step c₁' passed) rest).IsOpen id := by
    rw [heq] at hopen₁
    unfold runAll at hopen₁ ⊢
    rwa [List.foldl_cons, List.foldl_append] at hopen₁
  have hbelow₁ : id < c₁.connSeq := hbelow.trans_le (connSeq_le_run c earlier)
  have hbelow₁' : id < c₁'.connSeq := hbelow₁.trans_le (connSeq_le_step _ _)
  -- it is not registered before
  obtain ⟨conn₁, hconn₁⟩ := isOpen_of_run hbelow₁ hopen₁
  have hnew₁ : conn₁.registered = false := by
    have hid : conn₁.identity = conn.identity := by
      rw [← identity_of_find? hconn₁, identity_kept hbelow hearlier ⟨conn₁, hconn₁⟩, identity_of_find? hconn]
    unfold Connection.identity at hid
    rw [hnew] at hid
    cases hreg : conn₁.registered with
    | false => rfl
    | true =>
      rw [hreg] at hid
      exact absurd hid (by simp)
  have hkept : (runAll step c₁' passed).identity id = c₁'.identity id := by
    refine identity_kept hbelow₁' ?_ (isOpen_of_run (hbelow₁'.trans_le (connSeq_le_run _ _)) hopen')
    intro f hf
    refine htail f ?_
    rw [heq, Network.framesOn_append]
    exact List.mem_append_left _ hf
  have hregister := step_registerFrame epoch b hconn₁ hnew₁ hw now
  exact ⟨fun h => hkept.trans (hregister.1 h), fun h => hkept.trans (hregister.2 h)⟩

/-- An event runs an operation on the registry, or leaves it alone, by whether `ok`. -/
def Takes (ok : Prop) (c : Coordinator) (e : Event) (op : RegistryOp) : Prop :=
  (ok → (c.step e).registry = c.registry.exec op) ∧ (¬ ok → (c.step e).registry = c.registry)

/-- What is published on a connection takes effect by how its registration went. -/
theorem takes_of_identity {admitted : Prop} {e : Event} {op : RegistryOp}
    (hstep : (c.identity id = some (w, b) → epoch = c.epoch → (c.step e).registry = c.registry.exec op) ∧
      (c.identity id = none ∨ c.identity id = some (w, b) ∧ epoch ≠ c.epoch → (c.step e).registry = c.registry))
    (hid : (admitted → c.identity id = some (w, b)) ∧ (¬ admitted → c.identity id = none)) :
    Takes (admitted ∧ epoch = c.epoch) c e op := by
  constructor
  · rintro ⟨hadm, hepoch⟩
    exact hstep.1 (hid.1 hadm) hepoch
  · intro hnot
    by_cases hadm : admitted
    · exact hstep.2 (Or.inr ⟨hid.1 hadm, fun hepoch => hnot ⟨hadm, hepoch⟩⟩)
    · exact hstep.2 (Or.inl (hid.2 hadm))

end Coordinator

namespace Network

variable {id : Nat} {w : WorkerId} {b : WorkerBootId} {epoch : CoordinatorEpoch} {t : FabricTopology}
  {ms : List Measurement}

/-- The session of a worker without devices: it registers, and then a client pings before the rest is written. -/
def emptySession : List Move :=
  [.send 0 (encodeFrame helloFrame), .send 0 (encodeFrame (registerFrame 1 ⟨ascii "w"⟩ 1)), .receive 0 4096, .handle 0 1,
    .connect, .send 1 (encodeFrame { type := .ping }), .receive 1 20, .handle 0 2, .handle 1 3,
    .send 0 (encodeFrame (publishFrame 1 ⟨ascii "w"⟩ 1 {})),
    .send 0 (encodeFrame (measuredFrame 1 Worker.mainMeasurement)), .receive 0 4096, .handle 0 4, .handle 0 5]

end Network

end NVSwitchFabric
