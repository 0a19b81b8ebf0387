import NVSwitchFabric.Correctness.CoordinatorStep

/-!
# `Correctness.StaleBoot` — fencing traffic of older boots

The boot of a connection is checked against the highest one of its worker when it registers, and not again when it
publishes. So an older incarnation is fenced exactly as long as none is left open when a newer one registers:
`staleFenced_iff` says which states fence (`BootsCurrent`), `step_bootsCurrent_iff` which events keep them so
(`RegisterOk`), and `stale_boot_fencing_iff` puts the two together over runs.
-/

namespace NVSwitchFabric

open Lib

/-- The frame publishes something. -/
def Frame.Publishes (f : Frame) : Prop := f.type = .publishTopology ∨ f.type = .publishMeasurement

namespace Coordinator

variable {c : Coordinator}

/-- A publication changes the registry only on a connection whose boot is the highest one of its worker. -/
def StaleFenced (c : Coordinator) : Prop :=
  ∀ (id : Nat) (f : Frame) (now : UInt64), f.Publishes → (c.step (.frame id f now)).registry ≠ c.registry →
    ∃ w b, c.identity id = some (w, b) ∧ c.maxBoot.find? w = some b

/-- Every open registered connection has the highest boot of its worker. -/
def BootsCurrent (c : Coordinator) : Prop :=
  ∀ id w b, c.identity id = some (w, b) → c.maxBoot.find? w = some b

/-- The frame of a measurement from device `src` to device `dst`. -/
def measurementFrame (epoch : CoordinatorEpoch) (src dst : DeviceId) : Frame where
  type := .publishMeasurement
  payload := encodePublishMeasurement epoch { source := src, destination := dst }

/-! ## Which states fence -/

open Read (Reads) in
/-- **A measurement frame of the current epoch is read back.** -/
theorem readPublishMeasurement_encode (epoch : CoordinatorEpoch) (w : WorkerId) (b : WorkerBootId)
    (m : Measurement) :
    ∃ m', (readPublishMeasurement epoch w b).run? (encodePublishMeasurement epoch m) = some m' ∧
      m'.id = ⟨0⟩ := by
  have hread : Reads (readPublishMeasurement epoch w b) (ByteWriter.u64 epoch ++
      (ByteWriter.ident m.source ++ (ByteWriter.ident m.destination ++ (ByteWriter.u64 m.payloadBytes ++
        (ByteWriter.u64 m.iterations ++ (ByteWriter.u64 m.elapsedNanos ++ []))))))
      { source := m.source, destination := m.destination, sourceKnown := true, destinationKnown := true,
        payloadBytes := m.payloadBytes, iterations := m.iterations, elapsedNanos := m.elapsedNanos,
        elapsedKnown := true, kind := .syntheticFixture, provenance := .synthetic, workerKnown := true,
        worker := w, workerBoot := b, integrityVerified := true } := by
    refine (Reads.u64 epoch).bind ?_
    rw [if_neg (by simp)]
    exact (Reads.ident m.source).bind <| (Reads.ident m.destination).bind <|
      (Reads.u64 m.payloadBytes).bind <| (Reads.u64 m.iterations).bind <|
      (Reads.u64 m.elapsedNanos).bind <| Reads.pure _
  have hbytes : encodePublishMeasurement epoch m = ByteWriter.u64 epoch ++
      (ByteWriter.ident m.source ++ (ByteWriter.ident m.destination ++ (ByteWriter.u64 m.payloadBytes ++
        (ByteWriter.u64 m.iterations ++ (ByteWriter.u64 m.elapsedNanos ++ []))))) := rfl
  exact ⟨_, by rw [hbytes]; exact hread.run?, rfl⟩

/-- A fresh measurement always changes the registry: it takes an id. -/
theorem publishMeasurement_ne (r : FabricRegistry) {m : Measurement} (hid : m.id = ⟨0⟩) :
    (r.publishMeasurement m).2 ≠ r := by
  intro heq
  have hnext := congrArg FabricRegistry.nextMeasurementId heq
  have hfresh : (r.publishMeasurement m).2.nextMeasurementId = r.nextMeasurementId + 1 := by
    unfold FabricRegistry.publishMeasurement
    dsimp only
    rw [hid]
    rfl
  rw [hfresh] at hnext
  have hnat := congrArg UInt64.toNat hnext
  rw [UInt64.toNat_add] at hnat
  have hlt := r.nextMeasurementId.toNat_lt
  have hone : (1 : UInt64).toNat = 1 := rfl
  omega

/-- **A state fences older boots iff every open registered connection has the highest boot of its worker.** -/
theorem staleFenced_iff : c.StaleFenced ↔ c.BootsCurrent := by
  constructor
  · intro h id w b hid
    -- a measurement published on the connection gets through
    obtain ⟨conn, hconn⟩ := isOpen_of_identity hid
    obtain ⟨m, hm, hfresh⟩ := readPublishMeasurement_encode c.registry.epoch w b
      { source := ⟨0⟩, destination := ⟨0⟩ }
    have hreg : conn.registered = true ∧ conn.worker = w ∧ conn.boot = b := by
      rw [identity_of_find? hconn] at hid
      unfold Connection.identity at hid
      split at hid
      · next hreg =>
        obtain ⟨hw, hb⟩ := Prod.mk.inj (Option.some.inj hid)
        exact ⟨hreg, hw, hb⟩
      · exact absurd hid (by simp)
    have hstep : (c.step (.frame id (measurementFrame c.registry.epoch ⟨0⟩ ⟨0⟩) 0)).registry =
        (c.registry.publishMeasurement m).2 := by
      unfold step
      dsimp only
      rw [hconn]
      dsimp only
      unfold handleFrame measurementFrame
      dsimp only
      rw [if_pos hreg.1, hreg.2.1, hreg.2.2]
      unfold handlePublishMeasurement
      rw [hm]
    obtain ⟨w', b', hid', hmax⟩ := h id _ 0 (Or.inr rfl) (by
      rw [hstep]
      exact publishMeasurement_ne _ hfresh)
    obtain ⟨rfl, rfl⟩ := Prod.mk.inj (Option.some.inj (hid.symm.trans hid'))
    exact hmax
  · intro h id f now hpub hne
    have hadm : c.admits f = none := by
      unfold admits
      rw [if_pos]
      rcases hpub with htype | htype
      · rw [htype]; simp
      · rw [htype]; simp
    have hserved : Served c id (c.step (.frame id f now)) := step_frame_served now hadm
    rcases hserved.registry with heq | ⟨w, b, _, hid, _, _⟩
    · exact absurd heq hne
    · exact ⟨w, b, hid, h id w b hid⟩

/-! ## Which events keep them so -/

/-- The condition on an event: a REGISTER frame that is admitted for a worker finds no other open connection
    registered as an older boot of it. -/
def RegisterOk (c : Coordinator) : Event → Prop
  | .frame id f _ => c.IsOpen id → ∀ w b, c.admits f = some (w, b) →
      ∀ j b', j ≠ id → c.identity j = some (w, b') → ¬ b' < b
  | _             => True

/-- Registering keeps the boots current exactly if it leaves no older one open. -/
theorem register_bootsCurrent_iff {id : Nat} {f : Frame} {now : UInt64} {conn : Connection} {w : WorkerId}
    {b : WorkerBootId} (hconn : c.conns.find? id = some conn) (hadm : c.admits f = some (w, b))
    (h : c.BootsCurrent) : (c.register id conn w b).BootsCurrent ↔ c.RegisterOk (.frame id f now) := by
  constructor
  · intro hnext _ w' b' hadm' j b'' hj hid
    obtain ⟨rfl, rfl⟩ := Prod.mk.inj (Option.some.inj (hadm.symm.trans hadm'))
    have hmax := hnext j w b'' (by rw [register_identity, if_neg hj]; exact hid)
    rw [register_maxBoot hadm, if_pos rfl] at hmax
    rw [Option.some.inj hmax]
    exact lt_irrefl _
  · intro hok i x y hid
    rw [register_identity] at hid
    rw [register_maxBoot hadm]
    by_cases hi : i = id
    · rw [if_pos hi] at hid
      obtain ⟨rfl, rfl⟩ := Prod.mk.inj (Option.some.inj hid)
      rw [if_pos rfl]
    · rw [if_neg hi] at hid
      by_cases hx : x = w
      · -- another connection of the worker: not an older boot, and not a newer one either
        subst hx
        rw [if_pos rfl]
        have hnot : ¬ y < b := hok ⟨conn, hconn⟩ x b hadm i y hi hid
        rw [le_antisymm (not_lt.mp hnot) (le_of_admits hadm (h i x y hid))]
      · rw [if_neg hx]
        exact h i x y hid

/-- **From a state with current boots exactly the events that satisfy the condition lead to one.** -/
theorem step_bootsCurrent_iff (e : Event) (h : c.BootsCurrent) :
    (c.step e).BootsCurrent ↔ c.RegisterOk e := by
  cases e with
  | accept =>
    refine iff_of_true ?_ trivial
    intro i w b hid
    -- a new connection has no identity yet
    have hold : c.identity i = some (w, b) := by
      unfold step at hid
      dsimp only at hid
      split at hid
      · exact hid
      · have hid' : ((c.conns.insert c.connSeq {}).find? i).bind Connection.identity = some (w, b) := hid
        rw [identity_insert] at hid'
        split at hid'
        · exact absurd hid' (by simp [Connection.identity])
        · exact hid'
    rw [step_accept_maxBoot]
    exact h i w b hold
  | frame id f now =>
    rcases c.step_frame_cases id f now with ⟨conn, w, b, hconn, hadm, heq⟩ | ⟨hnone, hserved⟩
    · rw [heq]
      exact register_bootsCurrent_iff hconn hadm h
    · refine iff_of_true ?_ fun hopen w b hsome => absurd ((hnone hopen).symm.trans hsome) (by simp)
      intro i w b hid
      rw [hserved.identity] at hid
      rw [hserved.maxBoot]
      exact h i w b hid
  | close id =>
    refine iff_of_true ?_ trivial
    intro i w b hid
    rw [step_close_identity] at hid
    rw [step_close_maxBoot]
    split at hid
    · exact absurd hid (by simp)
    · exact h i w b hid

/-- **Stale-boot fencing over runs.** From a coordinator with no connections yet, exactly those runs fence older
    boots in all their states in which no worker registers while an older boot of it is open on another
    connection. -/
theorem stale_boot_fencing_iff (registry : FabricRegistry) (persistPath : Str) (disk : Disk)
    (events : List Event) :
    Always step StaleFenced (serving registry persistPath disk) events ↔
      Obeys step RegisterOk (serving registry persistPath disk) events := by
  have hinit : (serving registry persistPath disk).BootsCurrent := by
    intro id w b hid
    exact absurd hid (by simp [identity, serving])
  have hiff := always_iff_obeys (fun c e h => step_bootsCurrent_iff e h) hinit events
  exact (always_congr (fun _ => staleFenced_iff) _ _).trans hiff

/-- An old connection that stays open while a newer boot registers goes on changing the registry. -/
theorem open_old_boot_publishes :
    let w : WorkerId := ⟨ascii "w"⟩
    let c := runAll step (fresh 1 [] .empty)
      [.accept, .accept,
       .frame 0 { type := .register, payload := encodeRegister 1 w 1 } 0,
       .frame 1 { type := .register, payload := encodeRegister 1 w 2 } 0]
    let published := c.step (.frame 0 (measurementFrame 1 ⟨1⟩ ⟨2⟩) 0)
    c.identity 0 = some (w, 1) ∧ c.maxBoot.find? w = some 2 ∧ published.registry ≠ c.registry := by
  intro w c published
  refine ⟨by decide +kernel, by decide +kernel, ?_⟩
  intro heq
  have hbefore : c.registry.measurements.length = 0 := by decide +kernel
  have hafter : published.registry.measurements.length = 1 := by decide +kernel
  rw [heq, hbefore] at hafter
  exact absurd hafter (by decide)

end Coordinator

end NVSwitchFabric
