import NVSwitchFabric.Correctness.LiveEvidence

/-!
# `Correctness.LiveMeasurements` — measurements and the connections behind them

A measurement counts while it is matched. Only an expiry unmatches measurements; the fencing of an incarnation rewrites
the snapshot, and the measurements are kept beside it. So whoever leaves an incarnation that has measurements stored
leaves them matched, unless another connection is registered as it too. `measurements_backed_iff` says that nothing else
leaves a matched measurement without a connection behind it.
-/

namespace NVSwitchFabric

open Lib

/-! ## Stored measurements -/

namespace FabricRegistry

variable {r : FabricRegistry} {w : WorkerId} {b : WorkerBootId}

/-- A matched measurement of incarnation `(w, b)` is stored. -/
def Measured (r : FabricRegistry) (w : WorkerId) (b : WorkerBootId) : Prop :=
  ∃ m ∈ r.measurements, m.workerKnown = true ∧ m.matched = true ∧ m.worker = w ∧ m.workerBoot = b

theorem publish_measurements (pre : String) (cand : FabricTopology) (r : FabricRegistry) :
    (r.publish pre cand).2.measurements = r.measurements := by
  unfold publish
  split <;> rfl

theorem applyBulk_measurements (e : BulkEdit) (r : FabricRegistry) :
    (r.applyBulk e).2.measurements = r.measurements := by
  unfold applyBulk
  split
  · rfl
  · exact publish_measurements _ _ r

/-- Fencing an incarnation leaves its measurements as they are. -/
theorem invalidateForWorker_measurements (w : WorkerId) (b : WorkerBootId) (r : FabricRegistry) :
    (r.invalidateForWorker w b).2.measurements = r.measurements := publish_measurements "" _ r

/-- A measurement that is stored now is the one just published, or was stored before. -/
theorem measured_publishMeasurement {m : Measurement} (h : (r.publishMeasurement m).2.Measured w b) :
    (m.worker = w ∧ m.workerBoot = b) ∨ r.Measured w b := by
  obtain ⟨m', hm', hknown, hmatched, hw, hb⟩ := h
  rcases List.mem_append.mp hm' with hkept | hnew
  · have hold : m' ∈ r.measurements := by
      split at hkept
      · exact List.mem_of_mem_tail hkept
      · exact hkept
    exact Or.inr ⟨m', hold, hknown, hmatched, hw, hb⟩
  · obtain rfl := List.mem_singleton.mp hnew
    exact Or.inl ⟨hw, hb⟩

end FabricRegistry

/-- A measurement that is read is attributed to the identity of the connection. -/
theorem readPublishMeasurement_attributed {epoch : CoordinatorEpoch} {w : WorkerId} {b : WorkerBootId}
    {payload : List UInt8} {m : Measurement} (h : (readPublishMeasurement epoch w b).run? payload = some m) :
    m.worker = w ∧ m.workerBoot = b := by
  have hread : readPublishMeasurement epoch w b { buf := payload } =
      (some m, (readPublishMeasurement epoch w b { buf := payload }).2) := Prod.ext h rfl
  unfold readPublishMeasurement at hread
  obtain ⟨ep, _, _, hread⟩ := Read.bind_some hread
  split at hread
  · exact absurd hread Read.reject_some
  · obtain ⟨src, _, _, hread⟩ := Read.bind_some hread
    obtain ⟨dst, _, _, hread⟩ := Read.bind_some hread
    obtain ⟨bytes, _, _, hread⟩ := Read.bind_some hread
    obtain ⟨iters, _, _, hread⟩ := Read.bind_some hread
    obtain ⟨nanos, _, _, hread⟩ := Read.bind_some hread
    obtain ⟨rfl, _⟩ := Read.pure_some hread
    exact ⟨rfl, rfl⟩

namespace Coordinator

variable {c : Coordinator} {w : WorkerId} {b : WorkerBootId}

/-! ## Events -/

theorem handlePublishTopology_measurements (w : WorkerId) (b : WorkerBootId) (payload : List UInt8) :
    (c.handlePublishTopology w b payload).registry.measurements = c.registry.measurements := by
  unfold handlePublishTopology
  split
  · rfl
  split
  · rfl
  · next topo _ =>
    have happlied : (c.applyWorkerTopology topo w b).registry.measurements = c.registry.measurements :=
      FabricRegistry.applyBulk_measurements _ c.registry
    unfold autoPersist
    split
    · exact happlied
    · exact happlied

theorem handlePublishMeasurement_measured {w₀ : WorkerId} {b₀ : WorkerBootId} {payload : List UInt8}
    (h : (c.handlePublishMeasurement w₀ b₀ payload).registry.Measured w b) :
    (w₀, b₀) = (w, b) ∨ c.registry.Measured w b := by
  unfold handlePublishMeasurement at h
  split at h
  · exact Or.inr h
  · next m hread =>
    obtain ⟨hw, hb⟩ := readPublishMeasurement_attributed hread
    rcases FabricRegistry.measured_publishMeasurement h with ⟨hmw, hmb⟩ | hold
    · exact Or.inl (Prod.ext (hw.symm.trans hmw) (hb.symm.trans hmb))
    · exact Or.inr hold

theorem handleQueryRoute_measurements (id : Nat) (conn : Connection) (payload : List UInt8) (now : UInt64) :
    (c.handleQueryRoute id conn payload now).registry.measurements = c.registry.measurements := by
  unfold handleQueryRoute
  split
  · rfl
  split <;> rfl

/-- **A frame brings measurements of the incarnation its connection is registered as, and no others.** -/
theorem step_frame_measured {id : Nat} {f : Frame} {now : UInt64}
    (h : (c.step (.frame id f now)).registry.Measured w b) :
    c.identity id = some (w, b) ∨ c.registry.Measured w b := by
  unfold step at h
  dsimp only at h
  cases hconn : c.conns.find? id with
  | none =>
    rw [hconn] at h
    exact Or.inr h
  | some conn =>
    rw [hconn] at h
    replace h : (c.handleFrame id conn f now).registry.Measured w b := h
    have hid : conn.registered = true → c.identity id = some (conn.worker, conn.boot) := by
      intro hreg
      rw [identity_of_find? hconn, identity_of_registered hreg]
    have hkept : ∀ {r : FabricRegistry}, r.measurements = c.registry.measurements → r.Measured w b →
        c.registry.Measured w b := by
      rintro r heq ⟨m, hm, hrest⟩
      exact ⟨m, heq ▸ hm, hrest⟩
    unfold handleFrame at h
    split at h
    · split at h <;> exact Or.inr h
    · split at h
      · exact Or.inr (hkept (handlePublishTopology_measurements _ _ _) h)
      · exact Or.inr h
    · split at h
      · next hreg => exact (handlePublishMeasurement_measured h).imp_left fun heq => (hid hreg).trans (congrArg some heq)
      · exact Or.inr h
    · split at h
      · exact Or.inr (hkept (handleQueryRoute_measurements _ _ _ _) h)
      · exact Or.inr h
    · exact Or.inr h
    · exact Or.inr h

/-- A close leaves the measurements as they are. -/
theorem step_close_measurements (id : Nat) :
    (c.step (.close id)).registry.measurements = c.registry.measurements := by
  rw [step_close_registry]
  cases c.identity id with
  | none => rfl
  | some who => exact FabricRegistry.invalidateForWorker_measurements who.1 who.2 c.registry

/-! ## Backing -/

/-- Every matched measurement of an incarnation has an open connection registered as it. -/
def MeasurementsBacked (c : Coordinator) : Prop :=
  ∀ m ∈ c.registry.measurements, m.workerKnown = true → m.matched = true →
    ∃ id, c.identity id = some (m.worker, m.workerBoot)

/-- The condition on an event. No matched measurement is stored of an incarnation that only this connection is registered
    as, when it registers as another one or closes. -/
def MeasurementsOk (c : Coordinator) : Event → Prop
  | .accept       => True
  | .frame id f _ => ∀ w b who, c.identity id = some (w, b) → c.admits f = some who → who ≠ (w, b) →
      c.Alone id (w, b) → ¬ c.registry.Measured w b
  | .close id     => ∀ w b, c.identity id = some (w, b) → c.Alone id (w, b) → ¬ c.registry.Measured w b

theorem measurementsBacked_iff : c.MeasurementsBacked ↔ c.BackedBy FabricRegistry.Measured := by
  constructor
  · rintro h w b ⟨m, hm, hknown, hmatched, rfl, rfl⟩
    exact h m hm hknown hmatched
  · intro h m hm hknown hmatched
    exact h m.worker m.workerBoot ⟨m, hm, hknown, hmatched, rfl, rfl⟩

/-- **From a backed state exactly the events that satisfy the condition lead to a backed state.** -/
theorem step_measurementsBacked_iff (e : Event) (hsound : c.Sound) (h : c.MeasurementsBacked) :
    (c.step e).MeasurementsBacked ↔ c.MeasurementsOk e := by
  rw [measurementsBacked_iff] at h ⊢
  cases e with
  | accept =>
    refine iff_of_true ?_ trivial
    intro w b hmeasured
    rw [step_accept_registry] at hmeasured
    obtain ⟨i, hi⟩ := h w b hmeasured
    exact ⟨i, (step_accept_identity hsound.ids i).trans hi⟩
  | frame id f now =>
    rcases c.step_frame_cases id f now with ⟨conn, w, b, _, hadm, heq⟩ | ⟨hnone, hserved⟩
    · have hiff := h.iff_of_leaves (@register_identity c id conn w b) fun _ _ => Iff.rfl
      rw [heq, hiff]
      constructor
      · intro hok w₀ b₀ who hid hwho hne
        obtain rfl := Option.some.inj (hadm.symm.trans hwho)
        exact hok w₀ b₀ hid fun hsame => hne (Option.some.inj hsame)
      · intro hok w₀ b₀ hid hne
        exact hok w₀ b₀ (w, b) hid hadm fun hsame => hne (congrArg some hsame)
    · refine iff_of_true (h.of_identity hserved.identity id fun _ _ => step_frame_measured) ?_
      intro w b who hid hwho
      have hnot := hnone (isOpen_of_identity hid)
      exact absurd (hnot.symm.trans hwho) (by simp)
  | close id =>
    have hsame : ∀ w b, (c.step (.close id)).registry.Measured w b ↔ c.registry.Measured w b := by
      intro w b
      unfold FabricRegistry.Measured
      rw [step_close_measurements]
    rw [h.iff_of_leaves (step_close_identity id) hsame]
    exact ⟨fun hok w b hid => hok w b hid (by simp), fun hok w b hid _ => hok w b hid⟩

/-- **Measurements are backed over runs.** From a fresh coordinator, exactly those runs keep all matched measurements
    backed in all their states whose events satisfy the condition. -/
theorem measurements_backed_iff (epoch : CoordinatorEpoch) (persistPath : Str) (disk : Disk) (events : List Event) :
    Always step MeasurementsBacked (fresh epoch persistPath disk) events ↔
      Obeys step MeasurementsOk (fresh epoch persistPath disk) events := by
  have hempty : (fresh epoch persistPath disk).MeasurementsBacked := by
    intro m hm
    exact absurd hm (by simp [fresh, serving, FabricRegistry.setEpoch, FabricRegistry.new])
  exact always_iff_obeys_of step_sound (fun _ e hs hb => step_measurementsBacked_iff e hs hb)
    (fresh_sound epoch persistPath disk) hempty events

/-- A worker registers, publishes a measurement and leaves. -/
def measuresAndLeaves : List Event :=
  [.accept,
   .frame 0 { type := .register, payload := encodeRegister 1 ⟨ascii "w"⟩ 1 } 0,
   .frame 0 { type := .publishMeasurement,
              payload := encodePublishMeasurement 1 { source := ⟨1⟩, destination := ⟨2⟩, elapsedNanos := 1 } } 0,
   .close 0]

/-- The measurement stays matched, with nobody behind it. -/
theorem left_measurement_unbacked : ¬ Always step MeasurementsBacked (fresh 1 [] .empty) measuresAndLeaves := by
  intro hall
  have hstored : (runAll step (fresh 1 [] .empty) measuresAndLeaves).registry.measurements.any
      (fun m => m.workerKnown && m.matched) = true := by decide +kernel
  obtain ⟨m, hm, hcounts⟩ := List.any_eq_true.mp hstored
  rw [Bool.and_eq_true] at hcounts
  obtain ⟨id, hid⟩ := hall.last m hm hcounts.1 hcounts.2
  -- no connection is open
  obtain ⟨conn, hconn⟩ := isOpen_of_identity hid
  have hkeys : (runAll step (fresh 1 [] .empty) measuresAndLeaves).conns.keys = [] := by decide +kernel
  have hmem : id ∈ (runAll step (fresh 1 [] .empty) measuresAndLeaves).conns.keys :=
    List.mem_map.mpr ⟨_, SortedMap.find?_eq_some_iff.mp hconn, rfl⟩
  rw [hkeys] at hmem
  exact absurd hmem (by simp)

end Coordinator

end NVSwitchFabric
