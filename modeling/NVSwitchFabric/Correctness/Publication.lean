import NVSwitchFabric.Correctness.CoordinatorStep
import NVSwitchFabric.Correctness.Fencing

/-!
# `Correctness.Publication` — what reaches the snapshot from the connections

Of the frames of a connection only a topology publication writes the snapshot. `publication` says which frames are
one, by whom and of what; `publication_publishFrame` that the frame a worker sends for its topology is. Together with
the fencing at a close that is all that happens to the snapshot: `step_current_cases`.
-/

namespace NVSwitchFabric

open Lib

/-! ## Bulk upserts -/

/-- The candidate of `applyBulk`. -/
def FabricTopology.upserted (e : BulkEdit) (t : FabricTopology) : FabricTopology :=
  { t with
    devices := t.devices.insertAll (·.id) e.devices
    switches := t.switches.insertAll (·.id) e.switches
    ports := t.ports.insertAll (·.id) e.ports
    links := t.links.insertAll (·.id) e.links
    partitions := t.partitions.insertAll (·.id) e.partitions
    topologyGen := t.topologyGen.next }

theorem accepts_applyBulk_iff {r : FabricRegistry} {e : BulkEdit} :
    r.Accepts (.applyBulk e) ↔ FabricTopology.Admissible r.current (r.committed (r.current.upserted e)) := by
  constructor
  · rintro ⟨cand, hed, hadm⟩
    cases hed
    exact hadm
  · intro hadm
    exact ⟨_, .applyBulk, hadm⟩

/-- An accepted bulk edit is published. -/
theorem exec_applyBulk_current {r : FabricRegistry} {e : BulkEdit} (h : r.Accepts (.applyBulk e)) :
    (r.exec (.applyBulk e)).current = r.committed (r.current.upserted e) :=
  Edited.exec_current .applyBulk (accepts_applyBulk_iff.mp h)

namespace Coordinator

variable {c : Coordinator} {id : Nat} {f : Frame} {w : WorkerId} {b : WorkerBootId} {topo : FabricTopology}

/-! ## Publications -/

/-- The publication a frame on connection `id` makes: the incarnation the connection is registered as and the topology
    it sent, if the payload names the current epoch and that incarnation and its blob decodes. -/
def publication (c : Coordinator) (id : Nat) (f : Frame) : Option (WorkerId × WorkerBootId × FabricTopology) :=
  if f.type ≠ .publishTopology then none
  else match c.identity id with
    | none        => none
    | some (w, b) =>
      match (readPublishTopology c.registry.epoch w b).run? f.payload with
      | none      => none
      | some blob =>
        match decodeTopology blob with
        | .error _ => none
        | .ok topo => some (w, b, topo)

/-- **Inversion of a publication.** -/
theorem publication_eq_some_iff :
    c.publication id f = some (w, b, topo) ↔
      f.type = .publishTopology ∧ c.identity id = some (w, b) ∧
        ∃ blob, (readPublishTopology c.registry.epoch w b).run? f.payload = some blob ∧
          decodeTopology blob = .ok topo := by
  constructor
  · intro h
    unfold publication at h
    split at h
    · exact absurd h (by simp)
    next htype =>
    split at h
    · exact absurd h (by simp)
    next w' b' hid =>
    split at h
    · exact absurd h (by simp)
    next blob hread =>
    split at h
    · exact absurd h (by simp)
    next topo' hdec =>
    simp only [Option.some.injEq, Prod.mk.injEq] at h
    obtain ⟨rfl, rfl, rfl⟩ := h
    exact ⟨not_not.mp htype, hid, blob, hread, hdec⟩
  · rintro ⟨htype, hid, blob, hread, hdec⟩
    unfold publication
    rw [if_neg (not_not.mpr htype), hid]
    dsimp only
    rw [hread]
    dsimp only
    rw [hdec]

/-- Whatever is published keeps its records under their ids. -/
theorem publication_keyed (h : c.publication id f = some (w, b, topo)) : topo.Keyed := by
  obtain ⟨_, _, blob, _, hdec⟩ := publication_eq_some_iff.mp h
  exact (decodeTopology_encodable hdec).1.keyed

/-- **A publication is one bulk edit.** -/
theorem step_of_publication (h : c.publication id f = some (w, b, topo)) (now : UInt64) :
    (c.step (.frame id f now)).registry = c.registry.exec (.applyBulk (stampedBulk topo w b)) := by
  obtain ⟨htype, hid, blob, hread, hdec⟩ := publication_eq_some_iff.mp h
  obtain ⟨conn, hconn⟩ := isOpen_of_identity hid
  rw [identity_of_find? hconn] at hid
  unfold Connection.identity at hid
  split at hid
  next hreg =>
    obtain ⟨rfl, rfl⟩ := Prod.mk.inj (Option.some.inj hid)
    unfold step
    dsimp only
    rw [hconn]
    show (c.handleFrame id conn f now).registry = _
    unfold handleFrame
    rw [htype]
    dsimp only
    rw [if_pos hreg]
    unfold handlePublishTopology
    rw [hread]
    dsimp only
    rw [hdec]
    -- persisting writes the disk only
    show ((c.applyWorkerTopology topo conn.worker conn.boot).autoPersist).registry = _
    unfold autoPersist
    split <;> rfl
  next => exact absurd hid (by simp)

/-- A frame that publishes nothing leaves the snapshot alone. -/
theorem step_of_no_publication (h : c.publication id f = none) (now : UInt64) :
    (c.step (.frame id f now)).registry.current = c.registry.current := by
  unfold step
  dsimp only
  cases hconn : c.conns.find? id with
  | none => rfl
  | some conn =>
    show (c.handleFrame id conn f now).registry.current = _
    unfold handleFrame
    split
    · split <;> rfl
    · next htype =>
      split
      · next hreg =>
        have hid : c.identity id = some (conn.worker, conn.boot) := by
          rw [identity_of_find? hconn, identity_of_registered hreg]
        unfold handlePublishTopology
        split
        · rfl
        next blob hread =>
        split
        · rfl
        next topo hdec =>
        -- read and decoded, this would be a publication
        have hpub := publication_eq_some_iff.mpr ⟨htype, hid, blob, hread, hdec⟩
        exact absurd (h.symm.trans hpub) (by simp)
      · rfl
    · split
      · unfold handlePublishMeasurement
        split <;> rfl
      · rfl
    · split
      · unfold handleQueryRoute
        split
        · rfl
        split <;> rfl
      · rfl
    · rfl
    · rfl

/-- **Inversion.** An event keeps the snapshot, or publishes a topology that validation accepts, or closes a connection
    whose incarnation can be fenced. -/
theorem step_current_cases (c : Coordinator) (e : Event) :
    (c.step e).registry.current = c.registry.current ∨
    (∃ id f now w b topo, e = .frame id f now ∧ c.publication id f = some (w, b, topo) ∧
      c.registry.Accepts (.applyBulk (stampedBulk topo w b)) ∧
      (c.step e).registry.current =
        c.registry.committed (c.registry.current.upserted (stampedBulk topo w b))) ∨
    (∃ id w b, e = .close id ∧ c.identity id = some (w, b) ∧
      FabricTopology.Admissible c.registry.current (c.registry.committed (fenced w b c.registry.current)) ∧
      (c.step e).registry.current = c.registry.committed (fenced w b c.registry.current)) := by
  cases e with
  | accept => exact Or.inl (by rw [step_accept_registry])
  | frame id f now =>
    cases hpub : c.publication id f with
    | none => exact Or.inl (step_of_no_publication hpub now)
    | some p =>
      obtain ⟨w, b, topo⟩ := p
      rw [step_of_publication hpub now]
      by_cases hacc : c.registry.Accepts (.applyBulk (stampedBulk topo w b))
      · exact Or.inr (Or.inl ⟨id, f, now, w, b, topo, rfl, hpub, hacc, exec_applyBulk_current hacc⟩)
      · exact Or.inl (exec_current_of_not_accepts hacc)
  | close id =>
    rw [step_close_registry]
    cases hid : c.identity id with
    | none => exact Or.inl rfl
    -- the registered worker is fenced, if the candidate passes
    | some who =>
      obtain ⟨w, b⟩ := who
      have hpublish : c.registry.invalidateForWorker w b =
          c.registry.publish "" (fenced w b c.registry.current) := rfl
      show (c.registry.invalidateForWorker w b).2.current = _ ∨ _
      rw [hpublish]
      rcases FabricRegistry.publish_current_cases "" (fenced w b c.registry.current) c.registry with h | ⟨h, hadm⟩
      · exact Or.inl h
      · exact Or.inr (Or.inr ⟨id, w, b, rfl, hid, hadm, h⟩)

/-! ## The frame of a topology -/

/-- The frame a worker sends to publish its topology. -/
def publishFrame (epoch : CoordinatorEpoch) (w : WorkerId) (b : WorkerBootId) (topo : FabricTopology) : Frame where
  type := .publishTopology
  payload := encodePublishTopology epoch w b topo

open Read (Reads) in
/-- The coordinator reads the blob that the sender embedded. -/
theorem readPublishTopology_encode (epoch : CoordinatorEpoch) (b : WorkerBootId) (hw : w.value.length ≤ Read.maxStr)
    (hsize : (encodeTopology topo).length ≤ Limits.kMaxFrameBytes) :
    (readPublishTopology epoch w b).run? (encodePublishTopology epoch w b topo) = some (encodeTopology topo) := by
  have hlen : (UInt32.ofNat (encodeTopology topo).length).toNat = (encodeTopology topo).length := by
    apply Read.toNat_ofNat_of_lt
    have hmax : Limits.kMaxFrameBytes < 2 ^ 32 := by decide
    omega
  have hread : Reads (readPublishTopology epoch w b)
      (ByteWriter.u8 kWireProtocolVersion ++ (ByteWriter.u64 epoch ++ (ByteWriter.str w.value ++
        (ByteWriter.u64 b ++ (ByteWriter.u32 (UInt32.ofNat (encodeTopology topo).length) ++
          encodeTopology topo))))) (encodeTopology topo) := by
    refine (Reads.u8 _).bind <| (Reads.u64 _).bind <| (Reads.str _ hw).bind <| (Reads.u64 _).bind <|
      (Reads.u32 _).bind ?_
    rw [if_neg (by simp), if_neg (by simp), hlen, if_neg (not_lt.mpr hsize)]
    exact Reads.bytes (encodeTopology topo)
  have hpayload : encodePublishTopology epoch w b topo =
      ByteWriter.u8 kWireProtocolVersion ++ (ByteWriter.u64 epoch ++ (ByteWriter.str w.value ++
        (ByteWriter.u64 b ++ (ByteWriter.u32 (UInt32.ofNat (encodeTopology topo).length) ++
          encodeTopology topo)))) := by
    unfold encodePublishTopology
    simp
  rw [hpayload]
  exact hread.run?

/-- **A topology is published by its frame**, on a connection registered as the sender. -/
theorem publication_publishFrame (hid : c.identity id = some (w, b)) (hw : w.value.length ≤ Read.maxStr)
    (ht : topo.Encodable) (hint : topo.Integral)
    (hsize : (encodeTopology topo).length ≤ Limits.kMaxFrameBytes) :
    c.publication id (publishFrame c.registry.epoch w b topo) = some (w, b, topo) :=
  publication_eq_some_iff.mpr ⟨rfl, hid, encodeTopology topo, readPublishTopology_encode c.registry.epoch b hw hsize,
    decodeTopology_encodeTopology ht hint⟩

end Coordinator

end NVSwitchFabric
