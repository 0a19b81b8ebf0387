import NVSwitchFabric.Correctness.Exclusive
import NVSwitchFabric.Correctness.LiveMeasurements
import NVSwitchFabric.Correctness.Publication

/-!
# `Correctness.CloseFrame` — what a close leaves alone

The close of a connection drops the active boot of its worker, if it is still that of the connection, and fences the records
attributed to its incarnation. Both are guarded by the incarnation, so the records of every other one stay
(`step_close_sameAmong`), whether or not the fencing goes through, and so does the active boot once a newer incarnation has
registered (`active_of_newer`). `close_own_incarnation` puts this together for the states that can be reached.
-/

namespace NVSwitchFabric

open Lib

/-! ## Records of an origin -/

/-- The snapshots hold the same records among those whose origin satisfies `p`. -/
structure FabricTopology.SameAmong (p : Origin → Prop) (t t' : FabricTopology) : Prop where
  devices    : t.devices.SameAmong (fun v => p v.toOrigin) t'.devices
  switches   : t.switches.SameAmong (fun v => p v.toOrigin) t'.switches
  ports      : t.ports.SameAmong (fun v => p v.toOrigin) t'.ports
  links      : t.links.SameAmong (fun v => p v.toOrigin) t'.links
  partitions : t.partitions.SameAmong (fun v => p v.toOrigin) t'.partitions

theorem FabricTopology.SameAmong.refl (p : Origin → Prop) (t : FabricTopology) : t.SameAmong p t :=
  ⟨.refl _ _, .refl _ _, .refl _ _, .refl _ _, .refl _ _⟩

/-- A record is of one incarnation. -/
theorem Origin.not_attributedTo {o : Origin} {w w' : WorkerId} {b b' : WorkerBootId} (h : o.attributedTo w' b' = true)
    (hne : (w', b') ≠ (w, b)) : o.attributedTo w b = false := by
  by_contra hown
  simp only [Origin.attributedTo, Bool.and_eq_true, decide_eq_true_eq, Bool.not_eq_false] at h hown
  exact hne (Prod.ext (h.1.2.symm.trans hown.1.2) (h.2.symm.trans hown.2))

variable {w : WorkerId} {b : WorkerBootId}

/-- **Fencing leaves the records of other origins alone.** -/
theorem sameAmong_fenced {p : Origin → Prop} (hother : ∀ o : Origin, p o → o.attributedTo w b = false)
    (t : FabricTopology) : t.SameAmong p (fenced w b t) where
  devices := SortedMap.sameAmong_mapVals (fun _ hv => DeviceRecord.fence_other (hother _ hv))
    (fun v hv => by rwa [DeviceRecord.fence_origin] at hv) _
  switches := SortedMap.sameAmong_mapVals (fun _ hv => SwitchRecord.fence_other (hother _ hv))
    (fun v hv => by rwa [SwitchRecord.fence_origin] at hv) _
  ports := SortedMap.sameAmong_mapVals (fun _ hv => SwitchPortRecord.fence_other (hother _ hv))
    (fun v hv => by rwa [SwitchPortRecord.fence_origin] at hv) _
  links := SortedMap.sameAmong_mapVals (fun _ hv => LinkRecord.fence_other (hother _ hv))
    (fun v hv => by rwa [LinkRecord.fence_origin] at hv) _
  partitions := SortedMap.sameAmong_mapVals (fun _ hv => FabricPartition.fence_other (hother _ hv))
    (fun v hv => by rwa [FabricPartition.fence_origin] at hv) _

namespace Coordinator

variable {c : Coordinator} {id : Nat}

/-! ## One close -/

/-- The records of other origins stay, whether or not the fencing goes through. -/
theorem step_close_sameAmong {p : Origin → Prop} (hid : c.identity id = some (w, b))
    (hother : ∀ o : Origin, p o → o.attributedTo w b = false) :
    c.registry.current.SameAmong p (c.step (.close id)).registry.current := by
  rcases c.step_current_cases (.close id) with heq | ⟨_, _, _, _, _, _, hframe, _⟩ | ⟨id', w', b', hclose, hid', _, heq⟩
  · rw [heq]
    exact .refl p _
  · exact absurd hframe (by simp)
  · obtain rfl := Event.close.inj hclose
    obtain ⟨rfl, rfl⟩ := Prod.mk.inj (Option.some.inj (hid.symm.trans hid'))
    rw [heq]
    exact { sameAmong_fenced hother c.registry.current with }

/-- **The active boots after a close**, as the guard in the source has it. -/
theorem step_close_activeBoot_eq (hid : c.identity id = some (w, b)) (x : WorkerId) :
    (c.step (.close id)).activeBoot.find? x =
      if x = w ∧ c.activeBoot.find? w = some b then none else c.activeBoot.find? x := by
  apply Option.ext
  intro y
  rw [step_close_activeBoot, hid]
  split
  · next hdrop =>
    obtain ⟨rfl, hactive⟩ := hdrop
    rw [hactive]
    simp
  · next hkeep =>
    refine and_iff_left_of_imp ?_
    rintro hactive heq
    obtain ⟨rfl, rfl⟩ := Prod.mk.inj (Option.some.inj heq)
    exact hkeep ⟨rfl, hactive⟩

/-! ## After a newer incarnation -/

/-- Once a newer incarnation has registered, the older one is not the active one. -/
theorem active_of_newer {c₀ : Coordinator} {j : Nat} {b' : WorkerBootId} (h₀ : c₀.Exclusive) (h : c.Exclusive)
    (hgrow : BootsGrow c₀ c) (hnewer : c₀.identity j = some (w, b')) (hlt : b < b') : c.activeBoot.find? w ≠ some b := by
  intro hactive
  obtain ⟨m, hm, hle⟩ := h₀.bounded hnewer
  obtain ⟨m', hm', hle'⟩ := hgrow hm
  -- the highest boot of the worker is at least the newer one
  rw [h.highest hactive] at hm'
  obtain rfl := Option.some.inj hm'
  exact absurd (hlt.trans_le (hle.trans hle')) (lt_irrefl _)

/-- **A close affects its own incarnation only.** In every state that a coordinator can reach, the close of a connection
    registered as `(w, b)` leaves the other connections, all records of other origins, the measurements, the highest boots
    and the active boots, but for that of `w` if it is `b`. Once a newer incarnation has registered, it leaves all active
    boots, and all records of that incarnation. -/
theorem close_own_incarnation (registry : FabricRegistry) (persistPath : Str) (disk : Disk)
    (hrun : Steps act Free (serving registry persistPath disk) c) (hid : c.identity id = some (w, b)) :
    (c.registry.current.SameAmong (fun o => o.attributedTo w b = false) (c.step (.close id)).registry.current ∧
      (c.step (.close id)).registry.measurements = c.registry.measurements) ∧
    (∀ i, i ≠ id → (c.step (.close id)).conns.find? i = c.conns.find? i) ∧
    (c.step (.close id)).maxBoot = c.maxBoot ∧
    (∀ x, (c.step (.close id)).activeBoot.find? x =
      if x = w ∧ c.activeBoot.find? w = some b then none else c.activeBoot.find? x) ∧
    ∀ c₀ j b', Steps act Free (serving registry persistPath disk) c₀ → Steps act Free c₀ c →
      c₀.identity j = some (w, b') → b < b' →
        (∀ x, (c.step (.close id)).activeBoot.find? x = c.activeBoot.find? x) ∧
          c.registry.current.SameAmong (fun o => o.attributedTo w b' = true)
            (c.step (.close id)).registry.current := by
  refine ⟨⟨step_close_sameAmong hid fun _ ho => ho, step_close_measurements id⟩, ?_, step_close_maxBoot id,
    step_close_activeBoot_eq hid, ?_⟩
  · intro i hi
    rw [step_close_conns, if_neg hi]
  · intro c₀ j b' hrun₀ hlater hnewer hlt
    have hnot := active_of_newer (reachable_exclusive hrun₀) (reachable_exclusive hrun) (bootsGrow_of_steps hlater)
      hnewer hlt
    refine ⟨fun x => ?_, step_close_sameAmong hid fun _ ho => Origin.not_attributedTo ho ?_⟩
    · rw [step_close_activeBoot_eq hid, if_neg fun hdrop => hnot hdrop.2]
    · intro heq
      exact absurd (Prod.mk.inj heq).2 (ne_of_gt hlt)

/-- A connection of incarnation 1 closes after incarnation 2 has registered on another one. -/
theorem close_own_incarnation_restarted :
    let w : WorkerId := ⟨ascii "w"⟩
    let register (id : Nat) (b : WorkerBootId) : Action :=
      .event (.frame id { type := .register, payload := encodeRegister 1 w b } 0)
    let c := runAll act (serving (FabricRegistry.new.setEpoch 1) [] .empty)
      [.event .accept, .event .accept, register 0 1, register 1 2]
    (c.identity 0 = some (w, 1) ∧ c.identity 1 = some (w, 2) ∧ c.activeBoot.find? w = some 2) ∧
      (c.step (.close 0)).activeBoot.find? w = some 2 ∧
        c.registry.current.SameAmong (fun o => o.attributedTo w 2 = true) (c.step (.close 0)).registry.current := by
  intro w register c
  have hrun : Steps act Free (serving (FabricRegistry.new.setEpoch 1) [] .empty) c := .of_runAll act _ _
  have hold : c.identity 0 = some (w, 1) := by decide +kernel
  have hnew : c.identity 1 = some (w, 2) := by decide +kernel
  have hactive : c.activeBoot.find? w = some 2 := by decide +kernel
  obtain ⟨_, _, _, _, hnewer⟩ := close_own_incarnation _ _ _ hrun hold
  obtain ⟨hboots, hrecords⟩ := hnewer c 1 2 hrun .refl hnew (by decide)
  exact ⟨⟨hold, hnew, hactive⟩, (hboots w).trans hactive, hrecords⟩

end Coordinator

end NVSwitchFabric
