import NVSwitchFabric.Correctness.Rejoin

/-!
# `Correctness.Replacement` — when a publication replaces the earlier ones

A worker publishes a full topology snapshot, and the coordinator upserts its records. So the records the snapshot leaves
out stay as they were, in use if they were. `publications_replace_iff` says of which runs each publication replaces what
its incarnation published before: of those whose publications list everything of theirs that is in use.
-/

namespace NVSwitchFabric

open Lib

section
variable {κ α : Type} [LinearOrder κ] {key : α → κ} {g : α → α} {m : SortedMap κ α}

/-- Every used record of `m'` is made by `g` from the one that `m` has under the same key. -/
def UsedFrom (used : α → Bool) (g : α → α) (m m' : SortedMap κ α) : Prop :=
  ∀ k v, m'.find? k = some v → used v = true → ∃ u, m.find? k = some u ∧ v = g u

/-- The map has the key of every used record of `m'`. -/
def Lists (used : α → Bool) (m m' : SortedMap κ α) : Prop :=
  ∀ k v, m'.find? k = some v → used v = true → m.contains k = true

/-- **An upsert replaces what is used exactly if it lists it.** -/
theorem usedFrom_insertAll_iff (h : m.KeyedBy key) (hg : ∀ v, key (g v) = key v) (used : α → Bool)
    (m' : SortedMap κ α) :
    UsedFrom used g m (m'.insertAll key (m.entries.map fun e => g e.2)) ↔ Lists used m m' := by
  constructor
  · intro hfrom k v hv hused
    cases hk : m.find? k with
    | some u => exact SortedMap.contains_iff.mpr ⟨u, hk⟩
    | none =>
      -- left out, so still there
      have hstill : (m'.insertAll key (m.entries.map fun e => g e.2)).find? k = some v := by
        rw [h.find?_insertAll hg, hk]
        exact hv
      obtain ⟨u, hu, _⟩ := hfrom k v hstill hused
      exact absurd (hk.symm.trans hu) (by simp)
  · intro hlists k v hv hused
    rw [h.find?_insertAll hg] at hv
    cases hk : m.find? k with
    | some u =>
      rw [hk] at hv
      exact ⟨u, rfl, (Option.some.inj hv).symm⟩
    | none =>
      rw [hk] at hv
      obtain ⟨u, hu⟩ := SortedMap.contains_iff.mp (hlists k v hv hused)
      exact absurd (hk.symm.trans hu) (by simp)

end

namespace FabricTopology

variable {t topo : FabricTopology} {w : WorkerId} {b : WorkerBootId}

/-- Every record of `t` that is attributed to `(w, b)` and in use is one of `topo`, attributed to `(w, b)`. -/
structure OnlyFrom (topo : FabricTopology) (w : WorkerId) (b : WorkerBootId) (t : FabricTopology) : Prop where
  devices    : UsedFrom (fun v => v.attributedTo w b && endpointState v.state) (DeviceRecord.restamp w b)
                 topo.devices t.devices
  switches   : UsedFrom (fun v => v.attributedTo w b && endpointState v.state) (SwitchRecord.restamp w b)
                 topo.switches t.switches
  ports      : UsedFrom (fun v => v.attributedTo w b && endpointState v.state) (SwitchPortRecord.restamp w b)
                 topo.ports t.ports
  links      : UsedFrom (fun v => v.attributedTo w b && endpointState v.state) (LinkRecord.restamp w b)
                 topo.links t.links
  partitions : UsedFrom (fun v => v.attributedTo w b && decide (v.state = .active)) (FabricPartition.restamp w b)
                 topo.partitions t.partitions

/-- `topo` lists every entity whose record in `t` is attributed to `(w, b)` and in use. -/
structure ListsAll (topo : FabricTopology) (w : WorkerId) (b : WorkerBootId) (t : FabricTopology) : Prop where
  devices    : Lists (fun v => v.attributedTo w b && endpointState v.state) topo.devices t.devices
  switches   : Lists (fun v => v.attributedTo w b && endpointState v.state) topo.switches t.switches
  ports      : Lists (fun v => v.attributedTo w b && endpointState v.state) topo.ports t.ports
  links      : Lists (fun v => v.attributedTo w b && endpointState v.state) topo.links t.links
  partitions : Lists (fun v => v.attributedTo w b && decide (v.state = .active)) topo.partitions t.partitions

/-- **A publication replaces the earlier ones exactly if it lists all of theirs that is in use.** -/
theorem onlyFrom_upserted_iff (h : topo.Keyed) :
    topo.OnlyFrom w b (t.upserted (Coordinator.stampedBulk topo w b)) ↔ topo.ListsAll w b t := by
  have hd := usedFrom_insertAll_iff h.devices (DeviceRecord.restamp_id w b)
    (fun v => v.attributedTo w b && endpointState v.state) t.devices
  have hsw := usedFrom_insertAll_iff h.switches (SwitchRecord.restamp_id w b)
    (fun v => v.attributedTo w b && endpointState v.state) t.switches
  have hp := usedFrom_insertAll_iff h.ports (SwitchPortRecord.restamp_id w b)
    (fun v => v.attributedTo w b && endpointState v.state) t.ports
  have hl := usedFrom_insertAll_iff h.links (LinkRecord.restamp_id w b)
    (fun v => v.attributedTo w b && endpointState v.state) t.links
  have hpt := usedFrom_insertAll_iff h.partitions (FabricPartition.restamp_id w b)
    (fun v => v.attributedTo w b && decide (v.state = .active)) t.partitions
  constructor
  · rintro ⟨h₁, h₂, h₃, h₄, h₅⟩
    exact ⟨hd.mp h₁, hsw.mp h₂, hp.mp h₃, hl.mp h₄, hpt.mp h₅⟩
  · rintro ⟨h₁, h₂, h₃, h₄, h₅⟩
    exact ⟨hd.mpr h₁, hsw.mpr h₂, hp.mpr h₃, hl.mpr h₄, hpt.mpr h₅⟩

end FabricTopology

namespace Coordinator

variable {c : Coordinator}

/-- If the action is an applied publication, everything in use of its incarnation is afterwards from the topology it
    published. -/
def Replaces (c : Coordinator) : Action → Prop
  | .event (.frame id f now) => ∀ w b topo, c.publication id f = some (w, b, topo) →
      c.registry.Accepts (.applyBulk (stampedBulk topo w b)) →
      topo.OnlyFrom w b (c.step (.frame id f now)).registry.current
  | _ => True

/-- If the action is an applied publication, it lists everything in use of its incarnation. -/
def ListsItsOwn (c : Coordinator) : Action → Prop
  | .event (.frame id f _) => ∀ w b topo, c.publication id f = some (w, b, topo) →
      c.registry.Accepts (.applyBulk (stampedBulk topo w b)) → topo.ListsAll w b c.registry.current
  | _ => True

/-- What an applied publication leaves. -/
theorem publication_replaces_iff {id : Nat} {f : Frame} {w : WorkerId} {b : WorkerBootId} {topo : FabricTopology}
    (hpub : c.publication id f = some (w, b, topo)) (hacc : c.registry.Accepts (.applyBulk (stampedBulk topo w b)))
    (now : UInt64) :
    topo.OnlyFrom w b (c.step (.frame id f now)).registry.current ↔ topo.ListsAll w b c.registry.current := by
  rw [step_of_publication hpub now, exec_applyBulk_current hacc,
    ← FabricTopology.onlyFrom_upserted_iff (publication_keyed hpub)]
  exact ⟨fun h => { h with }, fun h => { h with }⟩

theorem replaces_iff (a : Action) : c.Replaces a ↔ c.ListsItsOwn a := by
  cases a with
  | mutate op => exact Iff.rfl
  | restore path => exact Iff.rfl
  | event e =>
    cases e with
    | accept => exact Iff.rfl
    | close id => exact Iff.rfl
    | frame id f now =>
      constructor
      · intro h w b topo hpub hacc
        exact (publication_replaces_iff hpub hacc now).mp (h w b topo hpub hacc)
      · intro h w b topo hpub hacc
        exact (publication_replaces_iff hpub hacc now).mpr (h w b topo hpub hacc)

/-- **Replacement over runs.** Whatever a coordinator goes through, each publication that is applied replaces the earlier
    ones of its incarnation exactly if each lists all of theirs that is in use. -/
theorem publications_replace_iff (c : Coordinator) (actions : List Action) :
    Obeys act Replaces c actions ↔ Obeys act ListsItsOwn c actions :=
  obeys_congr (fun _ a => replaces_iff a) c actions

/-- Two devices. -/
def twoDevices : FabricTopology :=
  { devices := oneDevice.devices.insert ⟨2⟩ (makeSyntheticDevice ⟨2⟩ (ascii "Synthetic") .up) }

/-- A worker has published two devices. -/
def publishedTwo : Coordinator := connected.step (.frame 0 (publishes 1 twoDevices) 0)

/-- A worker publishes two devices, and then one. -/
def dropsDevice : List Action :=
  [.event .accept, .event (registers 0 1), .event (.frame 0 (publishes 1 twoDevices) 0),
    .event (.frame 0 (publishes 1 oneDevice) 0)]

/-- The second device stays in use. -/
theorem dropped_device_stays : ¬ Obeys act Replaces (fresh 1 [] .empty) dropsDevice := by
  rintro ⟨_, _, _, hlast, _⟩
  have hreplaces : publishedTwo.Replaces (.event (.frame 0 (publishes 1 oneDevice) 0)) := hlast
  have hpub : publishedTwo.publication 0 (publishes 1 oneDevice) = some (⟨ascii "w"⟩, 1, oneDevice) :=
    publication_publishes (by decide +kernel) (by decide +kernel) oneDevice_encodable
      (FabricTopology.checkIntegrity_eq_nil_iff.mp (by decide +kernel)) (by decide +kernel)
  have hacc : publishedTwo.registry.Accepts (.applyBulk (stampedBulk oneDevice ⟨ascii "w"⟩ 1)) :=
    accepts_of_id_ne (by decide +kernel)
  have honly : oneDevice.OnlyFrom ⟨ascii "w"⟩ 1 (publishedTwo.step (.frame 0 (publishes 1 oneDevice) 0)).registry.current :=
    hreplaces ⟨ascii "w"⟩ 1 oneDevice hpub hacc
  have hstays : ((publishedTwo.step (.frame 0 (publishes 1 oneDevice) 0)).registry.current.devices.find? ⟨2⟩).any
      (fun v => v.attributedTo ⟨ascii "w"⟩ 1 && endpointState v.state) = true := by decide +kernel
  obtain ⟨v, hv, hused⟩ := (Option.any_eq_true _ _).mp hstays
  obtain ⟨u, hu, _⟩ := honly.devices ⟨2⟩ v hv hused
  have hnone : oneDevice.devices.contains ⟨2⟩ = false := by decide +kernel
  rw [SortedMap.contains_iff.mpr ⟨u, hu⟩] at hnone
  exact absurd hnone (by simp)

end Coordinator

end NVSwitchFabric
