import NVSwitchFabric.Correctness.Generations
import NVSwitchFabric.Correctness.LiveEvidence
import NVSwitchFabric.Correctness.Publication

/-!
# `Correctness.Rejoin` — a restarted worker publishes its topology again

When the connection of an incarnation ends, its records are fenced, which advances their generations; validation then
refuses any bulk edit that would bring one of them back at its old generation. So the next incarnation of the worker
cannot publish the topology of the one before, unless it lists nothing but devices. `rejoin_iff` is the exact
condition: along the run, what has become of the records is one of two relations to the topology, `restamped`
(as published) or `held` (attributed still, their generations advanced).
-/

namespace NVSwitchFabric

open Lib

/-! ## Restamping a record -/

section
variable (w : WorkerId) (b : WorkerBootId)

/-- The record, attributed to `(w, b)`. -/
def DeviceRecord.restamp (v : DeviceRecord) : DeviceRecord := { v with toOrigin := v.toOrigin.stamp w b }

def SwitchRecord.restamp (v : SwitchRecord) : SwitchRecord := { v with toOrigin := v.toOrigin.stamp w b }

def SwitchPortRecord.restamp (v : SwitchPortRecord) : SwitchPortRecord := { v with toOrigin := v.toOrigin.stamp w b }

def LinkRecord.restamp (v : LinkRecord) : LinkRecord := { v with toOrigin := v.toOrigin.stamp w b }

def FabricPartition.restamp (v : FabricPartition) : FabricPartition := { v with toOrigin := v.toOrigin.stamp w b }

@[simp] theorem DeviceRecord.restamp_id (v : DeviceRecord) : (v.restamp w b).id = v.id := rfl
@[simp] theorem SwitchRecord.restamp_id (v : SwitchRecord) : (v.restamp w b).id = v.id := rfl
@[simp] theorem SwitchPortRecord.restamp_id (v : SwitchPortRecord) : (v.restamp w b).id = v.id := rfl
@[simp] theorem LinkRecord.restamp_id (v : LinkRecord) : (v.restamp w b).id = v.id := rfl
@[simp] theorem FabricPartition.restamp_id (v : FabricPartition) : (v.restamp w b).id = v.id := rfl

@[simp] theorem SwitchRecord.restamp_gen (v : SwitchRecord) : (v.restamp w b).gen = v.gen := rfl
@[simp] theorem SwitchPortRecord.restamp_gen (v : SwitchPortRecord) : (v.restamp w b).gen = v.gen := rfl
@[simp] theorem LinkRecord.restamp_gen (v : LinkRecord) : (v.restamp w b).gen = v.gen := rfl
@[simp] theorem FabricPartition.restamp_gen (v : FabricPartition) : (v.restamp w b).gen = v.gen := rfl

end

/-! ## Counterparts of the records of a topology -/

/-- A relation between records, for each kind of them. -/
structure RecordRel where
  device    : DeviceRecord → DeviceRecord → Prop
  switch    : SwitchRecord → SwitchRecord → Prop
  port      : SwitchPortRecord → SwitchPortRecord → Prop
  link      : LinkRecord → LinkRecord → Prop
  partition : FabricPartition → FabricPartition → Prop

/-- The record, at a generation that is no smaller and, when `advanced` says so, larger, is still attributed. -/
def StillHeld {α Tag : Type} (attributed : α → Bool) (gen : α → Gen Tag) (advanced : Prop) (v v' : α) : Prop :=
  attributed v' = true ∧ gen v ≤ gen v' ∧ (advanced → gen v < gen v')

section
variable {κ α Tag : Type} [LinearOrder κ] {attributed : α → Bool} {gen : α → Gen Tag} {P : Prop} {f : α → α}
  {m m' : SortedMap κ α}

/-- Fencing that decreases no generation lets go of no record. -/
theorem StillHeld.mapVals (h : m.Mirrored (StillHeld attributed gen P) m')
    (horigin : ∀ v, attributed (f v) = attributed v) (hgrow : StampsGrow gen m' (m'.mapVals f)) :
    m.Mirrored (StillHeld attributed gen P) (m'.mapVals f) := by
  apply h.mapVals
  rintro k v v' hv' ⟨hattr, hle, hlt⟩
  have hstep : gen v' ≤ gen (f v') := stampsGrow_mapVals.mp hgrow k v' hv'
  exact ⟨(horigin v').trans hattr, hle.trans hstep, fun hP => (hlt hP).trans_le hstep⟩

/-- Fencing the incarnation that holds the records advances them all. -/
theorem StillHeld.advanced (h : m.Mirrored (StillHeld attributed gen P) m')
    (horigin : ∀ v, attributed (f v) = attributed v)
    (hgen : ∀ v, gen (f v) = if attributed v then (gen v).next else gen v) (hleft : GensLeft attributed gen m') :
    m.Mirrored (StillHeld attributed gen True) (m'.mapVals f) := by
  apply h.mapVals
  rintro k v v' hv' ⟨hattr, hle, _⟩
  have hnext : gen (f v') = (gen v').next := by rw [hgen, if_pos hattr]
  have hlt : gen v < gen (f v') := by
    rw [hnext]
    exact hle.trans_lt (Gen.lt_next.mpr (hleft.find? hv' hattr))
  exact ⟨(horigin v').trans hattr, hlt.le, fun _ => hlt⟩

end

namespace RecordRel

variable (w : WorkerId) (b : WorkerBootId)

/-- The same record, attributed to `(w, b)`. -/
def restamped : RecordRel where
  device v v' := v' = v.restamp w b
  switch v v' := v' = v.restamp w b
  port v v' := v' = v.restamp w b
  link v v' := v' = v.restamp w b
  partition v v' := v' = v.restamp w b

/-- The same for the records that have a generation; devices are there. -/
def reusable : RecordRel := { restamped w b with device := fun _ _ => True }

/-- A record attributed to `(w, b)` at the generation it had or a later one; a strictly later one if `advanced`. -/
def held (advanced : Prop) : RecordRel where
  device _ v' := v'.attributedTo w b = true
  switch := StillHeld (fun v => v.attributedTo w b) (·.gen) advanced
  port := StillHeld (fun v => v.attributedTo w b) (·.gen) advanced
  link := StillHeld (fun v => v.attributedTo w b) (·.gen) advanced
  partition := StillHeld (fun v => v.attributedTo w b) (·.gen) advanced

end RecordRel

namespace FabricTopology

/-- Every record of `t` has a counterpart in `t'`. -/
structure Mirrored (R : RecordRel) (t t' : FabricTopology) : Prop where
  devices    : t.devices.Mirrored R.device t'.devices
  switches   : t.switches.Mirrored R.switch t'.switches
  ports      : t.ports.Mirrored R.port t'.ports
  links      : t.links.Mirrored R.link t'.links
  partitions : t.partitions.Mirrored R.partition t'.partitions

/-- The topologies have records under one id. -/
def Overlaps (t t' : FabricTopology) : Prop :=
  (∃ k, t.devices.contains k = true ∧ t'.devices.contains k = true) ∨
  (∃ k, t.switches.contains k = true ∧ t'.switches.contains k = true) ∨
  (∃ k, t.ports.contains k = true ∧ t'.ports.contains k = true) ∨
  (∃ k, t.links.contains k = true ∧ t'.links.contains k = true) ∨
  (∃ k, t.partitions.contains k = true ∧ t'.partitions.contains k = true)

/-- The topology lists no record that has a generation. -/
structure Ungenerated (t : FabricTopology) : Prop where
  switches   : t.switches = .empty
  ports      : t.ports = .empty
  links      : t.links = .empty
  partitions : t.partitions = .empty

variable {t cur topo : FabricTopology} {R R' : RecordRel} {w w₂ : WorkerId} {b b₂ : WorkerBootId} {r : FabricRegistry}

/-- Publishing a topology mirrors it, restamped. -/
theorem Keyed.mirrored_upserted (h : t.Keyed) (w : WorkerId) (b : WorkerBootId) (cur : FabricTopology) :
    t.Mirrored (.restamped w b) (cur.upserted (Coordinator.stampedBulk t w b)) where
  devices := h.devices.mirrored_insertAll (DeviceRecord.restamp_id w b) _
  switches := h.switches.mirrored_insertAll (SwitchRecord.restamp_id w b) _
  ports := h.ports.mirrored_insertAll (SwitchPortRecord.restamp_id w b) _
  links := h.links.mirrored_insertAll (LinkRecord.restamp_id w b) _
  partitions := h.partitions.mirrored_insertAll (FabricPartition.restamp_id w b) _

/-- Records of another topology have other ids. -/
theorem contains_eq_false_of_apart {κ α : Type} [LinearOrder κ] {key : α → κ} {g : α → α} {m m' : SortedMap κ α}
    (hkeyed : m'.KeyedBy key) (hg : ∀ v, key (g v) = key v)
    (hno : ¬ ∃ k, m'.contains k = true ∧ m.contains k = true) :
    ∀ r ∈ m'.entries.map fun e => g e.2, m.contains (key r) = false := by
  intro r hr
  obtain ⟨v, hv, _⟩ := hkeyed.mem_map_entries hg hr
  rw [Bool.eq_false_iff]
  intro hcon
  exact hno ⟨key r, SortedMap.contains_iff.mpr ⟨v, hv⟩, hcon⟩

/-- A publication that shares no id with `t` leaves the counterparts alone. -/
theorem Mirrored.upserted (h : t.Mirrored R cur) (hkeyed : topo.Keyed) (hno : ¬ topo.Overlaps t) :
    t.Mirrored R (cur.upserted (Coordinator.stampedBulk topo w b)) := by
  unfold Overlaps at hno
  rw [not_or, not_or, not_or, not_or] at hno
  obtain ⟨hd, hs, hp, hl, hpt⟩ := hno
  exact {
    devices := h.devices.insertAll (contains_eq_false_of_apart hkeyed.devices (DeviceRecord.restamp_id w b) hd)
    switches := h.switches.insertAll (contains_eq_false_of_apart hkeyed.switches (SwitchRecord.restamp_id w b) hs)
    ports := h.ports.insertAll (contains_eq_false_of_apart hkeyed.ports (SwitchPortRecord.restamp_id w b) hp)
    links := h.links.insertAll (contains_eq_false_of_apart hkeyed.links (LinkRecord.restamp_id w b) hl)
    partitions := h.partitions.insertAll (contains_eq_false_of_apart hkeyed.partitions (FabricPartition.restamp_id w b) hpt) }

/-- Only the records count. -/
theorem Mirrored.of_sameRecords {cur' : FabricTopology} (h : t.Mirrored R cur) (hsame : cur.SameRecords cur') :
    t.Mirrored R cur' := by
  obtain ⟨hd, hs, hp, hl, hpt⟩ := hsame
  constructor
  · rw [hd]
    exact h.devices
  · rw [hs]
    exact h.switches
  · rw [hp]
    exact h.ports
  · rw [hl]
    exact h.links
  · rw [hpt]
    exact h.partitions

theorem Mirrored.committed {cand : FabricTopology} (h : t.Mirrored R cand) : t.Mirrored R (r.committed cand) :=
  h.of_sameRecords ⟨rfl, rfl, rfl, rfl, rfl⟩

/-- Fencing another incarnation leaves restamped records alone. -/
theorem Mirrored.fenced_other (h : t.Mirrored (.restamped w b) cur) (hne : (w, b) ≠ (w₂, b₂)) :
    t.Mirrored (.restamped w b) (fenced w₂ b₂ cur) := by
  have hother : ∀ o : Origin, (o.stamp w b).attributedTo w₂ b₂ = false := by
    intro o
    rw [Bool.eq_false_iff]
    intro hattr
    exact hne (Origin.attributedTo_stamp hattr)
  exact {
    devices := h.devices.mapVals fun _ v v' _ hR => (DeviceRecord.fence_other (hR ▸ hother v.toOrigin)).trans hR
    switches := h.switches.mapVals fun _ v v' _ hR => (SwitchRecord.fence_other (hR ▸ hother v.toOrigin)).trans hR
    ports := h.ports.mapVals fun _ v v' _ hR => (SwitchPortRecord.fence_other (hR ▸ hother v.toOrigin)).trans hR
    links := h.links.mapVals fun _ v v' _ hR => (LinkRecord.fence_other (hR ▸ hother v.toOrigin)).trans hR
    partitions := h.partitions.mapVals fun _ v v' _ hR =>
      (FabricPartition.fence_other (hR ▸ hother v.toOrigin)).trans hR }

/-- Fencing whomever keeps held records held. -/
theorem Mirrored.fenced_held {P : Prop} (h : t.Mirrored (.held w b P) cur)
    (hadm : Admissible cur (r.committed (fenced w₂ b₂ cur))) : t.Mirrored (.held w b P) (fenced w₂ b₂ cur) where
  devices := h.devices.mapVals fun _ _ v' _ hattr => by
    show (v'.fence w₂ b₂).toOrigin.attributedTo w b = true
    rw [DeviceRecord.fence_origin]
    exact hattr
  switches := StillHeld.mapVals h.switches (fun v => by rw [SwitchRecord.fence_origin]) hadm.switchGen
  ports := StillHeld.mapVals h.ports (fun v => by rw [SwitchPortRecord.fence_origin]) hadm.portGen
  links := StillHeld.mapVals h.links (fun v => by rw [LinkRecord.fence_origin]) hadm.linkGen
  partitions := StillHeld.mapVals h.partitions (fun v => by rw [FabricPartition.fence_origin]) hadm.partitionGen

/-- Fencing the incarnation itself advances all its records that have a generation. -/
theorem Mirrored.fenced_self {P : Prop} (h : t.Mirrored (.held w b P) cur)
    (hadm : Admissible cur (r.committed (fenced w b cur))) : t.Mirrored (.held w b True) (fenced w b cur) where
  devices := (h.fenced_held hadm).devices
  switches := StillHeld.advanced h.switches (fun v => by rw [SwitchRecord.fence_origin]) (SwitchRecord.fence_gen w b)
    ((stampsGrow_fence_iff (SwitchRecord.fence_gen w b)).mp hadm.switchGen)
  ports := StillHeld.advanced h.ports (fun v => by rw [SwitchPortRecord.fence_origin])
    (SwitchPortRecord.fence_gen w b) ((stampsGrow_fence_iff (SwitchPortRecord.fence_gen w b)).mp hadm.portGen)
  links := StillHeld.advanced h.links (fun v => by rw [LinkRecord.fence_origin]) (LinkRecord.fence_gen w b)
    ((stampsGrow_fence_iff (LinkRecord.fence_gen w b)).mp hadm.linkGen)
  partitions := StillHeld.advanced h.partitions (fun v => by rw [FabricPartition.fence_origin])
    (FabricPartition.fence_gen w b) ((stampsGrow_fence_iff (FabricPartition.fence_gen w b)).mp hadm.partitionGen)

/-! ## Publishing again -/

/-- A record as it was published is held. -/
theorem Mirrored.held_of_restamped (h : t.Mirrored (.restamped w b) cur) : t.Mirrored (.held w b False) cur := by
  have hattr : ∀ o : Origin, (o.stamp w b).attributedTo w b = true := by
    intro o
    exact Origin.attributedTo_iff.mpr ⟨rfl, rfl, rfl⟩
  refine ⟨h.devices.mono ?_, h.switches.mono ?_, h.ports.mono ?_, h.links.mono ?_, h.partitions.mono ?_⟩
  · rintro v _ rfl
    exact hattr v.toOrigin
  · rintro v _ rfl
    exact ⟨hattr v.toOrigin, le_rfl, False.elim⟩
  · rintro v _ rfl
    exact ⟨hattr v.toOrigin, le_rfl, False.elim⟩
  · rintro v _ rfl
    exact ⟨hattr v.toOrigin, le_rfl, False.elim⟩
  · rintro v _ rfl
    exact ⟨hattr v.toOrigin, le_rfl, False.elim⟩

theorem Mirrored.reusable_of_restamped (h : t.Mirrored (.restamped w b) cur) : t.Mirrored (.reusable w b) cur :=
  ⟨h.devices.mono fun _ _ _ => trivial, h.switches, h.ports, h.links, h.partitions⟩

/-- Without generations it is enough that the devices are there. -/
theorem Ungenerated.reusable (ht : t.Ungenerated) (h : t.Mirrored R cur) : t.Mirrored (.reusable w b) cur := by
  have hnone : ∀ {κ α : Type} [LinearOrder κ] {S : α → α → Prop} {m m' : SortedMap κ α}, m = .empty →
      m.Mirrored S m' := by
    rintro κ α _ S m m' rfl k v hv
    exact absurd hv (by simp)
  exact ⟨h.devices.mono fun _ _ _ => trivial, hnone ht.switches, hnone ht.ports, hnone ht.links,
    hnone ht.partitions⟩

/-- **Records that stand as published can be published again**, while the topology generation has room. -/
theorem Mirrored.accepts (h : t.Mirrored (.reusable w b) r.current) (hwf : r.current.WellFormed) (ht : t.Keyed)
    (hgen : r.current.topologyGen ≠ .last) (w₂ : WorkerId) (b₂ : WorkerBootId) :
    r.Accepts (.applyBulk (Coordinator.stampedBulk t w₂ b₂)) := by
  have hd := h.devices.contains_of_mem ht.devices (DeviceRecord.restamp_id w₂ b₂)
  have hs := h.switches.contains_of_mem ht.switches (SwitchRecord.restamp_id w₂ b₂)
  have hp := h.ports.contains_of_mem ht.ports (SwitchPortRecord.restamp_id w₂ b₂)
  have hl := h.links.contains_of_mem ht.links (LinkRecord.restamp_id w₂ b₂)
  have hpt := h.partitions.contains_of_mem ht.partitions (FabricPartition.restamp_id w₂ b₂)
  apply accepts_applyBulk_iff.mpr
  refine ⟨?_, ?_, ?_, ?_, ?_, ?_, ?_⟩
  · -- the same keys, and links and partitions as they stand
    apply hwf.integral.rewrite
    · exact SortedMap.contains_insertAll_of_known hd
    · exact SortedMap.contains_insertAll_of_known hs
    · exact SortedMap.contains_insertAll_of_known hp
    · intro k rec hrec
      exact hwf.keyed.switches.insertAll _ hrec
    · intro k rec hrec
      rcases h.links.find?_insertAll_cases ht.links (LinkRecord.restamp_id w₂ b₂) hrec with hold | ⟨v, rfl, hv⟩
      · exact ⟨rec, hold, rfl, rfl, rfl⟩
      · exact ⟨_, hv, rfl, rfl, rfl⟩
    · intro k rec hrec
      rcases h.partitions.find?_insertAll_cases ht.partitions (FabricPartition.restamp_id w₂ b₂) hrec with
        hold | ⟨v, rfl, hv⟩
      · exact ⟨rec, hold, rfl, rfl⟩
      · exact ⟨_, hv, rfl, rfl⟩
  · exact {
      devices := (SortedMap.size_insertAll_of_known hd).trans_le hwf.limits.devices
      switches := (SortedMap.size_insertAll_of_known hs).trans_le hwf.limits.switches
      ports := (SortedMap.size_insertAll_of_known hp).trans_le hwf.limits.ports
      links := (SortedMap.size_insertAll_of_known hl).trans_le hwf.limits.links
      partitions := (SortedMap.size_insertAll_of_known hpt).trans_le hwf.limits.partitions }
  · exact .of_mirrored h.switches ht.switches (SwitchRecord.restamp_id w₂ b₂) fun _ => rfl
  · exact .of_mirrored h.ports ht.ports (SwitchPortRecord.restamp_id w₂ b₂) fun _ => rfl
  · exact .of_mirrored h.links ht.links (LinkRecord.restamp_id w₂ b₂) fun _ => rfl
  · exact .of_mirrored h.partitions ht.partitions (FabricPartition.restamp_id w₂ b₂) fun _ => rfl
  · exact (Gen.lt_next.mpr hgen).le

/-- **Advanced records cannot be published again.** -/
theorem Mirrored.ungenerated_of_accepts (h : t.Mirrored (.held w b True) r.current) (ht : t.Keyed)
    (hacc : r.Accepts (.applyBulk (Coordinator.stampedBulk t w₂ b₂))) : t.Ungenerated := by
  have hadm := accepts_applyBulk_iff.mp hacc
  exact {
    switches := StampsGrow.eq_empty_of_behind h.switches (fun _ _ hR => hR.2.2 trivial) ht.switches
      (SwitchRecord.restamp_id w₂ b₂) (SwitchRecord.restamp_gen w₂ b₂) hadm.switchGen
    ports := StampsGrow.eq_empty_of_behind h.ports (fun _ _ hR => hR.2.2 trivial) ht.ports
      (SwitchPortRecord.restamp_id w₂ b₂) (SwitchPortRecord.restamp_gen w₂ b₂) hadm.portGen
    links := StampsGrow.eq_empty_of_behind h.links (fun _ _ hR => hR.2.2 trivial) ht.links
      (LinkRecord.restamp_id w₂ b₂) (LinkRecord.restamp_gen w₂ b₂) hadm.linkGen
    partitions := StampsGrow.eq_empty_of_behind h.partitions (fun _ _ hR => hR.2.2 trivial) ht.partitions
      (FabricPartition.restamp_id w₂ b₂) (FabricPartition.restamp_gen w₂ b₂) hadm.partitionGen }

/-- A publication takes a topology generation. -/
theorem topologyGen_ne_last_of_accepts {e : BulkEdit} (hacc : r.Accepts (.applyBulk e)) :
    r.current.topologyGen ≠ .last := by
  have hle : r.current.topologyGen ≤ r.current.topologyGen.next := (accepts_applyBulk_iff.mp hacc).topologyGen
  exact Gen.not_next_lt.mp (not_lt.mpr hle)

end FabricTopology

namespace Coordinator

variable {c : Coordinator} {t : FabricTopology} {w : WorkerId} {b : WorkerBootId} {R : RecordRel} {e : Event}

/-! ## Along a run -/

/-- The event publishes no record under an id of `t`. -/
def LeavesAlone (t : FabricTopology) (c : Coordinator) : Event → Prop
  | .frame id f _ => ∀ w b topo, c.publication id f = some (w, b, topo) →
      c.registry.Accepts (.applyBulk (stampedBulk topo w b)) → ¬ topo.Overlaps t
  | _             => True

/-- The event is not the end of a connection of `(w, b)` at which `(w, b)` can be fenced. -/
def Unfenced (w : WorkerId) (b : WorkerBootId) (c : Coordinator) : Event → Prop
  | .close id => c.identity id = some (w, b) → ¬ Fenceable w b c.registry.current
  | _         => True

/-- Every record of `t` has a counterpart in the snapshot of a reachable registry. -/
structure Tracks (R : RecordRel) (t : FabricTopology) (c : Coordinator) : Prop where
  reachable : c.registry.Reachable
  mirrored  : t.Mirrored R c.registry.current

/-- What becomes of the records of `t` in one event, given what fencing does to them. -/
theorem Tracks.step (h : c.Tracks R t) (hok : c.LeavesAlone t e)
    (hfence : ∀ id w₂ b₂, e = .close id → c.identity id = some (w₂, b₂) →
      FabricTopology.Admissible c.registry.current (c.registry.committed (fenced w₂ b₂ c.registry.current)) →
      t.Mirrored R (fenced w₂ b₂ c.registry.current)) : (c.step e).Tracks R t := by
  refine ⟨step_reachable e h.reachable, ?_⟩
  rcases c.step_current_cases e with heq | ⟨id, f, now, w, b, topo, rfl, hpub, hacc, heq⟩ |
    ⟨id, w, b, rfl, hid, hadm, heq⟩
  · rw [heq]
    exact h.mirrored
  · rw [heq]
    exact (h.mirrored.upserted (publication_keyed hpub) (hok w b topo hpub hacc)).committed
  · rw [heq]
    exact (hfence id w b rfl hid hadm).committed

/-- The records stay as published while `(w, b)` is not fenced. -/
theorem Tracks.step_restamped (h : c.Tracks (.restamped w b) t) (hok : c.LeavesAlone t e)
    (hun : c.Unfenced w b e) : (c.step e).Tracks (.restamped w b) t := by
  apply h.step hok
  rintro id w₂ b₂ rfl hid hadm
  by_cases hsame : (w, b) = (w₂, b₂)
  · obtain ⟨rfl, rfl⟩ := Prod.mk.inj hsame
    -- fencing goes through and advances nothing, so nothing is attributed
    have hnone : Edit.anyAttributed c.registry.current w b = false := by
      rw [Bool.eq_false_iff]
      intro hany
      exact hun hid ((fenced_admissible_iff h.reachable.wellFormed).mp hadm hany)
    exact h.mirrored.of_sameRecords (sameRecords_fenced (unattributed_of_not_any hnone))
  · exact h.mirrored.fenced_other hsame

/-- The records stay held whoever is fenced. -/
theorem Tracks.step_held {P : Prop} (h : c.Tracks (.held w b P) t) (hok : c.LeavesAlone t e) :
    (c.step e).Tracks (.held w b P) t := by
  apply h.step hok
  rintro id w₂ b₂ rfl hid hadm
  exact h.mirrored.fenced_held hadm

/-- The end of a connection of `(w, b)` advances them, if `(w, b)` can be fenced. -/
theorem Tracks.step_advanced {P : Prop} (h : c.Tracks (.held w b P) t) (hnot : ¬ c.Unfenced w b e) :
    (c.step e).Tracks (.held w b True) t := by
  refine ⟨step_reachable e h.reachable, ?_⟩
  cases e with
  | accept => exact absurd trivial hnot
  | frame id f now => exact absurd trivial hnot
  | close id =>
    obtain ⟨hid, hfenceable⟩ : c.identity id = some (w, b) ∧ Fenceable w b c.registry.current := by
      unfold Unfenced at hnot
      push Not at hnot
      exact hnot
    have hadm : FabricTopology.Admissible c.registry.current
        (c.registry.committed (fenced w b c.registry.current)) :=
      (fenced_admissible_iff h.reachable.wellFormed).mpr fun _ => hfenceable
    have hcur : (c.step (.close id)).registry.current = c.registry.committed (fenced w b c.registry.current) := by
      rw [step_close_registry, hid]
      show (c.registry.publish "" (fenced w b c.registry.current)).2.current = _
      rw [FabricRegistry.publish_of_admissible "" hadm]
    rw [hcur]
    exact (h.mirrored.fenced_self hadm).committed

/-! ## Rejoining -/

/-- The publication of `t` by `(w, b)` in this frame is applied: it is accepted, and every record of `t` is then stored
    as `t` has it, attributed to `(w, b)`. -/
def Applies (c : Coordinator) (id : Nat) (f : Frame) (now : UInt64) (w : WorkerId) (b : WorkerBootId)
    (t : FabricTopology) : Prop :=
  c.registry.Accepts (.applyBulk (stampedBulk t w b)) ∧
    t.Mirrored (.restamped w b) (c.step (.frame id f now)).registry.current

/-- An accepted publication is applied. -/
theorem applies_iff {id : Nat} {f : Frame} (hpub : c.publication id f = some (w, b, t)) (now : UInt64) :
    c.Applies id f now w b t ↔ c.registry.Accepts (.applyBulk (stampedBulk t w b)) := by
  refine ⟨And.left, fun hacc => ⟨hacc, ?_⟩⟩
  rw [step_of_publication hpub now, exec_applyBulk_current hacc]
  exact ((publication_keyed hpub).mirrored_upserted w b c.registry.current).committed

/-- **Rejoining.** Incarnation `(w, b)` publishes a topology that is applied, and in the events that follow no other
    publication touches its records. Then a publication of the same topology by a later incarnation of the worker is
    applied iff the topology lists no record with a generation, or no connection of `(w, b)` ended in a state in which
    `(w, b)` could be fenced; and the topology generation has room. -/
theorem rejoin_iff {c₀ : Coordinator} (hreach : c₀.registry.Reachable) {id : Nat} {f : Frame}
    (hpub : c₀.publication id f = some (w, b, t)) {now : UInt64} (happlied : c₀.Applies id f now w b t)
    {events : List Event} (halone : Obeys step (LeavesAlone t) (c₀.step (.frame id f now)) events) {id' : Nat}
    {f' : Frame} {b' : WorkerBootId}
    (hagain : (runAll step (c₀.step (.frame id f now)) events).publication id' f' = some (w, b', t))
    (now' : UInt64) :
    (runAll step (c₀.step (.frame id f now)) events).Applies id' f' now' w b' t ↔
      (t.Ungenerated ∨ Obeys step (Unfenced w b) (c₀.step (.frame id f now)) events) ∧
        (runAll step (c₀.step (.frame id f now)) events).registry.current.topologyGen ≠ .last := by
  have ht : t.Keyed := publication_keyed hpub
  -- right after the publication the records stand as published, and so they are held
  have hstamped : Tracks (.restamped w b) t (c₀.step (.frame id f now)) := ⟨step_reachable _ hreach, happlied.2⟩
  have hheld : Tracks (.held w b False) t (c₀.step (.frame id f now)) :=
    ⟨hstamped.reachable, hstamped.mirrored.held_of_restamped⟩
  have hend : Tracks (.held w b False) t (runAll step (c₀.step (.frame id f now)) events) :=
    halone.invariant (fun _ _ hok h => h.step_held hok) hheld
  rw [applies_iff hagain]
  constructor
  · intro hacc
    refine ⟨?_, FabricTopology.topologyGen_ne_last_of_accepts hacc⟩
    by_contra hno
    rw [not_or] at hno
    have hadvanced : Tracks (.held w b True) t (runAll step (c₀.step (.frame id f now)) events) :=
      halone.latch (fun _ _ hok h => Tracks.step_held h hok) (fun _ _ _ h hnot => Tracks.step_advanced h hnot)
        (fun _ _ hok h => Tracks.step_held h hok) hheld hno.2
    exact hno.1 (hadvanced.mirrored.ungenerated_of_accepts ht hacc)
  · rintro ⟨hcase, hgen⟩
    have hreusable : t.Mirrored (.reusable w b)
        (runAll step (c₀.step (.frame id f now)) events).registry.current := by
      rcases hcase with hplain | hunfenced
      · exact hplain.reusable hend.mirrored
      · have hkept : Tracks (.restamped w b) t (runAll step (c₀.step (.frame id f now)) events) :=
          (halone.and hunfenced).invariant (fun _ _ hok h => h.step_restamped hok.1 hok.2) hstamped
        exact hkept.mirrored.reusable_of_restamped
    exact hreusable.accepts hend.reachable.wellFormed ht hgen w b'

/-! ## Two restarts -/

/-- Incarnation `b` of a worker registers under epoch 1. -/
def registers (id : Nat) (b : WorkerBootId) : Event :=
  .frame id { type := .register, payload := encodeRegister 1 ⟨ascii "w"⟩ b } 0

/-- It publishes the topology. -/
def publishes (b : WorkerBootId) (t : FabricTopology) : Frame := publishFrame 1 ⟨ascii "w"⟩ b t

/-- Incarnation 1 is connected. -/
def connected : Coordinator := runAll step (fresh 1 [] .empty) [.accept, registers 0 1]

/-- The connection of incarnation 1 ends and incarnation 2 connects. -/
def restart : List Event := [.close 0, .accept, registers 1 2]

/-- Incarnation 1 has published the topology and restarted as incarnation 2. -/
def restarted (t : FabricTopology) : Coordinator :=
  runAll step (connected.step (.frame 0 (publishes 1 t) 0)) restart

theorem connected_reachable : connected.registry.Reachable := by
  have hfresh : (fresh 1 [] .empty).registry.Reachable := fresh_reachable 1 [] .empty
  exact step_reachable (registers 0 1) (step_reachable .accept hfresh)

/-- A restart publishes nothing. -/
theorem restart_leavesAlone (t : FabricTopology) (c : Coordinator) : Obeys step (LeavesAlone t) c restart := by
  refine ⟨trivial, trivial, ?_, trivial⟩
  intro w b topo hpub
  exact absurd (publication_eq_some_iff.mp hpub).1 (by decide)

/-- A publication after which the snapshot is another one was applied. -/
theorem applies_of_ne {id : Nat} {f : Frame} {now : UInt64} (hpub : c.publication id f = some (w, b, t))
    (hne : (c.step (.frame id f now)).registry.current ≠ c.registry.current) : c.Applies id f now w b t := by
  apply (applies_iff hpub now).mpr
  by_contra hno
  rw [step_of_publication hpub now, exec_current_of_not_accepts hno] at hne
  exact hne rfl

/-- One device. -/
def oneDevice : FabricTopology :=
  { devices := SortedMap.empty.insert ⟨1⟩ (makeSyntheticDevice ⟨1⟩ (ascii "Synthetic") .up) }

/-- One switch. -/
def oneSwitch : FabricTopology :=
  { switches := SortedMap.empty.insert ⟨10⟩ (makeSyntheticSwitch ⟨10⟩ (ascii "Synthetic") 2) }

theorem oneDevice_encodable : oneDevice.Encodable where
  keyed := ⟨SortedMap.KeyedBy.empty.insert rfl, .empty, .empty, .empty, .empty⟩
  limits := ⟨by decide, by decide, by decide, by decide, by decide⟩
  label := by decide
  devices := SortedMap.All.empty.insert (by decide +kernel)
  switches := SortedMap.All.empty
  ports := SortedMap.All.empty
  links := SortedMap.All.empty
  partitions := SortedMap.All.empty

theorem oneSwitch_encodable : oneSwitch.Encodable where
  keyed := ⟨.empty, SortedMap.KeyedBy.empty.insert rfl, .empty, .empty, .empty⟩
  limits := ⟨by decide, by decide, by decide, by decide, by decide⟩
  label := by decide
  devices := SortedMap.All.empty
  switches := SortedMap.All.empty.insert (by decide +kernel)
  ports := SortedMap.All.empty
  links := SortedMap.All.empty
  partitions := SortedMap.All.empty

/-- What incarnation `b` publishes under epoch 1 is received. -/
theorem publication_publishes {id : Nat} (hid : c.identity id = some (⟨ascii "w"⟩, b))
    (hepoch : c.registry.epoch = 1) (ht : t.Encodable) (hint : t.Integral)
    (hsize : (encodeTopology t).length ≤ Limits.kMaxFrameBytes) :
    c.publication id (publishes b t) = some (⟨ascii "w"⟩, b, t) := by
  unfold publishes
  rw [← hepoch]
  exact publication_publishFrame hid (by decide) ht hint hsize

/-- A worker that reports one device is back after a restart. -/
theorem rejoin_oneDevice : (restarted oneDevice).Applies 1 (publishes 2 oneDevice) 0 ⟨ascii "w"⟩ 2 oneDevice := by
  have hint : oneDevice.Integral := FabricTopology.checkIntegrity_eq_nil_iff.mp (by decide +kernel)
  have hsize : (encodeTopology oneDevice).length ≤ Limits.kMaxFrameBytes := by decide +kernel
  have hpub : connected.publication 0 (publishes 1 oneDevice) = some (⟨ascii "w"⟩, 1, oneDevice) :=
    publication_publishes (by decide +kernel) (by decide +kernel) oneDevice_encodable hint hsize
  have hagain : (restarted oneDevice).publication 1 (publishes 2 oneDevice) = some (⟨ascii "w"⟩, 2, oneDevice) :=
    publication_publishes (by decide +kernel) (by decide +kernel) oneDevice_encodable hint hsize
  have happlied : connected.Applies 0 (publishes 1 oneDevice) 0 ⟨ascii "w"⟩ 1 oneDevice := by
    apply applies_of_ne hpub
    intro heq
    have hsize := congrArg (fun t : FabricTopology => t.devices.size) heq
    exact absurd hsize (by decide +kernel)
  exact (rejoin_iff connected_reachable hpub happlied (restart_leavesAlone _ _) hagain 0).mpr
    ⟨Or.inl ⟨rfl, rfl, rfl, rfl⟩, by decide +kernel⟩

/-- A worker that reports one switch is not: its publication is refused, and the switch awaits revalidation by the
    incarnation before. -/
theorem restarted_worker_refused :
    connected.registry.Reachable ∧
      connected.publication 0 (publishes 1 oneSwitch) = some (⟨ascii "w"⟩, 1, oneSwitch) ∧
      connected.Applies 0 (publishes 1 oneSwitch) 0 ⟨ascii "w"⟩ 1 oneSwitch ∧
      Obeys step (LeavesAlone oneSwitch) (connected.step (.frame 0 (publishes 1 oneSwitch) 0)) restart ∧
      (runAll step (connected.step (.frame 0 (publishes 1 oneSwitch) 0)) [.close 0, .accept]).maxBoot.find?
        ⟨ascii "w"⟩ = some 1 ∧
      (restarted oneSwitch).publication 1 (publishes 2 oneSwitch) = some (⟨ascii "w"⟩, 2, oneSwitch) ∧
      ¬ (restarted oneSwitch).Applies 1 (publishes 2 oneSwitch) 0 ⟨ascii "w"⟩ 2 oneSwitch := by
  have hint : oneSwitch.Integral := FabricTopology.checkIntegrity_eq_nil_iff.mp (by decide +kernel)
  have hsize : (encodeTopology oneSwitch).length ≤ Limits.kMaxFrameBytes := by decide +kernel
  have hpub : connected.publication 0 (publishes 1 oneSwitch) = some (⟨ascii "w"⟩, 1, oneSwitch) :=
    publication_publishes (by decide +kernel) (by decide +kernel) oneSwitch_encodable hint hsize
  have hagain : (restarted oneSwitch).publication 1 (publishes 2 oneSwitch) = some (⟨ascii "w"⟩, 2, oneSwitch) :=
    publication_publishes (by decide +kernel) (by decide +kernel) oneSwitch_encodable hint hsize
  have happlied : connected.Applies 0 (publishes 1 oneSwitch) 0 ⟨ascii "w"⟩ 1 oneSwitch := by
    apply applies_of_ne hpub
    intro heq
    have hsize := congrArg (fun t : FabricTopology => t.switches.size) heq
    exact absurd hsize (by decide +kernel)
  refine ⟨connected_reachable, hpub, happlied, restart_leavesAlone _ _, by decide +kernel, hagain, ?_⟩
  -- the switch stands under the incarnation before, so it is not what was published
  rintro ⟨_, hmirrored⟩
  obtain ⟨v, hv, hrestamped⟩ := hmirrored.switches (SortedMap.find?_insert_self _ _ _)
  have hstale : (((restarted oneSwitch).step (.frame 1 (publishes 2 oneSwitch) 0)).registry.current.switches.find?
      ⟨10⟩).all (fun v => v.attributedTo ⟨ascii "w"⟩ 1 && v.state = .revalidationRequired) = true := by
    decide +kernel
  rw [hv, hrestamped] at hstale
  exact absurd hstale (by decide +kernel)

end Coordinator

end NVSwitchFabric
