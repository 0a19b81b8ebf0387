import NVSwitchFabric.Correctness.Cascade

/-!
# `Correctness.Rebuild` — any well-formed contents can be published

There are no tombstones: generations are compared between the records of two consecutive snapshots only. So, as long
as the topology generation has room, a registry can be emptied one record at a time (`exists_emptied`, referring
records first), and one bulk edit then publishes any well-formed contents, at whatever generations they carry
(`exists_rebuilt`).
-/

namespace NVSwitchFabric

open Lib

namespace FabricTopology

/-- How many removals empty the snapshot; the ports go with their switches. -/
def removals (t : FabricTopology) : Nat :=
  t.links.size + t.partitions.size + t.switches.size + t.devices.size

theorem removals_of_same {t t' : FabricTopology} (h : t.SameRecords t') : t'.removals = t.removals := by
  unfold removals
  rw [h.links, h.partitions, h.switches, h.devices]

end FabricTopology

namespace Removal

/-- What is left takes fewer removals, unless a port was removed. -/
theorem removals_remaining_lt {x : Removal} {t : FabricTopology} (hknown : x.Known t)
    (hport : ∀ id, x ≠ .port id) : (x.remaining t).removals < t.removals := by
  have hdevices : (x.remaining t).devices.size ≤ t.devices.size := (SortedMap.filter_sub _ _).size_le
  have hswitches : (x.remaining t).switches.size ≤ t.switches.size := (SortedMap.filter_sub _ _).size_le
  have hlinks : (x.remaining t).links.size ≤ t.links.size := (SortedMap.filter_sub _ _).size_le
  have hpartitions : (x.remaining t).partitions.size ≤ t.partitions.size := (SortedMap.filter_sub _ _).size_le
  unfold FabricTopology.removals
  cases x with
  | device id =>
    have hless : ((Removal.device id).remaining t).devices.size < t.devices.size :=
      SortedMap.size_filter_lt hknown
    omega
  | switch id =>
    have hless : ((Removal.switch id).remaining t).switches.size < t.switches.size :=
      SortedMap.size_filter_lt hknown
    omega
  | port id => exact absurd rfl (hport id)
  | link id =>
    have hless : ((Removal.link id).remaining t).links.size < t.links.size :=
      SortedMap.size_filter_lt hknown
    omega
  | partition id =>
    have hless : ((Removal.partition id).remaining t).partitions.size < t.partitions.size :=
      SortedMap.size_filter_lt hknown
    omega

end Removal

namespace FabricRegistry

/-- The operation is not `setEpoch`. -/
def SetsNoEpoch (_ : FabricRegistry) (op : RegistryOp) : Prop := ∀ e, op ≠ .setEpoch e

variable {r : FabricRegistry}

/-! ## Emptying -/

/-- Some operation removes records, at the cost of one topology generation. -/
def Shrinks (r : FabricRegistry) : Prop :=
  ∃ op, SetsNoEpoch r op ∧ (r.exec op).current.removals < r.current.removals ∧
    (r.exec op).current.topologyGen = r.current.topologyGen.next

/-- A removal of what is there and what no partition lists shrinks the registry, a port's apart. -/
theorem shrinks_of_removal {x : Removal} (h : r.current.WellFormed) (hgen : r.current.topologyGen ≠ .last)
    (hknown : x.Known r.current) (hends : x.EndsCovered r.current) (hnone : ¬ x.Listed r.current)
    (hport : ∀ id, x ≠ .port id) : r.Shrinks := by
  obtain ⟨cand, hed, hadm⟩ := (Removal.accepts_iff h hgen hends hknown).mpr hnone
  obtain ⟨hsame, hnext⟩ := Removal.edited_remaining hed
  refine ⟨x.op, ?_, ?_, ?_⟩
  · intro e
    cases x <;> simp [Removal.op]
  · rw [hed.exec_current hadm]
    have hcount : (r.committed cand).removals = (x.remaining r.current).removals :=
      FabricTopology.removals_of_same { hsame with }
    exact hcount.trans_lt (Removal.removals_remaining_lt hknown hport)
  · rw [hed.exec_current hadm]
    exact hnext

/-- **A registry with something to remove can shrink**: links and partitions go first, and then nothing refers to the
    switches and devices but the ports that go with them. -/
theorem shrinks (h : r.current.WellFormed) (hgen : r.current.topologyGen ≠ .last) (hne : r.current.removals ≠ 0) :
    r.Shrinks := by
  by_cases hl : r.current.links.size = 0
  · have hlinks := SortedMap.eq_empty_of_size hl
    have hends : ∀ {x : Removal}, x.EndsCovered r.current := by
      intro x k l hf
      exact absurd hf (by simp [hlinks])
    by_cases hpt : r.current.partitions.size = 0
    · have hparts := SortedMap.eq_empty_of_size hpt
      by_cases hs : r.current.switches.size = 0
      · have hd : r.current.devices.size ≠ 0 := by
          unfold FabricTopology.removals at hne
          omega
        obtain ⟨id, hid⟩ := SortedMap.exists_contains hd
        exact shrinks_of_removal (x := .device id) h hgen hid hends (by simp [Removal.Listed, hparts]) (by simp)
      · obtain ⟨id, hid⟩ := SortedMap.exists_contains hs
        exact shrinks_of_removal (x := .switch id) h hgen hid hends (by simp [Removal.Listed, hparts]) (by simp)
    · obtain ⟨id, hid⟩ := SortedMap.exists_contains hpt
      exact shrinks_of_removal (x := .partition id) h hgen hid hends (by simp [Removal.Listed]) (by simp)
  · obtain ⟨id, hid⟩ := SortedMap.exists_contains hl
    -- dropping a link drops no switch
    have hends : (Removal.link id).EndsCovered r.current :=
      fun _ _ _ _ hdrop => absurd hdrop (by simp [Removal.dropsSwitch])
    exact shrinks_of_removal (x := .link id) h hgen hid hends (by simp [Removal.Listed]) (by simp)

/-- An integral snapshot with nothing to remove is empty: every port is of some switch. -/
theorem sameRecords_of_removals (h : r.current.WellFormed) (hzero : r.current.removals = 0) :
    FabricTopology.SameRecords {} r.current := by
  unfold FabricTopology.removals at hzero
  have hsw : r.current.switches = .empty := SortedMap.eq_empty_of_size (by omega)
  have hports : r.current.ports = .empty := by
    apply SortedMap.eq_empty_of_find?_none
    intro k
    by_contra hport
    obtain ⟨rec, hrec⟩ := Option.ne_none_iff_exists'.mp hport
    have hhas := h.integral.portSwitch hrec
    rw [hsw] at hhas
    exact absurd hhas (by simp)
  exact ⟨SortedMap.eq_empty_of_size (by omega), hsw, hports, SortedMap.eq_empty_of_size (by omega),
    SortedMap.eq_empty_of_size (by omega)⟩

/-- The topology generation has room for all removals and one more edit. -/
def HasRoom (r : FabricRegistry) : Prop :=
  r.current.topologyGen.value.toNat + r.current.removals + 1 < 2 ^ 64

/-- **Emptying.** A registry with room for all removals reaches an empty one that has room for one more edit. -/
theorem exists_emptied (h : r.current.WellFormed) (hroom : r.HasRoom) :
    ∃ r', Steps exec SetsNoEpoch r r' ∧ FabricTopology.SameRecords {} r'.current ∧
      r'.current.topologyGen ≠ .last := by
  have hstep : ∀ s : FabricRegistry, s.current.WellFormed ∧ s.HasRoom → ¬ s.current.removals = 0 →
      ∃ op, SetsNoEpoch s op ∧ ((s.exec op).current.WellFormed ∧ (s.exec op).HasRoom) ∧
        (s.exec op).current.removals < s.current.removals := by
    rintro s ⟨hwf, hs⟩ hne
    unfold HasRoom at hs
    have hgen : s.current.topologyGen ≠ .last := Gen.ne_last_iff.mpr (by omega)
    obtain ⟨op, hop, hless, hnext⟩ := shrinks hwf hgen hne
    -- a removal takes one generation, so there is as much room as before
    have hval : (s.exec op).current.topologyGen.value.toNat = s.current.topologyGen.value.toNat + 1 := by
      rw [hnext, Gen.next_toNat]
      omega
    refine ⟨op, hop, ⟨exec_wellFormed op hwf, ?_⟩, hless⟩
    unfold HasRoom
    omega
  obtain ⟨r', hrun, ⟨hwf, hr'⟩, hzero⟩ :=
    Steps.exists_of_measure (fun s : FabricRegistry => s.current.removals) hstep ⟨h, hroom⟩
  unfold HasRoom at hr'
  exact ⟨r', hrun, sameRecords_of_removals hwf hzero, Gen.ne_last_iff.mpr (by omega)⟩

/-! ## Rebuilding -/

/-- A bulk edit of all records of a snapshot brings an empty registry to them. -/
theorem applyBulk_ofTopology {t : FabricTopology} (hempty : FabricTopology.SameRecords {} r.current)
    (hgen : r.current.topologyGen ≠ .last) (ht : t.WellFormed) :
    t.SameRecords (r.exec (.applyBulk (.ofTopology t))).current ∧
      (r.exec (.applyBulk (.ofTopology t))).current.epoch = r.epoch := by
  obtain ⟨cand, hcand, hnext, hsame⟩ : ∃ cand, Edit.applyBulk (.ofTopology t) r.current = .ok cand ∧
      cand.topologyGen = r.current.topologyGen.next ∧ t.SameRecords cand := by
    refine ⟨_, rfl, rfl, ?_, ?_, ?_, ?_, ?_⟩
    · show r.current.devices.insertAll _ (t.devices.entries.map Prod.snd) = t.devices
      rw [hempty.devices]
      exact ht.keyed.devices.insertAll_empty
    · show r.current.switches.insertAll _ (t.switches.entries.map Prod.snd) = t.switches
      rw [hempty.switches]
      exact ht.keyed.switches.insertAll_empty
    · show r.current.ports.insertAll _ (t.ports.entries.map Prod.snd) = t.ports
      rw [hempty.ports]
      exact ht.keyed.ports.insertAll_empty
    · show r.current.links.insertAll _ (t.links.entries.map Prod.snd) = t.links
      rw [hempty.links]
      exact ht.keyed.links.insertAll_empty
    · show r.current.partitions.insertAll _ (t.partitions.entries.map Prod.snd) = t.partitions
      rw [hempty.partitions]
      exact ht.keyed.partitions.insertAll_empty
  have hadm : FabricTopology.Admissible r.current (r.committed cand) := {
    integral := ht.integral.of_maps_eq hsame.devices hsame.switches hsame.ports hsame.links hsame.partitions
    limits := {
      devices := (congrArg SortedMap.size hsame.devices).trans_le ht.limits.devices
      switches := (congrArg SortedMap.size hsame.switches).trans_le ht.limits.switches
      ports := (congrArg SortedMap.size hsame.ports).trans_le ht.limits.ports
      links := (congrArg SortedMap.size hsame.links).trans_le ht.limits.links
      partitions := (congrArg SortedMap.size hsame.partitions).trans_le ht.limits.partitions }
    -- there is no record before that a generation could be compared with
    switchGen := by rw [hempty.switches]; exact .of_empty
    portGen := by rw [hempty.ports]; exact .of_empty
    linkGen := by rw [hempty.links]; exact .of_empty
    partitionGen := by rw [hempty.partitions]; exact .of_empty
    topologyGen := by
      rw [committed_topologyGen, hnext]
      exact (Gen.lt_next.mpr hgen).le }
  rw [exec_current_of_admissible rfl hcand hadm]
  exact ⟨{ hsame with }, rfl⟩

/-- **Rebuilding.** From a registry whose topology generation has room, operations that leave the epoch alone reach
    any well-formed contents. -/
theorem exists_rebuilt {t : FabricTopology} (h : r.current.WellFormed) (hroom : r.HasRoom) (ht : t.WellFormed) :
    ∃ r', Steps exec SetsNoEpoch r r' ∧ t.SameRecords r'.current ∧ r'.current.epoch = r.epoch := by
  obtain ⟨s, hrun, hempty, hgen⟩ := exists_emptied h hroom
  obtain ⟨hsame, hepoch⟩ := applyBulk_ofTopology hempty hgen ht
  have hkeep : (fun u : FabricRegistry => u.epoch = r.epoch) s := by
    have hstep : ∀ (u : FabricRegistry) op, u.epoch = r.epoch → SetsNoEpoch u op → (u.exec op).epoch = r.epoch :=
      fun u op hu hop => (exec_epoch u op hop).trans hu
    exact hrun.invariant hstep rfl
  have hbulk : SetsNoEpoch s (.applyBulk (.ofTopology t)) := fun e => by simp
  exact ⟨_, hrun.tail hbulk, hsame, hepoch.trans hkeep⟩

end FabricRegistry

end NVSwitchFabric
