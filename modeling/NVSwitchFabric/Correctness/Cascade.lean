import NVSwitchFabric.Correctness.Unchanged
import NVSwitchFabric.Model.Scenario

/-!
# `Correctness.Cascade` — what a removal takes with it

`Removal` names the five removals and what each drops: the entity, the ports of a switch, and the links that would be left
without an end, a root or a port. `remaining` is the snapshot without these. What is dropped is closed under reference
(`drops_port`, `drops_link`), partitions apart, so what remains is integral unless a partition lists the entity
(`remaining_integral`, `not_listed`), and the removal then goes through with exactly that (`removal_exact`).
-/

namespace NVSwitchFabric

open Lib

namespace FabricTopology

/-- The snapshots hold the same records. -/
structure SameRecords (t t' : FabricTopology) : Prop where
  devices    : t'.devices = t.devices
  switches   : t'.switches = t.switches
  ports      : t'.ports = t.ports
  links      : t'.links = t.links
  partitions : t'.partitions = t.partitions

/-- Every record of `t'` is one of `t`. -/
structure SubRecords (t' t : FabricTopology) : Prop where
  devices    : t'.devices.Sub t.devices
  switches   : t'.switches.Sub t.switches
  ports      : t'.ports.Sub t.ports
  links      : t'.links.Sub t.links
  partitions : t'.partitions.Sub t.partitions

/-- **Removing records is admitted** whenever what is left is integral and the topology generation has room. -/
theorem admissible_of_subRecords {r : FabricRegistry} {cand : FabricTopology} (hlim : r.current.WithinLimits)
    (hsub : cand.SubRecords r.current) (hint : cand.Integral) (hgen : r.current.topologyGen ≠ .last)
    (hnext : cand.topologyGen = r.current.topologyGen.next) : Admissible r.current (r.committed cand) where
  integral := hint.of_maps_eq rfl rfl rfl rfl rfl
  limits := {
    devices := hsub.devices.size_le.trans hlim.devices
    switches := hsub.switches.size_le.trans hlim.switches
    ports := hsub.ports.size_le.trans hlim.ports
    links := hsub.links.size_le.trans hlim.links
    partitions := hsub.partitions.size_le.trans hlim.partitions }
  switchGen := .of_sub hsub.switches
  portGen := .of_sub hsub.ports
  linkGen := .of_sub hsub.links
  partitionGen := .of_sub hsub.partitions
  topologyGen := by
    rw [FabricRegistry.committed_topologyGen, hnext]
    exact (Gen.lt_next.mpr hgen).le

end FabricTopology

/-- What can be removed. -/
inductive Removal where
  | device (id : DeviceId)
  | switch (id : SwitchId)
  | port (id : PortId)
  | link (id : LinkId)
  | partition (id : PartitionId)

namespace Removal

/-- The operation that removes it. -/
def op : Removal → RegistryOp
  | .device id    => .removeDevice id
  | .switch id    => .removeSwitch id
  | .port id      => .removePort id
  | .link id      => .removeLink id
  | .partition id => .removePartition id

/-- The snapshot has it. -/
def Known (t : FabricTopology) : Removal → Prop
  | .device id    => t.devices.contains id = true
  | .switch id    => t.switches.contains id = true
  | .port id      => t.ports.contains id = true
  | .link id      => t.links.contains id = true
  | .partition id => t.partitions.contains id = true

/-- It is a device or a switch that some partition lists. -/
def Listed (t : FabricTopology) : Removal → Prop
  | .device id => ∃ pid part, t.partitions.find? pid = some part ∧ id ∈ part.members
  | .switch id => ∃ pid part, t.partitions.find? pid = some part ∧ id ∈ part.switches
  | _          => False

/-! ## What is dropped -/

def dropsDevice : Removal → DeviceId → Bool
  | .device id, k => k = id
  | _, _          => false

def dropsSwitch : Removal → SwitchId → Bool
  | .switch id, k => k = id
  | _, _          => false

/-- The ports of a removed switch, or the removed port. -/
def dropsPort : Removal → PortId → Bool
  | .switch id, k => k.sw = id
  | .port id, k   => k = id
  | _, _          => false

/-- The links attached to a removed device, rooted at or ending at a removed switch, on a removed port, or removed. -/
def dropsLink : Removal → LinkId → LinkRecord → Bool
  | .device id, _, l => l.otherEnd.kind = .device && l.otherEnd.device = id
  | .switch id, _, l => l.rootSwitch = id || (l.otherEnd.kind = .switch && l.otherEnd.sw = id)
  | .port id, _, l   => l.port = id
  | .link id, k, _   => k = id
  | .partition _, _, _ => false

def dropsPartition : Removal → PartitionId → Bool
  | .partition id, k => k = id
  | _, _             => false

/-- The snapshot without what is dropped. -/
def remaining (x : Removal) (t : FabricTopology) : FabricTopology :=
  { t with
    devices := t.devices.filter fun k _ => !x.dropsDevice k
    switches := t.switches.filter fun k _ => !x.dropsSwitch k
    ports := t.ports.filter fun k _ => !x.dropsPort k
    links := t.links.filter fun k l => !x.dropsLink k l
    partitions := t.partitions.filter fun k _ => !x.dropsPartition k }

variable {x : Removal} {t cand : FabricTopology}

/-! ## What refers to what is dropped -/

/-- The ports of a dropped switch are dropped. -/
theorem drops_port {pid : PortId} (h : x.dropsSwitch pid.sw = true) : x.dropsPort pid = true := by
  cases x with
  | switch id => exact h
  | _ => exact absurd h (by simp [dropsSwitch])

/-- The links of a dropped switch, on a dropped port or to a dropped end are dropped. -/
theorem drops_link {k : LinkId} {l : LinkRecord} (hroot : l.port.sw = l.rootSwitch)
    (h : x.dropsSwitch l.rootSwitch = true ∨ x.dropsPort l.port = true ∨
      (l.otherEnd.kind = .device ∧ x.dropsDevice l.otherEnd.device = true) ∨
        (l.otherEnd.kind = .switch ∧ x.dropsSwitch l.otherEnd.sw = true)) :
    x.dropsLink k l = true := by
  cases x with
  | device id => simpa [dropsSwitch, dropsPort, dropsDevice, dropsLink] using h
  | switch id =>
    -- a link on a port of the switch is rooted at the switch
    simpa [dropsSwitch, dropsPort, dropsDevice, dropsLink, hroot] using h
  | port id => simpa [dropsSwitch, dropsPort, dropsDevice, dropsLink] using h
  | link id => simp [dropsSwitch, dropsPort, dropsDevice] at h
  | partition id => simp [dropsSwitch, dropsPort, dropsDevice] at h

/-- A partition lists something dropped iff it lists what is removed. -/
theorem listed_iff : x.Listed t ↔ ∃ pid part, t.partitions.find? pid = some part ∧ x.dropsPartition pid = false ∧
    ((∃ m ∈ part.members, x.dropsDevice m = true) ∨ ∃ s ∈ part.switches, x.dropsSwitch s = true) := by
  cases x <;> simp [Listed, dropsPartition, dropsDevice, dropsSwitch]

/-- An end at a dropped switch is of kind Switch. `checkIntegrity` looks for a switch behind every end that is not a
    device, the cascade of `removeSwitch` only behind those of kind Switch. -/
def EndsCovered (x : Removal) (t : FabricTopology) : Prop :=
  t.links.All fun l => l.otherEnd.kind ≠ .device → x.dropsSwitch l.otherEnd.sw = true → l.otherEnd.kind = .switch

theorem endsCovered_of_kinds (h : t.links.All fun l => l.otherEnd.kind = .device ∨ l.otherEnd.kind = .switch) :
    x.EndsCovered t := fun _ _ hl hother _ => (h hl).resolve_left hother

/-! ## What is kept -/

theorem kept_port {pid : PortId} {rec : SwitchPortRecord} (hkept : (x.remaining t).ports.find? pid = some rec) :
    t.ports.find? pid = some rec ∧ x.dropsSwitch pid.sw = false := by
  obtain ⟨hrec, hkeep⟩ := SortedMap.find?_filter_eq_some.mp hkept
  exact ⟨hrec, Bool.eq_false_iff.mpr (mt drops_port (by simpa using hkeep))⟩

/-- What a kept link refers to is not dropped. -/
theorem kept_link (h : t.Integral) {k : LinkId} {l : LinkRecord} (hkept : (x.remaining t).links.find? k = some l) :
    t.links.find? k = some l ∧ x.dropsSwitch l.rootSwitch = false ∧ x.dropsPort l.port = false ∧
      (l.otherEnd.kind = .device → x.dropsDevice l.otherEnd.device = false) ∧
        (l.otherEnd.kind = .switch → x.dropsSwitch l.otherEnd.sw = false) := by
  obtain ⟨hl, hkeep⟩ := SortedMap.find?_filter_eq_some.mp hkept
  have hdrops := mt (drops_link (x := x) (k := k) (h.linkPortRoot hl)) (by simpa using hkeep)
  simp only [not_or, not_and, Bool.not_eq_true] at hdrops
  exact ⟨hl, hdrops⟩

/-- Unless a partition lists what is removed, a kept one lists nothing that is dropped. -/
theorem kept_partition (hnone : ¬ x.Listed t) {pid : PartitionId} {part : FabricPartition}
    (hkept : (x.remaining t).partitions.find? pid = some part) :
    t.partitions.find? pid = some part ∧ (∀ m ∈ part.members, x.dropsDevice m = false) ∧
      ∀ s ∈ part.switches, x.dropsSwitch s = false := by
  obtain ⟨hpart, hkeep⟩ := SortedMap.find?_filter_eq_some.mp hkept
  have hkeep : x.dropsPartition pid = false := by simpa using hkeep
  refine ⟨hpart, fun m hm => ?_, fun s hs => ?_⟩
  · by_contra hdrop
    exact hnone (listed_iff.mpr ⟨pid, part, hpart, hkeep, Or.inl ⟨m, hm, by simpa using hdrop⟩⟩)
  · by_contra hdrop
    exact hnone (listed_iff.mpr ⟨pid, part, hpart, hkeep, Or.inr ⟨s, hs, by simpa using hdrop⟩⟩)

/-- A partition that lists what is removed is left with a reference to it. -/
theorem not_listed (h : t.Integral) (hrem : (x.remaining t).Integral) : ¬ x.Listed t := by
  intro hlisted
  obtain ⟨pid, part, hpart, hkeep, hlists⟩ := listed_iff.mp hlisted
  have hkept : (x.remaining t).partitions.find? pid = some part :=
    SortedMap.find?_filter_eq_some.mpr ⟨hpart, by simp [hkeep]⟩
  rcases hlists with ⟨m, hm, hdrop⟩ | ⟨s, hs, hdrop⟩
  · have hleft := hrem.partitionMember hkept m hm
    rw [remaining, SortedMap.contains_filter_of_known (h.partitionMember hpart m hm), hdrop] at hleft
    exact absurd hleft (by simp)
  · have hleft := hrem.partitionSwitch hkept s hs
    rw [remaining, SortedMap.contains_filter_of_known (h.partitionSwitch hpart s hs), hdrop] at hleft
    exact absurd hleft (by simp)

/-- **What remains is integral** if no partition lists what is removed. -/
theorem remaining_integral (h : t.Integral) (hends : x.EndsCovered t) (hnone : ¬ x.Listed t) :
    (x.remaining t).Integral where
  switchKey := fun hf => h.switchKey (SortedMap.filter_sub _ _ hf)
  portSwitch := fun hf => (SortedMap.contains_filter_of_known (h.portSwitch (kept_port hf).1)).mpr (kept_port hf).2
  portIndex := fun hf => h.portIndex (kept_port hf).1
  linkRoot := by
    intro k l hf
    obtain ⟨hl, hroot, _⟩ := kept_link h hf
    exact (SortedMap.contains_filter_of_known (h.linkRoot hl)).mpr hroot
  linkPort := by
    intro k l hf
    obtain ⟨hl, _, hport, _⟩ := kept_link h hf
    exact (SortedMap.contains_filter_of_known (h.linkPort hl)).mpr hport
  linkPortRoot := fun hf => h.linkPortRoot (kept_link h hf).1
  linkEnd := by
    intro k l hf
    obtain ⟨hl, _, _, hdevice, hswitch⟩ := kept_link h hf
    have hend := h.linkEnd hl
    unfold FabricTopology.EndExists at hend ⊢
    by_cases hkind : l.otherEnd.kind = .device
    · rw [if_pos hkind] at hend ⊢
      exact (SortedMap.contains_filter_of_known hend).mpr (hdevice hkind)
    · rw [if_neg hkind] at hend ⊢
      refine (SortedMap.contains_filter_of_known hend).mpr ?_
      by_contra hdrop
      exact hdrop (hswitch (hends hl hkind (by simpa using hdrop)))
  partitionMember := by
    intro pid part hf m hm
    obtain ⟨hpart, hmembers, _⟩ := kept_partition hnone hf
    exact (SortedMap.contains_filter_of_known (h.partitionMember hpart m hm)).mpr (hmembers m hm)
  partitionSwitch := by
    intro pid part hf s hs
    obtain ⟨hpart, _, hswitches⟩ := kept_partition hnone hf
    exact (SortedMap.contains_filter_of_known (h.partitionSwitch hpart s hs)).mpr (hswitches s hs)

/-! ## The operations -/

/-- The edit of a removal leaves what remains, under the next topology generation. -/
theorem edited_remaining (h : Edited t x.op cand) :
    (x.remaining t).SameRecords cand ∧ cand.topologyGen = t.topologyGen.next := by
  cases x with
  | device id =>
    cases h
    exact ⟨⟨SortedMap.erase_eq_filter _ _, (SortedMap.filter_true _).symm, (SortedMap.filter_true _).symm, rfl,
      (SortedMap.filter_true _).symm⟩, rfl⟩
  | switch id =>
    cases h
    refine ⟨⟨(SortedMap.filter_true _).symm, SortedMap.erase_eq_filter _ _, ?_, rfl, (SortedMap.filter_true _).symm⟩, rfl⟩
    simp [remaining, dropsPort]
  | port id =>
    cases h
    refine ⟨⟨(SortedMap.filter_true _).symm, (SortedMap.filter_true _).symm, SortedMap.erase_eq_filter _ _, ?_,
      (SortedMap.filter_true _).symm⟩, rfl⟩
    simp [remaining, dropsLink]
  | link id =>
    cases h
    exact ⟨⟨(SortedMap.filter_true _).symm, (SortedMap.filter_true _).symm, (SortedMap.filter_true _).symm,
      SortedMap.erase_eq_filter _ _, (SortedMap.filter_true _).symm⟩, rfl⟩
  | partition id =>
    cases h
    exact ⟨⟨(SortedMap.filter_true _).symm, (SortedMap.filter_true _).symm, (SortedMap.filter_true _).symm,
      (SortedMap.filter_true _).symm, SortedMap.erase_eq_filter _ _⟩, rfl⟩

theorem exists_edited (h : x.Known t) : ∃ cand, Edited t x.op cand := by
  cases x with
  | device id => exact ⟨_, .removeDevice h⟩
  | switch id => exact ⟨_, .removeSwitch h⟩
  | port id => exact ⟨_, .removePort h⟩
  | link id => exact ⟨_, .removeLink h⟩
  | partition id => exact ⟨_, .removePartition h⟩

theorem exists_edit (x : Removal) : ∃ edit, x.op.edit? = some edit := by
  cases x <;> exact ⟨_, rfl⟩

theorem subRecords_of_same (h : (x.remaining t).SameRecords cand) : cand.SubRecords t where
  devices := h.devices ▸ SortedMap.filter_sub _ _
  switches := h.switches ▸ SortedMap.filter_sub _ _
  ports := h.ports ▸ SortedMap.filter_sub _ _
  links := h.links ▸ SortedMap.filter_sub _ _
  partitions := h.partitions ▸ SortedMap.filter_sub _ _

/-- A removal of what is there goes through iff no partition lists it. -/
theorem accepts_iff {r : FabricRegistry} (hwf : r.current.WellFormed) (hgen : r.current.topologyGen ≠ .last)
    (hends : x.EndsCovered r.current) (hknown : x.Known r.current) : r.Accepts x.op ↔ ¬ x.Listed r.current := by
  constructor
  · rintro ⟨cand, hed, hadm⟩
    obtain ⟨hsame, _⟩ := edited_remaining hed
    exact not_listed hwf.integral (hadm.integral.of_maps_eq hsame.devices.symm hsame.switches.symm hsame.ports.symm
      hsame.links.symm hsame.partitions.symm)
  · intro hnone
    obtain ⟨cand, hed⟩ := exists_edited hknown
    obtain ⟨hsame, hnext⟩ := edited_remaining hed
    have hint : cand.Integral := (remaining_integral hwf.integral hends hnone).of_maps_eq hsame.devices hsame.switches
      hsame.ports hsame.links hsame.partitions
    exact ⟨cand, hed, FabricTopology.admissible_of_subRecords hwf.limits (subRecords_of_same hsame) hint hgen hnext⟩

end Removal

/-- **Removals are exact.** A device or a switch that is there is removed iff no partition lists it, a port, a link or a
    partition always, and what is left is every record that is not dropped with it. -/
theorem removal_exact {r : FabricRegistry} (hr : r.Reachable) (hgen : r.current.topologyGen ≠ .last)
    (hends : r.current.links.All fun l => l.otherEnd.kind = .device ∨ l.otherEnd.kind = .switch) (x : Removal)
    (hknown : x.Known r.current) :
    (¬ r.Fails x.op ↔ ¬ x.Listed r.current) ∧
      (¬ r.Fails x.op → (x.remaining r.current).SameRecords (r.exec x.op).current) := by
  obtain ⟨edit, hedit⟩ := x.exists_edit
  rw [FabricRegistry.fails_iff hedit, not_not]
  refine ⟨Removal.accepts_iff hr.wellFormed hgen (Removal.endsCovered_of_kinds hends) hknown, ?_⟩
  rintro ⟨cand, hed, hadm⟩
  obtain ⟨hsame, _⟩ := Removal.edited_remaining hed
  rw [hed.exec_current hadm]
  exact ⟨hsame.devices, hsame.switches, hsame.ports, hsame.links, hsame.partitions⟩

/-- Removing a switch with its two ports and links. -/
theorem removal_exact_singleSwitch :
    let r := FabricRegistry.after [.applyBulk (buildSyntheticScan .singleSwitchTwoGpu)]
    let x := Removal.switch ⟨10⟩
    (r.Reachable ∧ r.current.topologyGen ≠ .last ∧
      (r.current.links.All fun l => l.otherEnd.kind = .device ∨ l.otherEnd.kind = .switch) ∧ x.Known r.current) ∧
    (¬ r.Fails x.op ↔ ¬ x.Listed r.current) ∧
      (¬ r.Fails x.op → (x.remaining r.current).SameRecords (r.exec x.op).current) := by
  intro r x
  have hr : r.Reachable := FabricRegistry.reachable_after _
  have hgen : r.current.topologyGen ≠ .last := by decide +kernel
  have hends : r.current.links.All fun l => l.otherEnd.kind = .device ∨ l.otherEnd.kind = .switch := by
    have hall : ∀ e ∈ r.current.links.entries, e.2.otherEnd.kind = .device ∨ e.2.otherEnd.kind = .switch := by
      decide +kernel
    exact fun k l hl => hall (k, l) (SortedMap.find?_eq_some_iff.mp hl)
  have hknown : x.Known r.current := by
    show r.current.switches.contains ⟨10⟩ = true
    decide +kernel
  exact ⟨⟨hr, hgen, hends, hknown⟩, removal_exact hr hgen hends x hknown⟩

end NVSwitchFabric
