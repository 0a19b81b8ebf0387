import NVSwitchFabric.Correctness.PortCounts
import NVSwitchFabric.Model.Scenario
import Mathlib.Data.List.Induction

/-!
# `Correctness.InsertionOrder` — the order of additions does not matter

A fabric is built by adding devices, switches, ports, links and partitions. An addition may have to wait for another one: a
port for its switch, a link for its port and its ends. But two orders that both go through leave the same registry. What a
run of additions leaves is `stocked`, which says it of the records alone: the declared count of a switch covers its ports,
whichever of them came first, and everything else is stored as it was given (`stocked_run`).
-/

namespace NVSwitchFabric

open Lib

/-! ## Additions -/

namespace RegistryOp

def device? : RegistryOp → Option DeviceRecord
  | .addDevice rec => some rec
  | _              => none

def switch? : RegistryOp → Option SwitchRecord
  | .addSwitch rec => some rec
  | _              => none

def port? : RegistryOp → Option SwitchPortRecord
  | .addPort rec => some rec
  | _            => none

def link? : RegistryOp → Option LinkRecord
  | .addLink rec => some rec
  | _            => none

/-- A partition that is published, as it is stored where there was none. -/
def partition? : RegistryOp → Option FabricPartition
  | .publishPartition part => some (Edit.partitionToStore none part)
  | _                      => none

/-- The operation adds a record, or publishes a partition. -/
def adds : RegistryOp → Bool
  | .addDevice _ | .addSwitch _ | .addPort _ | .addLink _ | .publishPartition _ => true
  | _ => false

end RegistryOp

/-- The switch with its declared count synchronized with all of `ports` that are on it. -/
def SwitchRecord.coverAll (ports : List SwitchPortRecord) (sw : SwitchRecord) : SwitchRecord :=
  { sw with portCount := ((ports.filter fun p => p.id.sw = sw.id).map fun p => p.id.index + 1).foldl max sw.portCount }

namespace FabricTopology

/-- The snapshot with what the operations add. -/
def stocked (t : FabricTopology) (ops : List RegistryOp) : FabricTopology :=
  { t with
    devices := t.devices.insertAll (·.id) (ops.filterMap RegistryOp.device?)
    switches := (t.switches.insertAll (·.id) (ops.filterMap RegistryOp.switch?)).mapVals
      (SwitchRecord.coverAll (ops.filterMap RegistryOp.port?))
    ports := t.ports.insertAll (·.id) (ops.filterMap RegistryOp.port?)
    links := t.links.insertAll (·.id) (ops.filterMap RegistryOp.link?)
    partitions := t.partitions.insertAll (·.id) (ops.filterMap RegistryOp.partition?)
    topologyGen := Gen.next^[ops.length] t.topologyGen }

/-- What the operations add is under ids of its own. -/
structure Apiece (ops : List RegistryOp) : Prop where
  devices    : ((ops.filterMap RegistryOp.device?).map (·.id)).Nodup
  switches   : ((ops.filterMap RegistryOp.switch?).map (·.id)).Nodup
  ports      : ((ops.filterMap RegistryOp.port?).map (·.id)).Nodup
  links      : ((ops.filterMap RegistryOp.link?).map (·.id)).Nodup
  partitions : ((ops.filterMap RegistryOp.partition?).map (·.id)).Nodup

/-- **What is stocked does not depend on the order.** -/
theorem stocked_perm {t : FabricTopology} {ops ops' : List RegistryOp} (h : Apiece ops) (hperm : ops.Perm ops') :
    t.stocked ops = t.stocked ops' := by
  have hcover : SwitchRecord.coverAll (ops.filterMap RegistryOp.port?) =
      SwitchRecord.coverAll (ops'.filterMap RegistryOp.port?) := by
    funext sw
    have hports := (((hperm.filterMap RegistryOp.port?).filter fun p => p.id.sw = sw.id).map fun p => p.id.index + 1)
    unfold SwitchRecord.coverAll
    rw [hports.foldl_eq]
  unfold stocked
  rw [SortedMap.insertAll_perm h.devices (hperm.filterMap _), SortedMap.insertAll_perm h.switches (hperm.filterMap _),
    SortedMap.insertAll_perm h.ports (hperm.filterMap _), SortedMap.insertAll_perm h.links (hperm.filterMap _),
    SortedMap.insertAll_perm h.partitions (hperm.filterMap _), hcover, hperm.length_eq]

theorem filterMap_concat {α : Type} (ops : List RegistryOp) (op : RegistryOp) (f : RegistryOp → Option α) :
    (ops ++ [op]).filterMap f = ops.filterMap f ++ (f op).toList := by
  rw [List.filterMap_append]
  cases h : f op <;> simp [h]

theorem stocked_concat (t : FabricTopology) (ops : List RegistryOp) (op : RegistryOp) :
    t.stocked (ops ++ [op]) = { t.stocked ops with
      devices := (t.stocked ops).devices.insertAll (·.id) op.device?.toList
      switches := ((t.switches.insertAll (·.id) (ops.filterMap RegistryOp.switch?)).insertAll (·.id)
        op.switch?.toList).mapVals (SwitchRecord.coverAll (ops.filterMap RegistryOp.port? ++ op.port?.toList))
      ports := (t.stocked ops).ports.insertAll (·.id) op.port?.toList
      links := (t.stocked ops).links.insertAll (·.id) op.link?.toList
      partitions := (t.stocked ops).partitions.insertAll (·.id) op.partition?.toList
      topologyGen := (t.stocked ops).topologyGen.next } := by
  unfold stocked
  simp only [filterMap_concat, SortedMap.insertAll_append, List.length_append, List.length_singleton,
    Function.iterate_succ_apply']

/-- A port that fits covers its switch as the maximum of the counts. -/
theorem cover_coverAll {ports : List SwitchPortRecord} {port : SwitchPortRecord} {sw : SwitchRecord}
    (hindex : port.id.index.toNat < Limits.kMaxPortsPerSwitch) (hon : port.id.sw = sw.id) :
    sw.coverAll (ports ++ [port]) = (sw.coverAll ports).cover port.id.index := by
  have hbound : Limits.kMaxPortsPerSwitch < 2 ^ 32 - 1 := by decide
  have hnext : (port.id.index + 1).toNat = port.id.index.toNat + 1 := by
    rw [UInt32.toNat_add]
    have hone : (1 : UInt32).toNat = 1 := rfl
    omega
  have hmax : ∀ count : UInt32, max count (port.id.index + 1) =
      if count ≤ port.id.index then port.id.index + 1 else count := by
    intro count
    split
    · next hle =>
      rw [UInt32.le_iff_toNat_le] at hle
      exact max_eq_right (UInt32.le_iff_toNat_le.mpr (by omega))
    · next hlt =>
      rw [UInt32.le_iff_toNat_le] at hlt
      exact max_eq_left (UInt32.le_iff_toNat_le.mpr (by omega))
  unfold SwitchRecord.coverAll SwitchRecord.cover
  rw [List.filter_append, List.map_append, List.foldl_append, List.filter_cons_of_pos (by simpa using hon)]
  simp only [List.filter_nil, List.map_cons, List.map_nil, List.foldl_cons, List.foldl_nil, hmax]

/-- A port on another switch does not count. -/
theorem coverAll_other {ports : List SwitchPortRecord} {port : SwitchPortRecord} {sw : SwitchRecord}
    (hoff : port.id.sw ≠ sw.id) : sw.coverAll (ports ++ [port]) = sw.coverAll ports := by
  unfold SwitchRecord.coverAll
  rw [List.filter_append, List.filter_cons_of_neg (by simpa using hoff), List.filter_nil, List.append_nil]

/-- An id that is not in the map after an upsert is not one of those upserted. -/
theorem nodup_concat {κ α : Type} [LinearOrder κ] {key : α → κ} {m : SortedMap κ α} {recs : List α} {rec : α}
    (h : (recs.map key).Nodup) (hfresh : (m.insertAll key recs).find? (key rec) = none) : ((recs ++ [rec]).map key).Nodup := by
  rw [List.map_append, List.map_singleton]
  refine List.nodup_append.mpr ⟨h, List.nodup_singleton _, ?_⟩
  rintro _ hk _ hrec rfl
  obtain ⟨rec', hmem, hkey⟩ := List.mem_map.mp hk
  rw [List.mem_singleton] at hrec
  have hthere : (m.insertAll key recs).contains (key rec') = true := SortedMap.contains_insertAll_of_mem hmem m
  rw [hkey, hrec, SortedMap.contains, hfresh] at hthere
  exact absurd hthere Bool.false_ne_true

/-- An addition that goes through is under an id of its own. -/
theorem Apiece.concat {t cand : FabricTopology} {ops : List RegistryOp} {op : RegistryOp} {p : Provenance} {i : UInt64}
    {e : CoordinatorEpoch} (h : Apiece ops)
    (hed : Edited { t.stocked ops with provenance := p, id := i, epoch := e } op cand) (hadds : op.adds = true)
    (hparts : (((ops ++ [op]).filterMap RegistryOp.partition?).map (·.id)).Nodup) : Apiece (ops ++ [op]) := by
  refine ⟨?_, ?_, ?_, ?_, hparts⟩
  all_goals rw [filterMap_concat]
  · cases hed with
    | addDevice fresh => exact nodup_concat h.devices fresh
    | addSwitch | addPort | addLink | publishPartition => exact (List.append_nil _).symm ▸ h.devices
    | _ => exact absurd hadds Bool.false_ne_true
  · cases hed with
    | addSwitch fresh =>
      refine nodup_concat (m := t.switches) h.switches ?_
      exact Option.map_eq_none_iff.mp ((SortedMap.find?_mapVals _ _ _).symm.trans fresh)
    | addDevice | addPort | addLink | publishPartition => exact (List.append_nil _).symm ▸ h.switches
    | _ => exact absurd hadds Bool.false_ne_true
  · cases hed with
    | addPort _ fresh => exact nodup_concat h.ports fresh
    | addDevice | addSwitch | addLink | publishPartition => exact (List.append_nil _).symm ▸ h.ports
    | _ => exact absurd hadds Bool.false_ne_true
  · cases hed with
    | addLink fresh => exact nodup_concat h.links fresh
    | addDevice | addSwitch | addPort | publishPartition => exact (List.append_nil _).symm ▸ h.links
    | _ => exact absurd hadds Bool.false_ne_true

/-- The snapshot is `s`, but for its provenance and what a commit stamps it with. -/
def HasStock (s t : FabricTopology) : Prop := ∃ p i e, t = { s with provenance := p, id := i, epoch := e }

/-- **An addition that goes through stocks its record.** -/
theorem HasStock.edited {t t' cand : FabricTopology} {ops : List RegistryOp} {op : RegistryOp}
    (h : HasStock (t.stocked ops) t') (hed : Edited t' op cand) (hadds : op.adds = true) (hwf : t'.WellFormed)
    (hint : cand.Integral) (hnew : ∀ part, op = .publishPartition part → t'.partitions.find? part.id = none) :
    HasStock (t.stocked (ops ++ [op])) cand := by
  obtain ⟨p, i, e, rfl⟩ := h
  refine ⟨p, i, e, ?_⟩
  rw [stocked_concat]
  cases hed with
  | addDevice =>
    dsimp only [RegistryOp.port?, Option.toList]
    rw [List.append_nil]
    rfl
  | addLink =>
    dsimp only [RegistryOp.port?, Option.toList]
    rw [List.append_nil]
    rfl
  | @publishPartition part =>
    dsimp only [RegistryOp.port?, Option.toList]
    rw [List.append_nil, hnew part rfl]
    rfl
  | @addSwitch rec fresh =>
    -- no port is on the switch yet
    have hbare : rec.coverAll (ops.filterMap RegistryOp.port?) = rec := by
      have hnone : (ops.filterMap RegistryOp.port?).filter (fun port => port.id.sw = rec.id) = [] := by
        rw [List.filter_eq_nil_iff]
        intro port hport hon
        have hstored : (t.stocked ops).ports.contains port.id = true := SortedMap.contains_insertAll_of_mem hport t.ports
        obtain ⟨stored, hfind⟩ := SortedMap.contains_iff.mp hstored
        have hsw := hwf.integral.portSwitch hfind
        rw [of_decide_eq_true hon, SortedMap.contains, fresh] at hsw
        exact absurd hsw Bool.false_ne_true
      unfold SwitchRecord.coverAll
      rw [hnone]
      rfl
    dsimp only [RegistryOp.port?, RegistryOp.switch?, Option.toList]
    rw [List.append_nil, SortedMap.insertAll_cons, SortedMap.insertAll_nil, SortedMap.mapVals_insert, hbare]
    rfl
  | @addPort port sw known fresh =>
    have hindex := hint.portIndex (SortedMap.find?_insert_self _ port.id port)
    let added := t.switches.insertAll (·.id) (ops.filterMap RegistryOp.switch?)
    let ports := ops.filterMap RegistryOp.port?
    obtain ⟨bare, hbare, rfl⟩ := SortedMap.find?_mapVals_eq_some.mp known
    have hkey : ∀ {k v}, added.find? k = some v → v.id = k := by
      intro k v hv
      have hcovered : (added.mapVals (SwitchRecord.coverAll ports)).find? k = some (v.coverAll ports) :=
        SortedMap.find?_mapVals_eq_some.mpr ⟨v, hv, rfl⟩
      have hid : (v.coverAll ports).id = k := hwf.keyed.switches hcovered
      exact hid
    have hswitches : added.mapVals (SwitchRecord.coverAll (ports ++ [port])) =
        (added.mapVals (SwitchRecord.coverAll ports)).insert port.id.sw ((bare.coverAll ports).cover port.id.index) := by
      apply SortedMap.ext_find?
      intro k
      rw [SortedMap.find?_insert, SortedMap.find?_mapVals, SortedMap.find?_mapVals]
      by_cases hk : k = port.id.sw
      · subst hk
        rw [if_pos rfl, hbare, Option.map_some, cover_coverAll hindex (hkey hbare).symm]
      · rw [if_neg hk]
        cases hv : added.find? k with
        | none => rfl
        | some v =>
          have hoff : port.id.sw ≠ v.id := fun heq => hk ((hkey hv).symm.trans heq.symm)
          rw [Option.map_some, Option.map_some, coverAll_other hoff]
    dsimp only [RegistryOp.port?, RegistryOp.switch?, Option.toList]
    rw [SortedMap.insertAll_nil]
    exact congrArg (fun switches => { t.stocked ops with
      switches := switches
      ports := (t.stocked ops).ports.insert port.id port
      topologyGen := (t.stocked ops).topologyGen.next, provenance := p, id := i, epoch := e }) hswitches.symm
  | _ => exact absurd hadds Bool.false_ne_true

end FabricTopology

/-! ## Runs of additions -/

namespace FabricRegistry

variable {r : FabricRegistry} {ops ops' : List RegistryOp}

/-- A mutator that goes through, and what else it changes. -/
theorem exec_adds {cand : FabricTopology} {op : RegistryOp} (hed : Edited r.current op cand) (hadds : op.adds = true)
    (hadm : FabricTopology.Admissible r.current (r.committed cand)) :
    r.exec op = { r with
      current := r.committed cand
      nextSnapshotId := r.nextSnapshotId + 1
      version := r.version + 1 } := by
  obtain ⟨edit, hedit, hok⟩ := hed.edit?_of_admissible hadm
  have hmutate : (r.mutate edit).2 = { r with
      current := r.committed cand
      nextSnapshotId := r.nextSnapshotId + 1
      version := r.version + 1 } := by
    unfold mutate
    rw [hok]
    dsimp only
    rw [publish_of_admissible "" hadm]
  cases op with
  | addDevice _ | addSwitch _ | addPort _ | addLink _ | publishPartition _ =>
    obtain rfl := Option.some.inj hedit
    exact hmutate
  | _ => exact absurd hadds Bool.false_ne_true

/-- The registry after `n + 1` commits, of which the last one was of `t`. -/
def committedAfter (n : Nat) (t : FabricTopology) (r : FabricRegistry) : FabricRegistry :=
  { r with
    current := { finalizeProvenance t with id := r.nextSnapshotId + UInt64.ofNat n, epoch := r.epoch }
    nextSnapshotId := r.nextSnapshotId + UInt64.ofNat n + 1
    version := r.version + n + 1 }

/-- The operations add records, and partitions under new ids. -/
structure Additions (r : FabricRegistry) (ops : List RegistryOp) : Prop where
  adds     : ∀ op ∈ ops, op.adds = true
  distinct : ((ops.filterMap RegistryOp.partition?).map (·.id)).Nodup
  fresh    : ∀ part ∈ ops.filterMap RegistryOp.partition?, r.current.partitions.find? part.id = none

theorem Additions.perm (h : Additions r ops) (hperm : ops.Perm ops') : Additions r ops' where
  adds op hop := h.adds op (hperm.mem_iff.mpr hop)
  distinct := ((hperm.filterMap _).map _).nodup_iff.mp h.distinct
  fresh part hpart := h.fresh part ((hperm.filterMap _).mem_iff.mpr hpart)

theorem Additions.init {op : RegistryOp} (h : Additions r (ops ++ [op])) : Additions r ops where
  adds op' hop := h.adds op' (List.mem_append_left _ hop)
  distinct := by
    have hall := h.distinct
    rw [FabricTopology.filterMap_concat, List.map_append] at hall
    exact (List.nodup_append.mp hall).1
  fresh part hpart := h.fresh part (by rw [FabricTopology.filterMap_concat]; exact List.mem_append_left _ hpart)

/-- What a run of additions has done. -/
structure Stocked (r : FabricRegistry) (ops : List RegistryOp) (s : FabricRegistry) : Prop where
  contents : FabricTopology.HasStock (r.current.stocked ops) s.current
  apiece   : FabricTopology.Apiece ops
  rest     : { s with current := r.current } = { r with
    nextSnapshotId := r.nextSnapshotId + UInt64.ofNat ops.length
    version := r.version + ops.length }

theorem stocked_nil (r : FabricRegistry) : Stocked r [] r where
  contents := by
    refine ⟨r.current.provenance, r.current.id, r.current.epoch, ?_⟩
    have hcover : r.current.switches.mapVals (SwitchRecord.coverAll []) = r.current.switches := SortedMap.mapVals_id _
    unfold FabricTopology.stocked
    simp only [List.filterMap_nil, SortedMap.insertAll_nil, hcover]
    rfl
  apiece := ⟨List.nodup_nil, List.nodup_nil, List.nodup_nil, List.nodup_nil, List.nodup_nil⟩
  rest := by
    have hnext : r.nextSnapshotId + UInt64.ofNat ([] : List RegistryOp).length = r.nextSnapshotId := UInt64.add_zero _
    have hversion : r.version + ([] : List RegistryOp).length = r.version := Int.add_zero _
    rw [hnext, hversion]

/-- The state after one more addition. -/
theorem Stocked.exec_eq {s : FabricRegistry} {op : RegistryOp} (h : Stocked r ops s) (hr : s.Reachable)
    (hadd : Additions r (ops ++ [op])) (hacc : s.Accepts op) :
    s.exec op = committedAfter ops.length (r.current.stocked (ops ++ [op])) r := by
  obtain ⟨cand, hed, hadm⟩ := hacc
  have hadds := hadd.adds op (List.mem_append_right _ List.mem_cons_self)
  have hnew : ∀ part, op = .publishPartition part → s.current.partitions.find? part.id = none := by
    rintro part rfl
    have hdistinct := hadd.distinct
    have hfresh := hadd.fresh
    rw [FabricTopology.filterMap_concat] at hdistinct hfresh
    rw [List.map_append] at hdistinct
    have hlast : Edit.partitionToStore none part ∈ (RegistryOp.publishPartition part).partition?.toList := List.mem_cons_self
    obtain ⟨_, _, _, heq⟩ := h.contents
    rw [heq]
    have hbefore := hfresh _ (List.mem_append_right _ hlast)
    refine (SortedMap.find?_insertAll_of_ne fun part' hpart' => ?_).trans hbefore
    have hid := List.mem_map_of_mem (f := fun part : FabricPartition => part.id) hlast
    exact (List.nodup_append.mp hdistinct).2.2 _ (List.mem_map_of_mem hpart') _ hid
  obtain ⟨p, i, e, rfl⟩ := h.contents.edited hed hadds hr.wellFormed (hadm.integral.of_maps_eq rfl rfl rfl rfl rfl) hnew
  -- `s` is `r` but for the snapshot and two counters
  let kept : FabricRegistry := { s with current := r.current }
  have hexec : s.exec op = { kept with
      current := { finalizeProvenance (r.current.stocked (ops ++ [op])) with id := kept.nextSnapshotId, epoch := kept.epoch }
      nextSnapshotId := kept.nextSnapshotId + 1
      version := kept.version + 1 } := (exec_adds hed hadds hadm).trans rfl
  have hkept : kept = { r with
      nextSnapshotId := r.nextSnapshotId + UInt64.ofNat ops.length
      version := r.version + ops.length } := h.rest
  rw [hexec, hkept]
  rfl

/-- One more addition. -/
theorem Stocked.concat {s : FabricRegistry} {op : RegistryOp} (h : Stocked r ops s) (hr : s.Reachable)
    (hadd : Additions r (ops ++ [op])) (hacc : s.Accepts op) : Stocked r (ops ++ [op]) (s.exec op) where
  contents := by
    rw [h.exec_eq hr hadd hacc]
    exact ⟨_, _, _, rfl⟩
  apiece := by
    obtain ⟨cand, hed, _⟩ := hacc
    obtain ⟨p, i, e, heq⟩ := h.contents
    rw [heq] at hed
    exact h.apiece.concat hed (hadd.adds op (List.mem_append_right _ List.mem_cons_self)) hadd.distinct
  rest := by
    rw [h.exec_eq hr hadd hacc, List.length_append, List.length_singleton, UInt64.ofNat_add, ← UInt64.add_assoc,
      Int.natCast_add, ← Int.add_assoc]
    rfl

/-- **What a run of additions leaves.** -/
theorem stocked_run (hr : r.Reachable) (hadd : Additions r ops) (hacc : Obeys exec Accepts r ops) :
    Stocked r ops (runAll exec r ops) := by
  induction ops using List.reverseRecOn with
  | nil => exact stocked_nil r
  | append_singleton ops op ih =>
    obtain ⟨hbefore, hlast⟩ := obeys_concat.mp hacc
    have hrun : runAll exec r (ops ++ [op]) = (runAll exec r ops).exec op := List.foldl_concat ..
    rw [hrun]
    exact (ih hadd.init hbefore).concat (hr.steps (Steps.of_runAll exec r ops)) hadd hlast

/-- The state it leaves, once there is something to add. -/
theorem run_eq (hr : r.Reachable) (hadd : Additions r ops) (hacc : Obeys exec Accepts r ops) (hne : ops ≠ []) :
    runAll exec r ops = committedAfter (ops.length - 1) (r.current.stocked ops) r := by
  obtain ⟨init, op, heq⟩ := (List.eq_nil_or_concat ops).resolve_left hne
  rw [List.concat_eq_append] at heq
  subst heq
  obtain ⟨hbefore, hlast⟩ := obeys_concat.mp hacc
  have hrun : runAll exec r (init ++ [op]) = (runAll exec r init).exec op := List.foldl_concat ..
  rw [hrun, (stocked_run hr hadd.init hbefore).exec_eq (hr.steps (Steps.of_runAll exec r init)) hadd hlast,
    List.length_append, List.length_singleton, Nat.add_sub_cancel]

/-- **The order of insertion cannot change the result.** Two orders of the same additions that both go through leave the
    same registry. -/
theorem insertion_order (hr : r.Reachable) (hadd : Additions r ops) (hperm : ops.Perm ops')
    (hacc : Obeys exec Accepts r ops) (hacc' : Obeys exec Accepts r ops') :
    runAll exec r ops = runAll exec r ops' := by
  by_cases hne : ops = []
  · subst hne
    rw [List.nil_perm.mp hperm]
  · have hne' : ops' ≠ [] := fun hnil => hne (List.perm_nil.mp (hnil ▸ hperm))
    rw [run_eq hr hadd hacc hne, run_eq hr (hadd.perm hperm) hacc' hne', hperm.length_eq,
      FabricTopology.stocked_perm (stocked_run hr hadd hacc).apiece hperm]

/-- A switch of one port. -/
def bareSwitch : RegistryOp := .addSwitch (makeSyntheticSwitch ⟨10⟩ (ascii "g") 1)

/-- A port beyond its declared count. -/
def sparePort : List RegistryOp := [.addPort (makeSyntheticPort ⟨10⟩ 3 {})]

/-- A device behind another one, and a partition of the two. -/
def wiredDevice : List RegistryOp :=
  [.addPort (makeSyntheticPort ⟨10⟩ 1 (.toDevice ⟨1⟩)), .addDevice (makeSyntheticDevice ⟨1⟩ (ascii "g") .up),
    .addLink (makeSyntheticLink ⟨100⟩ ⟨10⟩ ⟨⟨10⟩, 1⟩ (.toDevice ⟨1⟩)),
    .publishPartition (makeSyntheticPartition ⟨ascii "p"⟩ [⟨1⟩] [⟨10⟩] .active)]

/-- The counts of the two ports reach the switch in either order. -/
theorem insertion_order_sparePort :
    runAll exec new (bareSwitch :: (sparePort ++ wiredDevice)) = runAll exec new (bareSwitch :: (wiredDevice ++ sparePort)) := by
  refine insertion_order (reachable_after []) ⟨by decide, by decide, by decide⟩ (List.perm_append_comm.cons _) ?_ ?_
  · exact ⟨accepts_of_id_ne (by decide +kernel), accepts_of_id_ne (by decide +kernel), accepts_of_id_ne (by decide +kernel),
      accepts_of_id_ne (by decide +kernel), accepts_of_id_ne (by decide +kernel), accepts_of_id_ne (by decide +kernel), trivial⟩
  · exact ⟨accepts_of_id_ne (by decide +kernel), accepts_of_id_ne (by decide +kernel), accepts_of_id_ne (by decide +kernel),
      accepts_of_id_ne (by decide +kernel), accepts_of_id_ne (by decide +kernel), accepts_of_id_ne (by decide +kernel), trivial⟩

end FabricRegistry

end NVSwitchFabric
