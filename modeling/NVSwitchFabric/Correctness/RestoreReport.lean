import NVSwitchFabric.Correctness.Publication
import NVSwitchFabric.Correctness.Restart
import NVSwitchFabric.Correctness.Unchanged

/-!
# `Correctness.RestoreReport` — what a restore that reports success has done

`restoreFromAndRevalidate` reports whether the file could be read. It then applies the records of the file as one bulk
edit and expires what is dynamic, and either may be refused: the bulk edit when the file does not merge with the records
the registry holds (`Mergeable`), the expiry at the last topology generation. `restore_reports_iff` says when the report
is borne out all the same.
-/

namespace NVSwitchFabric

open Lib

namespace FabricTopology

variable {t s : FabricTopology}

/-! ## What the report promises -/

/-- Every entity of `s` is in `t` too. -/
structure HeldBy (s t : FabricTopology) : Prop where
  devices    : ∀ {k}, s.devices.contains k = true → t.devices.contains k = true
  switches   : ∀ {k}, s.switches.contains k = true → t.switches.contains k = true
  ports      : ∀ {k}, s.ports.contains k = true → t.ports.contains k = true
  links      : ∀ {k}, s.links.contains k = true → t.links.contains k = true
  partitions : ∀ {k}, s.partitions.contains k = true → t.partitions.contains k = true

/-- Every record that is dynamic awaits revalidation, but for those of the entities that `s` has too. -/
structure AwaitsBeyond (t s : FabricTopology) : Prop where
  devices    : ∀ k rec, t.devices.find? k = some rec → s.devices.find? k = none → rec.isDynamic = true →
                 rec.state = .revalidationRequired
  switches   : ∀ k rec, t.switches.find? k = some rec → s.switches.find? k = none → rec.isDynamic = true →
                 rec.state = .revalidationRequired
  ports      : ∀ k rec, t.ports.find? k = some rec → s.ports.find? k = none → rec.isDynamic = true →
                 rec.state = .revalidationRequired
  links      : ∀ k rec, t.links.find? k = some rec → s.links.find? k = none → rec.isDynamic = true →
                 rec.state = .revalidationRequired
  partitions : ∀ k rec, t.partitions.find? k = some rec → s.partitions.find? k = none → rec.isDynamic = true →
                 rec.state = .revalidationRequired

/-- Every record that is worker-owned or real awaits revalidation. -/
structure Awaits (t : FabricTopology) : Prop where
  devices    : t.devices.All fun rec => rec.isDynamic = true → rec.state = .revalidationRequired
  switches   : t.switches.All fun rec => rec.isDynamic = true → rec.state = .revalidationRequired
  ports      : t.ports.All fun rec => rec.isDynamic = true → rec.state = .revalidationRequired
  links      : t.links.All fun rec => rec.isDynamic = true → rec.state = .revalidationRequired
  partitions : t.partitions.All fun rec => rec.isDynamic = true → rec.state = .revalidationRequired

/-! ## Merging two snapshots -/

/-- The records of `s` written over those of `t`. -/
def merged (t s : FabricTopology) : FabricTopology := t.upserted (.ofTopology s)

/-- The records of `s` may be written over those of `t`: together they are within the bounds, none of them is of an older
    generation than the record it replaces, and there is a topology generation left. -/
structure Mergeable (t s : FabricTopology) : Prop where
  limits       : (t.merged s).WithinLimits
  switchGen    : StampsGrow (·.gen) t.switches s.switches
  portGen      : StampsGrow (·.gen) t.ports s.ports
  linkGen      : StampsGrow (·.gen) t.links s.links
  partitionGen : StampsGrow (·.gen) t.partitions s.partitions
  topologyGen  : t.topologyGen ≠ .last

section
variable {κ α : Type} [LinearOrder κ] {m m' : SortedMap κ α} {key : α → κ}

/-- What is in either map is in the merged one. -/
theorem contains_merged (h : m.KeyedBy key) (m' : SortedMap κ α) (k : κ) :
    (m'.insertAll key (m.entries.map Prod.snd)).contains k = (m.contains k || m'.contains k) := by
  unfold SortedMap.contains
  rw [h.find?_insertAll_records, Option.isSome_or]

/-- What is in the merged map is from one of the two. -/
theorem merged_cases (h : m.KeyedBy key) {k : κ} {v : α}
    (hv : (m'.insertAll key (m.entries.map Prod.snd)).find? k = some v) : m.find? k = some v ∨ m'.find? k = some v := by
  rw [h.find?_insertAll_records] at hv
  cases hk : m.find? k with
  | some w =>
    rw [hk] at hv
    exact Or.inl hv
  | none =>
    rw [hk] at hv
    exact Or.inr hv

/-- A record merged in replaces the one of its key, so only these generations are compared. -/
theorem stampsGrow_merged_iff {γ : Type} [LinearOrder γ] {gen : α → γ} (h : m.KeyedBy key) :
    StampsGrow gen m' (m'.insertAll key (m.entries.map Prod.snd)) ↔ StampsGrow gen m' m := by
  constructor
  · intro hgrow k v v' hv hv'
    have hmerged : (m'.insertAll key (m.entries.map Prod.snd)).find? k = some v' := by
      rw [h.find?_insertAll_records, hv']
      rfl
    exact hgrow hv hmerged
  · intro hgrow k v v' hv hv'
    rcases merged_cases h hv' with hnew | hold
    · exact hgrow hv hnew
    · rw [Option.some.inj (hv.symm.trans hold)]

end

/-- What is merged in is held. -/
theorem heldBy_merged (hs : s.Keyed) : s.HeldBy (t.merged s) := by
  constructor
  · intro k h
    exact (contains_merged hs.devices t.devices k).trans (by rw [h, Bool.true_or])
  · intro k h
    exact (contains_merged hs.switches t.switches k).trans (by rw [h, Bool.true_or])
  · intro k h
    exact (contains_merged hs.ports t.ports k).trans (by rw [h, Bool.true_or])
  · intro k h
    exact (contains_merged hs.links t.links k).trans (by rw [h, Bool.true_or])
  · intro k h
    exact (contains_merged hs.partitions t.partitions k).trans (by rw [h, Bool.true_or])

/-- What was held stays so. -/
theorem held_merged (hs : s.Keyed) : t.HeldBy (t.merged s) := by
  constructor
  · intro k h
    exact (contains_merged hs.devices t.devices k).trans (by rw [h, Bool.or_true])
  · intro k h
    exact (contains_merged hs.switches t.switches k).trans (by rw [h, Bool.or_true])
  · intro k h
    exact (contains_merged hs.ports t.ports k).trans (by rw [h, Bool.or_true])
  · intro k h
    exact (contains_merged hs.links t.links k).trans (by rw [h, Bool.or_true])
  · intro k h
    exact (contains_merged hs.partitions t.partitions k).trans (by rw [h, Bool.or_true])

theorem HeldBy.endExists (h : s.HeldBy t) {e : LinkEnd} (he : s.EndExists e) : t.EndExists e := by
  unfold EndExists at he ⊢
  split
  · next hdev =>
    rw [if_pos hdev] at he
    exact h.devices he
  · next hdev =>
    rw [if_neg hdev] at he
    exact h.switches he

/-- A snapshot is integral if each of its records is one of an integral snapshot all of whose entities it has. -/
theorem Integral.of_parts (hkey : ∀ {k rec}, t.switches.find? k = some rec → rec.id = k)
    (hport : ∀ {k rec}, t.ports.find? k = some rec →
      ∃ s : FabricTopology, s.Integral ∧ s.HeldBy t ∧ s.ports.find? k = some rec)
    (hlink : ∀ {k rec}, t.links.find? k = some rec →
      ∃ s : FabricTopology, s.Integral ∧ s.HeldBy t ∧ s.links.find? k = some rec)
    (hpart : ∀ {k rec}, t.partitions.find? k = some rec →
      ∃ s : FabricTopology, s.Integral ∧ s.HeldBy t ∧ s.partitions.find? k = some rec) : t.Integral where
  switchKey := hkey
  portSwitch := by
    intro k rec hrec
    obtain ⟨s, hs, hheld, hold⟩ := hport hrec
    exact hheld.switches (hs.portSwitch hold)
  portIndex := by
    intro k rec hrec
    obtain ⟨s, hs, -, hold⟩ := hport hrec
    exact hs.portIndex hold
  linkRoot := by
    intro k rec hrec
    obtain ⟨s, hs, hheld, hold⟩ := hlink hrec
    exact hheld.switches (hs.linkRoot hold)
  linkPort := by
    intro k rec hrec
    obtain ⟨s, hs, hheld, hold⟩ := hlink hrec
    exact hheld.ports (hs.linkPort hold)
  linkPortRoot := by
    intro k rec hrec
    obtain ⟨s, hs, -, hold⟩ := hlink hrec
    exact hs.linkPortRoot hold
  linkEnd := by
    intro k rec hrec
    obtain ⟨s, hs, hheld, hold⟩ := hlink hrec
    exact hheld.endExists (hs.linkEnd hold)
  partitionMember := by
    intro k rec hrec m hm
    obtain ⟨s, hs, hheld, hold⟩ := hpart hrec
    exact hheld.devices (hs.partitionMember hold m hm)
  partitionSwitch := by
    intro k rec hrec sw hsw
    obtain ⟨s, hs, hheld, hold⟩ := hpart hrec
    exact hheld.switches (hs.partitionSwitch hold sw hsw)

/-- Integral snapshots are integral together. -/
theorem Integral.merged (ht : t.Integral) (hs : s.Integral) (htk : t.Keyed) (hsk : s.Keyed) :
    (t.merged s).Integral := by
  refine Integral.of_parts ?_ ?_ ?_ ?_
  · intro k rec hrec
    exact htk.switches.insertAll _ hrec
  · intro k rec hrec
    rcases merged_cases hsk.ports hrec with h | h
    · exact ⟨s, hs, heldBy_merged hsk, h⟩
    · exact ⟨t, ht, held_merged hsk, h⟩
  · intro k rec hrec
    rcases merged_cases hsk.links hrec with h | h
    · exact ⟨s, hs, heldBy_merged hsk, h⟩
    · exact ⟨t, ht, held_merged hsk, h⟩
  · intro k rec hrec
    rcases merged_cases hsk.partitions hrec with h | h
    · exact ⟨s, hs, heldBy_merged hsk, h⟩
    · exact ⟨t, ht, held_merged hsk, h⟩

/-- **The bulk edit goes through exactly if the snapshots are mergeable.** -/
theorem accepts_ofTopology_iff {r : FabricRegistry} (hwf : r.current.WellFormed) (hs : s.WellFormed) :
    r.Accepts (.applyBulk (.ofTopology s)) ↔ r.current.Mergeable s := by
  rw [accepts_applyBulk_iff]
  have hgen : r.current.topologyGen ≤ r.current.topologyGen.next ↔ r.current.topologyGen ≠ .last := by
    rw [← not_lt]
    exact Gen.not_next_lt
  constructor
  · intro hadm
    exact ⟨{ hadm.limits with }, (stampsGrow_merged_iff hs.keyed.switches).mp hadm.switchGen,
      (stampsGrow_merged_iff hs.keyed.ports).mp hadm.portGen, (stampsGrow_merged_iff hs.keyed.links).mp hadm.linkGen,
      (stampsGrow_merged_iff hs.keyed.partitions).mp hadm.partitionGen, hgen.mp hadm.topologyGen⟩
  · rintro ⟨hlimits, hsw, hp, hl, hpt, htopo⟩
    have hint := hwf.integral.merged hs.integral hwf.keyed hs.keyed
    exact ⟨hint.of_maps_eq rfl rfl rfl rfl rfl, { hlimits with }, (stampsGrow_merged_iff hs.keyed.switches).mpr hsw,
      (stampsGrow_merged_iff hs.keyed.ports).mpr hp, (stampsGrow_merged_iff hs.keyed.links).mpr hl,
      (stampsGrow_merged_iff hs.keyed.partitions).mpr hpt, hgen.mpr htopo⟩

/-- After merging, what awaits revalidation is judged by the records of `s` and those they do not replace. -/
theorem awaits_merged_iff (hs : s.Keyed) : (t.merged s).Awaits ↔ s.Awaits ∧ t.AwaitsBeyond s := by
  have hd := hs.devices.all_insertAll_iff (g := fun v => v) (fun _ => rfl) t.devices
    (P := fun rec => rec.isDynamic = true → rec.state = .revalidationRequired)
  have hsw := hs.switches.all_insertAll_iff (g := fun v => v) (fun _ => rfl) t.switches
    (P := fun rec => rec.isDynamic = true → rec.state = .revalidationRequired)
  have hp := hs.ports.all_insertAll_iff (g := fun v => v) (fun _ => rfl) t.ports
    (P := fun rec => rec.isDynamic = true → rec.state = .revalidationRequired)
  have hl := hs.links.all_insertAll_iff (g := fun v => v) (fun _ => rfl) t.links
    (P := fun rec => rec.isDynamic = true → rec.state = .revalidationRequired)
  have hpt := hs.partitions.all_insertAll_iff (g := fun v => v) (fun _ => rfl) t.partitions
    (P := fun rec => rec.isDynamic = true → rec.state = .revalidationRequired)
  constructor
  · rintro ⟨h₁, h₂, h₃, h₄, h₅⟩
    obtain ⟨hd₁, hd₂⟩ := hd.mp h₁
    obtain ⟨hs₁, hs₂⟩ := hsw.mp h₂
    obtain ⟨hp₁, hp₂⟩ := hp.mp h₃
    obtain ⟨hl₁, hl₂⟩ := hl.mp h₄
    obtain ⟨ht₁, ht₂⟩ := hpt.mp h₅
    exact ⟨⟨hd₁, hs₁, hp₁, hl₁, ht₁⟩, ⟨hd₂, hs₂, hp₂, hl₂, ht₂⟩⟩
  · rintro ⟨⟨hd₁, hs₁, hp₁, hl₁, ht₁⟩, ⟨hd₂, hs₂, hp₂, hl₂, ht₂⟩⟩
    exact ⟨hd.mpr ⟨hd₁, hd₂⟩, hsw.mpr ⟨hs₁, hs₂⟩, hp.mpr ⟨hp₁, hp₂⟩, hl.mpr ⟨hl₁, hl₂⟩, hpt.mpr ⟨ht₁, ht₂⟩⟩

/-- A report of success is borne out, for a file with the records of `s` and a registry with those of `t`: they merge, or
    the registry holds every entity of the file anyway; and the expiry goes through, or it has nothing to do. -/
def BornOut (t s : FabricTopology) : Prop :=
  (t.Mergeable s ∧ (t.topologyGen.next = .last → s.Awaits ∧ t.AwaitsBeyond s)) ∨
    (¬ t.Mergeable s ∧ s.HeldBy t ∧ (t.topologyGen = .last → t.Awaits))

end FabricTopology

/-! ## Expiry -/

namespace FabricRegistry

open FabricTopology

variable {r : FabricRegistry}

theorem awaits_expired (t : FabricTopology) : (expired t).Awaits := by
  constructor
  · intro k rec hrec
    obtain ⟨old, _, rfl⟩ := SortedMap.find?_mapVals_eq_some.mp hrec
    unfold DeviceRecord.expire
    split <;> simp_all
  · intro k rec hrec
    obtain ⟨old, _, rfl⟩ := SortedMap.find?_mapVals_eq_some.mp hrec
    unfold SwitchRecord.expire
    split <;> simp_all
  · intro k rec hrec
    obtain ⟨old, _, rfl⟩ := SortedMap.find?_mapVals_eq_some.mp hrec
    unfold SwitchPortRecord.expire
    split <;> simp_all
  · intro k rec hrec
    obtain ⟨old, _, rfl⟩ := SortedMap.find?_mapVals_eq_some.mp hrec
    unfold LinkRecord.expire
    split <;> simp_all
  · intro k rec hrec
    obtain ⟨old, _, rfl⟩ := SortedMap.find?_mapVals_eq_some.mp hrec
    unfold FabricPartition.expire
    split <;> simp_all

/-- An expiry that goes through publishes its candidate. -/
theorem exec_expire_current (hwf : r.current.WellFormed) (hgen : r.current.topologyGen ≠ .last) :
    (r.exec .expireDynamicEvidence).current = r.committed (expired r.current) :=
  exec_current_of_admissible rfl rfl ((expired_admissible_iff hwf).mpr hgen)

/-- **After an expiry everything dynamic awaits revalidation**, if it went through or had nothing to do. -/
theorem expire_awaits_iff (hwf : r.current.WellFormed) :
    (r.exec .expireDynamicEvidence).current.Awaits ↔ (r.current.topologyGen = .last → r.current.Awaits) := by
  by_cases hlast : r.current.topologyGen = .last
  · rw [exec_expire_of_last hwf hlast]
    exact ⟨fun h _ => h, fun h => h hlast⟩
  · rw [exec_expire_current hwf hlast]
    exact ⟨fun _ heq => absurd heq hlast, fun _ => { awaits_expired r.current with }⟩

/-- It keeps every entity, and makes none. -/
theorem heldBy_expire_iff (hwf : r.current.WellFormed) {s : FabricTopology} :
    s.HeldBy (r.exec .expireDynamicEvidence).current ↔ s.HeldBy r.current := by
  by_cases hlast : r.current.topologyGen = .last
  · rw [exec_expire_of_last hwf hlast]
    rfl
  · rw [exec_expire_current hwf hlast]
    have hcontains : ∀ {κ α : Type} [LinearOrder κ] (f : α → α) {m : SortedMap κ α} {k : κ},
        (m.mapVals f).contains k = true ↔ m.contains k = true := by
      intro κ α _ f m k
      rw [SortedMap.contains_mapVals]
    constructor
    · rintro ⟨hd, hsw, hp, hl, hpt⟩
      exact ⟨fun h => (hcontains _).mp (hd h), fun h => (hcontains _).mp (hsw h), fun h => (hcontains _).mp (hp h),
        fun h => (hcontains _).mp (hl h), fun h => (hcontains _).mp (hpt h)⟩
    · rintro ⟨hd, hsw, hp, hl, hpt⟩
      exact ⟨fun h => (hcontains _).mpr (hd h), fun h => (hcontains _).mpr (hsw h), fun h => (hcontains _).mpr (hp h),
        fun h => (hcontains _).mpr (hl h), fun h => (hcontains _).mpr (hpt h)⟩

/-- **What the two operations of a restore leave.** -/
theorem restored_registry_iff (hr : r.Reachable) {s : FabricTopology} (hs : s.WellFormed) :
    let r' := (r.exec (.applyBulk (.ofTopology s))).exec .expireDynamicEvidence
    (s.HeldBy r'.current ∧ r'.current.Awaits) ↔ r.current.BornOut s := by
  have hwf := hr.wellFormed
  have hwf' := (hr.exec (.applyBulk (.ofTopology s))).wellFormed
  dsimp only
  rw [heldBy_expire_iff hwf', expire_awaits_iff hwf']
  unfold BornOut
  by_cases hmerge : r.current.Mergeable s
  · have hcurrent := exec_applyBulk_current ((accepts_ofTopology_iff hwf hs).mpr hmerge)
    have hheld : s.HeldBy (r.committed (r.current.merged s)) := { heldBy_merged (t := r.current) hs.keyed with }
    have hawaits : (r.committed (r.current.merged s)).Awaits ↔ s.Awaits ∧ r.current.AwaitsBeyond s := by
      rw [← awaits_merged_iff hs.keyed]
      exact ⟨fun h => { h with }, fun h => { h with }⟩
    rw [hcurrent]
    change s.HeldBy (r.committed (r.current.merged s)) ∧ (r.current.topologyGen.next = .last →
      (r.committed (r.current.merged s)).Awaits) ↔ _
    rw [hawaits]
    exact ⟨fun h => Or.inl ⟨hmerge, h.2⟩, fun h => ⟨hheld, (h.resolve_right fun hno => hno.1 hmerge).2⟩⟩
  · have hrefused : ¬ r.Accepts (.applyBulk (.ofTopology s)) := fun hacc =>
      hmerge ((accepts_ofTopology_iff hwf hs).mp hacc)
    rw [exec_current_of_not_accepts hrefused]
    exact ⟨fun h => Or.inr ⟨hmerge, h⟩, fun h => (h.resolve_left fun hyes => hmerge hyes.1).2⟩

end FabricRegistry

/-! ## The report -/

namespace Coordinator

open FabricTopology

/-- If the restore reports success, every entity of the file is in the registry, and everything in it that is worker-owned
    or real awaits revalidation. -/
def ReportsRestore (c : Coordinator) (path : Str) : Prop :=
  (c.restoreFromAndRevalidate path).1 = .ok () → ∃ res, FabricRegistry.restoreFrom path c.disk = .ok res ∧
    res.snapshot.HeldBy (c.restoreFromAndRevalidate path).2.registry.current ∧
    (c.restoreFromAndRevalidate path).2.registry.current.Awaits

/-- What is read from a file is well formed. -/
theorem restoreFrom_wellFormed {path : Str} {disk : Disk} {res : FabricRegistry}
    (h : FabricRegistry.restoreFrom path disk = .ok res) : res.snapshot.WellFormed := by
  unfold FabricRegistry.restoreFrom deserializeFromFile at h
  split at h
  · exact absurd h (by simp)
  split at h
  · exact absurd h (by simp)
  obtain ⟨topo, htopo, rfl⟩ := deserialize_ok h
  exact htopo

/-- **When a restore that reports success has restored.** For every coordinator and every file: exactly if the report is
    borne out for the records of the file. -/
theorem restore_reports_iff {c : Coordinator} (hc : c.registry.Reachable) (path : Str) :
    c.ReportsRestore path ↔
      ∀ res, FabricRegistry.restoreFrom path c.disk = .ok res → c.registry.current.BornOut res.snapshot := by
  unfold ReportsRestore
  cases hres : FabricRegistry.restoreFrom path c.disk with
  | error err =>
    rw [restore_error hres]
    refine iff_of_true ?_ ?_
    · intro hok
      exact absurd hok (by simp)
    · intro res hok
      exact absurd hok (by simp)
  | ok res =>
    obtain ⟨hok, hreg⟩ := restore_ok hres
    have hiff := FabricRegistry.restored_registry_iff hc (restoreFrom_wellFormed hres)
    rw [hok, hreg]
    constructor
    · intro h res' hres'
      obtain rfl := Except.ok.inj hres'
      obtain ⟨_, hsame, hclean⟩ := h rfl
      obtain rfl := Except.ok.inj hsame
      exact hiff.mp hclean
    · intro h _
      exact ⟨res, rfl, hiff.mpr (h res rfl)⟩

theorem serving_disk (registry : FabricRegistry) (persistPath : Str) (disk : Disk) :
    (serving registry persistPath disk).disk = disk := rfl

theorem fresh_disk (e : CoordinatorEpoch) (persistPath : Str) (disk : Disk) : (fresh e persistPath disk).disk = disk :=
  rfl

/-- What a fresh coordinator restores from the saved file, it has. -/
theorem restore_reports_fresh : (fresh 2 stateFile savedDisk).ReportsRestore stateFile := by
  refine (restore_reports_iff (c := fresh 2 stateFile savedDisk) ?_ stateFile).mpr ?_
  · exact FabricRegistry.reachable_after [.setEpoch 2]
  rw [fresh_disk]
  intro res hres
  obtain rfl := Except.ok.inj (restoreFrom_savedDisk.symm.trans hres)
  have hacc : (FabricRegistry.new.setEpoch 2).Accepts (.applyBulk (.ofTopology (restored beforeRestart.current).snapshot)) :=
    accepts_of_id_ne (by decide +kernel)
  have hwf : (FabricRegistry.new.setEpoch 2).current.WellFormed := FabricRegistry.wellFormed_new
  refine Or.inl ⟨(accepts_ofTopology_iff hwf (restoreFrom_wellFormed hres)).mp hacc, ?_⟩
  intro hlast
  exact absurd hlast (by decide)

/-- A coordinator that has seen the file's switch at a later generation. -/
def aheadOfFile : Coordinator :=
  serving (FabricRegistry.after [.addSwitch { id := ⟨10⟩, gen := ⟨7⟩, state := .up }]) stateFile savedDisk

/-- It reports success, and has nothing of the rest of the file. -/
theorem refused_restore_reported :
    (aheadOfFile.restoreFromAndRevalidate stateFile).1 = .ok () ∧
      (restored beforeRestart.current).snapshot.devices.contains ⟨1⟩ = true ∧
      (aheadOfFile.restoreFromAndRevalidate stateFile).2.registry.current.devices.contains ⟨1⟩ = false ∧
      ¬ aheadOfFile.ReportsRestore stateFile := by
  have hdisk : FabricRegistry.restoreFrom stateFile aheadOfFile.disk = .ok (restored beforeRestart.current) := by
    rw [aheadOfFile, serving_disk]
    exact restoreFrom_savedDisk
  obtain ⟨hok, hreg⟩ := restore_ok hdisk
  have hfile : (restored beforeRestart.current).snapshot.devices.contains ⟨1⟩ = true := by decide +kernel
  have hmissing : (aheadOfFile.restoreFromAndRevalidate stateFile).2.registry.current.devices.contains ⟨1⟩ = false := by
    rw [hreg]
    decide +kernel
  refine ⟨hok, hfile, hmissing, ?_⟩
  intro hreports
  obtain ⟨res, hres, hheld, _⟩ := hreports hok
  obtain rfl := Except.ok.inj (hdisk.symm.trans hres)
  rw [hheld.devices hfile] at hmissing
  exact absurd hmissing (by simp)

end Coordinator

end NVSwitchFabric
