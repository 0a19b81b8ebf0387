import NVSwitchFabric.Correctness.WellFormed
import NVSwitchFabric.Model.Scenario

/-!
# `Correctness.Fencing` — when a worker incarnation can be fenced

`invalidateForWorker` rewrites the records of one incarnation in place and advances their generations, with a
wrapping increment, and its candidate goes through the same validation as every other edit. So it can be refused
for one reason only: some generation it advances is the last one. `invalidateForWorker_fences_iff` proves that this
is the exact condition.
-/

namespace NVSwitchFabric

open Lib

/-! ## Rewriting records in place -/

/-- Integrity is kept when the same devices, switches and ports are there and every link and partition has an old
    one with the same ends and members. -/
theorem FabricTopology.Integral.rewrite {t t' : FabricTopology} (h : t.Integral)
    (hd : ∀ k, t'.devices.contains k = t.devices.contains k)
    (hs : ∀ k, t'.switches.contains k = t.switches.contains k)
    (hp : ∀ k, t'.ports.contains k = t.ports.contains k)
    (hid : ∀ {k rec}, t'.switches.find? k = some rec → rec.id = k)
    (hlink : ∀ {k rec}, t'.links.find? k = some rec → ∃ old, t.links.find? k = some old ∧
      rec.rootSwitch = old.rootSwitch ∧ rec.port = old.port ∧ rec.otherEnd = old.otherEnd)
    (hpart : ∀ {k rec}, t'.partitions.find? k = some rec → ∃ old, t.partitions.find? k = some old ∧
      rec.members = old.members ∧ rec.switches = old.switches) : t'.Integral where
  switchKey := hid
  portSwitch := by
    intro pid rec hrec
    obtain ⟨old, hold⟩ := SortedMap.contains_iff.mp ((hp pid).symm.trans (SortedMap.contains_iff.mpr ⟨rec, hrec⟩))
    rw [hs]
    exact h.portSwitch hold
  portIndex := by
    intro pid rec hrec
    obtain ⟨old, hold⟩ := SortedMap.contains_iff.mp ((hp pid).symm.trans (SortedMap.contains_iff.mpr ⟨rec, hrec⟩))
    exact h.portIndex hold
  linkRoot := by
    intro id rec hrec
    obtain ⟨old, hold, hroot, _, _⟩ := hlink hrec
    rw [hs, hroot]
    exact h.linkRoot hold
  linkPort := by
    intro id rec hrec
    obtain ⟨old, hold, _, hport, _⟩ := hlink hrec
    rw [hp, hport]
    exact h.linkPort hold
  linkPortRoot := by
    intro id rec hrec
    obtain ⟨old, hold, hroot, hport, _⟩ := hlink hrec
    rw [hroot, hport]
    exact h.linkPortRoot hold
  linkEnd := by
    intro id rec hrec
    obtain ⟨old, hold, _, _, hend⟩ := hlink hrec
    unfold EndExists
    rw [hend, hd, hs]
    exact h.linkEnd hold
  partitionMember := by
    intro id rec hrec
    obtain ⟨old, hold, hmembers, _⟩ := hpart hrec
    rw [hmembers]
    intro m hm
    rw [hd]
    exact h.partitionMember hold m hm
  partitionSwitch := by
    intro id rec hrec
    obtain ⟨old, hold, _, hswitches⟩ := hpart hrec
    rw [hswitches]
    intro s hs'
    rw [hs]
    exact h.partitionSwitch hold s hs'

/-- Rewriting every record in place keeps integrity when ids, link ends and members stay. -/
theorem FabricTopology.Integral.mapVals {t t' : FabricTopology} (h : t.Integral)
    {fd : DeviceRecord → DeviceRecord} {fs : SwitchRecord → SwitchRecord}
    {fp : SwitchPortRecord → SwitchPortRecord} {fl : LinkRecord → LinkRecord}
    {fpt : FabricPartition → FabricPartition}
    (hd : t'.devices = t.devices.mapVals fd) (hs : t'.switches = t.switches.mapVals fs)
    (hp : t'.ports = t.ports.mapVals fp) (hl : t'.links = t.links.mapVals fl)
    (hpt : t'.partitions = t.partitions.mapVals fpt) (hid : ∀ v, (fs v).id = v.id)
    (hlink : ∀ v, (fl v).rootSwitch = v.rootSwitch ∧ (fl v).port = v.port ∧ (fl v).otherEnd = v.otherEnd)
    (hpart : ∀ v, (fpt v).members = v.members ∧ (fpt v).switches = v.switches) : t'.Integral := by
  apply h.rewrite
  · intro k
    rw [hd, SortedMap.contains_mapVals]
  · intro k
    rw [hs, SortedMap.contains_mapVals]
  · intro k
    rw [hp, SortedMap.contains_mapVals]
  · intro k rec hrec
    rw [hs, SortedMap.find?_mapVals_eq_some] at hrec
    obtain ⟨old, hold, rfl⟩ := hrec
    exact (hid old).trans (h.switchKey hold)
  · intro k rec hrec
    rw [hl, SortedMap.find?_mapVals_eq_some] at hrec
    obtain ⟨old, hold, rfl⟩ := hrec
    exact ⟨old, hold, hlink old⟩
  · intro k rec hrec
    rw [hpt, SortedMap.find?_mapVals_eq_some] at hrec
    obtain ⟨old, hold, rfl⟩ := hrec
    exact ⟨old, hold, hpart old⟩

/-- Rewriting records in place keeps the counts. -/
theorem FabricTopology.WithinLimits.mapVals {t t' : FabricTopology} (h : t.WithinLimits)
    {fd : DeviceRecord → DeviceRecord} {fs : SwitchRecord → SwitchRecord}
    {fp : SwitchPortRecord → SwitchPortRecord} {fl : LinkRecord → LinkRecord}
    {fpt : FabricPartition → FabricPartition}
    (hd : t'.devices = t.devices.mapVals fd) (hs : t'.switches = t.switches.mapVals fs)
    (hp : t'.ports = t.ports.mapVals fp) (hl : t'.links = t.links.mapVals fl)
    (hpt : t'.partitions = t.partitions.mapVals fpt) : t'.WithinLimits := by
  constructor
  · rw [hd, SortedMap.size_mapVals]
    exact h.devices
  · rw [hs, SortedMap.size_mapVals]
    exact h.switches
  · rw [hp, SortedMap.size_mapVals]
    exact h.ports
  · rw [hl, SortedMap.size_mapVals]
    exact h.links
  · rw [hpt, SortedMap.size_mapVals]
    exact h.partitions

/-! ## Fencing one map -/

/-- From `m` to `m'` exactly the attributed records were rewritten, as `revoked` says; no record appeared. -/
def FencedMap {κ α : Type} [LinearOrder κ] (attributed : α → Bool) (revoked : α → α → Prop)
    (m m' : SortedMap κ α) : Prop :=
  ∀ k, match m.find? k with
    | some v => if attributed v then ∃ v', m'.find? k = some v' ∧ revoked v v' else m'.find? k = some v
    | none   => m'.find? k = none

/-- Rewriting the attributed records in place fences a map iff it revokes each of them. -/
theorem fencedMap_mapVals {κ α : Type} [LinearOrder κ] {attributed : α → Bool} {revoked : α → α → Prop}
    {f : α → α} {m : SortedMap κ α} (hkeep : ∀ v, attributed v = false → f v = v) :
    FencedMap attributed revoked m (m.mapVals f) ↔
      ∀ k v, m.find? k = some v → attributed v = true → revoked v (f v) := by
  constructor
  · intro h k v hv hattr
    have hk := h k
    rw [hv] at hk
    dsimp only at hk
    rw [if_pos hattr, SortedMap.find?_mapVals, hv] at hk
    obtain ⟨v', hv', hrev⟩ := hk
    rw [Option.some.inj hv']
    exact hrev
  · intro h k
    cases hv : m.find? k with
    | none =>
      show (m.mapVals f).find? k = none
      rw [SortedMap.find?_mapVals, hv]
      rfl
    | some v =>
      show if attributed v then _ else _
      rw [SortedMap.find?_mapVals, hv]
      by_cases hattr : attributed v = true
      · rw [if_pos hattr]
        exact ⟨f v, rfl, h k v hv hattr⟩
      · rw [if_neg hattr]
        exact congrArg some (hkeep v (Bool.eq_false_iff.mpr hattr))

/-- No attributed record of the map is at the last generation. -/
def GensLeft {κ α Tag : Type} [LinearOrder κ] (attributed : α → Bool) (gen : α → Gen Tag)
    (m : SortedMap κ α) : Prop :=
  ∀ e ∈ m.entries, attributed e.2 = true → gen e.2 ≠ .last

instance {κ α Tag : Type} [LinearOrder κ] (attributed : α → Bool) (gen : α → Gen Tag) (m : SortedMap κ α) :
    Decidable (GensLeft attributed gen m) :=
  inferInstanceAs (Decidable (∀ e ∈ m.entries, attributed e.2 = true → gen e.2 ≠ .last))

theorem GensLeft.find? {κ α Tag : Type} [LinearOrder κ] {attributed : α → Bool} {gen : α → Gen Tag}
    {m : SortedMap κ α} (h : GensLeft attributed gen m) {k : κ} {v : α} (hv : m.find? k = some v)
    (hattr : attributed v = true) : gen v ≠ .last :=
  h (k, v) (SortedMap.find?_eq_some_iff.mp hv) hattr

/-- Advancing the attributed records decreases no generation iff none of them is at the last one. -/
theorem stampsGrow_fence_iff {κ α Tag : Type} [LinearOrder κ] {attributed : α → Bool} {gen : α → Gen Tag}
    {f : α → α} {m : SortedMap κ α}
    (hgen : ∀ v, gen (f v) = if attributed v then (gen v).next else gen v) :
    StampsGrow gen m (m.mapVals f) ↔ GensLeft attributed gen m := by
  rw [stampsGrow_mapVals]
  constructor
  · rintro h ⟨k, v⟩ hmem hattr
    have hle := h k v (SortedMap.find?_eq_some_iff.mpr hmem)
    rw [hgen, if_pos hattr] at hle
    exact Gen.not_next_lt.mp (not_lt.mpr hle)
  · intro h k v hv
    rw [hgen]
    split
    · next hattr => exact (Gen.lt_next.mpr (h.find? hv hattr)).le
    · exact le_rfl

/-- Advancing the attributed records, where no generation decreases, fences a map and strictly advances them. -/
theorem fencedMap_of_stampsGrow {κ α Tag : Type} [LinearOrder κ] {attributed : α → Bool} {gen : α → Gen Tag}
    {P : α → Prop} {f : α → α} {m : SortedMap κ α} (hkeep : ∀ v, attributed v = false → f v = v)
    (hgen : ∀ v, gen (f v) = if attributed v then (gen v).next else gen v)
    (hstate : ∀ v, attributed v = true → P (f v)) (hgrow : StampsGrow gen m (m.mapVals f)) :
    FencedMap attributed (fun v v' => P v' ∧ gen v < gen v') m (m.mapVals f) := by
  have hleft := (stampsGrow_fence_iff hgen).mp hgrow
  refine (fencedMap_mapVals hkeep).mpr ?_
  intro k v hv hattr
  have hnext : gen (f v) = (gen v).next := by rw [hgen, if_pos hattr]
  refine ⟨hstate v hattr, ?_⟩
  rw [hnext]
  exact Gen.lt_next.mpr (hleft.find? hv hattr)

/-! ## Fencing one record -/

section
variable {w : WorkerId} {b : WorkerBootId}

theorem DeviceRecord.fence_state {rec : DeviceRecord} (h : rec.attributedTo w b = true) :
    (rec.fence w b).state = .revalidationRequired := by
  rw [DeviceRecord.fence, if_pos h]

theorem DeviceRecord.fence_other {rec : DeviceRecord} (h : rec.attributedTo w b = false) : rec.fence w b = rec :=
  if_neg (by rw [h]; simp)

theorem SwitchRecord.fence_state {rec : SwitchRecord} (h : rec.attributedTo w b = true) :
    (rec.fence w b).state = .revalidationRequired := by
  rw [SwitchRecord.fence, if_pos h]

theorem SwitchRecord.fence_other {rec : SwitchRecord} (h : rec.attributedTo w b = false) : rec.fence w b = rec :=
  if_neg (by rw [h]; simp)

theorem SwitchPortRecord.fence_state {rec : SwitchPortRecord} (h : rec.attributedTo w b = true) :
    (rec.fence w b).state = .revalidationRequired := by
  rw [SwitchPortRecord.fence, if_pos h]

theorem SwitchPortRecord.fence_other {rec : SwitchPortRecord} (h : rec.attributedTo w b = false) : rec.fence w b = rec :=
  if_neg (by rw [h]; simp)

theorem LinkRecord.fence_state {rec : LinkRecord} (h : rec.attributedTo w b = true) :
    (rec.fence w b).state = .revalidationRequired := by
  rw [LinkRecord.fence, if_pos h]

theorem LinkRecord.fence_other {rec : LinkRecord} (h : rec.attributedTo w b = false) : rec.fence w b = rec :=
  if_neg (by rw [h]; simp)

theorem FabricPartition.fence_state {rec : FabricPartition} (h : rec.attributedTo w b = true) :
    (rec.fence w b).state = .revalidationRequired := by
  rw [FabricPartition.fence, if_pos h]

theorem FabricPartition.fence_other {rec : FabricPartition} (h : rec.attributedTo w b = false) : rec.fence w b = rec :=
  if_neg (by rw [h]; simp)

variable (w b)

theorem DeviceRecord.fence_origin (rec : DeviceRecord) : (rec.fence w b).toOrigin = rec.toOrigin := by
  unfold DeviceRecord.fence
  split <;> rfl

theorem SwitchRecord.fence_origin (rec : SwitchRecord) : (rec.fence w b).toOrigin = rec.toOrigin := by
  unfold SwitchRecord.fence
  split <;> rfl

theorem SwitchPortRecord.fence_origin (rec : SwitchPortRecord) : (rec.fence w b).toOrigin = rec.toOrigin := by
  unfold SwitchPortRecord.fence
  split <;> rfl

theorem LinkRecord.fence_origin (rec : LinkRecord) : (rec.fence w b).toOrigin = rec.toOrigin := by
  unfold LinkRecord.fence
  split <;> rfl

theorem FabricPartition.fence_origin (rec : FabricPartition) : (rec.fence w b).toOrigin = rec.toOrigin := by
  unfold FabricPartition.fence
  split <;> rfl

theorem SwitchRecord.fence_gen (rec : SwitchRecord) :
    (rec.fence w b).gen = if rec.attributedTo w b then rec.gen.next else rec.gen := by
  unfold SwitchRecord.fence
  split <;> rfl

theorem SwitchPortRecord.fence_gen (rec : SwitchPortRecord) :
    (rec.fence w b).gen = if rec.attributedTo w b then rec.gen.next else rec.gen := by
  unfold SwitchPortRecord.fence
  split <;> rfl

theorem LinkRecord.fence_gen (rec : LinkRecord) :
    (rec.fence w b).gen = if rec.attributedTo w b then rec.gen.next else rec.gen := by
  unfold LinkRecord.fence
  split <;> rfl

theorem FabricPartition.fence_gen (rec : FabricPartition) :
    (rec.fence w b).gen = if rec.attributedTo w b then rec.gen.next else rec.gen := by
  unfold FabricPartition.fence
  split <;> rfl

end

/-! ## Fencing a snapshot -/

/-- What fencing `(w, b)` promises about the snapshots before and after it. -/
structure FencedFor (w : WorkerId) (b : WorkerBootId) (t t' : FabricTopology) : Prop where
  devices    : FencedMap (fun v : DeviceRecord => v.attributedTo w b)
                 (fun _ v' => v'.state = .revalidationRequired) t.devices t'.devices
  switches   : FencedMap (fun v : SwitchRecord => v.attributedTo w b)
                 (fun v v' => v'.state = .revalidationRequired ∧ v.gen < v'.gen) t.switches t'.switches
  ports      : FencedMap (fun v : SwitchPortRecord => v.attributedTo w b)
                 (fun v v' => v'.state = .revalidationRequired ∧ v.gen < v'.gen) t.ports t'.ports
  links      : FencedMap (fun v : LinkRecord => v.attributedTo w b)
                 (fun v v' => v'.state = .revalidationRequired ∧ v.gen < v'.gen) t.links t'.links
  partitions : FencedMap (fun v : FabricPartition => v.attributedTo w b)
                 (fun v v' => v'.state = .revalidationRequired ∧ v.gen < v'.gen) t.partitions t'.partitions

/-- The generations that fencing `(w, b)` advances can all be advanced. -/
structure Fenceable (w : WorkerId) (b : WorkerBootId) (t : FabricTopology) : Prop where
  topologyGen : t.topologyGen ≠ .last
  switches    : GensLeft (fun v : SwitchRecord => v.attributedTo w b) (·.gen) t.switches
  ports       : GensLeft (fun v : SwitchPortRecord => v.attributedTo w b) (·.gen) t.ports
  links       : GensLeft (fun v : LinkRecord => v.attributedTo w b) (·.gen) t.links
  partitions  : GensLeft (fun v : FabricPartition => v.attributedTo w b) (·.gen) t.partitions

/-- The candidate of `invalidateForWorker`. -/
def fenced (w : WorkerId) (b : WorkerBootId) (t : FabricTopology) : FabricTopology :=
  { t with
    switches := t.switches.mapVals (SwitchRecord.fence w b)
    ports := t.ports.mapVals (SwitchPortRecord.fence w b)
    links := t.links.mapVals (LinkRecord.fence w b)
    partitions := t.partitions.mapVals (FabricPartition.fence w b)
    devices := t.devices.mapVals (DeviceRecord.fence w b)
    topologyGen := if Edit.anyAttributed t w b then t.topologyGen.next else t.topologyGen }

variable {w : WorkerId} {b : WorkerBootId} {t : FabricTopology}

/-- No record is attributed to `(w, b)`. -/
structure Unattributed (w : WorkerId) (b : WorkerBootId) (t : FabricTopology) : Prop where
  devices    : t.devices.All fun v => v.attributedTo w b = false
  switches   : t.switches.All fun v => v.attributedTo w b = false
  ports      : t.ports.All fun v => v.attributedTo w b = false
  links      : t.links.All fun v => v.attributedTo w b = false
  partitions : t.partitions.All fun v => v.attributedTo w b = false

theorem unattributed_of_not_any (h : Edit.anyAttributed t w b = false) : Unattributed w b t := by
  unfold Edit.anyAttributed at h
  rw [Bool.or_eq_false_iff, Bool.or_eq_false_iff, Bool.or_eq_false_iff, Bool.or_eq_false_iff] at h
  obtain ⟨⟨⟨⟨hs, hp⟩, hl⟩, hpt⟩, hd⟩ := h
  exact ⟨SortedMap.All.any_eq_false_iff.mp hd, SortedMap.All.any_eq_false_iff.mp hs,
    SortedMap.All.any_eq_false_iff.mp hp, SortedMap.All.any_eq_false_iff.mp hl, SortedMap.All.any_eq_false_iff.mp hpt⟩

/-- Without an attributed record there is no generation to advance. -/
theorem gensLeft_of_unattributed {κ α Tag : Type} [LinearOrder κ] {attributed : α → Bool} {gen : α → Gen Tag}
    {m : SortedMap κ α} (h : m.All fun v => attributed v = false) : GensLeft attributed gen m := by
  intro e he hattr
  have hnot := h (SortedMap.find?_eq_some_iff.mpr he)
  exact absurd (hnot.symm.trans hattr) (by simp)

/-- **The fenced candidate is admissible iff the generations can be advanced**, or there are none to advance. -/
theorem fenced_admissible_iff {r : FabricRegistry} (hwf : r.current.WellFormed) :
    FabricTopology.Admissible r.current (r.committed (fenced w b r.current)) ↔
      (Edit.anyAttributed r.current w b = true → Fenceable w b r.current) := by
  have htopo : r.current.topologyGen ≤ (fenced w b r.current).topologyGen ↔
      (Edit.anyAttributed r.current w b = true → r.current.topologyGen ≠ .last) := by
    show _ ≤ (if Edit.anyAttributed r.current w b then r.current.topologyGen.next
      else r.current.topologyGen) ↔ _
    by_cases hany : Edit.anyAttributed r.current w b = true
    · rw [if_pos hany, ← not_lt, Gen.not_next_lt]
      exact ⟨fun h _ => h, fun h => h hany⟩
    · rw [if_neg hany]
      exact iff_of_true le_rfl fun h => absurd h hany
  constructor
  · intro h hany
    exact {
      topologyGen := htopo.mp h.topologyGen hany
      switches := (stampsGrow_fence_iff (SwitchRecord.fence_gen w b)).mp h.switchGen
      ports := (stampsGrow_fence_iff (SwitchPortRecord.fence_gen w b)).mp h.portGen
      links := (stampsGrow_fence_iff (LinkRecord.fence_gen w b)).mp h.linkGen
      partitions := (stampsGrow_fence_iff (FabricPartition.fence_gen w b)).mp h.partitionGen }
  · -- rewriting in place keeps ids, link ends and sizes, so that only a generation can veto
    intro h
    obtain ⟨hsw, hp, hl, hpt⟩ : GensLeft (fun v : SwitchRecord => v.attributedTo w b) (·.gen)
          r.current.switches ∧
        GensLeft (fun v : SwitchPortRecord => v.attributedTo w b) (·.gen) r.current.ports ∧
        GensLeft (fun v : LinkRecord => v.attributedTo w b) (·.gen) r.current.links ∧
        GensLeft (fun v : FabricPartition => v.attributedTo w b) (·.gen) r.current.partitions := by
      by_cases hany : Edit.anyAttributed r.current w b = true
      · exact ⟨(h hany).switches, (h hany).ports, (h hany).links, (h hany).partitions⟩
      · have hnone := unattributed_of_not_any (Bool.eq_false_iff.mpr hany)
        exact ⟨gensLeft_of_unattributed hnone.switches, gensLeft_of_unattributed hnone.ports,
          gensLeft_of_unattributed hnone.links, gensLeft_of_unattributed hnone.partitions⟩
    exact {
      integral := hwf.integral.mapVals rfl rfl rfl rfl rfl
        (fun v => by unfold SwitchRecord.fence; split <;> rfl)
        (fun v => by unfold LinkRecord.fence; split <;> exact ⟨rfl, rfl, rfl⟩)
        (fun v => by unfold FabricPartition.fence; split <;> exact ⟨rfl, rfl⟩)
      limits := hwf.limits.mapVals rfl rfl rfl rfl rfl
      switchGen := (stampsGrow_fence_iff (SwitchRecord.fence_gen w b)).mpr hsw
      portGen := (stampsGrow_fence_iff (SwitchPortRecord.fence_gen w b)).mpr hp
      linkGen := (stampsGrow_fence_iff (LinkRecord.fence_gen w b)).mpr hl
      partitionGen := (stampsGrow_fence_iff (FabricPartition.fence_gen w b)).mpr hpt
      topologyGen := htopo.mpr fun hany => (h hany).topologyGen }

/-- A candidate that decreases no generation fences the snapshot. -/
theorem fencedFor_of_admissible {r : FabricRegistry}
    (h : FabricTopology.Admissible r.current (r.committed (fenced w b r.current))) :
    FencedFor w b r.current (r.committed (fenced w b r.current)) where
  devices := by
    refine (fencedMap_mapVals fun v hv => DeviceRecord.fence_other hv).mpr ?_
    intro k v hv hattr
    exact DeviceRecord.fence_state hattr
  switches := fencedMap_of_stampsGrow (fun _ => SwitchRecord.fence_other) (SwitchRecord.fence_gen w b)
    (fun _ => SwitchRecord.fence_state) h.switchGen
  ports := fencedMap_of_stampsGrow (fun _ => SwitchPortRecord.fence_other) (SwitchPortRecord.fence_gen w b)
    (fun _ => SwitchPortRecord.fence_state) h.portGen
  links := fencedMap_of_stampsGrow (fun _ => LinkRecord.fence_other) (LinkRecord.fence_gen w b)
    (fun _ => LinkRecord.fence_state) h.linkGen
  partitions := fencedMap_of_stampsGrow (fun _ => FabricPartition.fence_other) (FabricPartition.fence_gen w b)
    (fun _ => FabricPartition.fence_state) h.partitionGen

namespace FabricRegistry

/-- Fencing `(w, b)` goes through and does what it promises. -/
def Fences (r : FabricRegistry) (w : WorkerId) (b : WorkerBootId) : Prop :=
  (∃ snap, (r.invalidateForWorker w b).1 = .ok snap) ∧
    FencedFor w b r.current (r.invalidateForWorker w b).2.current

/-- **When an incarnation can be fenced.** In a reachable state, fencing `(w, b)` succeeds and revokes exactly the
    records of `(w, b)` iff no record is attributed to it, or the topology generation and the generation of every
    switch, port, link and partition attributed to it are below the last one. -/
theorem invalidateForWorker_fences_iff {r : FabricRegistry} (hr : r.Reachable) (w : WorkerId)
    (b : WorkerBootId) :
    r.Fences w b ↔ (Edit.anyAttributed r.current w b = true → Fenceable w b r.current) := by
  have heq : r.invalidateForWorker w b = r.publish "" (fenced w b r.current) := rfl
  unfold Fences
  rw [heq, ← fenced_admissible_iff hr.wellFormed]
  constructor
  · rintro ⟨⟨snap, hsnap⟩, _⟩
    by_contra hadm
    obtain ⟨why, herr⟩ := publish_of_not_admissible "" hadm
    rw [herr] at hsnap
    exact absurd hsnap (by simp)
  · intro hadm
    rw [publish_of_admissible "" hadm]
    exact ⟨⟨_, rfl⟩, fencedFor_of_admissible hadm⟩

/-- A switch at the given generation and a live device, both reported by incarnation `(w, 1)`. -/
def reported (gen : SwitchGeneration) : BulkEdit where
  devices := [{ makeSyntheticDevice ⟨1⟩ [] .up with
    toOrigin := syntheticOrigin.stamp ⟨ascii "w"⟩ 1 }]
  switches := [{ makeSyntheticSwitch ⟨10⟩ [] 2 with
    toOrigin := syntheticOrigin.stamp ⟨ascii "w"⟩ 1
    gen := gen }]

/-- An incarnation whose switch is at an ordinary generation is fenced. -/
theorem invalidateForWorker_fences_reported : (after [.applyBulk (reported ⟨7⟩)]).Fences ⟨ascii "w"⟩ 1 := by
  have hgens : Fenceable ⟨ascii "w"⟩ 1 (after [.applyBulk (reported ⟨7⟩)]).current :=
    ⟨by decide +kernel, by decide +kernel, by decide +kernel, by decide +kernel, by decide +kernel⟩
  exact (invalidateForWorker_fences_iff (reachable_after _) ⟨ascii "w"⟩ 1).mpr fun _ => hgens

/-- One switch at the last generation vetoes the fencing of its whole incarnation: the device stays up. -/
theorem last_generation_vetoes_fencing :
    let r := after [.applyBulk (reported .last)]
    r.Reachable ∧ ¬ r.Fences ⟨ascii "w"⟩ 1 ∧
      ((r.invalidateForWorker ⟨ascii "w"⟩ 1).2.current.devices.find? ⟨1⟩).any fun v =>
        v.attributedTo ⟨ascii "w"⟩ 1 && v.state = .up := by
  refine ⟨reachable_after _, ?_, by decide +kernel⟩
  rintro ⟨⟨snap, hsnap⟩, _⟩
  have hrefused : ((after [.applyBulk (reported .last)]).invalidateForWorker ⟨ascii "w"⟩ 1).1.isOk = false := by
    decide +kernel
  rw [hsnap] at hrefused
  exact absurd hrefused (by simp [Except.isOk, Except.toBool])

end FabricRegistry

end NVSwitchFabric
