import NVSwitchFabric.Correctness.WellFormed

/-!
# `Correctness.PortCounts` — when the declared port counts cover all ports

`addPort` raises the declared port count of the switch above the index of the new port, and every other operation on single
records keeps ports and counts. A bulk edit writes both wholesale, and validation compares neither with the other. So the
counts cover all ports as long as those that a bulk edit brings together do (`portsCovered_run_iff`).
-/

namespace NVSwitchFabric

open Lib

/-! ## Counts and ports -/

/-- Every port's index is below the declared port count of its switch. -/
def FabricTopology.PortsCovered (t : FabricTopology) : Prop :=
  ∀ pid, t.ports.contains pid = true → ∀ sw, t.switches.find? pid.sw = some sw → pid.index < sw.portCount

/-- Synchronizing lowers no count, and covers the index. -/
theorem SwitchRecord.cover_spec {index : UInt32} (hindex : index.toNat < Limits.kMaxPortsPerSwitch) (sw : SwitchRecord) :
    sw.portCount ≤ (sw.cover index).portCount ∧ index < (sw.cover index).portCount := by
  have hbound : Limits.kMaxPortsPerSwitch < 2 ^ 32 - 1 := by decide
  have hnext : (index + 1).toNat = index.toNat + 1 := by
    rw [UInt32.toNat_add]
    have hone : (1 : UInt32).toNat = 1 := rfl
    omega
  unfold cover
  dsimp only
  simp only [UInt32.le_iff_toNat_le, UInt32.lt_iff_toNat_lt]
  split
  · omega
  · omega

namespace FabricTopology

variable {t t' : FabricTopology}

/-- Fewer ports, and counts that are not lower. -/
theorem PortsCovered.of_counts (h : t.PortsCovered)
    (hports : ∀ pid, t'.ports.contains pid = true → t.ports.contains pid = true)
    (hcounts : ∀ id sw', t'.switches.find? id = some sw' →
      ∃ sw, t.switches.find? id = some sw ∧ sw.portCount ≤ sw'.portCount) : t'.PortsCovered := by
  intro pid hport sw' hsw'
  obtain ⟨sw, hsw, hle⟩ := hcounts _ _ hsw'
  exact (h pid (hports pid hport) sw hsw).trans_le hle

/-- The same ports and switches. -/
theorem PortsCovered.congr (h : t.PortsCovered) (hports : t'.ports = t.ports) (hswitches : t'.switches = t.switches) :
    t'.PortsCovered :=
  h.of_counts (fun _ hp => hports ▸ hp) fun _ sw hsw => ⟨sw, hswitches ▸ hsw, le_rfl⟩

/-- Switches that are rewritten under the same counts. -/
theorem PortsCovered.mapVals (h : t.PortsCovered) {f : SwitchRecord → SwitchRecord}
    {g : SwitchPortRecord → SwitchPortRecord} (hf : ∀ sw, (f sw).portCount = sw.portCount)
    (hports : t'.ports = t.ports.mapVals g) (hswitches : t'.switches = t.switches.mapVals f) : t'.PortsCovered := by
  refine h.of_counts (fun pid hp => ?_) fun id sw' hsw' => ?_
  · rwa [hports, SortedMap.contains_mapVals] at hp
  · rw [hswitches, SortedMap.find?_mapVals_eq_some] at hsw'
    obtain ⟨sw, hsw, rfl⟩ := hsw'
    exact ⟨sw, hsw, (hf sw).ge⟩

/-- One switch that is rewritten under a count that is not lower. -/
theorem PortsCovered.update (h : t.PortsCovered) {id : SwitchId} {sw sw' : SwitchRecord}
    (hsw : t.switches.find? id = some sw) (hports : t'.ports = t.ports)
    (hswitches : t'.switches = t.switches.insert id sw') (hle : sw.portCount ≤ sw'.portCount) : t'.PortsCovered := by
  refine h.of_counts (fun _ hp => hports ▸ hp) fun k v hv => ?_
  rw [hswitches, SortedMap.find?_insert] at hv
  split at hv
  · next hk =>
    obtain rfl := Option.some.inj hv
    exact ⟨sw, hk ▸ hsw, hle⟩
  · exact ⟨v, hv, le_rfl⟩

end FabricTopology

/-! ## One operation -/

/-- The condition on a bulk edit that goes through: its ports are below the counts that their switches then have, and the
    counts of its switches are above the ports that the registry has of them. -/
def FabricRegistry.KeepsCounts (r : FabricRegistry) : RegistryOp → Prop
  | .applyBulk e => r.Accepts (.applyBulk e) →
      (∀ p ∈ e.ports, ∀ sw, (e.switch? p.id.sw).or (r.current.switches.find? p.id.sw) = some sw →
        p.id.index < sw.portCount) ∧
      ∀ pid, r.current.ports.contains pid = true → ∀ sw, e.switch? pid.sw = some sw → pid.index < sw.portCount
  | _            => True

theorem FabricRegistry.keepsCounts_of_ne_bulk {r : FabricRegistry} {op : RegistryOp} (h : ∀ e, op ≠ .applyBulk e) :
    r.KeepsCounts op := by
  cases op with
  | applyBulk e => exact absurd rfl (h e)
  | _ => trivial

/-- A bulk edit keeps the ports covered exactly if what it brings together is. -/
theorem portsCovered_bulk_iff {t cand : FabricTopology} {e : BulkEdit} (h : t.PortsCovered)
    (hports : cand.ports = t.ports.insertAll (·.id) e.ports)
    (hswitches : cand.switches = t.switches.insertAll (·.id) e.switches) :
    cand.PortsCovered ↔
      (∀ p ∈ e.ports, ∀ sw, (e.switch? p.id.sw).or (t.switches.find? p.id.sw) = some sw → p.id.index < sw.portCount) ∧
        ∀ pid, t.ports.contains pid = true → ∀ sw, e.switch? pid.sw = some sw → pid.index < sw.portCount := by
  have hfind : ∀ id, cand.switches.find? id = (e.switch? id).or (t.switches.find? id) := by
    intro id
    rw [hswitches, SortedMap.find?_insertAll]
    rfl
  have hknown : ∀ pid, cand.ports.contains pid = true ↔ (∃ p ∈ e.ports, p.id = pid) ∨ t.ports.contains pid = true := by
    intro pid
    rw [hports]
    constructor
    · intro hc
      obtain ⟨p, hp⟩ := SortedMap.contains_iff.mp hc
      rcases SortedMap.find?_insertAll_cases hp with ⟨hmem, hkey⟩ | ⟨hold, _⟩
      · exact Or.inl ⟨p, hmem, hkey⟩
      · exact Or.inr (SortedMap.contains_iff.mpr ⟨p, hold⟩)
    · rintro (⟨p, hp, rfl⟩ | hold)
      · exact SortedMap.contains_insertAll_of_mem hp _
      · obtain ⟨p, hp⟩ := SortedMap.contains_iff.mp hold
        rw [SortedMap.contains, SortedMap.find?_insertAll, hp]
        cases e.ports.reverse.find? fun q => q.id = pid <;> rfl
  constructor
  · intro hcov
    refine ⟨fun p hp sw hsw => ?_, fun pid hpid sw hsw => ?_⟩
    · exact hcov p.id ((hknown _).mpr (Or.inl ⟨p, hp, rfl⟩)) sw (by rw [hfind]; exact hsw)
    · exact hcov pid ((hknown _).mpr (Or.inr hpid)) sw (by rw [hfind, hsw]; rfl)
  · rintro ⟨hnew, hold⟩ pid hpid sw hsw
    rw [hfind] at hsw
    rcases (hknown pid).mp hpid with ⟨p, hp, rfl⟩ | hpid
    · exact hnew p hp sw hsw
    · -- a port from before: its switch is of the edit, or as it was
      cases hedit : e.switch? pid.sw with
      | some sw' =>
        rw [hedit, Option.some_or] at hsw
        exact hold pid hpid sw (hedit.trans hsw)
      | none =>
        rw [hedit, Option.none_or] at hsw
        exact h pid hpid sw hsw

/-- **An edit that is not a bulk one keeps the ports covered.** -/
theorem Edited.portsCovered {t cand : FabricTopology} {op : RegistryOp} (hed : Edited t op cand)
    (hop : ∀ e, op ≠ .applyBulk e) (hint : t.Integral) (hcand : cand.Integral) (h : t.PortsCovered) :
    cand.PortsCovered := by
  cases hed with
  | removeSwitch =>
    exact h.of_counts (fun _ hp => (SortedMap.filter_sub _ _).contains hp)
      fun _ sw' hsw' => ⟨sw', SortedMap.filter_sub _ _ hsw', le_rfl⟩
  | @addSwitch rec fresh =>
    -- no port refers to a switch that was not there
    intro pid hpid sw hsw
    rw [SortedMap.find?_insert] at hsw
    split at hsw
    · next heq =>
      obtain ⟨prec, hprec⟩ := SortedMap.contains_iff.mp hpid
      have hsw' := hint.portSwitch hprec
      rw [heq, SortedMap.contains, fresh] at hsw'
      exact absurd hsw' (by simp)
    · exact h pid hpid sw hsw
  | setSwitchState known => exact h.update known rfl rfl le_rfl
  | restartSwitch known => exact h.update known rfl rfl le_rfl
  | @addPort rec sw known =>
    have hindex : rec.id.index.toNat < Limits.kMaxPortsPerSwitch := hcand.portIndex (SortedMap.find?_insert_self _ _ _)
    obtain ⟨hle, hlt⟩ := sw.cover_spec hindex
    intro pid hpid sw' hsw'
    rw [SortedMap.find?_insert] at hsw'
    by_cases hnew : pid = rec.id
    · subst hnew
      rw [if_pos rfl] at hsw'
      obtain rfl := Option.some.inj hsw'
      exact hlt
    · have hold : t.ports.contains pid = true := by
        rwa [SortedMap.contains, SortedMap.find?_insert_ne _ _ hnew] at hpid
      split at hsw'
      · next heq =>
        obtain rfl := Option.some.inj hsw'
        exact (h pid hold sw (heq ▸ known)).trans_le hle
      · exact h pid hold sw' hsw'
  | removePort =>
    exact h.of_counts (fun _ hp => (SortedMap.filter_sub _ _).contains hp) fun _ sw' hsw' => ⟨sw', hsw', le_rfl⟩
  | @setPortState id state rec known =>
    refine h.of_counts (fun pid hp => ?_) fun id sw' hsw' => ⟨sw', hsw', le_rfl⟩
    by_cases hpid : pid = id
    · rw [hpid]
      exact SortedMap.contains_iff.mpr ⟨rec, known⟩
    · rwa [SortedMap.contains, SortedMap.find?_insert_ne _ _ hpid] at hp
  | invalidateForWorker =>
    refine h.mapVals (f := SwitchRecord.fence _ _) (fun sw => ?_) rfl rfl
    unfold SwitchRecord.fence
    split <;> rfl
  | expireDynamicEvidence =>
    refine h.mapVals (f := SwitchRecord.expire) (fun sw => ?_) rfl rfl
    unfold SwitchRecord.expire
    split <;> rfl
  | revalidateAll =>
    refine h.mapVals (f := SwitchRecord.revalidate) (fun sw => ?_) rfl rfl
    unfold SwitchRecord.revalidate
    split <;> rfl
  | applyBulk => exact absurd rfl (hop _)
  | _ => exact h.congr rfl rfl

namespace FabricRegistry

/-- **From a covered snapshot exactly the operations that satisfy the condition lead to one.** -/
theorem exec_portsCovered_iff {r : FabricRegistry} (op : RegistryOp) (hwf : r.current.WellFormed)
    (h : r.current.PortsCovered) : (r.exec op).current.PortsCovered ↔ r.KeepsCounts op := by
  by_cases hacc : r.Accepts op
  · obtain ⟨cand, hed, hadm⟩ := id hacc
    rw [hed.exec_current hadm]
    have hsame : (r.committed cand).PortsCovered ↔ cand.PortsCovered := Iff.rfl
    rw [hsame]
    by_cases hbulk : ∃ e, op = .applyBulk e
    · obtain ⟨e, rfl⟩ := hbulk
      cases hed
      rw [portsCovered_bulk_iff h rfl rfl]
      exact ⟨fun hc _ => hc, fun hc => hc hacc⟩
    · have hop : ∀ e, op ≠ .applyBulk e := fun e he => hbulk ⟨e, he⟩
      have hcand : cand.Integral := hadm.integral.of_maps_eq rfl rfl rfl rfl rfl
      exact iff_of_true (hed.portsCovered hop hwf.integral hcand h) (keepsCounts_of_ne_bulk hop)
  · rw [exec_current_of_not_accepts hacc]
    refine iff_of_true h ?_
    by_cases hbulk : ∃ e, op = .applyBulk e
    · obtain ⟨e, rfl⟩ := hbulk
      exact fun h' => absurd h' hacc
    · exact keepsCounts_of_ne_bulk fun e he => hbulk ⟨e, he⟩

/-- **Port counts over runs.** In every state of a run from a fresh registry all ports are below the declared port count of
    their switch, exactly if every bulk edit that goes through keeps to the condition. -/
theorem portsCovered_run_iff (ops : List RegistryOp) :
    Always exec (fun r => r.current.PortsCovered) new ops ↔ Obeys exec KeepsCounts new ops := by
  have hnew : new.current.PortsCovered := by
    intro pid hpid
    exact absurd hpid (by simp [new])
  have hwf : ∀ (r : FabricRegistry) op, r.current.WellFormed → (r.exec op).current.WellFormed :=
    fun _ op h => exec_wellFormed op h
  exact always_iff_obeys_of hwf (fun r op hr hcov => exec_portsCovered_iff op hr hcov) wellFormed_new hnew ops

/-- A switch that declares no port, and its port. -/
def undeclaredPort : BulkEdit where
  switches := [{ id := ⟨1⟩ }]
  ports := [{ id := ⟨⟨1⟩, 0⟩ }]

/-- The bulk edit goes through, and leaves a port at the count of its switch. -/
theorem bulk_port_uncovered : ¬ ∀ ops, (after ops).current.PortsCovered := by
  intro h
  have hport : (after [.applyBulk undeclaredPort]).current.ports.contains ⟨⟨1⟩, 0⟩ = true := by decide +kernel
  have hsw : (after [.applyBulk undeclaredPort]).current.switches.find? ⟨1⟩ = some { id := ⟨1⟩ } := by decide +kernel
  exact absurd (h _ _ hport _ hsw) (by decide)

end FabricRegistry

end NVSwitchFabric
