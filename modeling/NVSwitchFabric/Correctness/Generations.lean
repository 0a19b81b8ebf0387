import NVSwitchFabric.Correctness.Rebuild

/-!
# `Correctness.Generations` — generations over whole runs

Validation compares a candidate with its immediate predecessor only. For the topology generation that is enough:
every edit advances it, or leaves every record as it is, so over a run it orders the snapshots and identifies their
contents (`generation_identifies`). For the generations of switches, ports, links and partitions it is not: a removed
record leaves no trace, and the next one under its id may start lower. `generations_grow_iff` says which steps do so.
-/

namespace NVSwitchFabric

open Lib

/-! ## The topology generation -/

namespace FabricTopology

theorem SameRecords.refl (t : FabricTopology) : t.SameRecords t := ⟨rfl, rfl, rfl, rfl, rfl⟩

theorem SameRecords.trans {t t' t'' : FabricTopology} (h : t.SameRecords t') (h' : t'.SameRecords t'') :
    t.SameRecords t'' where
  devices := h'.devices.trans h.devices
  switches := h'.switches.trans h.switches
  ports := h'.ports.trans h.ports
  links := h'.links.trans h.links
  partitions := h'.partitions.trans h.partitions

/-- The topology generation does not decrease, and where it stays the records stay. -/
def Identified (t t' : FabricTopology) : Prop :=
  t.topologyGen ≤ t'.topologyGen ∧ (t'.topologyGen = t.topologyGen → t.SameRecords t')

theorem Identified.trans {t t' t'' : FabricTopology} (h : t.Identified t') (h' : t'.Identified t'') :
    t.Identified t'' := by
  refine ⟨h.1.trans h'.1, ?_⟩
  intro heq
  -- equal at both ends, so equal in the middle
  have hmid : t'.topologyGen = t.topologyGen := le_antisymm (h'.1.trans heq.le) h.1
  exact (h.2 hmid).trans (h'.2 (heq.trans hmid.symm))

theorem Identified.of_lt {t t' : FabricTopology} (h : t.topologyGen < t'.topologyGen) : t.Identified t' :=
  ⟨h.le, fun heq => absurd heq (ne_of_gt h)⟩

end FabricTopology

/-- Fencing an incarnation that nothing is attributed to leaves every record as it is. -/
theorem sameRecords_fenced {t : FabricTopology} {w : WorkerId} {b : WorkerBootId}
    (h : Unattributed w b t) : t.SameRecords (fenced w b t) where
  devices := h.devices.mapVals_eq_self fun _ => DeviceRecord.fence_other
  switches := h.switches.mapVals_eq_self fun _ => SwitchRecord.fence_other
  ports := h.ports.mapVals_eq_self fun _ => SwitchPortRecord.fence_other
  links := h.links.mapVals_eq_self fun _ => LinkRecord.fence_other
  partitions := h.partitions.mapVals_eq_self fun _ => FabricPartition.fence_other

/-- **An edit takes the next topology generation, or it keeps the generation and every record.** -/
theorem Edited.topologyGen_cases {t cand : FabricTopology} {op : RegistryOp} (h : Edited t op cand) :
    cand.topologyGen = t.topologyGen.next ∨ (cand.topologyGen = t.topologyGen ∧ t.SameRecords cand) := by
  cases h with
  | @invalidateForWorker w b =>
    by_cases hany : Edit.anyAttributed t w b = true
    · exact Or.inl (if_pos hany)
    · exact Or.inr ⟨if_neg hany, sameRecords_fenced (unattributed_of_not_any (Bool.eq_false_iff.mpr hany))⟩
  | _ => exact Or.inl rfl

namespace FabricRegistry

/-- An operation advances the topology generation, or leaves it and the records as they are. -/
theorem exec_identified (r : FabricRegistry) (op : RegistryOp) : r.current.Identified (r.exec op).current := by
  rcases exec_edited r op with heq | ⟨cand, hed, heq, hadm⟩
  · rw [heq]
    exact ⟨le_rfl, fun _ => .refl _⟩
  · have hgrow := hadm.topologyGen
    rw [heq]
    rcases hed.topologyGen_cases with hnext | ⟨hkeep, hsame⟩
    · -- validation has refused the one increment that wraps
      rw [committed_topologyGen, hnext] at hgrow
      have hlast : r.current.topologyGen ≠ .last := Gen.not_next_lt.mp (not_lt.mpr hgrow)
      apply FabricTopology.Identified.of_lt
      rw [committed_topologyGen, hnext]
      exact Gen.lt_next.mpr hlast
    · exact ⟨hgrow, fun _ => { hsame with }⟩

/-- **The topology generation identifies the content**: along any run it never decreases, and any two snapshots of
    the run that carry the same one hold the same records. -/
theorem generation_identifies (r : FabricRegistry) (ops : List RegistryOp) :
    (visited exec r ops).Pairwise fun s s' => s.current.Identified s'.current := by
  have hstep : ∀ (s : FabricRegistry) op, (fun s s' : FabricRegistry => s.current.Identified s'.current) s (s.exec op) :=
    exec_identified
  exact pairwise_visited (fun h h' => h.trans h') hstep r ops

/-! ## The generations of records -/

end FabricRegistry

/-- The new map brings back a key that `cur` lacks, at a smaller stamp than the record had in `old`. -/
def BringsBackOlder {κ α Tag : Type} [LinearOrder κ] (gen : α → Gen Tag) (old cur : SortedMap κ α)
    (new? : κ → Option α) : Prop :=
  ∃ k v v', cur.find? k = none ∧ old.find? k = some v ∧ new? k = some v' ∧ gen v' < gen v

/-- If the generations of a map grew up to now and grow with the next step, they grew over both, unless an older record
    comes back. -/
theorem stampsGrow_step_iff {κ α Tag : Type} [LinearOrder κ] {gen : α → Gen Tag} {old cur new : SortedMap κ α}
    {new? : κ → Option α} (hpast : StampsGrow gen old cur) (hstep : StampsGrow gen cur new)
    (hnew : ∀ k, cur.find? k = none → new.find? k = new? k) :
    StampsGrow gen old new ↔ ¬ BringsBackOlder gen old cur new? := by
  constructor
  · rintro hgrow ⟨k, v, v', hnone, hv, hv', hlt⟩
    exact absurd (hgrow hv ((hnew k hnone).trans hv')) (not_le.mpr hlt)
  · intro hno k v v' hv hv'
    cases hcur : cur.find? k with
    | some u => exact (hpast hv hcur).trans (hstep hcur hv')
    | none =>
      by_contra hlt
      exact hno ⟨k, v, v', hcur, hv, (hnew k hcur).symm.trans hv', not_le.mp hlt⟩

/-- No record that is in both snapshots has a smaller generation in the second. -/
structure FabricTopology.GensGrow (t t' : FabricTopology) : Prop where
  switches   : StampsGrow (·.gen) t.switches t'.switches
  ports      : StampsGrow (·.gen) t.ports t'.ports
  links      : StampsGrow (·.gen) t.links t'.links
  partitions : StampsGrow (·.gen) t.partitions t'.partitions

/-- The operation supplies a record for an id that `cur` lacks, older than the record of that id in `old`. -/
def RegistryOp.Regresses (old cur : FabricTopology) (op : RegistryOp) : Prop :=
  BringsBackOlder (·.gen) old.switches cur.switches (fun id => op.newSwitch? id) ∨
  BringsBackOlder (·.gen) old.ports cur.ports (fun id => op.newPort? id) ∨
  BringsBackOlder (·.gen) old.links cur.links (fun id => op.newLink? id) ∨
  BringsBackOlder (·.gen) old.partitions cur.partitions (fun id => op.newPartition? id)

namespace FabricTopology

theorem GensGrow.refl (t : FabricTopology) : t.GensGrow t :=
  ⟨.of_sub (.refl _), .of_sub (.refl _), .of_sub (.refl _), .of_sub (.refl _)⟩

theorem Admissible.gensGrow {t t' : FabricTopology} (h : Admissible t t') : t.GensGrow t' :=
  ⟨h.switchGen, h.portGen, h.linkGen, h.partitionGen⟩

end FabricTopology

/-- An edit that validation admits keeps the generations growing since an earlier snapshot exactly if it does not
    bring back an older record. -/
theorem Edited.gensGrow_iff {old t cand : FabricTopology} {op : RegistryOp} (h : Edited t op cand)
    (hpast : old.GensGrow t) (hstep : t.GensGrow cand) : old.GensGrow cand ↔ ¬ op.Regresses old t := by
  have hsw := stampsGrow_step_iff hpast.switches hstep.switches fun id hnone => h.switch_new hnone
  have hport := stampsGrow_step_iff hpast.ports hstep.ports fun id hnone => h.port_new hnone
  have hlink := stampsGrow_step_iff hpast.links hstep.links fun id hnone => h.link_new hnone
  have hpart := stampsGrow_step_iff hpast.partitions hstep.partitions fun id hnone => h.partition_new hnone
  unfold RegistryOp.Regresses
  rw [not_or, not_or, not_or, ← hsw, ← hport, ← hlink, ← hpart]
  exact ⟨fun hg => ⟨hg.switches, hg.ports, hg.links, hg.partitions⟩,
    fun ⟨h₁, h₂, h₃, h₄⟩ => ⟨h₁, h₂, h₃, h₄⟩⟩

namespace FabricRegistry

/-- An operation that goes through brings back no record older than the one its id had in a past snapshot. -/
def NoneOlderReturns (past : List FabricRegistry) (r : FabricRegistry) (op : RegistryOp) : Prop :=
  r.Accepts op → ∀ p ∈ past, ¬ op.Regresses p.current r.current

/-- One step: what grew from all past snapshots to the present one still does. -/
theorem exec_gensGrow_iff (past : List FabricRegistry) (r : FabricRegistry) (op : RegistryOp)
    (hpast : ∀ p ∈ past, p.current.GensGrow r.current) :
    (∀ p ∈ r :: past, p.current.GensGrow (r.exec op).current) ↔ NoneOlderReturns past r op := by
  by_cases hacc : r.Accepts op
  · obtain ⟨cand, hed, hadm⟩ := hacc
    have hcur : (r.exec op).current = r.committed cand := hed.exec_current hadm
    have hstep : r.current.GensGrow (r.committed cand) := hadm.gensGrow
    -- against an older snapshot, only what the operation brings back can be older
    have hiff : ∀ p ∈ past, (p.current.GensGrow (r.committed cand) ↔ ¬ op.Regresses p.current r.current) := by
      intro p hp
      rw [← hed.gensGrow_iff (hpast p hp) { hstep with }]
      exact ⟨fun h => { h with }, fun h => { h with }⟩
    rw [hcur]
    constructor
    · intro hall _ p hp
      exact (hiff p hp).mp (hall p (List.mem_cons_of_mem _ hp))
    · intro hno p hp
      rcases List.mem_cons.mp hp with rfl | hp
      · exact hstep
      · exact (hiff p hp).mpr (hno ⟨cand, hed, hadm⟩ p hp)
  · -- nothing was published
    have hcur : (r.exec op).current = r.current := exec_current_of_not_accepts hacc
    rw [hcur]
    refine iff_of_true ?_ fun h => absurd h hacc
    intro p hp
    rcases List.mem_cons.mp hp with rfl | hp
    · exact .refl _
    · exact hpast p hp

/-- **Generations of records over runs.** Between any two snapshots of a run no generation of a switch, port, link or
    partition decreases, exactly if no operation that goes through brings back an id that is gone at a generation
    below one it had before. -/
theorem generations_grow_iff (r : FabricRegistry) (ops : List RegistryOp) :
    ((visited exec r ops).Pairwise fun s s' => s.current.GensGrow s'.current) ↔
      ObeysPast exec NoneOlderReturns [] r ops :=
  pairwise_visited_iff exec_gensGrow_iff r ops

/-- A switch with generation 5 is added, removed and added again with generation 0. -/
def returnsOlder : List RegistryOp :=
  [.addSwitch { id := ⟨1⟩, gen := ⟨5⟩ }, .removeSwitch ⟨1⟩, .addSwitch { id := ⟨1⟩ }]

/-- Between the first and the last snapshot its generation has gone from 5 to 0. -/
theorem removed_switch_returns_older :
    ¬ ∀ (r : FabricRegistry) (ops : List RegistryOp), r.Initial →
      (visited exec r ops).Pairwise fun s s' => s.current.GensGrow s'.current := by
  intro h
  have hpair := h new returnsOlder (Or.inl rfl)
  have hfirst : (after (returnsOlder.take 1)).current.switches.find? ⟨1⟩ = some { id := ⟨1⟩, gen := ⟨5⟩ } := by
    decide +kernel
  have hlast : (after returnsOlder).current.switches.find? ⟨1⟩ = some { id := ⟨1⟩ } := by decide +kernel
  have hgrow : (after (returnsOlder.take 1)).current.GensGrow (after returnsOlder).current := by
    have hrest := (List.pairwise_cons.mp hpair).2
    exact (List.pairwise_cons.mp hrest).1 _ (by simp [visited, returnsOlder, after, runAll])
  exact absurd (hgrow.switches hfirst hlast) (by decide)

end FabricRegistry

end NVSwitchFabric
