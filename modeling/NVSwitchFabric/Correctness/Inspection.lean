import NVSwitchFabric.Correctness.Durable
import NVSwitchFabric.Correctness.PathOrder
import NVSwitchFabric.Correctness.Reachability
import NVSwitchFabric.Lib.Observer
import NVSwitchFabric.Model.Inspect

/-!
# `Correctness.Inspection` — answers are about records

Two registries with the same records give the same answers, whatever else differs: generations and epochs of the
snapshots, their provenance, and what has been measured. Paths only carry the stamps of the snapshot they are read from
(`enumeratePaths_same`), and a measurement is one of a pair of devices, so it ranks no path before another
(`rankBefore_same`).

So measurements and queries change no answer in any run (`answers_of_edits`), and a coordinator can be inspected through its
file: the tool reads it back and rebuilds a registry from the records, and what it then prints is what the registry that was
saved last answers (`inspect_lastSaved`).
-/

namespace NVSwitchFabric

open Lib

/-- What is printed of a path. -/
def FabricPath.shown (p : FabricPath) : Str × EntityState := (p.canonicalKey, p.state)

/-- The path with the stamps of another snapshot. -/
def FabricPath.stampedBy (t : FabricTopology) (p : FabricPath) : FabricPath :=
  { p with topologyGen := t.topologyGen, provenance := t.provenance }

theorem map_shown_stampedBy (t : FabricTopology) (ps : List FabricPath) :
    (ps.map (FabricPath.stampedBy t)).map FabricPath.shown = ps.map FabricPath.shown := by
  rw [List.map_map]
  rfl

namespace FabricTopology

variable {t t' : FabricTopology} {src dst : DeviceId} {cfg : TraversalConfig} {policy : RoutePolicy}

/-! ## Paths and reachability -/

theorem pathsInOrder_same (h : t.SameRecords t') :
    t'.pathsInOrder src dst cfg = (t.pathsInOrder src dst cfg).map (FabricPath.stampedBy t') := by
  cases t
  cases t'
  obtain ⟨rfl, rfl, rfl, rfl, rfl⟩ := h
  unfold pathsInOrder
  rw [List.map_flatMap]
  congr 1
  funext p
  show List.map _ _ = List.map _ (List.map _ _)
  rw [List.map_map]
  rfl

theorem joinable_same (h : t.SameRecords t') : t'.Joinable src dst ↔ t.Joinable src dst := by
  constructor
  · rintro ⟨hs, hd, hne⟩
    rw [h.devices] at hs hd
    exact ⟨hs, hd, hne⟩
  · rintro ⟨hs, hd, hne⟩
    rw [← h.devices] at hs hd
    exact ⟨hs, hd, hne⟩

/-- **The same records have the same paths**, but for the stamps. -/
theorem enumeratePaths_same (h : t.SameRecords t') :
    t'.enumeratePaths src dst cfg = (t.enumeratePaths src dst cfg).map (FabricPath.stampedBy t') := by
  by_cases hjoin : t.Joinable src dst
  · rw [enumeratePaths_eq hjoin, enumeratePaths_eq ((joinable_same h).mpr hjoin), pathsInOrder_same h, List.map_take]
  · rw [enumeratePaths_of_not_joinable hjoin, enumeratePaths_of_not_joinable fun h' => hjoin ((joinable_same h).mp h')]
    rfl

theorem pathVerdict_same (h : t.SameRecords t') : t'.pathVerdict src dst = t.pathVerdict src dst := by
  have hup : ∀ ps : List FabricPath, (ps.map (FabricPath.stampedBy t')).any (fun p => p.state = .up) =
      ps.any fun p => p.state = .up := fun ps => List.any_map
  unfold pathVerdict
  dsimp only
  rw [enumeratePaths_same h, List.isEmpty_map, hup, h.switches, h.ports]

/-- The same records give the same verdict. -/
theorem deviceReachability_same (h : t.SameRecords t') : t'.deviceReachability src dst = t.deviceReachability src dst := by
  have hlookup : ∀ id, t'.lookupDevice id = t.lookupDevice id := fun id => congrArg (SortedMap.find? · id) h.devices
  cases hs : t.lookupDevice src with
  | none =>
    unfold deviceReachability
    rw [hlookup, hs]
  | some s =>
    cases hd : t.lookupDevice dst with
    | none =>
      unfold deviceReachability
      rw [hlookup, hlookup, hs, hd]
    | some d =>
      have hblocked : t'.blocked src dst = t.blocked src dst := by
        unfold blocked partitionOf
        rw [h.partitions]
      rw [deviceReachability_eq hs hd, deviceReachability_eq ((hlookup src).trans hs) ((hlookup dst).trans hd), hblocked,
        pathVerdict_same h]

/-! ## Ranking -/

/-- A measurement is the same for all paths, and everything else is read off the records. -/
theorem rankBefore_same (h : t.SameRecords t') (meas meas' : BestMeasurement) (a b : FabricPath)
    (factors : List (RouteFactor × Double)) :
    rankBefore t' meas' (a.stampedBy t') (b.stampedBy t') factors = rankBefore t meas a b factors := by
  induction factors with
  | nil => rfl
  | cons f factors ih =>
    have hvalue : f.1 ≠ .measuredThroughput → f.1 ≠ .measuredLatency → ∀ p : FabricPath,
        factorValue f.1 (p.stampedBy t') t' meas' = factorValue f.1 p t meas := by
      intro hthroughput hlatency p
      unfold factorValue lookupLink
      rw [h.links]
      cases hf : f.1 <;> first | rfl | contradiction
    have hskip : ∀ (topo : FabricTopology) (m : BestMeasurement) (p q : FabricPath),
        f.1 = .measuredThroughput ∨ f.1 = .measuredLatency →
        rankBefore topo m p q (f :: factors) = rankBefore topo m p q factors := by
      intro topo m p q hmeasured
      have hequal : factorValue f.1 p topo m = factorValue f.1 q topo m := by
        rcases hmeasured with heq | heq <;> rw [heq] <;> rfl
      show (if _ < _ then true else if _ < _ then false else _) = _
      rw [hequal, if_neg (lt_irrefl _), if_neg (lt_irrefl _)]
    by_cases hmeasured : f.1 = .measuredThroughput ∨ f.1 = .measuredLatency
    · rw [hskip _ _ _ _ hmeasured, hskip _ _ _ _ hmeasured, ih]
    · rw [not_or] at hmeasured
      have hsame := hvalue hmeasured.1 hmeasured.2
      show (if factorValue f.1 (a.stampedBy t') t' meas' < factorValue f.1 (b.stampedBy t') t' meas' then true
        else if factorValue f.1 (b.stampedBy t') t' meas' < factorValue f.1 (a.stampedBy t') t' meas' then false else _) = _
      rw [hsame, hsame, ih]
      rfl

/-- The candidates in the order of their ranks. -/
theorem rankPaths_same (h : t.SameRecords t') (meas meas' : BestMeasurement) (ps : List FabricPath) :
    rankPaths t' meas' policy (ps.map (FabricPath.stampedBy t')) =
      (rankPaths t meas policy ps).map (FabricPath.stampedBy t') := by
  unfold rankPaths
  refine (List.map_insertionSort _ _ _ _ ?_).symm
  intro a _ b _
  rw [rankBefore_same h meas meas']

theorem eligiblePaths_same (h : t.SameRecords t') (raw : List FabricPath) :
    t'.eligiblePaths policy (raw.map (FabricPath.stampedBy t')) =
      (t.eligiblePaths policy raw).map (FabricPath.stampedBy t') := by
  cases t
  cases t'
  obtain ⟨rfl, rfl, rfl, rfl, rfl⟩ := h
  unfold eligiblePaths
  rw [List.filter_map, List.map_map, List.map_map]
  rfl

end FabricTopology

/-! ## Decisions -/

/-- What is printed of a decision. -/
def RouteDecision.shown (d : RouteDecision) : RouteOutcome × Bool × Str × Option Str × List (Str × EntityState) :=
  (d.outcome, d.authoritative, d.outcomeReason, d.selected.map (·.canonicalKey), d.candidatePaths.map FabricPath.shown)

section Decisions

variable {t t' : FabricTopology}

/-- The best path is one of the candidates, and the generations of the snapshot are not printed. -/
theorem shown_grant (d : RouteDecision) (policy : RoutePolicy) (meas : BestMeasurement) (best : FabricPath)
    (ranked : List FabricPath) : (d.grant t policy meas best ranked).shown =
      (if best.state = .degraded then .routeAllowedDegraded else .routeAllowed, true, d.outcomeReason,
        some best.canonicalKey, ranked.map FabricPath.shown) := rfl

/-- **The same records give the same decision**, whatever has been measured. -/
theorem shown_computeRoute_same (h : t.SameRecords t') (src dst : DeviceId) (policy : RoutePolicy)
    (ms ms' : List Measurement) (id id' : RouteDecisionId) (gen gen' : RouteGeneration)
    (snapshotId snapshotId' : TopologySnapshotId) (now now' : UInt64) (epoch epoch' : CoordinatorEpoch) :
    (computeRoute t' src dst policy ms' id' gen' snapshotId' now' epoch').shown =
      (computeRoute t src dst policy ms id gen snapshotId now epoch).shown := by
  have hadmitted : admitEndpoints t' src dst = admitEndpoints t src dst := by
    unfold admitEndpoints FabricTopology.lookupDevice
    rw [h.devices]
  have hpartition : t'.gatePartition src dst = t.gatePartition src dst := by
    unfold FabricTopology.gatePartition FabricTopology.activePartitions
    rw [h.partitions]
  have hgate : t'.gateRefuses src dst policy = t.gateRefuses src dst policy := by
    unfold FabricTopology.gateRefuses FabricTopology.activePartitions
    rw [hpartition, h.partitions]
  have hstale : t'.anyStalePartition = t.anyStalePartition := by
    unfold FabricTopology.anyStalePartition
    rw [h.partitions]
  have hranked : ∀ raw : List FabricPath,
      rankPaths t' (bestFor ms' src dst) policy (t'.eligiblePaths policy (raw.map (FabricPath.stampedBy t'))) =
        (rankPaths t (bestFor ms src dst) policy (t.eligiblePaths policy raw)).map (FabricPath.stampedBy t') := by
    intro raw
    rw [FabricTopology.eligiblePaths_same h, FabricTopology.rankPaths_same h (bestFor ms src dst)]
  unfold computeRoute
  dsimp only
  rw [hadmitted, hgate, hstale, hpartition, FabricTopology.enumeratePaths_same h, List.isEmpty_map,
    FabricTopology.deviceReachability_same h, hranked, h.switches]
  cases admitEndpoints t src dst with
  | some refusal => rfl
  | none =>
    dsimp only
    by_cases hrefused : t.gateRefuses src dst policy = true
    · rw [if_pos hrefused, if_pos hrefused]
      rfl
    rw [if_neg hrefused, if_neg hrefused]
    by_cases hempty : (t.enumeratePaths src dst policy.traversal).isEmpty = true
    · rw [if_pos hempty, if_pos hempty]
      cases t.gatePartition src dst <;> rfl
    rw [if_neg hempty, if_neg hempty]
    cases rankPaths t (bestFor ms src dst) policy (t.eligiblePaths policy (t.enumeratePaths src dst policy.traversal)) with
    | nil => cases t.gatePartition src dst <;> rfl
    | cons best others =>
      have hreason : ∀ (topo : FabricTopology) (i : RouteDecisionId) (g : RouteGeneration) (s : TopologySnapshotId)
          (n : UInt64) (e : CoordinatorEpoch), ((openDecision topo src dst policy i g s n e).withPartition
            (t.gatePartition src dst)).outcomeReason = [] := by
        intro topo i g s n e
        cases t.gatePartition src dst <;> rfl
      rw [List.map_cons]
      dsimp only
      rw [shown_grant, shown_grant, hreason, hreason, ← List.map_cons, map_shown_stampedBy]
      rfl

end Decisions

/-! ## Answers -/

/-- Two registries print the same to whoever asks them, at whatever time. -/
structure FabricRegistry.SameAnswers (r r' : FabricRegistry) : Prop where
  health       : r'.current.fabricHealth = r.current.fabricHealth
  reachability : ∀ src dst, r'.reachability src dst = r.reachability src dst
  paths        : ∀ src dst cfg, (r'.paths src dst cfg).map FabricPath.shown = (r.paths src dst cfg).map FabricPath.shown
  route        : ∀ src dst policy now now', (r'.route src dst policy now').1.shown = (r.route src dst policy now).1.shown

theorem sameAnswers_of_same {r r' : FabricRegistry} (h : r.current.SameRecords r'.current) : r.SameAnswers r' where
  health := by
    unfold FabricTopology.fabricHealth
    rw [h.devices, h.switches, h.ports, h.partitions]
  reachability _ _ := FabricTopology.deviceReachability_same h
  paths src dst cfg := by
    unfold FabricRegistry.paths
    rw [FabricTopology.enumeratePaths_same h, map_shown_stampedBy]
  route _ _ _ _ _ := shown_computeRoute_same h _ _ _ _ _ _ _ _ _ _ _ _ _ _ _

/-! ## Measurements -/

/-- The operations that edit the snapshot, or set the epoch it is stamped with. -/
def RegistryOp.edits : RegistryOp → Bool
  | .publishMeasurement _ | .recordDecision _ | .route _ _ _ _ => false
  | _                                                           => true

namespace FabricRegistry

/-- What the next snapshot is made of. -/
def snapshotState (r : FabricRegistry) : FabricTopology × UInt64 × CoordinatorEpoch :=
  (r.current, r.nextSnapshotId, r.epoch)

section Snapshots

variable {r r' : FabricRegistry} (h : r.snapshotState = r'.snapshotState)

include h

theorem publish_snapshotState (pre : String) (cand : FabricTopology) :
    (r.publish pre cand).2.snapshotState = (r'.publish pre cand).2.snapshotState := by
  obtain ⟨hcurrent, hrest⟩ := Prod.mk.inj h
  obtain ⟨hid, hepoch⟩ := Prod.mk.inj hrest
  unfold publish
  rw [hcurrent]
  cases validateCandidate r'.current cand with
  | error why => exact h
  | ok cand =>
    unfold snapshotState
    dsimp only
    rw [hid, hepoch]

theorem mutate_snapshotState (edit : FabricTopology → Result FabricTopology) :
    (r.mutate edit).2.snapshotState = (r'.mutate edit).2.snapshotState := by
  have hcurrent : r.current = r'.current := congrArg Prod.fst h
  unfold mutate
  rw [hcurrent]
  cases edit r'.current with
  | error e => exact h
  | ok cand => exact publish_snapshotState h "" cand

/-- The next snapshot depends on nothing else. -/
theorem exec_snapshotState (op : RegistryOp) : (r.exec op).snapshotState = (r'.exec op).snapshotState := by
  cases op with
  | setEpoch e => exact congrArg (fun s => (s.1, s.2.1, e)) h
  | publishMeasurement m => exact h
  | recordDecision d => exact h
  | route src dst policy now => exact h
  | applyBulk e =>
    have hcurrent : r.current = r'.current := congrArg Prod.fst h
    show (r.applyBulk e).2.snapshotState = (r'.applyBulk e).2.snapshotState
    unfold applyBulk
    rw [hcurrent]
    exact publish_snapshotState h "bulk rejected: " _
  | expireDynamicEvidence =>
    let unmatched (s : FabricRegistry) : FabricRegistry :=
      { s with measurements := s.measurements.map fun m => { m with matched := false } }
    have hunmatched : (unmatched r).snapshotState = (unmatched r').snapshotState := h
    exact mutate_snapshotState hunmatched Edit.expireDynamicEvidence
  | _ => exact mutate_snapshotState h _

end Snapshots

/-- **Measurements never change an answer.** Leave out of any run of operations all measurements, queries and recorded
    decisions: health, reachability, paths and routes are the same after what is left. -/
theorem answers_of_edits (r : FabricRegistry) (ops : List RegistryOp) :
    (runAll exec r ops).SameAnswers (runAll exec r (ops.filter RegistryOp.edits)) := by
  have hinv : ∀ (_ : FabricRegistry) (_ : RegistryOp), True → True → True := fun _ _ _ h => h
  have hcongr : ∀ {s s' : FabricRegistry}, s.snapshotState = s'.snapshotState → ∀ op : RegistryOp,
      (s.exec op).snapshotState = (s'.exec op).snapshotState := fun h op => exec_snapshotState h op
  have hquiet : ∀ (s : FabricRegistry) (op : RegistryOp), True → True → op.edits = false →
      (s.exec op).snapshotState = s.snapshotState := by
    intro s op _ _ hop
    cases op <;> first | rfl | exact absurd hop (by simp [RegistryOp.edits])
  have hsame : (runAll exec r ops).snapshotState = (runAll exec r (ops.filter RegistryOp.edits)).snapshotState :=
    see_runAll_filter hinv hcongr hquiet trivial fun _ _ => trivial
  have hcurrent : (runAll exec r ops).current = (runAll exec r (ops.filter RegistryOp.edits)).current :=
    congrArg Prod.fst hsame
  exact sameAnswers_of_same ⟨by rw [hcurrent], by rw [hcurrent], by rw [hcurrent], by rw [hcurrent], by rw [hcurrent]⟩

end FabricRegistry

/-! ## The tool -/

namespace InspectSource

/-- The tool rebuilds a registry from the records it reads. -/
theorem registry_persisted {path : Str} {disk : Disk} {r : FabricRegistry}
    (h : FabricRegistry.restoreFrom path disk = .ok r) (hwf : r.current.WellFormed) :
    ∃ reg, (InspectSource.persisted path).registry disk = .ok reg ∧ r.current.SameRecords reg.current := by
  have hempty : FabricTopology.SameRecords {} FabricRegistry.new.current := ⟨rfl, rfl, rfl, rfl, rfl⟩
  have hroom : FabricRegistry.new.current.topologyGen ≠ .last := by decide
  refine ⟨FabricRegistry.new.exec (.applyBulk (.ofTopology r.current)), ?_,
    (FabricRegistry.applyBulk_ofTopology hempty hroom hwf).1⟩
  unfold registry
  dsimp only
  rw [h]
  rfl

end InspectSource

namespace Coordinator

/-- **Inspecting a coordinator through its file.** Run a coordinator from its construction, over any events on any
    connections. What the tool then shows of the file is what the registry that was saved last answers. -/
theorem inspect_lastSaved (epoch : CoordinatorEpoch) (path : Str) (disk : Disk) (events : List Event)
    {saved : FabricRegistry} (h : (fresh epoch path disk).lastSaved events = some saved) :
    ∃ reg, (InspectSource.persisted path).registry (runAll step (fresh epoch path disk) events).disk = .ok reg ∧
      saved.SameAnswers reg := by
  obtain ⟨hstorable, hwf, _⟩ := lastSaved_storable (durable_fresh epoch path disk) h
  have hfile : (runAll step (fresh epoch path disk) events).disk.find? path = some (serialize saved) := by
    have hrun := (find?_run (fresh epoch path disk) events).2
    rw [h] at hrun
    exact hrun
  have hread : FabricRegistry.restoreFrom path (runAll step (fresh epoch path disk) events).disk =
      .ok (restored saved.current) := (deserializeFromFile_iff hwf hfile).mpr ⟨hstorable, rfl⟩
  obtain ⟨reg, hreg, hsame⟩ := InspectSource.registry_persisted hread hwf
  exact ⟨reg, hreg, sameAnswers_of_same hsame⟩

/-- After the first save. -/
theorem inspect_lastSaved_firstSave :
    ∃ saved, (fresh 1 (ascii "f") .empty).lastSaved firstSave = some saved ∧
      ∃ reg, (InspectSource.persisted (ascii "f")).registry (runAll step (fresh 1 (ascii "f") .empty) firstSave).disk =
        .ok reg ∧ saved.SameAnswers reg := by
  have hlast : ((fresh 1 (ascii "f") .empty).lastSaved firstSave).isSome = true := by decide +kernel
  obtain ⟨saved, hsaved⟩ := Option.isSome_iff_exists.mp hlast
  exact ⟨saved, hsaved, inspect_lastSaved 1 (ascii "f") .empty firstSave hsaved⟩

end Coordinator

end NVSwitchFabric
