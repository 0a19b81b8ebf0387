import NVSwitchFabric.Correctness.CoordinatorStep
import NVSwitchFabric.Correctness.Epoch
import NVSwitchFabric.Correctness.Generations

/-!
# `Correctness.Restart` — old decisions after a restart

A restored coordinator keeps the epoch it was given: `restoreFromAndRevalidate` commits the persisted records under
it. So old decisions are fenced by the epoch or not at all. If the epoch differs from theirs, no later state accepts
them (`EpochFenced` is an invariant of everything that leaves the epoch alone); if it is the same, any granted one can
be made authoritative again, since the registry can be rebuilt to the contents it was granted on (`exists_revived`).
-/

namespace NVSwitchFabric

open Lib

/-! ## Reviving a decision -/

/-- Every switch and port up, at its generation. -/
def FabricTopology.broughtUp (t : FabricTopology) : FabricTopology :=
  { t with
    switches := t.switches.mapVals fun rec => { rec with state := .up }
    ports := t.ports.mapVals fun rec => { rec with state := .up } }

theorem FabricTopology.WellFormed.broughtUp {t : FabricTopology} (h : t.WellFormed) : t.broughtUp.WellFormed := by
  have hswitches : t.broughtUp.switches = t.switches.mapVals fun rec => { rec with state := .up } := rfl
  have hports : t.broughtUp.ports = t.ports.mapVals fun rec => { rec with state := .up } := rfl
  refine ⟨?_, ?_, ?_⟩
  · exact { h.keyed with
      switches := h.keyed.switches.mapVals fun _ => rfl
      ports := h.keyed.ports.mapVals fun _ => rfl }
  · exact { h.limits with
      switches := (SortedMap.size_mapVals _ _).trans_le h.limits.switches
      ports := (SortedMap.size_mapVals _ _).trans_le h.limits.ports }
  · exact h.integral.mapVals (SortedMap.mapVals_id _).symm hswitches hports (SortedMap.mapVals_id _).symm
      (SortedMap.mapVals_id _).symm (fun _ => rfl) (fun _ => ⟨rfl, rfl, rfl⟩) fun _ => ⟨rfl, rfl⟩

namespace FabricRegistry

/-- **Only the epoch keeps a granted decision from coming back.** A registry of the decision's epoch can be brought,
    with the epoch left alone, to a state that accepts the decision. -/
theorem exists_revived {r₀ r : FabricRegistry} (h₀ : r₀.Reachable) (h : r.current.WellFormed)
    (hroom : r.HasRoom) {src dst : DeviceId} {policy : RoutePolicy} {now : UInt64}
    (hallowed : (r₀.route src dst policy now).1.outcome.isAllowed = true) (hepoch : r₀.epoch = r.epoch) :
    ∃ r', Steps exec SetsNoEpoch r r' ∧ r'.decisionStillAuthoritative (r₀.route src dst policy now).1 = true := by
  obtain ⟨best, hgrant⟩ := (route_allowed_iff r₀ src dst policy now).mp hallowed
  have hwf := h₀.wellFormed
  obtain ⟨r', hrun, hsame, hepoch'⟩ := exists_rebuilt h hroom hwf.broughtUp
  refine ⟨r', hrun, stillAuthoritative_iff.mpr ?_⟩
  refine hgrant.rechecked hwf.keyed (route_issued now hgrant) (hepoch'.trans hepoch.symm) hsame.devices
    hsame.partitions ?_ ?_
  · intro sw _ rec hrec
    apply switchHolds_iff.mpr
    rw [hsame.switches]
    exact ⟨{ rec with state := .up }, by simp [FabricTopology.broughtUp, hrec], rfl, rfl⟩
  · intro pid _ rec hrec
    apply portHolds_iff.mpr
    rw [hsame.ports]
    exact ⟨{ rec with state := .up }, by simp [FabricTopology.broughtUp, hrec], rfl, rfl⟩

/-- An operation takes one topology generation at most. -/
theorem exec_topologyGen_le (r : FabricRegistry) (op : RegistryOp) :
    (r.exec op).current.topologyGen.value.toNat ≤ r.current.topologyGen.value.toNat + 1 := by
  have hnext : r.current.topologyGen.next.value.toNat ≤ r.current.topologyGen.value.toNat + 1 := by
    rw [Gen.next_toNat]
    exact Nat.mod_le _ _
  rcases exec_edited r op with heq | ⟨cand, hed, heq, _⟩
  · rw [heq]
    omega
  · rw [heq, committed_topologyGen]
    rcases hed.topologyGen_cases with hadvanced | ⟨hkept, _⟩
    · rw [hadvanced]
      exact hnext
    · rw [hkept]
      omega

/-- The removals of a well-formed snapshot are bounded. -/
theorem removals_le {t : FabricTopology} (h : t.WithinLimits) : t.removals ≤ 132608 := by
  have hd : t.devices.size ≤ 1024 := h.devices
  have hs : t.switches.size ≤ 256 := h.switches
  have hl : t.links.size ≤ 131072 := h.links
  have hpt : t.partitions.size ≤ 256 := h.partitions
  unfold FabricTopology.removals
  omega

/-- Fenced under epoch `e`, and `n` topology generations from zero at most. -/
structure Settled (e : CoordinatorEpoch) (n : Nat) (r : FabricRegistry) : Prop where
  epoch       : r.epoch = e
  fenced      : r.EpochFenced
  reachable   : r.Reachable
  topologyGen : r.current.topologyGen.value.toNat ≤ n

/-- Whatever leaves the epoch alone keeps a fenced registry fenced. -/
theorem exec_epochFenced {r : FabricRegistry} {op : RegistryOp} (h : r.EpochFenced)
    (hkeep : (r.exec op).epoch = r.epoch) : (r.exec op).EpochFenced := by
  apply (exec_epochFenced_iff r op h).mpr
  cases op with
  | setEpoch e =>
    obtain rfl : e = r.epoch := hkeep
    exact (epochFenced_iff r).mp h
  | _ => trivial

/-- Nothing is published yet when the epoch of a fresh registry is set. -/
theorem settled_new (e : CoordinatorEpoch) : (new.setEpoch e).Settled e 0 := by
  have hnew : new.Reachable := ⟨_, Or.inl rfl, .refl⟩
  refine ⟨rfl, ?_, hnew.exec (.setEpoch e), le_rfl⟩
  apply (epochFenced_iff _).mpr
  refine Or.inr ?_
  intro id rec hrec
  exact absurd hrec (by simp [setEpoch, new])

theorem Settled.exec {r : FabricRegistry} {e : CoordinatorEpoch} {n : Nat} {op : RegistryOp} (h : r.Settled e n)
    (hop : ∀ e, op ≠ .setEpoch e) : (r.exec op).Settled e (n + 1) := by
  have hkeep := exec_epoch r op hop
  exact ⟨hkeep.trans h.epoch, exec_epochFenced h.fenced hkeep, h.reachable.exec op,
    (exec_topologyGen_le r op).trans (Nat.add_le_add_right h.topologyGen 1)⟩

end FabricRegistry

/-! ## Coordinator runs -/

namespace Coordinator

theorem epoch_eq (c : Coordinator) : c.epoch = c.registry.epoch := rfl

/-- The action leaves the coordinator's epoch as it is. -/
def KeepsEpoch (c : Coordinator) (a : Action) : Prop := (c.act a).epoch = c.epoch

/-- A restore that goes through runs two operations on the registry. -/
theorem restore_ok {path : Str} {c : Coordinator} {res : FabricRegistry}
    (h : FabricRegistry.restoreFrom path c.disk = .ok res) :
    (c.restoreFromAndRevalidate path).1 = .ok () ∧ (c.restoreFromAndRevalidate path).2.registry =
      (c.registry.exec (.applyBulk (.ofTopology res.snapshot))).exec .expireDynamicEvidence := by
  unfold restoreFromAndRevalidate
  rw [h]
  simp only [FabricRegistry.exec, and_self]

/-- A restore that fails does nothing. -/
theorem restore_error {path : Str} {c : Coordinator} {err : Error}
    (h : FabricRegistry.restoreFrom path c.disk = .error err) :
    c.restoreFromAndRevalidate path = (.error err, c) := by
  unfold restoreFromAndRevalidate
  rw [h]

/-- **What leaves the epoch alone keeps the registry fenced.** -/
theorem act_epochFenced {c : Coordinator} (a : Action) (h : c.registry.EpochFenced) (hkeep : c.KeepsEpoch a) :
    (c.act a).registry.EpochFenced := by
  cases a with
  | event e =>
    rcases c.step_registry_cases e with heq | ⟨op, hop, heq⟩
    · show (c.step e).registry.EpochFenced
      rwa [heq]
    · show (c.step e).registry.EpochFenced
      rw [heq]
      exact FabricRegistry.exec_epochFenced h (FabricRegistry.exec_epoch _ op hop)
  | mutate op => exact FabricRegistry.exec_epochFenced h hkeep
  | restore path =>
    show (c.restoreFromAndRevalidate path).2.registry.EpochFenced
    cases hres : FabricRegistry.restoreFrom path c.disk with
    | error err =>
      rw [restore_error hres]
      exact h
    | ok res =>
      have happlied := FabricRegistry.exec_epoch c.registry (.applyBulk (.ofTopology res.snapshot)) (by simp)
      have hexpired := FabricRegistry.exec_epoch (c.registry.exec (.applyBulk (.ofTopology res.snapshot)))
        .expireDynamicEvidence (by simp)
      rw [(restore_ok hres).2]
      exact FabricRegistry.exec_epochFenced (FabricRegistry.exec_epochFenced h happlied) hexpired

/-- Operations on the registry are actions on the coordinator. -/
theorem steps_mutate {c : Coordinator} {r : FabricRegistry}
    (h : Steps FabricRegistry.exec FabricRegistry.SetsNoEpoch c.registry r) :
    Steps act KeepsEpoch c { c with registry := r } := by
  generalize hfrom : c.registry = r₁ at h
  induction h with
  | refl =>
    subst hfrom
    exact .refl
  | @tail s op _ hop ih =>
    have hkeep : KeepsEpoch { c with registry := s } (.mutate op) := FabricRegistry.exec_epoch s op hop
    exact ih.tail hkeep

theorem restore_fresh {path : Str} {disk : Disk} {res : FabricRegistry}
    (hres : FabricRegistry.restoreFrom path disk = .ok res) (e : CoordinatorEpoch) (persistPath : Str) :
    ((fresh e persistPath disk).restoreFromAndRevalidate path).1 = .ok () ∧
      ((fresh e persistPath disk).restoreFromAndRevalidate path).2.registry =
        ((FabricRegistry.new.setEpoch e).exec (.applyBulk (.ofTopology res.snapshot))).exec
          .expireDynamicEvidence := by
  have hdisk : FabricRegistry.restoreFrom path (fresh e persistPath disk).disk = .ok res := hres
  exact restore_ok hdisk

/-- A restored coordinator is settled under the epoch it was given. -/
theorem settled_restore_fresh {path : Str} {disk : Disk} {res : FabricRegistry}
    (hres : FabricRegistry.restoreFrom path disk = .ok res) (e : CoordinatorEpoch) (persistPath : Str) :
    FabricRegistry.Settled e 2 ((fresh e persistPath disk).restoreFromAndRevalidate path).2.registry := by
  have happlied : FabricRegistry.Settled e 1
      ((FabricRegistry.new.setEpoch e).exec (.applyBulk (.ofTopology res.snapshot))) :=
    (FabricRegistry.settled_new e).exec (by simp)
  rw [(restore_fresh hres e persistPath).2]
  exact happlied.exec (by simp)

/-- **When a restart fences an old decision.** For every decision that a registry issued, and every file that a fresh
    coordinator restores: the coordinator's epoch is above the stored one and no state it reaches without changing its
    epoch accepts the decision, exactly if the epoch it was given is above the stored one and, where the decision was
    granted, differs from the decision's. -/
theorem restart_fenced_iff {r : FabricRegistry} (hr : r.Reachable) (src dst : DeviceId) (policy : RoutePolicy)
    (now : UInt64) {path : Str} {disk : Disk} {res : FabricRegistry}
    (hres : FabricRegistry.restoreFrom path disk = .ok res) (e : CoordinatorEpoch) (persistPath : Str) :
    (res.epoch < ((fresh e persistPath disk).restoreFromAndRevalidate path).2.epoch ∧
        ∀ c, Steps act KeepsEpoch ((fresh e persistPath disk).restoreFromAndRevalidate path).2 c →
          c.registry.decisionStillAuthoritative (r.route src dst policy now).1 = false) ↔
      res.epoch < e ∧
        ((r.route src dst policy now).1.outcome.isAllowed = true → (r.route src dst policy now).1.epoch ≠ e) := by
  have hc := settled_restore_fresh hres e persistPath
  generalize ((fresh e persistPath disk).restoreFromAndRevalidate path).2 = c₀ at hc
  have hce : c₀.epoch = e := hc.epoch
  rw [hce]
  apply and_congr_right
  intro _
  constructor
  · intro hnever hallowed heq
    have hepoch : r.epoch = c₀.registry.epoch :=
      (FabricRegistry.route_epoch r src dst policy now).symm.trans (heq.trans hce.symm)
    have hwf := hc.reachable.wellFormed
    have hroom : c₀.registry.HasRoom := by
      have hgen := hc.topologyGen
      have hbound := FabricRegistry.removals_le hwf.limits
      unfold FabricRegistry.HasRoom
      omega
    obtain ⟨r', hrun, hauth⟩ := FabricRegistry.exists_revived hr hwf hroom hallowed hepoch
    exact absurd (hnever _ (steps_mutate hrun)) (by rw [hauth]; simp)
  · intro hdiff c hrun
    -- fenced under the same epoch, wherever the run has got to
    have hinv : (fun s : Coordinator => s.registry.EpochFenced ∧ s.epoch = e) c := by
      have hstep : ∀ (s : Coordinator) a, s.registry.EpochFenced ∧ s.epoch = e → s.KeepsEpoch a →
          (s.act a).registry.EpochFenced ∧ (s.act a).epoch = e :=
        fun s a hs hkeep => ⟨act_epochFenced a hs.1 hkeep, hkeep.trans hs.2⟩
      exact hrun.invariant hstep ⟨hc.fenced, hce⟩
    rw [Bool.eq_false_iff]
    intro hauth
    have hallowed := (stillAuthoritative_iff.mp hauth).allowed
    exact hdiff hallowed ((hinv.1 _ hauth).trans hinv.2)

/-! ## Two restarts of one file -/

/-- A registry of epoch 1. -/
def beforeRestart : FabricRegistry :=
  FabricRegistry.after [.setEpoch 1, .applyBulk (buildSyntheticScan .singleSwitchTwoGpu)]

def stateFile : Str := ascii "nvswitch_fabric_state.nvf"

/-- The disk once the registry, having issued a decision, is persisted. -/
def savedDisk : Disk := ((beforeRestart.route ⟨1⟩ ⟨2⟩ {} 0).2.persistTo stateFile .empty).2

theorem restoreFrom_savedDisk :
    FabricRegistry.restoreFrom stateFile savedDisk = .ok (restored beforeRestart.current) := by
  have hwf : beforeRestart.current.WellFormed := (FabricRegistry.reachable_after _).wellFormed
  have henc : beforeRestart.current.Encodable := {
    keyed := hwf.keyed
    limits := hwf.limits
    label := by decide +kernel
    devices := by decide +kernel
    switches := by decide +kernel
    ports := by decide +kernel
    links := by decide +kernel
    partitions := by decide +kernel }
  have hsize : (serialize (beforeRestart.route ⟨1⟩ ⟨2⟩ {} 0).2).length ≤ Limits.kMaxPersistenceBytes := by
    decide +kernel
  -- routing leaves the snapshot as it is
  exact FabricRegistry.restoreFrom_persistTo stateFile .empty henc hwf.integral hsize

/-- Restarted under epoch 2, the coordinator never accepts the decision of epoch 1 again. -/
theorem restart_fenced_under_two :
    (restored beforeRestart.current).epoch <
        ((fresh 2 stateFile savedDisk).restoreFromAndRevalidate stateFile).2.epoch ∧
      ∀ c, Steps act KeepsEpoch ((fresh 2 stateFile savedDisk).restoreFromAndRevalidate stateFile).2 c →
        c.registry.decisionStillAuthoritative (beforeRestart.route ⟨1⟩ ⟨2⟩ {} 0).1 = false :=
  (restart_fenced_iff (FabricRegistry.reachable_after _) ⟨1⟩ ⟨2⟩ {} 0 restoreFrom_savedDisk 2 stateFile).mpr
    ⟨by decide +kernel, fun _ => by decide +kernel⟩

/-- Restarted under the epoch it had, the coordinator reports success, its epoch is the stored one, and it accepts the
    decision it issued before. -/
theorem restart_same_epoch_accepts :
    FabricRegistry.restoreFrom stateFile savedDisk = .ok (restored beforeRestart.current) ∧
      ((fresh 1 stateFile savedDisk).restoreFromAndRevalidate stateFile).1 = .ok () ∧
      ((fresh 1 stateFile savedDisk).restoreFromAndRevalidate stateFile).2.epoch =
        (restored beforeRestart.current).epoch ∧
      ((fresh 1 stateFile savedDisk).restoreFromAndRevalidate stateFile).2.registry.decisionStillAuthoritative
        (beforeRestart.route ⟨1⟩ ⟨2⟩ {} 0).1 = true := by
  obtain ⟨hdone, hreg⟩ := restore_fresh restoreFrom_savedDisk 1 stateFile
  have hepoch : (((FabricRegistry.new.setEpoch 1).exec
      (.applyBulk (.ofTopology (restored beforeRestart.current).snapshot))).exec .expireDynamicEvidence).epoch =
        (restored beforeRestart.current).epoch := by decide +kernel
  have hauth : (((FabricRegistry.new.setEpoch 1).exec
      (.applyBulk (.ofTopology (restored beforeRestart.current).snapshot))).exec
        .expireDynamicEvidence).decisionStillAuthoritative (beforeRestart.route ⟨1⟩ ⟨2⟩ {} 0).1 = true := by
    decide +kernel
  refine ⟨restoreFrom_savedDisk, hdone, ?_, ?_⟩
  · rw [epoch_eq, hreg]
    exact hepoch
  · rw [hreg]
    exact hauth

end Coordinator

end NVSwitchFabric
