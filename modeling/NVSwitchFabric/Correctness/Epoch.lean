import NVSwitchFabric.Correctness.Recheck

/-!
# `Correctness.Epoch` — epoch fencing between commits

The re-check compares a decision's epoch with the epoch of the published snapshot, and only a commit copies the
registry's epoch there. `EpochFenced` is the property the comment in the re-check promises, about the registry's own
epoch; a snapshot is fenced exactly when it carries that epoch or has no device a decision could be about
(`epochFenced_iff`), and a step keeps it exactly when it satisfies `EpochStepOk` (`exec_epochFenced_iff`).
-/

namespace NVSwitchFabric

open Lib

namespace FabricRegistry

/-- Only decisions of the registry's current epoch are authoritative. -/
def EpochFenced (r : FabricRegistry) : Prop :=
  ∀ d, r.decisionStillAuthoritative d = true → d.epoch = r.epoch

/-- No device is in a state that the re-check accepts for an endpoint. -/
def NoEndpoint (t : FabricTopology) : Prop :=
  ∀ id rec, t.devices.find? id = some rec → endpointState rec.state = false

/-- **Which snapshots are fenced.** -/
theorem epochFenced_iff (r : FabricRegistry) :
    r.EpochFenced ↔ r.current.epoch = r.epoch ∨ NoEndpoint r.current := by
  constructor
  · intro h
    by_cases hnone : NoEndpoint r.current
    · exact Or.inr hnone
    · -- a decision from a live device to itself, of the snapshot's epoch, is authoritative
      unfold NoEndpoint at hnone
      push Not at hnone
      obtain ⟨id, rec, hrec, hlive⟩ := hnone
      have hholds : endpointHolds r.current id = true :=
        endpointHolds_iff.mpr ⟨rec, hrec, by simpa using hlive⟩
      have hauth : r.decisionStillAuthoritative
          { source := id, destination := id, outcome := .routeAllowed, epoch := r.current.epoch } = true := by
        apply stillAuthoritative_iff.mpr
        exact ⟨rfl, rfl, hholds, hholds, by simp, by simp, by simp⟩
      exact Or.inl (h _ hauth)
  · rintro (heq | hnone) d hd
    · exact (stillAuthoritative_iff.mp hd).epoch.trans heq
    · obtain ⟨rec, hrec, hlive⟩ := endpointHolds_iff.mp (stillAuthoritative_iff.mp hd).source
      rw [hnone _ _ hrec] at hlive
      exact absurd hlive (by simp)

/-- The condition on a step: an epoch is set only if the published snapshot carries it already, or has no device
    a decision could be about. -/
def EpochStepOk (r : FabricRegistry) : RegistryOp → Prop
  | .setEpoch e => r.current.epoch = e ∨ NoEndpoint r.current
  | _           => True

/-- **From a fenced state exactly the steps that satisfy the condition lead to a fenced state.** -/
theorem exec_epochFenced_iff (r : FabricRegistry) (op : RegistryOp) (h : r.EpochFenced) :
    (r.exec op).EpochFenced ↔ r.EpochStepOk op := by
  have hcommit : (∀ e, op ≠ .setEpoch e) → (r.exec op).EpochFenced := by
    intro hne
    have hepoch := exec_epoch r op hne
    rcases r.exec_current_cases op with heq | ⟨_, cand, _, _, heq, _⟩
    · -- snapshot and epoch are as before
      intro d hd
      unfold decisionStillAuthoritative at hd
      rw [heq] at hd
      rw [hepoch]
      exact h d hd
    · rw [epochFenced_iff, heq, committed_epoch, hepoch]
      exact Or.inl rfl
  cases op with
  | setEpoch e => exact epochFenced_iff (r.setEpoch e)
  | _ => exact iff_of_true (hcommit (by simp)) trivial

theorem Initial.epochFenced {r : FabricRegistry} (h : r.Initial) : r.EpochFenced := by
  rw [epochFenced_iff]
  rcases h with rfl | ⟨data, hdata⟩
  · exact Or.inl rfl
  · obtain ⟨topo, _, rfl⟩ := deserialize_ok hdata
    exact Or.inl rfl

/-- A decision carries the epoch of the registry that issued it. -/
theorem route_epoch (r : FabricRegistry) (src dst : DeviceId) (policy : RoutePolicy) (now : UInt64) :
    (r.route src dst policy now).1.epoch = r.epoch := by
  have hpart : ∀ (d : RouteDecision) part, (d.withPartition part).epoch = d.epoch := by
    intro d part
    cases part <;> rfl
  show (computeRoute _ _ _ _ _ _ _ _ _ _).epoch = r.epoch
  unfold computeRoute
  split
  · rfl
  split
  · rfl
  dsimp only
  split
  · exact hpart _ _
  split
  · exact hpart _ _
  · exact hpart _ _

/-- **Epoch fencing over runs.** From a fresh or restored registry, all states of a run are fenced exactly if all
    its steps satisfy the condition; and along such runs a decision issued under another epoch than the current
    one is not authoritative. -/
theorem epoch_fencing_iff (r₀ : FabricRegistry) (h₀ : r₀.Initial) :
    (∀ ops, Always exec EpochFenced r₀ ops ↔ Obeys exec EpochStepOk r₀ ops) ∧
      ∀ r₁ r₂ src dst policy now, Steps exec EpochStepOk r₀ r₁ → Steps exec EpochStepOk r₁ r₂ →
        r₂.epoch ≠ r₁.epoch → r₂.decisionStillAuthoritative (r₁.route src dst policy now).1 = false := by
  refine ⟨fun ops => always_iff_obeys exec_epochFenced_iff h₀.epochFenced ops, ?_⟩
  intro r₁ r₂ src dst policy now hrun₁ hrun₂ hne
  have hfenced : r₂.EpochFenced :=
    (hrun₁.trans hrun₂).invariant (fun s op hs hok => (exec_epochFenced_iff s op hs).mpr hok)
      h₀.epochFenced
  rw [Bool.eq_false_iff]
  intro hauth
  have heq := hfenced _ hauth
  rw [route_epoch] at heq
  exact hne heq.symm

/-- The epoch is set first, while nothing is published; the run stays fenced. -/
theorem epoch_fencing_setEpoch_first :
    Always exec EpochFenced new [.setEpoch 1, .applyBulk (buildSyntheticScan .singleSwitchTwoGpu)] := by
  have hempty : NoEndpoint new.current := by
    intro id rec hrec
    exact absurd hrec (by simp [new])
  exact ((epoch_fencing_iff new (Or.inl rfl)).1 _).mpr ⟨Or.inr hempty, trivial, trivial⟩

/-- The epoch is set over live devices; the decision issued before stays authoritative under the new epoch. -/
theorem old_epoch_stays_authoritative :
    let r₁ := after [.applyBulk (buildSyntheticScan .singleSwitchTwoGpu)]
    let d := (r₁.route ⟨1⟩ ⟨2⟩ {} 0).1
    let r₂ := r₁.exec (.setEpoch 1)
    r₂.decisionStillAuthoritative d = true ∧ d.epoch ≠ r₂.epoch ∧ r₁.epoch ≠ r₂.epoch := by
  decide +kernel

end FabricRegistry

end NVSwitchFabric
