import NVSwitchFabric.Correctness.Authority

/-!
# `Correctness.GateKept` — whether an authoritative route still passes the partition gate

A decision admitted through a partition records it with its generation; one made with no partition in service records
nothing. In the first case what the re-check trusts is that a partition at the captured generation has the members
it had then, in the second that no partition matters to the pair. `KeepsGate` says which records an operation may
store for this to hold, and `gate_open_of_authoritative` that it then does, over whole runs.
-/

namespace NVSwitchFabric

open Lib

/-! ## Where partition records come from -/

/-- The record the operation stores for partition `id`. -/
def RegistryOp.storedPartition? (t : FabricTopology) (id : PartitionId) :
    RegistryOp → Option FabricPartition
  | .publishPartition part =>
    if id = part.id then some (Edit.partitionToStore (t.partitions.find? id) part) else none
  | .applyBulk e           => e.partition? id
  | _                      => none

theorem FabricPartition.fence_members (w : WorkerId) (b : WorkerBootId) (p : FabricPartition) :
    (p.fence w b).members = p.members := by
  unfold FabricPartition.fence
  split <;> rfl

theorem FabricPartition.expire_members (p : FabricPartition) : p.expire.members = p.members := by
  unfold FabricPartition.expire
  split <;> rfl

theorem FabricPartition.revalidate_members (p : FabricPartition) : p.revalidate.members = p.members := by
  unfold FabricPartition.revalidate
  split <;> rfl

/-- Neither fencing nor expiry puts a partition in service. -/
theorem FabricPartition.inService_of_fence {w : WorkerId} {b : WorkerBootId} {p : FabricPartition}
    (h : (p.fence w b).inService = true) : p.inService = true := by
  unfold FabricPartition.fence at h
  split at h
  · exact absurd h (by simp [FabricPartition.inService, PartitionState.isStaleOrRevalidation])
  · exact h

theorem FabricPartition.inService_of_expire {p : FabricPartition} (h : p.expire.inService = true) :
    p.inService = true := by
  unfold FabricPartition.expire at h
  split at h
  · exact absurd h (by simp [FabricPartition.inService, PartitionState.isStaleOrRevalidation])
  · exact h

/-- **Origin of a partition record.** It is stored by the operation, or rewrites a record with the same members; and
    among those rewrites only `revalidateAll` puts a partition in service. -/
theorem Edited.partition_origin {t cand : FabricTopology} {op : RegistryOp} {id : PartitionId}
    {rec : FabricPartition} (h : Edited t op cand) (hrec : cand.partitions.find? id = some rec) :
    op.storedPartition? t id = some rec ∨
      ∃ old, t.partitions.find? id = some old ∧ rec.members = old.members ∧
        (rec.inService = true → old.inService = true ∨ op = .revalidateAll) := by
  have hsame : t.partitions.find? id = some rec → ∃ old, t.partitions.find? id = some old ∧
      rec.members = old.members ∧ (rec.inService = true → old.inService = true ∨ op = .revalidateAll) :=
    fun hold => ⟨rec, hold, rfl, Or.inl⟩
  cases h with
  | @publishPartition part =>
    rw [SortedMap.find?_insert] at hrec
    split at hrec
    · next heq =>
      left
      show (if id = part.id then _ else _) = _
      rw [if_pos heq, heq]
      exact hrec
    · exact Or.inr (hsame hrec)
  | removePartition => exact Or.inr (hsame (SortedMap.find?_erase_eq_some.mp hrec).1)
  | @markPartitionStale pid old known =>
    rw [SortedMap.find?_insert] at hrec
    split at hrec
    · next heq =>
      obtain rfl := Option.some.inj hrec
      refine Or.inr ⟨old, heq ▸ known, rfl, ?_⟩
      intro hservice
      exact absurd hservice (by simp [FabricPartition.inService, FabricPartition.markStale,
        PartitionState.isStaleOrRevalidation])
    · exact Or.inr (hsame hrec)
  | @invalidateForWorker w b =>
    obtain ⟨old, hold, rfl⟩ := SortedMap.find?_mapVals_eq_some.mp hrec
    exact Or.inr ⟨old, hold, old.fence_members w b, fun hservice => Or.inl (FabricPartition.inService_of_fence hservice)⟩
  | expireDynamicEvidence =>
    obtain ⟨old, hold, rfl⟩ := SortedMap.find?_mapVals_eq_some.mp hrec
    exact Or.inr ⟨old, hold, old.expire_members, fun hservice => Or.inl (FabricPartition.inService_of_expire hservice)⟩
  | revalidateAll =>
    obtain ⟨old, hold, rfl⟩ := SortedMap.find?_mapVals_eq_some.mp hrec
    exact Or.inr ⟨old, hold, old.revalidate_members, fun _ => Or.inr rfl⟩
  | @applyBulk e =>
    have hlookup : (t.partitions.insertAll (·.id) e.partitions).find? id =
        (e.partition? id).or (t.partitions.find? id) := SortedMap.find?_insertAll _ _ _ _
    rw [hlookup] at hrec
    cases hnew : e.partition? id with
    | none =>
      rw [hnew, Option.none_or] at hrec
      exact Or.inr (hsame hrec)
    | some new =>
      rw [hnew, Option.some_or] at hrec
      exact Or.inl (hnew.trans hrec)
  | _ => exact Or.inr (hsame hrec)

theorem joins_of_members_eq {p q : FabricPartition} {src dst : DeviceId} (h : p.members = q.members)
    (hq : q.joins src dst = true) : p.joins src dst = true := by
  unfold FabricPartition.joins at hq ⊢
  rw [h]
  exact hq

/-! ## Steps -/

/-- What the operation must not store behind the re-check's back. -/
structure KeepsGate (d : RouteDecision) (t : FabricTopology) (op : RegistryOp) : Prop where
  /-- Under the recorded partition, at its captured generation or below: a record that leaves out an endpoint. -/
  recorded   : d.partitionKnown = true → ∀ rec, op.storedPartition? t d.partition = some rec →
                 rec.gen ≤ d.partitionGen → rec.joins d.source d.destination = true
  /-- With none recorded: a partition in service that leaves out an endpoint. -/
  stored     : d.partitionKnown = false → ∀ id rec, op.storedPartition? t id = some rec →
                 rec.inService = true → rec.joins d.source d.destination = true
  /-- With none recorded: the revalidation of a partition that leaves out an endpoint. -/
  revalidated : d.partitionKnown = false → op = .revalidateAll → ∀ id rec, t.partitions.find? id = some rec →
                 rec.joins d.source d.destination = true

/-- The guard on a step: the operation keeps the gate, or is rejected. -/
def GateKept (d : RouteDecision) (r : FabricRegistry) (op : RegistryOp) : Prop :=
  r.Accepts op → KeepsGate d r.current op

/-- The partition data of `d` can be trusted: the recorded partition joins its endpoints unless it has moved on, or,
    with none recorded, every partition in service does. -/
structure GateData (d : RouteDecision) (t : FabricTopology) : Prop where
  recorded   : d.partitionKnown = true → ∀ rec, t.partitions.find? d.partition = some rec →
                 d.partitionGen < rec.gen ∨ rec.joins d.source d.destination = true
  unrecorded : d.partitionKnown = false → ∀ id rec, t.partitions.find? id = some rec →
                 rec.inService = true → rec.joins d.source d.destination = true

/-- **One step keeps the partition data trustworthy.** -/
theorem GateData.exec {d : RouteDecision} {r : FabricRegistry} {op : RegistryOp}
    (h : GateData d r.current) (hok : GateKept d r op) : GateData d (r.exec op).current := by
  rcases exec_edited r op with heq | ⟨cand, hed, heq, hadm⟩
  · rwa [heq]
  have hkeep : KeepsGate d r.current op := hok ⟨cand, hed, hadm⟩
  rw [heq]
  constructor
  · intro hknown rec hrec
    rcases hed.partition_origin hrec with hstored | ⟨old, hold, hmembers, _⟩
    · rcases le_or_gt rec.gen d.partitionGen with hle | hlt
      · exact Or.inr (hkeep.recorded hknown rec hstored hle)
      · exact Or.inl hlt
    · rcases h.recorded hknown old hold with hlt | hjoins
      · exact Or.inl (hlt.trans_le (hadm.partitionGen hold hrec))
      · exact Or.inr (joins_of_members_eq hmembers hjoins)
  · intro hknown id rec hrec hservice
    rcases hed.partition_origin hrec with hstored | ⟨old, hold, hmembers, hwas⟩
    · exact hkeep.stored hknown id rec hstored hservice
    · apply joins_of_members_eq hmembers
      rcases hwas hservice with hservice' | hop
      · exact h.unrecorded hknown id old hold hservice'
      · exact hkeep.revalidated hknown hop id old hold

/-- The partition data is trustworthy when the decision is issued. -/
theorem Issued.gateData {d : RouteDecision} {t : FabricTopology} {src dst : DeviceId}
    {policy : RoutePolicy} {measurements : List Measurement} {epoch : CoordinatorEpoch} {best : FabricPath}
    (hkeyed : t.Keyed) (hin : policy.insidePartition = true)
    (hgrant : Granted t src dst policy measurements best)
    (hd : Issued d t src dst policy epoch best) : GateData d t := by
  constructor
  · intro hknown rec hrec
    obtain ⟨part, hpart, _, _, hjoins⟩ := hd.recorded_partition hkeyed hknown
    obtain rfl := Option.some.inj (hpart.symm.trans hrec)
    rw [hd.source, hd.destination]
    exact Or.inr hjoins
  · intro hunknown id rec hrec hservice
    have hpart := hd.partition
    cases hgate : t.gatePartition src dst with
    | some part =>
      rw [hgate] at hpart
      exact absurd (hunknown.symm.trans hpart.1) (by simp)
    | none =>
      -- the gate was open with nothing to join the pair, so nothing was in service
      have hopen := hgrant.gate
      rw [Bool.eq_false_iff] at hopen
      apply absurd _ hopen
      rw [FabricTopology.gateRefuses_iff]
      exact ⟨hin, ⟨id, rec, hrec, hservice⟩, FabricTopology.gatePartition_eq_none_iff.mp hgate⟩

/-- **Trustworthy partition data and the re-check open the gate.** -/
theorem GateData.open {d : RouteDecision} {t : FabricTopology} (h : GateData d t) (hre : Rechecked d t)
    (policy : RoutePolicy) : t.gateRefuses d.source d.destination policy = false := by
  rw [Bool.eq_false_iff]
  intro hrefuses
  obtain ⟨_, ⟨k, part, hk, hservice⟩, hnone⟩ := FabricTopology.gateRefuses_iff.mp hrefuses
  cases hknown : d.partitionKnown with
  | true =>
    obtain ⟨rec, hrec, hservice', hgen⟩ := partitionHolds_iff.mp (hre.partition hknown)
    rcases h.recorded hknown rec hrec with hlt | hjoins
    · exact absurd hgen (ne_of_gt hlt)
    · exact absurd (hjoins.symm.trans (hnone _ rec hrec hservice')) (by simp)
  | false =>
    have hjoins := h.unrecorded hknown k part hk hservice
    exact absurd (hjoins.symm.trans (hnone k part hk hservice)) (by simp)

namespace FabricRegistry

/-- **An authoritative route passes the gate.** Along every run after `route` whose accepted operations keep the gate
    of its decision: wherever the decision is authoritative, the partition gate does not refuse its endpoints under
    its policy. -/
theorem gate_open_of_authoritative {r₀ : FabricRegistry} (h₀ : r₀.Reachable) (src dst : DeviceId)
    (policy : RoutePolicy) (now : UInt64) (hin : policy.insidePartition = true) {r : FabricRegistry}
    (hrun : Steps exec (GateKept (r₀.route src dst policy now).1) (r₀.route src dst policy now).2 r)
    (hauth : r.decisionStillAuthoritative (r₀.route src dst policy now).1 = true) :
    r.current.gateRefuses (r₀.route src dst policy now).1.source (r₀.route src dst policy now).1.destination
      (r₀.route src dst policy now).1.policySnapshot = false := by
  have hre : Rechecked (r₀.route src dst policy now).1 r.current := stillAuthoritative_iff.mp hauth
  obtain ⟨best, hgrant⟩ := (route_allowed_iff r₀ src dst policy now).mp hre.allowed
  have hstart : GateData (r₀.route src dst policy now).1 (r₀.route src dst policy now).2.current :=
    (route_issued now hgrant).gateData h₀.wellFormed.keyed hin hgrant
  have hstep : ∀ (s : FabricRegistry) op, GateData (r₀.route src dst policy now).1 s.current →
      GateKept (r₀.route src dst policy now).1 s op →
      GateData (r₀.route src dst policy now).1 (s.exec op).current :=
    fun s op hs hok => hs.exec hok
  exact (hrun.invariant hstep hstart).open hre _

/-- Another pair's partition is withdrawn; the route inside its own stays authoritative and passes the gate. -/
theorem gate_open_partitionSplit :
    let r₀ := after [.applyBulk (buildSyntheticScan .partitionSplit)]
    let d := (r₀.route ⟨1⟩ ⟨2⟩ {} 0).1
    let r := (r₀.route ⟨1⟩ ⟨2⟩ {} 0).2.exec (.removePartition ⟨ascii "p1"⟩)
    r.current.gateRefuses d.source d.destination d.policySnapshot = false := by
  intro r₀ d r
  have hkeep : KeepsGate d (r₀.route ⟨1⟩ ⟨2⟩ {} 0).2.current (.removePartition ⟨ascii "p1"⟩) :=
    ⟨fun _ _ hstored => absurd hstored (by simp [RegistryOp.storedPartition?]),
      fun _ _ _ hstored => absurd hstored (by simp [RegistryOp.storedPartition?]), fun _ hop => absurd hop (by simp)⟩
  exact gate_open_of_authoritative (reachable_after _) ⟨1⟩ ⟨2⟩ {} 0 rfl (.single fun _ => hkeep)
    (by decide +kernel)

/-- A decision made before there were partitions stays authoritative when one is published that leaves out its
    destination, and the gate then refuses its endpoints. -/
theorem later_partition_not_noticed :
    let r₀ := after [.applyBulk (buildSyntheticScan .singleSwitchTwoGpu)]
    let d := (r₀.route ⟨1⟩ ⟨2⟩ {} 0).1
    let r := (r₀.route ⟨1⟩ ⟨2⟩ {} 0).2.exec
      (.publishPartition (makeSyntheticPartition ⟨ascii "p0"⟩ [⟨1⟩] [⟨10⟩] .active))
    r₀.Reachable ∧ d.policySnapshot.insidePartition = true ∧ r.decisionStillAuthoritative d = true ∧
      r.current.gateRefuses d.source d.destination d.policySnapshot = true := by
  exact ⟨reachable_after _, by decide +kernel, by decide +kernel, by decide +kernel⟩

end FabricRegistry

end NVSwitchFabric
