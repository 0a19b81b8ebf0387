import NVSwitchFabric.Correctness.WellFormed

/-!
# `Correctness.Revival` — what expiry and revalidation make of a record

Expiry and the invalidation of a worker's evidence put a record in REVALIDATION_REQUIRED whatever its state was, and
revalidation puts what it finds there in service. So a record that was DOWN or UNKNOWN rises if one of the former touches
it and the latter comes after (`always_settled_iff`).

The three operations see of a record its `Evidence` only: how its state stands to these moves, and its origin. They act
on it alone (`evidence_exec`), for all five kinds of record alike.
-/

namespace NVSwitchFabric

open Lib

/-! ## The law -/

namespace RegistryOp

/-- Expiry, invalidation and revalidation. -/
def isUpkeep : RegistryOp → Bool
  | .expireDynamicEvidence | .invalidateForWorker _ _ | .revalidateAll => true
  | _ => false

def revalidates : RegistryOp → Bool
  | .revalidateAll => true
  | _ => false

end RegistryOp

/-- The states from which a record may come to be up. -/
def EntityState.mayRise (s : EntityState) : Bool :=
  s = .up || s = .degraded || s = .present || s.isStaleOrRevalidation

/-- The states from which a partition may come to be active. -/
def PartitionState.mayRise (s : PartitionState) : Bool := s = .active || s.isStaleOrRevalidation

/-- No record of `t₀` that was in none of the states that may rise is up, or active, in `t`. -/
structure Settled (t₀ t : FabricTopology) : Prop where
  devices    : ∀ {id old rec}, t₀.devices.find? id = some old → old.state.mayRise = false →
                 t.devices.find? id = some rec → rec.state ≠ .up
  switches   : ∀ {id old rec}, t₀.switches.find? id = some old → old.state.mayRise = false →
                 t.switches.find? id = some rec → rec.state ≠ .up
  ports      : ∀ {id old rec}, t₀.ports.find? id = some old → old.state.mayRise = false →
                 t.ports.find? id = some rec → rec.state ≠ .up
  links      : ∀ {id old rec}, t₀.links.find? id = some old → old.state.mayRise = false →
                 t.links.find? id = some rec → rec.state ≠ .up
  partitions : ∀ {id old rec}, t₀.partitions.find? id = some old → old.state.mayRise = false →
                 t.partitions.find? id = some rec → rec.state ≠ .active

/-! ## Evidence -/

/-- How a state stands to the three operations: in service, waiting for revalidation, otherwise able to rise, or low. -/
inductive Footing where
  | top | waiting | fair | low
deriving DecidableEq

def EntityState.footing (s : EntityState) : Footing :=
  if s = .up then .top else if s.isStaleOrRevalidation then .waiting else if s.mayRise then .fair else .low

def PartitionState.footing (s : PartitionState) : Footing :=
  if s = .active then .top else if s.isStaleOrRevalidation then .waiting else .low

/-- What the three operations see of a record. -/
structure Evidence where
  footing : Footing
  origin   : Origin

/-- The operation has the record revalidated. -/
def Origin.markedBy (o : Origin) : RegistryOp → Bool
  | .expireDynamicEvidence   => o.isDynamic
  | .invalidateForWorker w b => o.attributedTo w b
  | _                        => false

/-- What an operation that goes through makes of the evidence. -/
def Evidence.after (op : RegistryOp) (e : Evidence) : Evidence :=
  if e.origin.markedBy op then { e with footing := .waiting }
  else if op.revalidates && e.footing = .waiting then { e with footing := .top }
  else e

/-- The records of a snapshot. -/
inductive RecordKey where
  | device (id : DeviceId)
  | switch (id : SwitchId)
  | port (id : PortId)
  | link (id : LinkId)
  | partition (id : PartitionId)

def DeviceRecord.evidence (r : DeviceRecord) : Evidence := ⟨r.state.footing, r.toOrigin⟩
def SwitchRecord.evidence (r : SwitchRecord) : Evidence := ⟨r.state.footing, r.toOrigin⟩
def SwitchPortRecord.evidence (r : SwitchPortRecord) : Evidence := ⟨r.state.footing, r.toOrigin⟩
def LinkRecord.evidence (r : LinkRecord) : Evidence := ⟨r.state.footing, r.toOrigin⟩
def FabricPartition.evidence (r : FabricPartition) : Evidence := ⟨r.state.footing, r.toOrigin⟩

/-- The evidence of a snapshot. -/
def FabricTopology.evidence (t : FabricTopology) : RecordKey → Option Evidence
  | .device id    => (t.devices.find? id).map DeviceRecord.evidence
  | .switch id    => (t.switches.find? id).map SwitchRecord.evidence
  | .port id      => (t.ports.find? id).map SwitchPortRecord.evidence
  | .link id      => (t.links.find? id).map LinkRecord.evidence
  | .partition id => (t.partitions.find? id).map FabricPartition.evidence

/-! ## States and footings -/

theorem EntityState.footing_eq_low_iff {s : EntityState} : s.footing = .low ↔ s.mayRise = false := by
  unfold footing mayRise
  cases s <;> simp [isStaleOrRevalidation]

theorem EntityState.footing_eq_top_iff {s : EntityState} : s.footing = .top ↔ s = .up := by
  unfold footing mayRise
  cases s <;> simp [isStaleOrRevalidation]

theorem EntityState.footing_eq_waiting_iff {s : EntityState} :
    s.footing = .waiting ↔ s.isStaleOrRevalidation = true := by
  unfold footing mayRise
  cases s <;> simp [isStaleOrRevalidation]

theorem PartitionState.footing_eq_low_iff {s : PartitionState} : s.footing = .low ↔ s.mayRise = false := by
  unfold footing mayRise
  cases s <;> simp [isStaleOrRevalidation]

theorem PartitionState.footing_eq_top_iff {s : PartitionState} : s.footing = .top ↔ s = .active := by
  unfold footing
  cases s <;> simp [isStaleOrRevalidation]

theorem PartitionState.footing_eq_waiting_iff {s : PartitionState} :
    s.footing = .waiting ↔ s.isStaleOrRevalidation = true := by
  unfold footing
  cases s <;> simp [isStaleOrRevalidation]

/-! ## The operations act on the evidence -/

section
variable {α κ : Type} [LinearOrder κ] {op : RegistryOp} {m : SortedMap κ α} (ev : α → Evidence) (f : α → α)

theorem evidence_mapVals (hf : ∀ v, ev (f v) = (ev v).after op) (k : κ) :
    ((m.mapVals f).find? k).map ev = ((m.find? k).map ev).map (Evidence.after op) := by
  rw [SortedMap.find?_mapVals, Option.map_map, Option.map_map]
  exact congrArg (fun g => Option.map g (m.find? k)) (funext hf)

/-- A rewrite that has the records of some origin revalidated. -/
theorem evidence_marked {mark : α → α} (hop : op.revalidates = false)
    (hf : ∀ v, f v = if (ev v).origin.markedBy op then mark v else v)
    (hmark : ∀ v, ev (mark v) = { ev v with footing := .waiting }) (k : κ) :
    ((m.mapVals f).find? k).map ev = ((m.find? k).map ev).map (Evidence.after op) := by
  apply evidence_mapVals
  intro v
  rw [hf]
  unfold Evidence.after
  by_cases hmarked : (ev v).origin.markedBy op = true
  · rw [if_pos hmarked, if_pos hmarked, hmark]
  · rw [if_neg hmarked, if_neg hmarked, hop, if_neg (by simp)]

/-- The rewrite that puts what waits in service. -/
theorem evidence_revalidated {raise : α → α} {c : α → Bool} (hf : ∀ v, f v = if c v then raise v else v)
    (hraise : ∀ v, ev (raise v) = { ev v with footing := .top })
    (hc : ∀ v, (ev v).footing = .waiting ↔ c v = true) (k : κ) :
    ((m.mapVals f).find? k).map ev = ((m.find? k).map ev).map (Evidence.after .revalidateAll) := by
  apply evidence_mapVals
  intro v
  rw [hf]
  unfold Evidence.after
  rw [if_neg (show ¬ (ev v).origin.markedBy .revalidateAll = true from Bool.false_ne_true)]
  by_cases hwait : c v = true
  · rw [if_pos hwait, hraise, if_pos]
    simp [RegistryOp.revalidates, (hc v).mpr hwait]
  · rw [if_neg hwait, if_neg]
    simp [RegistryOp.revalidates, mt (hc v).mp hwait]

end

/-- **An operation that goes through acts on the evidence of each record**, whatever its kind. -/
theorem evidence_exec {r : FabricRegistry} {op : RegistryOp} (hop : op.isUpkeep = true) (hacc : r.Accepts op)
    (k : RecordKey) : (r.exec op).current.evidence k = (r.current.evidence k).map (Evidence.after op) := by
  obtain ⟨cand, hed, hadm⟩ := hacc
  rw [hed.exec_current hadm]
  cases hed with
  | @invalidateForWorker w b =>
    cases k with
    | device => exact evidence_marked DeviceRecord.evidence (DeviceRecord.fence w b) rfl (fun _ => rfl) (fun _ => rfl) _
    | switch => exact evidence_marked SwitchRecord.evidence (SwitchRecord.fence w b) rfl (fun _ => rfl) (fun _ => rfl) _
    | port =>
      exact evidence_marked SwitchPortRecord.evidence (SwitchPortRecord.fence w b) rfl (fun _ => rfl) (fun _ => rfl) _
    | link => exact evidence_marked LinkRecord.evidence (LinkRecord.fence w b) rfl (fun _ => rfl) (fun _ => rfl) _
    | partition =>
      exact evidence_marked FabricPartition.evidence (FabricPartition.fence w b) rfl (fun _ => rfl) (fun _ => rfl) _
  | expireDynamicEvidence =>
    cases k with
    | device => exact evidence_marked DeviceRecord.evidence DeviceRecord.expire rfl (fun _ => rfl) (fun _ => rfl) _
    | switch => exact evidence_marked SwitchRecord.evidence SwitchRecord.expire rfl (fun _ => rfl) (fun _ => rfl) _
    | port => exact evidence_marked SwitchPortRecord.evidence SwitchPortRecord.expire rfl (fun _ => rfl) (fun _ => rfl) _
    | link => exact evidence_marked LinkRecord.evidence LinkRecord.expire rfl (fun _ => rfl) (fun _ => rfl) _
    | partition =>
      exact evidence_marked FabricPartition.evidence FabricPartition.expire rfl (fun _ => rfl) (fun _ => rfl) _
  | revalidateAll =>
    -- revalidation asks for a state that awaits it, which is how the footing of a record is told
    have hentity : ∀ s : EntityState, s.footing = .waiting ↔ s.isStaleOrRevalidation = true :=
      fun _ => EntityState.footing_eq_waiting_iff
    cases k with
    | device =>
      exact evidence_revalidated DeviceRecord.evidence DeviceRecord.revalidate (fun _ => rfl) (fun _ => rfl)
        (fun _ => hentity _) _
    | switch =>
      exact evidence_revalidated SwitchRecord.evidence SwitchRecord.revalidate (fun _ => rfl) (fun _ => rfl)
        (fun _ => hentity _) _
    | port =>
      exact evidence_revalidated SwitchPortRecord.evidence SwitchPortRecord.revalidate (fun _ => rfl) (fun _ => rfl)
        (fun _ => hentity _) _
    | link =>
      exact evidence_revalidated LinkRecord.evidence LinkRecord.revalidate (fun _ => rfl) (fun _ => rfl)
        (fun _ => hentity _) _
    | partition =>
      exact evidence_revalidated FabricPartition.evidence FabricPartition.revalidate (fun _ => rfl) (fun _ => rfl)
        (fun _ => PartitionState.footing_eq_waiting_iff) _
  | _ => exact absurd hop (by simp [RegistryOp.isUpkeep])

/-! ## One step of the evidence -/

namespace Evidence

variable {op : RegistryOp} {e : Evidence}

theorem after_of_marked (h : e.origin.markedBy op = true) : e.after op = { e with footing := .waiting } := if_pos h

/-- What is low and not marked stays as it is. -/
theorem after_of_low (hlow : e.footing = .low) (h : ¬ e.origin.markedBy op = true) : e.after op = e := by
  unfold after
  rw [if_neg h, if_neg (by simp [hlow])]

/-- Only revalidation changes more than marks. -/
theorem after_of_not_revalidates (hop : op.revalidates = false) :
    e.after op = { e with footing := .waiting } ∨ e.after op = e := by
  by_cases hmark : e.origin.markedBy op = true
  · exact Or.inl (after_of_marked hmark)
  · unfold after
    rw [if_neg hmark, if_neg (by simp [hop])]
    exact Or.inr rfl

/-- Revalidation puts what waits in service. -/
theorem after_of_revalidates (hop : op.revalidates = true) (hwait : e.footing = .waiting) :
    (e.after op).footing = .top := by
  cases op with
  | revalidateAll =>
    unfold after
    rw [if_neg (show ¬ e.origin.markedBy .revalidateAll = true from Bool.false_ne_true), if_pos]
    simp [RegistryOp.revalidates, hwait]
  | _ => exact absurd hop (by simp [RegistryOp.revalidates])

end Evidence

/-! ## What was low at the start -/

section
variable (t₀ t : FabricTopology)

/-- What was low is as it was. -/
def Kept : Prop := ∀ k e, t₀.evidence k = some e → e.footing = .low → t.evidence k = some e

/-- What was low is not in service. -/
def GroundedAt (o₀ o : Option Evidence) : Prop :=
  ∀ e e', o₀ = some e → e.footing = .low → o = some e' → e'.footing ≠ .top

/-- Nothing that was low is in service. -/
def Grounded : Prop := ∀ k, GroundedAt (t₀.evidence k) (t.evidence k)

/-- Something that was low waits for revalidation. -/
def Awaited : Prop :=
  ∃ k e e', t₀.evidence k = some e ∧ e.footing = .low ∧ t.evidence k = some e' ∧ e'.footing = .waiting

/-- The operation has something revalidated that was low. -/
def FabricTopology.Marks (op : RegistryOp) : Prop :=
  ∃ k e, t₀.evidence k = some e ∧ e.footing = .low ∧ e.origin.markedBy op = true

end

section
variable {t₀ t t' : FabricTopology} {op : RegistryOp}

theorem Kept.grounded (h : Kept t₀ t) : Grounded t₀ t := by
  intro k e e' he hlow he'
  obtain rfl := Option.some.inj ((h k e he hlow).symm.trans he')
  rw [hlow]
  decide

theorem groundedAt_map_iff {α : Type} {ev : α → Evidence} {low top : α → Prop} {o₀ o : Option α}
    (hlow : ∀ v, (ev v).footing = .low ↔ low v) (htop : ∀ v, (ev v).footing = .top ↔ top v) :
    GroundedAt (o₀.map ev) (o.map ev) ↔ ∀ {old rec}, o₀ = some old → low old → o = some rec → ¬ top rec := by
  constructor
  · rintro h old rec rfl hold rfl hrec
    exact h _ _ rfl ((hlow old).mpr hold) rfl ((htop rec).mpr hrec)
  · intro h e e' he hlow' he' htop'
    obtain ⟨old, hold, rfl⟩ := Option.map_eq_some_iff.mp he
    obtain ⟨rec, hrec, rfl⟩ := Option.map_eq_some_iff.mp he'
    exact h hold ((hlow old).mp hlow') hrec ((htop rec).mp htop')

/-- **The law is one about evidence**, the same for every kind of record. -/
theorem settled_iff_grounded : Settled t₀ t ↔ Grounded t₀ t := by
  have hlow : ∀ s : EntityState, s.footing = .low ↔ s.mayRise = false := fun _ => EntityState.footing_eq_low_iff
  have htop : ∀ s : EntityState, s.footing = .top ↔ s = .up := fun _ => EntityState.footing_eq_top_iff
  constructor
  · intro h k
    cases k with
    | device => exact (groundedAt_map_iff (fun _ => hlow _) fun _ => htop _).mpr h.devices
    | switch => exact (groundedAt_map_iff (fun _ => hlow _) fun _ => htop _).mpr h.switches
    | port => exact (groundedAt_map_iff (fun _ => hlow _) fun _ => htop _).mpr h.ports
    | link => exact (groundedAt_map_iff (fun _ => hlow _) fun _ => htop _).mpr h.links
    | partition =>
      exact (groundedAt_map_iff (fun _ => PartitionState.footing_eq_low_iff)
        fun _ => PartitionState.footing_eq_top_iff).mpr h.partitions
  · intro h
    exact {
      devices := fun {id _ _} => (groundedAt_map_iff (fun _ => hlow _) fun _ => htop _).mp (h (.device id))
      switches := fun {id _ _} => (groundedAt_map_iff (fun _ => hlow _) fun _ => htop _).mp (h (.switch id))
      ports := fun {id _ _} => (groundedAt_map_iff (fun _ => hlow _) fun _ => htop _).mp (h (.port id))
      links := fun {id _ _} => (groundedAt_map_iff (fun _ => hlow _) fun _ => htop _).mp (h (.link id))
      partitions := fun {id _ _} => (groundedAt_map_iff (fun _ => PartitionState.footing_eq_low_iff)
        fun _ => PartitionState.footing_eq_top_iff).mp (h (.partition id)) }

variable (hstep : ∀ k, t'.evidence k = (t.evidence k).map (Evidence.after op))
include hstep

/-- An operation that marks nothing that was low leaves it as it was. -/
theorem Kept.step (h : Kept t₀ t) (hno : ¬ t₀.Marks op) : Kept t₀ t' := by
  intro k e he hlow
  have hmark : ¬ e.origin.markedBy op = true := fun hmark => hno ⟨k, e, he, hlow, hmark⟩
  rw [hstep, h k e he hlow, Option.map_some, Evidence.after_of_low hlow hmark]

/-- One that marks something makes it wait. -/
theorem Kept.awaited (h : Kept t₀ t) (hmarks : t₀.Marks op) : Awaited t₀ t' := by
  obtain ⟨k, e, he, hlow, hmark⟩ := hmarks
  refine ⟨k, e, { e with footing := .waiting }, he, hlow, ?_, rfl⟩
  rw [hstep, h k e he hlow, Option.map_some, Evidence.after_of_marked hmark]

theorem Grounded.step (h : Grounded t₀ t) (hop : op.revalidates = false) : Grounded t₀ t' := by
  intro k e e' he hlow he'
  rw [hstep] at he'
  obtain ⟨mid, hmid, rfl⟩ := Option.map_eq_some_iff.mp he'
  rcases @Evidence.after_of_not_revalidates op mid hop with heq | heq
  · rw [heq]
    show Footing.waiting ≠ Footing.top
    decide
  · rw [heq]
    exact h k e mid he hlow hmid

theorem Awaited.step (h : Awaited t₀ t) (hop : op.revalidates = false) : Awaited t₀ t' := by
  obtain ⟨k, e, mid, he, hlow, hmid, hwait⟩ := h
  refine ⟨k, e, mid.after op, he, hlow, ?_, ?_⟩
  · rw [hstep, hmid, Option.map_some]
  · rcases @Evidence.after_of_not_revalidates op mid hop with heq | heq
    · rw [heq]
    · rw [heq]
      exact hwait

/-- **Revalidation raises what waits.** -/
theorem Awaited.raised (h : Awaited t₀ t) (hop : op.revalidates = true) : ¬ Grounded t₀ t' := by
  obtain ⟨k, e, mid, he, hlow, hmid, hwait⟩ := h
  intro hground
  have hnext : t'.evidence k = some (mid.after op) := by rw [hstep, hmid, Option.map_some]
  exact hground k e _ he hlow hnext (Evidence.after_of_revalidates hop hwait)

end

/-! ## Runs -/

namespace FabricRegistry

/-- The operation goes through and has something revalidated that was low in `t₀`. -/
def Arms (t₀ : FabricTopology) (r : FabricRegistry) (op : RegistryOp) : Prop := r.Accepts op ∧ t₀.Marks op

/-- The operation goes through and revalidates. -/
def Fires (r : FabricRegistry) (op : RegistryOp) : Prop := r.Accepts op ∧ op.revalidates = true

theorem revalidates_of_marks {t : FabricTopology} {op : RegistryOp} (h : t.Marks op) : op.revalidates = false := by
  obtain ⟨_, e, _, _, hmark⟩ := h
  cases op with
  | revalidateAll => exact absurd hmark Bool.false_ne_true
  | _ => rfl

/-- **What was low stays out of service exactly if nothing is revalidated after some of it was marked**, in any run of
    expiries, invalidations and revalidations. -/
theorem always_settled_iff (r : FabricRegistry) (ops : List RegistryOp) (hops : ∀ op ∈ ops, op.isUpkeep = true) :
    Always exec (fun s => Settled r.current s.current) r ops ↔ Unfired exec (Arms r.current) Fires r ops := by
  rw [always_congr (fun s : FabricRegistry => @settled_iff_grounded r.current s.current) r ops]
  have hsafe : ∀ s : FabricRegistry, Kept r.current s.current → Grounded r.current s.current := fun _ h => h.grounded
  have harmed : ∀ s : FabricRegistry, Grounded r.current s.current ∧ Awaited r.current s.current →
      Grounded r.current s.current := fun _ h => h.1
  have hstart : Kept r.current r.current := fun _ _ he _ => he
  -- safe: all that was low is kept low; armed: some of it awaits revalidation
  apply always_iff_unfired hsafe harmed _ _ _ _ hstart hops
  · intro s op hop hs harm
    have hstep := evidence_exec hop harm.1
    exact ⟨hs.grounded.step hstep (revalidates_of_marks harm.2), hs.awaited hstep harm.2⟩
  · intro s op hop hs hno
    by_cases hacc : s.Accepts op
    · exact hs.step (evidence_exec hop hacc) fun hmarks => hno ⟨hacc, hmarks⟩
    · rwa [exec_current_of_not_accepts hacc]
  · intro s op hop hs hno
    by_cases hacc : s.Accepts op
    · have hquiet : op.revalidates = false := Bool.eq_false_iff.mpr fun hrev => hno ⟨hacc, hrev⟩
      exact ⟨hs.1.step (evidence_exec hop hacc) hquiet, hs.2.step (evidence_exec hop hacc) hquiet⟩
    · rwa [exec_current_of_not_accepts hacc]
  · intro s op hop hs hfire
    exact hs.2.raised (evidence_exec hop hfire.1) hfire.2

/-- A device of which a worker knows nothing. -/
def unknownDevice : FabricRegistry := after [.addDevice { id := ⟨1⟩, workerKnown := true }]

/-- Expired and revalidated, it is up. -/
theorem unknown_raised : ¬ ∀ r : FabricRegistry, r.Reachable → ∀ ops : List RegistryOp,
    (∀ op ∈ ops, op.isUpkeep = true) → Settled r.current (runAll exec r ops).current := by
  intro h
  have hsettled := h unknownDevice (reachable_after _) [.expireDynamicEvidence, .revalidateAll] (by decide)
  have hbefore : (unknownDevice.current.devices.find? ⟨1⟩).map (·.state) = some .unknown := by decide +kernel
  have hafter : ((runAll exec unknownDevice [.expireDynamicEvidence, .revalidateAll]).current.devices.find? ⟨1⟩).map
      (·.state) = some .up := by decide +kernel
  obtain ⟨old, hold, hunknown⟩ := Option.map_eq_some_iff.mp hbefore
  obtain ⟨rec, hrec, hup⟩ := Option.map_eq_some_iff.mp hafter
  have hlow : old.state.mayRise = false := by
    rw [hunknown]
    decide
  exact hsettled.devices hold hlow hrec hup

/-- Expiry marks it, and revalidation fires. -/
theorem always_settled_unknownDevice :
    Always exec (fun s => Settled unknownDevice.current s.current) unknownDevice
        [.expireDynamicEvidence, .revalidateAll] ↔
      Unfired exec (Arms unknownDevice.current) Fires unknownDevice [.expireDynamicEvidence, .revalidateAll] :=
  always_settled_iff unknownDevice [.expireDynamicEvidence, .revalidateAll] (by decide)

end FabricRegistry

end NVSwitchFabric
