import NVSwitchFabric.Correctness.PathSound
import NVSwitchFabric.Correctness.PartitionGate
import NVSwitchFabric.Correctness.WellFormed

/-!
# `Correctness.Recheck` — the authority re-check against the grant

`Rechecked` spells out the conditions of `routeDecisionStillAuthoritative`, and `Issued` says what a granted decision
carries. Put side by side they show where issue and re-check part: endpoints and partition always pass, the epoch
passes when the snapshot carries the registry's, and switches and ports pass when they are usable, which is
more than the hard filters ask (`recheck_of_granted`).
-/

namespace NVSwitchFabric

open Lib

/-! ## The re-check, condition by condition -/

theorem endpointHolds_iff {t : FabricTopology} {id : DeviceId} :
    endpointHolds t id = true ↔ ∃ rec, t.devices.find? id = some rec ∧ endpointState rec.state = true := by
  unfold endpointHolds FabricTopology.lookupDevice
  cases t.devices.find? id with
  | none => simp
  | some rec => simp

theorem partitionHolds_iff {t : FabricTopology} {id : PartitionId} {g : PartitionGeneration} :
    partitionHolds t id g = true ↔
      ∃ part, t.partitions.find? id = some part ∧ part.inService = true ∧ part.gen = g := by
  unfold partitionHolds FabricTopology.lookupPartition FabricPartition.inService
  cases t.partitions.find? id with
  | none => simp
  | some part => simp

theorem switchHolds_iff {t : FabricTopology} {sw : SwitchId} {g : SwitchGeneration} :
    switchHolds t (sw, g) = true ↔
      ∃ rec, t.switches.find? sw = some rec ∧ usableState rec.state = true ∧ rec.gen = g := by
  unfold switchHolds FabricTopology.lookupSwitch
  dsimp only
  cases t.switches.find? sw with
  | none => simp
  | some rec => simp

theorem portHolds_iff {t : FabricTopology} {pid : PortId} {g : PortGeneration} :
    portHolds t (pid, g) = true ↔
      ∃ rec, t.ports.find? pid = some rec ∧ usableState rec.state = true ∧ rec.gen = g := by
  unfold portHolds FabricTopology.lookupPort
  dsimp only
  cases t.ports.find? pid with
  | none => simp
  | some rec => simp

/-- What the re-check asks of a decision. -/
structure Rechecked (d : RouteDecision) (t : FabricTopology) : Prop where
  allowed     : d.outcome.isAllowed = true
  epoch       : d.epoch = t.epoch
  source      : endpointHolds t d.source = true
  destination : endpointHolds t d.destination = true
  partition   : d.partitionKnown = true → partitionHolds t d.partition d.partitionGen = true
  switches    : ∀ p, d.selected = some p → ∀ sg ∈ p.switchGens, switchHolds t sg = true
  ports       : ∀ p, d.selected = some p → ∀ pg ∈ p.portGens, portHolds t pg = true

theorem stillAuthoritative_iff {d : RouteDecision} {t : FabricTopology} :
    routeDecisionStillAuthoritative d t = true ↔ Rechecked d t := by
  have hpart : (!d.partitionKnown || partitionHolds t d.partition d.partitionGen) = true ↔
      (d.partitionKnown = true → partitionHolds t d.partition d.partitionGen = true) := by
    cases d.partitionKnown <;> simp
  unfold routeDecisionStillAuthoritative
  rw [Bool.and_eq_true, Bool.and_eq_true, Bool.and_eq_true, Bool.and_eq_true, Bool.and_eq_true,
    decide_eq_true_eq, hpart]
  constructor
  · rintro ⟨⟨⟨⟨⟨hall, hep⟩, hs⟩, hd⟩, hp⟩, hpath⟩
    refine ⟨hall, hep, hs, hd, hp, ?_, ?_⟩
    · intro p hsel
      rw [hsel, Bool.and_eq_true, List.all_eq_true] at hpath
      exact hpath.1
    · intro p hsel
      rw [hsel, Bool.and_eq_true, List.all_eq_true, List.all_eq_true] at hpath
      exact hpath.2
  · intro h
    refine ⟨⟨⟨⟨⟨h.allowed, h.epoch⟩, h.source⟩, h.destination⟩, h.partition⟩, ?_⟩
    cases hsel : d.selected with
    | none => rfl
    | some p =>
      rw [Bool.and_eq_true, List.all_eq_true, List.all_eq_true]
      exact ⟨h.switches p hsel, h.ports p hsel⟩

/-! ## What a grant captures -/

/-- The partition data of a decision granted through `part`. -/
def RouteDecision.PartitionIs (d : RouteDecision) : Option FabricPartition → Prop
  | some part => d.partitionKnown = true ∧ d.partition = part.id ∧ d.partitionGen = part.gen
  | none      => d.partitionKnown = false

/-- The decision is a grant of `best` on the snapshot `t` under epoch `epoch`. -/
structure Issued (d : RouteDecision) (t : FabricTopology) (src dst : DeviceId) (policy : RoutePolicy)
    (epoch : CoordinatorEpoch) (best : FabricPath) : Prop where
  allowed     : d.outcome.isAllowed = true
  epoch       : d.epoch = epoch
  source      : d.source = src
  destination : d.destination = dst
  policy      : d.policySnapshot = policy
  partition   : d.PartitionIs (t.gatePartition src dst)
  selected    : d.selected = some best

/-- **A granted request issues its best path.** -/
theorem computeRoute_issued {topo : FabricTopology} {src dst : DeviceId} {policy : RoutePolicy}
    {measurements : List Measurement} {best : FabricPath} (id : RouteDecisionId) (gen : RouteGeneration)
    (snapshotId : TopologySnapshotId) (now : UInt64) (epoch : CoordinatorEpoch)
    (h : Granted topo src dst policy measurements best) :
    Issued (computeRoute topo src dst policy measurements id gen snapshotId now epoch) topo src dst policy
      epoch best := by
  rw [computeRoute_of_granted h]
  cases hpart : topo.gatePartition src dst with
  | none => exact ⟨grant_isAllowed _ _ _ _, rfl, rfl, rfl, rfl, by rw [hpart]; exact rfl, rfl⟩
  | some part =>
    exact ⟨grant_isAllowed _ _ _ _, rfl, rfl, rfl, rfl, by rw [hpart]; exact ⟨rfl, rfl, rfl⟩, rfl⟩

theorem FabricRegistry.route_issued {r : FabricRegistry} {src dst : DeviceId} {policy : RoutePolicy}
    {best : FabricPath} (now : UInt64) (h : Granted r.current src dst policy r.measurements best) :
    Issued (r.route src dst policy now).1 r.current src dst policy r.epoch best := by
  have hc := computeRoute_issued ⟨r.nextDecisionId⟩ ⟨0⟩ ⟨ascii "snap" ++ decimal r.current.id.toNat⟩ now
    r.epoch h
  refine { hc with partition := ?_ }
  have hpart := hc.partition
  revert hpart
  cases r.current.gatePartition src dst with
  | none => exact id
  | some part => exact id

theorem FabricRegistry.route_authoritative_iff (r : FabricRegistry) (src dst : DeviceId)
    (policy : RoutePolicy) (now : UInt64) :
    (r.route src dst policy now).1.authoritative = true ↔
      ∃ best, Granted r.current src dst policy r.measurements best :=
  computeRoute_authoritative_iff

theorem FabricRegistry.route_allowed_iff (r : FabricRegistry) (src dst : DeviceId)
    (policy : RoutePolicy) (now : UInt64) :
    (r.route src dst policy now).1.outcome.isAllowed = true ↔
      ∃ best, Granted r.current src dst policy r.measurements best :=
  computeRoute_allowed_iff

/-! ## Issue against re-check -/

/-- The re-check's condition on the elements of a path: every switch and every known port is up or degraded. -/
structure FabricPath.Clean (t : FabricTopology) (p : FabricPath) : Prop where
  switches : ∀ sw ∈ p.switchSequence, t.SwitchUsable sw
  ports    : ∀ pid ∈ p.knownPorts, t.PortUsable pid

namespace Granted

variable {topo : FabricTopology} {src dst : DeviceId} {policy : RoutePolicy}
  {measurements : List Measurement} {best : FabricPath}

/-- The best path is an enumerated one that passes the hard filters, with its generations captured. -/
theorem enumerated (h : Granted topo src dst policy measurements best) :
    ∃ p ∈ topo.enumeratePaths src dst policy.traversal, topo.hardFilter policy p = true ∧
      topo.capture p = best :=
  mem_rankedPaths.mp (List.mem_of_mem_head? h.first)

end Granted

theorem hardFilter_switches {t : FabricTopology} {policy : RoutePolicy} {p : FabricPath}
    (h : t.hardFilter policy p = true) :
    ∀ sw ∈ p.switchSequence, ∃ rec, t.switches.find? sw = some rec ∧ currentState rec.state = true := by
  intro sw hsw
  simp only [FabricTopology.hardFilter, Bool.and_eq_true, List.all_eq_true] at h
  have hcur := h.1.1.1.1 sw hsw
  unfold FabricTopology.switchCurrent FabricTopology.lookupSwitch at hcur
  cases hf : t.switches.find? sw with
  | none => rw [hf] at hcur; exact absurd hcur (by simp)
  | some rec => rw [hf] at hcur; exact ⟨rec, rfl, hcur⟩

theorem hardFilter_ports {t : FabricTopology} {policy : RoutePolicy} {p : FabricPath}
    (h : t.hardFilter policy p = true) :
    ∀ pid ∈ p.knownPorts, ∃ rec, t.ports.find? pid = some rec ∧
      rec.state.isStaleOrRevalidation = false := by
  have hfresh : ∀ pid, t.portFresh pid = true →
      ∃ rec, t.ports.find? pid = some rec ∧ rec.state.isStaleOrRevalidation = false := by
    intro pid hpid
    unfold FabricTopology.portFresh FabricTopology.lookupPort at hpid
    cases hf : t.ports.find? pid with
    | none => rw [hf] at hpid; exact absurd hpid (by simp)
    | some rec => rw [hf] at hpid; exact ⟨rec, rfl, by simpa using hpid⟩
  intro pid hpid
  simp only [FabricTopology.hardFilter, Bool.and_eq_true, Bool.or_eq_true, List.all_eq_true] at h
  obtain ⟨hop, hhop, hin⟩ := List.mem_flatMap.mp hpid
  obtain ⟨hinPort, houtPort⟩ := h.1.1.1.2 hop hhop
  rcases List.mem_append.mp hin with hin | hout
  · split at hin
    · exact absurd hin (by simp)
    · next hknown =>
      obtain rfl := List.mem_singleton.mp hin
      exact hfresh _ (hinPort.resolve_left hknown)
  · obtain rfl := List.mem_singleton.mp hout
    exact hfresh _ houtPort

/-- What is read off the records of some keys. -/
theorem mem_filterMap_find? {κ α γ : Type} [LinearOrder κ] {m : SortedMap κ α} {gen : α → γ} {ks : List κ} {k : κ} {g : γ} :
    (k, g) ∈ (ks.filterMap fun k => (m.find? k).map fun rec => (k, gen rec)) ↔
      k ∈ ks ∧ ∃ rec, m.find? k = some rec ∧ gen rec = g := by
  rw [List.mem_filterMap]
  constructor
  · rintro ⟨x, hx, heq⟩
    obtain ⟨rec, hrec, hpair⟩ := Option.map_eq_some_iff.mp heq
    obtain ⟨rfl, rfl⟩ := Prod.mk.inj hpair
    exact ⟨hx, rec, hrec, rfl⟩
  · rintro ⟨hk, rec, hrec, rfl⟩
    exact ⟨k, hk, by rw [hrec]; rfl⟩

/-- The captured switches are those of the path, each at its generation. -/
theorem mem_captureSwitchGens {t : FabricTopology} {p : FabricPath} {sw : SwitchId}
    {g : SwitchGeneration} :
    (sw, g) ∈ t.captureSwitchGens p ↔
      sw ∈ p.switchSequence ∧ ∃ rec, t.switches.find? sw = some rec ∧ rec.gen = g :=
  mem_filterMap_find?

theorem mem_capturePortGens {t : FabricTopology} {p : FabricPath} {pid : PortId} {g : PortGeneration} :
    (pid, g) ∈ t.capturePortGens p ↔
      pid ∈ p.knownPorts ∧ ∃ rec, t.ports.find? pid = some rec ∧ rec.gen = g :=
  mem_filterMap_find?

/-- **The recorded partition is the one the gate found**: stored under its own id, in service, joining the pair. -/
theorem Issued.recorded_partition {d : RouteDecision} {t : FabricTopology} {src dst : DeviceId}
    {policy : RoutePolicy} {epoch : CoordinatorEpoch} {best : FabricPath} (hkeyed : t.Keyed)
    (hd : Issued d t src dst policy epoch best) (hknown : d.partitionKnown = true) :
    ∃ part, t.partitions.find? d.partition = some part ∧ part.inService = true ∧ part.gen = d.partitionGen ∧
      part.joins src dst = true := by
  have hpart := hd.partition
  cases hgate : t.gatePartition src dst with
  | none =>
    rw [hgate] at hpart
    exact absurd (hpart.symm.trans hknown) (by simp)
  | some part =>
    rw [hgate] at hpart
    obtain ⟨_, hid, hgen⟩ := hpart
    obtain ⟨⟨k, hk⟩, hservice, hjoins⟩ := FabricTopology.gatePartition_eq_some hgate
    have hkey : part.id = k := hkeyed.partitions hk
    exact ⟨part, by rw [hid, hkey]; exact hk, hservice, hgen.symm, hjoins⟩

/-- **What a grant needs to pass the re-check later.** Endpoints and partition pass on any snapshot with the devices
    and partitions it was made on; of the epoch, the switches and the ports it has to be asked. -/
theorem Granted.rechecked {d : RouteDecision} {t t' : FabricTopology} {src dst : DeviceId} {policy : RoutePolicy}
    {measurements : List Measurement} {epoch : CoordinatorEpoch} {best : FabricPath} (hkeyed : t.Keyed)
    (hgrant : Granted t src dst policy measurements best) (hd : Issued d t src dst policy epoch best)
    (hepoch : t'.epoch = epoch) (hdev : t'.devices = t.devices) (hpart : t'.partitions = t.partitions)
    (hsw : ∀ sw ∈ best.switchSequence, ∀ rec, t.switches.find? sw = some rec →
      switchHolds t' (sw, rec.gen) = true)
    (hport : ∀ pid ∈ best.knownPorts, ∀ rec, t.ports.find? pid = some rec → portHolds t' (pid, rec.gen) = true) :
    Rechecked d t' := by
  obtain ⟨p, hp, _, rfl⟩ := hgrant.enumerated
  obtain ⟨hsrc, hdst⟩ := FabricTopology.endpoints_of_enumerated hp
  refine ⟨hd.allowed, hd.epoch.trans hepoch.symm, ?_, ?_, ?_, ?_, ?_⟩
  · apply endpointHolds_iff.mpr
    rw [hd.source, hdev]
    exact hsrc
  · apply endpointHolds_iff.mpr
    rw [hd.destination, hdev]
    exact hdst
  · intro hknown
    obtain ⟨part, hrec, hservice, hgen, _⟩ := hd.recorded_partition hkeyed hknown
    apply partitionHolds_iff.mpr
    rw [hpart]
    exact ⟨part, hrec, hservice, hgen⟩
  · rintro q hq ⟨sw, g⟩ hsg
    obtain rfl := Option.some.inj (hd.selected.symm.trans hq)
    obtain ⟨hin, rec, hrec, rfl⟩ := mem_captureSwitchGens.mp hsg
    exact hsw sw hin rec hrec
  · rintro q hq ⟨pid, g⟩ hpg
    obtain rfl := Option.some.inj (hd.selected.symm.trans hq)
    obtain ⟨hin, rec, hrec, rfl⟩ := mem_capturePortGens.mp hpg
    exact hport pid hin rec hrec

/-- **Where issue and re-check part.** A grant passes the re-check on the snapshot it was made on exactly when it
    carries the snapshot's epoch and its path is clean. -/
theorem recheck_of_granted {d : RouteDecision} {t : FabricTopology} {src dst : DeviceId}
    {policy : RoutePolicy} {measurements : List Measurement} {epoch : CoordinatorEpoch} {best : FabricPath}
    (hkeyed : t.Keyed) (hgrant : Granted t src dst policy measurements best)
    (hd : Issued d t src dst policy epoch best) :
    Rechecked d t ↔ t.epoch = epoch ∧ best.Clean t := by
  constructor
  · obtain ⟨p, hp, hfilter, rfl⟩ := hgrant.enumerated
    intro h
    refine ⟨h.epoch.symm.trans hd.epoch, ?_, ?_⟩
    · intro sw hsw
      obtain ⟨rec, hrec, _⟩ := hardFilter_switches hfilter sw hsw
      -- the decision recorded the generation the switch had, so the re-check looked at it
      have hholds := h.switches _ hd.selected (sw, rec.gen)
        (mem_captureSwitchGens.mpr ⟨hsw, rec, hrec, rfl⟩)
      obtain ⟨rec', hrec', husable, _⟩ := switchHolds_iff.mp hholds
      exact ⟨rec', hrec', husable⟩
    · intro pid hpid
      obtain ⟨rec, hrec, _⟩ := hardFilter_ports hfilter pid hpid
      have hholds := h.ports _ hd.selected (pid, rec.gen)
        (mem_capturePortGens.mpr ⟨hpid, rec, hrec, rfl⟩)
      obtain ⟨rec', hrec', husable, _⟩ := portHolds_iff.mp hholds
      exact ⟨rec', hrec', husable⟩
  · rintro ⟨hepoch, hclean⟩
    refine hgrant.rechecked hkeyed hd hepoch rfl rfl ?_ ?_
    · intro sw hsw rec hrec
      obtain ⟨rec', hrec', husable⟩ := hclean.switches sw hsw
      obtain rfl := Option.some.inj (hrec.symm.trans hrec')
      exact switchHolds_iff.mpr ⟨rec, hrec, husable, rfl⟩
    · intro pid hpid rec hrec
      obtain ⟨rec', hrec', husable⟩ := hclean.ports pid hpid
      obtain rfl := Option.some.inj (hrec.symm.trans hrec')
      exact portHolds_iff.mpr ⟨rec, hrec, husable, rfl⟩

namespace FabricRegistry

end FabricRegistry

end NVSwitchFabric
