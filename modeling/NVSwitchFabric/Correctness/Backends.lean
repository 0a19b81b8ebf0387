import NVSwitchFabric.Correctness.Authority
import NVSwitchFabric.Correctness.PathSound
import NVSwitchFabric.Correctness.RecordInvariant
import NVSwitchFabric.Correctness.Tainted
import NVSwitchFabric.Lib.Run
import NVSwitchFabric.Model.Backend

/-!
# `Correctness.Backends` — what backends report stays what it is

A record says where it comes from, and no operation changes that. So as long as all records come from backends, however
they are bound, scanned and shut down in between, each is the fixture of a synthetic backend or a device that NVML answered
for. NVML reports no switch, and every path crosses one. Hence every path that is granted is marked as synthetic, and
where no synthetic backend has been bound, none is granted (`backends_honest`).
-/

namespace NVSwitchFabric

open Lib

/-! ## Records of a backend -/

/-- The record is that of a fixture. -/
def Origin.Fixture (o : Origin) : Prop := o.provenance = .synthetic ∧ o.source = .syntheticFixture

/-- The record is that of a device on hardware, which is not said to be attached to a switch. -/
structure DeviceRecord.OnHardware (rec : DeviceRecord) : Prop where
  provenance : rec.provenance = .real
  source     : rec.source = .nvml
  vendor     : rec.vendor = ascii "NVIDIA"
  detached   : rec.attachedSwitchKnown = false

/-- What backends report: devices on hardware and, if `fixtures`, records of fixtures. -/
def reported (fixtures : Prop) : RecordInvariant where
  device rec := fixtures ∧ rec.Fixture ∨ rec.OnHardware
  switch rec := fixtures ∧ rec.Fixture
  port rec := fixtures ∧ rec.Fixture
  link rec := fixtures ∧ rec.Fixture
  partition rec := fixtures ∧ rec.Fixture
  device_update := fun _ h => h.imp id fun h => ⟨h.provenance, h.source, h.vendor, h.detached⟩
  switch_update := fun _ _ _ h => h
  port_update := fun _ _ h => h
  link_update := fun _ _ _ h => h
  partition_update := fun _ _ h => h

/-- **Every record of a scenario is a fixture.** -/
theorem buildSyntheticScan_fixtures (type : ScenarioType) :
    (∀ r ∈ (buildSyntheticScan type).devices, r.Fixture) ∧ (∀ r ∈ (buildSyntheticScan type).switches, r.Fixture) ∧
      (∀ r ∈ (buildSyntheticScan type).ports, r.Fixture) ∧ (∀ r ∈ (buildSyntheticScan type).links, r.Fixture) ∧
      ∀ r ∈ (buildSyntheticScan type).partitions, r.Fixture := by
  unfold Origin.Fixture
  cases type <;> decide +kernel

/-- What a fallible map makes of a list, it makes of its elements. -/
theorem mem_of_mapM_eq_ok {ε α β : Type} {f : α → Except ε β} {as : List α} {bs : List β} (h : as.mapM f = .ok bs) :
    ∀ b ∈ bs, ∃ a ∈ as, f a = .ok b := by
  induction as generalizing bs with
  | nil =>
    obtain rfl := Except.ok.inj h
    exact fun b hb => absurd hb List.not_mem_nil
  | cons a as ih =>
    rw [List.mapM_cons] at h
    cases hfirst : f a with
    | error e =>
      rw [hfirst] at h
      nomatch h
    | ok first =>
      cases hrest : as.mapM f with
      | error e =>
        rw [hfirst, hrest] at h
        nomatch h
      | ok rest =>
        rw [hfirst, hrest] at h
        obtain rfl := Except.ok.inj h
        intro b hb
        rcases List.mem_cons.mp hb with rfl | hb
        · exact ⟨a, List.mem_cons_self, hfirst⟩
        · obtain ⟨a', ha', hb'⟩ := ih hrest b hb
          exact ⟨a', List.mem_cons_of_mem a ha', hb'⟩

/-- A scan of NVML has devices on hardware and nothing else, whatever NVML answers. -/
theorem NvidiaBackend.scan_reported {fixtures : Prop} {nvml : Option Nvml} {b : NvidiaBackend} {scan : Scan}
    (h : b.scan nvml = .ok scan) : (reported fixtures).Given (.applyBulk scan) := by
  unfold NvidiaBackend.scan at h
  cases nvml with
  | none => nomatch h
  | some nvml =>
    dsimp only at h
    rw [check_eq_ok_iff] at h
    obtain ⟨_, h⟩ := h
    generalize hdevices : (List.range b.deviceCount.toNat).mapM (m := Except Error) _ = found at h
    cases found with
    | error e => nomatch h
    | ok devices =>
      obtain rfl := Except.ok.inj h
      refine ⟨?_, fun _ h => absurd h List.not_mem_nil, fun _ h => absurd h List.not_mem_nil,
        fun _ h => absurd h List.not_mem_nil, fun _ h => absurd h List.not_mem_nil⟩
      intro rec hrec
      obtain ⟨i, _, hi⟩ := mem_of_mapM_eq_ok hdevices rec hrec
      cases hdev : nvml.handle i with
      | none =>
        rw [hdev] at hi
        nomatch hi
      | some dev =>
        rw [hdev] at hi
        obtain rfl := Except.ok.inj hi
        exact Or.inr ⟨rfl, rfl, rfl, rfl⟩

/-- The backend is synthetic only if `fixtures`. -/
def Backend.Kind (fixtures : Prop) : Backend → Prop
  | .synthetic _ => fixtures
  | .nvidia _    => True

theorem Backend.scan_reported {fixtures : Prop} {nvml : Option Nvml} {backend : Backend} {scan : Scan}
    (hkind : backend.Kind fixtures) (h : backend.scan nvml = .ok scan) : (reported fixtures).Given (.applyBulk scan) := by
  cases backend with
  | nvidia b => exact b.scan_reported h
  | synthetic b =>
    obtain rfl := Except.ok.inj h
    rcases b.loaded with hscan | hscan
    · rw [hscan]
      exact ⟨by simp, by simp, by simp, by simp, by simp⟩
    · rw [hscan]
      obtain ⟨hdevices, hswitches, hports, hlinks, hpartitions⟩ := buildSyntheticScan_fixtures b.type
      exact ⟨fun r hr => Or.inl ⟨hkind, hdevices r hr⟩, fun r hr => ⟨hkind, hswitches r hr⟩,
        fun r hr => ⟨hkind, hports r hr⟩, fun r hr => ⟨hkind, hlinks r hr⟩, fun r hr => ⟨hkind, hpartitions r hr⟩⟩

/-! ## Runs -/

/-- The operation is given no record. -/
def RegistryOp.recordless : RegistryOp → Bool
  | .addDevice _ | .addSwitch _ | .addPort _ | .addLink _ | .publishPartition _ | .applyBulk _ => false
  | _ => true

theorem RegistryOp.given_of_recordless {I : RecordInvariant} {op : RegistryOp} (h : op.recordless = true) : I.Given op := by
  cases op with
  | addDevice _ | addSwitch _ | addPort _ | addLink _ | publishPartition _ | applyBulk _ => nomatch h
  | _ => trivial

/-- The provenance of the snapshot is that of its records. -/
def FabricTopology.Finalized (t : FabricTopology) : Prop := t.provenance = (finalizeProvenance t).provenance

theorem finalized_exec {r : FabricRegistry} (op : RegistryOp) (h : r.current.Finalized) : (r.exec op).current.Finalized := by
  rcases exec_edited r op with heq | ⟨cand, _, heq, _⟩
  · rwa [heq]
  · rw [heq]
    exact (rfl : (finalizeProvenance cand).provenance = _)

namespace BoundRegistry

/-- What is done leaves records to the backend, and the backend is synthetic only if `fixtures`. -/
def Leaves (fixtures : Prop) : Act → Prop
  | .bind (some backend) => backend.Kind fixtures
  | .exec op             => op.recordless = true
  | _                    => True

/-- The registry holds what backends reported. -/
structure Honest (fixtures : Prop) (b : BoundRegistry) : Prop where
  reachable : b.registry.Reachable
  records   : (reported fixtures).Holds b.registry.current
  finalized : b.registry.current.Finalized
  backend   : ∀ backend, b.backend = some backend → backend.Kind fixtures

variable {fixtures : Prop} {b : BoundRegistry}

theorem Honest.exec {op : RegistryOp} (h : Honest fixtures b) (hop : (reported fixtures).Given op) :
    Honest fixtures { b with registry := b.registry.exec op } where
  reachable := h.reachable.exec op
  records := FabricRegistry.exec_holds h.records fun _ => hop.supplied
  finalized := finalized_exec op h.finalized
  backend := h.backend

/-- A scan that goes through is a bulk edit of what the backend reports; any other leaves the registry alone. -/
theorem scanBackend_cases (nvml : Option Nvml) (b : BoundRegistry) : (b.scanBackend nvml).2 = b ∨
    ∃ backend scan, b.backend = some backend ∧ backend.scan nvml = .ok scan ∧
      (b.scanBackend nvml).2 = { b with registry := b.registry.exec (.applyBulk scan) } := by
  unfold scanBackend
  cases hb : b.backend with
  | none => exact Or.inl rfl
  | some backend =>
    dsimp only
    by_cases hsupported : (backend.capabilities nvml.isSome).provenance = .unsupported
    · rw [if_pos hsupported]
      exact Or.inl rfl
    · rw [if_neg hsupported]
      cases hscan : backend.scan nvml with
      | error e => exact Or.inl rfl
      | ok scan =>
        refine Or.inr ⟨backend, scan, rfl, hscan, ?_⟩
        have hexec : b.registry.exec (.applyBulk scan) = (b.registry.applyBackendScan scan).2 := rfl
        rw [hexec, ← hb]
        dsimp only
        rcases b.registry.applyBackendScan scan with ⟨_ | _, registry⟩
        · rfl
        · rfl

/-- A step keeps the registry to what backends report. -/
theorem Honest.step {act : Act} (h : Honest fixtures b) (hact : Leaves fixtures act) : Honest fixtures (b.step act) := by
  cases act with
  | exec op => exact h.exec (RegistryOp.given_of_recordless hact)
  | scan nvml =>
    rcases scanBackend_cases nvml b with hkeep | ⟨backend, scan, hb, hscan, hnext⟩
    · exact (congrArg (Honest fixtures) hkeep).mpr h
    · exact (congrArg (Honest fixtures) hnext).mpr (h.exec (Backend.scan_reported (h.backend backend hb) hscan))
  | bind backend =>
    cases backend with
    | none => exact h
    | some backend => exact { h with backend := fun _ heq => Option.some.inj heq ▸ hact }
  | init nvml =>
    refine { h with backend := ?_ }
    intro backend heq
    obtain ⟨before, hbefore, rfl⟩ := Option.map_eq_some_iff.mp heq
    cases before with
    | synthetic s => exact h.backend (.synthetic s) hbefore
    | nvidia n => trivial
  | shutdown compiled =>
    refine { h with backend := ?_ }
    intro backend heq
    obtain ⟨before, hbefore, rfl⟩ := Option.map_eq_some_iff.mp heq
    cases before with
    | synthetic s => exact h.backend (.synthetic s) hbefore
    | nvidia n => trivial

theorem honest_run (acts : List Act) (hacts : ∀ act ∈ acts, Leaves fixtures act) :
    Honest fixtures (runAll step {} acts) := by
  have hstart : Honest fixtures {} := ⟨⟨.new, Or.inl rfl, .refl⟩,
    (⟨.empty, .empty, .empty, .empty, .empty⟩ : (reported fixtures).Holds FabricRegistry.new.current),
    rfl, fun _ h => nomatch h⟩
  exact List.foldlRecOn acts step hstart fun b h act hact => h.step (hacts act hact)

/-! ## What is routed -/

/-- A snapshot whose switches, ports, links and partitions are fixtures marks each of its paths as synthetic. -/
theorem provenance_of_enumerated {t : FabricTopology} {src dst : DeviceId} {cfg : TraversalConfig} {p : FabricPath}
    (hrec : (reported fixtures).Holds t) (hfinal : t.Finalized) (hkeyed : t.Keyed) (h : p ∈ t.enumeratePaths src dst cfg) :
    fixtures ∧ p.provenance = .synthetic := by
  have hfound := FabricTopology.enumeratePaths_found h
  have hlink := hfound.links_usable hkeyed
  cases hfound with
  | @finish q es e known here edge usable toDevice atDst =>
    obtain ⟨l, hl, _⟩ := hlink e.link (List.mem_append_right _ List.mem_cons_self)
    have hfixture := hrec.links hl
    refine ⟨hfixture.1, ?_⟩
    show t.provenance = .synthetic
    have hsyn : t.hasProvenance .synthetic = true := by
      by_contra hnone
      have hwithout := hasProvenance_eq_false_iff.mp (Bool.eq_false_iff.mpr hnone)
      exact absurd hfixture.2.1 (of_decide_eq_false (hwithout.links hl))
    rw [hfinal]
    exact if_pos hsyn

theorem Honest.route {src dst : DeviceId} {policy : RoutePolicy} {now : UInt64} {p : FabricPath} (h : Honest fixtures b)
    (hp : (b.registry.route src dst policy now).1.selected = some p) : fixtures ∧ p.provenance = .synthetic := by
  by_cases hgranted : ∃ best, Granted b.registry.current src dst policy b.registry.measurements best
  · obtain ⟨best, hbest⟩ := hgranted
    obtain rfl := Option.some.inj (hp.symm.trans (FabricRegistry.route_issued now hbest).selected)
    obtain ⟨q, hq, _, rfl⟩ := hbest.enumerated
    have hsyn := provenance_of_enumerated h.records h.finalized h.reachable.wellFormed.keyed hq
    exact hsyn
  · have hnone := (FabricRegistry.route_refused now fun best hbest => hgranted ⟨best, hbest⟩).selected
    rw [hnone] at hp
    nomatch hp

/-- **Backends do not make anything up.** Bind backends to a fresh registry, scan them, and change the registry in any way
    that gives it no record, in any order and whatever NVML answers. Then a device that is marked as real is one that NVML
    answered for, and it is not said to be attached to a switch; every switch, port, link and partition is marked as
    synthetic, and so is every path that is granted. Where no synthetic backend was bound, there are none. -/
theorem backends_honest (acts : List Act) (hacts : ∀ op, Act.exec op ∈ acts → op.recordless = true) :
    let r := (runAll step {} acts).registry
    let fixtures := ∃ s, Act.bind (some (.synthetic s)) ∈ acts
    r.current.devices.All (fun rec => rec.provenance = .real → rec.OnHardware) ∧
      r.current.switches.All (fun rec => fixtures ∧ rec.provenance = .synthetic) ∧
      r.current.ports.All (fun rec => fixtures ∧ rec.provenance = .synthetic) ∧
      r.current.links.All (fun rec => fixtures ∧ rec.provenance = .synthetic) ∧
      r.current.partitions.All (fun rec => fixtures ∧ rec.provenance = .synthetic) ∧
      ∀ src dst policy now p, (r.route src dst policy now).1.selected = some p → fixtures ∧ p.provenance = .synthetic := by
  intro r fixtures
  have hleaves : ∀ act ∈ acts, Leaves fixtures act := by
    intro act hact
    match act with
    | .bind (some (.synthetic s)) => exact ⟨s, hact⟩
    | .exec op => exact hacts op hact
    | .bind none | .bind (some (.nvidia _)) | .init _ | .shutdown _ | .scan _ => trivial
  have h := honest_run acts hleaves
  refine ⟨?_, fun _ _ hr => ?_, fun _ _ hr => ?_, fun _ _ hr => ?_, fun _ _ hr => ?_, fun _ _ _ _ _ hp => h.route hp⟩
  · intro id rec hrec hreal
    rcases h.records.devices hrec with ⟨_, hfixture⟩ | hdevice
    · exact absurd (hreal.symm.trans hfixture.1) (by decide)
    · exact hdevice
  · exact ⟨(h.records.switches hr).1, (h.records.switches hr).2.1⟩
  · exact ⟨(h.records.ports hr).1, (h.records.ports hr).2.1⟩
  · exact ⟨(h.records.links hr).1, (h.records.links hr).2.1⟩
  · exact ⟨(h.records.partitions hr).1, (h.records.partitions hr).2.1⟩

/-- A machine with two devices. -/
def twoDevices : Nvml where
  nvmlInit := .ok ()
  count := some 2
  handle i := if i < 2 then some { computeCapability := some (12, 0) } else none

/-- It is scanned; evidence expires, and it is scanned again. -/
def scannedTwice : List Act :=
  [.bind (some (.nvidia {})), .init (some twoDevices), .scan (some twoDevices), .exec .expireDynamicEvidence,
    .scan (some twoDevices)]

theorem backends_honest_scannedTwice :
    (runAll step {} scannedTwice).registry.current.devices.size = 2 ∧
      ∀ src dst policy now p, ((runAll step {} scannedTwice).registry.route src dst policy now).1.selected ≠ some p := by
  have h := backends_honest scannedTwice (by
    intro op hop
    simp only [scannedTwice, List.mem_cons, Act.exec.injEq, reduceCtorEq, List.not_mem_nil, false_or, or_false] at hop
    rw [hop]
    rfl)
  refine ⟨by decide +kernel, ?_⟩
  intro src dst policy now p hp
  obtain ⟨s, hs⟩ := (h.2.2.2.2.2 src dst policy now p hp).1
  simp [scannedTwice] at hs

end BoundRegistry

end NVSwitchFabric
