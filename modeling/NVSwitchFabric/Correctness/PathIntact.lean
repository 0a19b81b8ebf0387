import NVSwitchFabric.Correctness.Authority

/-!
# `Correctness.PathIntact` — whether an authoritative route can still be used

The re-check reads the state of endpoints, switches and ports and nothing else: not the links of the path, and not
whether an endpoint is still marked present. `RouteIntact` is what a holder of an authoritative decision relies on,
and `KeepsPath` names the operations that the re-check cannot see: those that take a link of the path out of
service and leave every lease standing, those that bring a lost lease or endpoint back, and those that overwrite an
endpoint with a record not marked present.

Along runs without such operations a decision is `Standing` (its links are in service, its endpoints present,
its leases stand) or `Lost` for good; `route_intact` follows.
-/

namespace NVSwitchFabric

open Lib

/-! ## What the holder of a decision relies on -/

/-- The device exists and is marked present. -/
def FabricTopology.DevicePresent (t : FabricTopology) (id : DeviceId) : Prop :=
  ∃ rec, t.devices.find? id = some rec ∧ rec.present = true

/-- Every switch, known port and link of the selected path is up or degraded, and both endpoints are present. -/
structure RouteIntact (t : FabricTopology) (d : RouteDecision) : Prop where
  path        : ∃ p, d.selected = some p ∧ p.Clean t ∧ ∀ l ∈ p.links, t.LinkUsable l
  source      : t.DevicePresent d.source
  destination : t.DevicePresent d.destination

/-- The link is on the selected path. -/
def RouteDecision.Uses (d : RouteDecision) (l : LinkId) : Prop := ∃ p, d.selected = some p ∧ l ∈ p.links

/-- The device is an endpoint of the decision. -/
def RouteDecision.EndsAt (d : RouteDecision) (id : DeviceId) : Prop := id = d.source ∨ id = d.destination

/-! ## What operations do to links -/

/-- The operation takes link `l` out of service: it deletes its record, or leaves it neither up nor degraded. -/
def RegistryOp.TakesDown (t : FabricTopology) (l : LinkId) : RegistryOp → Prop
  | .removeLink id            => id = l
  | .setLinkState id state _  => id = l ∧ usableState state = false
  | .removeDevice id          => ∃ rec, t.links.find? l = some rec ∧ rec.endsAt id = true
  | .removeSwitch id          => ∃ rec, t.links.find? l = some rec ∧ rec.touches id = true
  | .removePort id            => ∃ rec, t.links.find? l = some rec ∧ rec.port = id
  | .invalidateForWorker w b  => ∃ rec, t.links.find? l = some rec ∧ rec.attributedTo w b = true
  | .expireDynamicEvidence    => ∃ rec, t.links.find? l = some rec ∧ rec.isDynamic = true
  | .applyBulk e              => ∃ rec, e.link? l = some rec ∧ usableState rec.state = false
  | _                         => False

/-- A link is usable after reports that name it iff it was before, or one of them is of degradation. -/
theorem usable_foldl_merge_iff (lds : List LinkDegradation) (rec : LinkRecord) :
    usableState (lds.foldl (fun rec ld => rec.merge ld.degraded) rec).state = true ↔
      usableState rec.state = true ∨ ∃ ld ∈ lds, ld.degraded = true := by
  induction lds generalizing rec with
  | nil => simp
  | cons ld lds ih =>
    rw [List.foldl_cons, ih]
    cases hdeg : ld.degraded with
    | false =>
      show usableState rec.state = true ∨ _ ↔ _
      simp [hdeg]
    | true =>
      have hmerged : usableState (rec.merge true).state = true := rfl
      simp [hmerged, hdeg]

theorem linkUsable_foldl_mergeDegradation (lds : List LinkDegradation) {m : SortedMap LinkId LinkRecord}
    {l : LinkId} (h : ∃ rec, m.find? l = some rec ∧ usableState rec.state = true) :
    ∃ rec, (lds.foldl Edit.mergeDegradation m).find? l = some rec ∧ usableState rec.state = true := by
  obtain ⟨rec, hrec, husable⟩ := h
  rw [find?_foldl_mergeDegradation, hrec]
  exact ⟨_, rfl, (usable_foldl_merge_iff _ rec).mpr (Or.inl husable)⟩

/-- **A link in service stays in service**, unless the operation takes it down. -/
theorem Edited.linkUsable {t cand : FabricTopology} {op : RegistryOp} {l : LinkId} (h : Edited t op cand)
    (hl : t.LinkUsable l) (hno : ¬ op.TakesDown t l) : cand.LinkUsable l := by
  obtain ⟨rec, hrec, husable⟩ := hl
  cases h with
  -- a removal takes the links attached to what goes, and `TakesDown` says that this one is not
  | removeDevice =>
    refine ⟨rec, SortedMap.find?_filter_eq_some.mpr ⟨hrec, ?_⟩, husable⟩
    rw [Bool.not_eq_true', Bool.eq_false_iff]
    exact fun hends => hno ⟨rec, hrec, hends⟩
  | removeSwitch =>
    refine ⟨rec, SortedMap.find?_filter_eq_some.mpr ⟨hrec, ?_⟩, husable⟩
    rw [Bool.not_eq_true', Bool.eq_false_iff]
    exact fun htouches => hno ⟨rec, hrec, htouches⟩
  | removePort =>
    refine ⟨rec, SortedMap.find?_filter_eq_some.mpr ⟨hrec, ?_⟩, husable⟩
    rw [decide_eq_true_iff]
    exact fun hport => hno ⟨rec, hrec, hport⟩
  | @addLink new fresh =>
    exact ⟨rec, (SortedMap.find?_insert_ne _ _ (SortedMap.ne_of_find? fresh hrec).symm).trans hrec, husable⟩
  | @removeLink id =>
    exact ⟨rec, SortedMap.find?_erase_eq_some.mpr ⟨hrec, fun heq => hno heq.symm⟩, husable⟩
  | @setLinkState id state degraded old known =>
    by_cases heq : l = id
    · subst heq
      refine ⟨old.enter state degraded, SortedMap.find?_insert_self _ _ _, ?_⟩
      by_contra hdown
      exact hno ⟨rfl, Bool.eq_false_iff.mpr hdown⟩
    · exact ⟨rec, (SortedMap.find?_insert_ne _ _ heq).trans hrec, husable⟩
  | publishCongestion => exact linkUsable_foldl_mergeDegradation _ ⟨rec, hrec, husable⟩
  | @invalidateForWorker w b =>
    refine ⟨rec, ?_, husable⟩
    show (t.links.mapVals (LinkRecord.fence w b)).find? l = some rec
    rw [SortedMap.find?_mapVals, hrec, Option.map_some, LinkRecord.fence, if_neg]
    exact fun hattr => hno ⟨rec, hrec, hattr⟩
  | expireDynamicEvidence =>
    refine ⟨rec, ?_, husable⟩
    show (t.links.mapVals LinkRecord.expire).find? l = some rec
    rw [SortedMap.find?_mapVals, hrec, Option.map_some, LinkRecord.expire, if_neg]
    exact fun hdyn => hno ⟨rec, hrec, hdyn⟩
  | revalidateAll =>
    refine ⟨rec.revalidate, ?_, ?_⟩
    · show (t.links.mapVals LinkRecord.revalidate).find? l = some rec.revalidate
      rw [SortedMap.find?_mapVals, hrec, Option.map_some]
    · unfold LinkRecord.revalidate
      split
      · rfl
      · exact husable
  | @applyBulk e =>
    cases hnew : e.link? l with
    | none =>
      refine ⟨rec, ?_, husable⟩
      show (t.links.insertAll (·.id) e.links).find? l = some rec
      rw [SortedMap.find?_insertAll, show e.links.reverse.find? (fun r => r.id = l) = none from hnew,
        Option.none_or, hrec]
    | some new =>
      refine ⟨new, ?_, ?_⟩
      · show (t.links.insertAll (·.id) e.links).find? l = some new
        rw [SortedMap.find?_insertAll, show e.links.reverse.find? (fun r => r.id = l) = some new from hnew,
          Option.some_or]
      · by_contra hdown
        exact hno ⟨new, hnew, Bool.eq_false_iff.mpr hdown⟩
  | _ => exact ⟨rec, hrec, husable⟩

/-! ## What operations do to endpoints -/

/-- A present device stays present or goes, unless the operation supplies a record for it that is not. -/
theorem Edited.devicePresent {t cand : FabricTopology} {op : RegistryOp} {id : DeviceId}
    (h : Edited t op cand) (hid : t.DevicePresent id)
    (hnew : ∀ rec, op.newDevice? id = some rec → rec.present = true) :
    cand.DevicePresent id ∨ cand.devices.find? id = none := by
  obtain ⟨rec, hrec, hpresent⟩ := hid
  cases h with
  | @addDevice new fresh =>
    exact Or.inl ⟨rec, (SortedMap.find?_insert_ne _ _ (SortedMap.ne_of_find? fresh hrec).symm).trans hrec,
      hpresent⟩
  | @removeDevice gone =>
    by_cases heq : id = gone
    · exact Or.inr (by simp [SortedMap.find?_erase, heq])
    · exact Or.inl ⟨rec, SortedMap.find?_erase_eq_some.mpr ⟨hrec, heq⟩, hpresent⟩
  | @invalidateForWorker w b =>
    refine Or.inl ⟨rec.fence w b, ?_, ?_⟩
    · show (t.devices.mapVals (DeviceRecord.fence w b)).find? id = _
      rw [SortedMap.find?_mapVals, hrec, Option.map_some]
    · unfold DeviceRecord.fence
      split <;> exact hpresent
  | expireDynamicEvidence =>
    refine Or.inl ⟨rec.expire, ?_, ?_⟩
    · show (t.devices.mapVals DeviceRecord.expire).find? id = _
      rw [SortedMap.find?_mapVals, hrec, Option.map_some]
    · unfold DeviceRecord.expire
      split <;> exact hpresent
  | revalidateAll =>
    refine Or.inl ⟨rec.revalidate, ?_, ?_⟩
    · show (t.devices.mapVals DeviceRecord.revalidate).find? id = _
      rw [SortedMap.find?_mapVals, hrec, Option.map_some]
    · unfold DeviceRecord.revalidate
      split <;> exact hpresent
  | @applyBulk e =>
    have hlookup : (t.devices.insertAll (·.id) e.devices).find? id = (e.device? id).or (t.devices.find? id) :=
      SortedMap.find?_insertAll _ _ _ _
    cases hdev : e.device? id with
    | none => exact Or.inl ⟨rec, by rw [hlookup, hdev, Option.none_or, hrec], hpresent⟩
    | some new => exact Or.inl ⟨new, by rw [hlookup, hdev, Option.some_or], hnew new hdev⟩
  | _ => exact Or.inl ⟨rec, hrec, hpresent⟩

/-! ## What operations the re-check notices -/

/-- The lease is on a record of incarnation `(w, b)`. -/
def Lease.AttributedTo (t : FabricTopology) (w : WorkerId) (b : WorkerBootId) : Lease → Prop
  | .switch id _    => ∃ rec, t.switches.find? id = some rec ∧ rec.attributedTo w b = true
  | .port id _      => ∃ rec, t.ports.find? id = some rec ∧ rec.attributedTo w b = true
  | .partition id _ => ∃ rec, t.partitions.find? id = some rec ∧ rec.attributedTo w b = true

/-- The lease is on the switch or on one of its ports. -/
def Lease.On (sw : SwitchId) : Lease → Prop
  | .switch id _    => id = sw
  | .port id _      => id.sw = sw
  | .partition _ _  => False

/-- The operation takes away an endpoint of `d`, or an entity that `d` holds a lease on. -/
def RegistryOp.Revokes (t : FabricTopology) (d : RouteDecision) : RegistryOp → Prop
  | .removeDevice id         => d.EndsAt id
  | .removeSwitch id         => ∃ l, d.Holds l ∧ l.On id
  | .removePort id           => ∃ g, d.Holds (.port id g)
  | .invalidateForWorker w b => ∃ l, d.Holds l ∧ l.AttributedTo t w b
  | _                        => False

/-- A lease is superseded, or an endpoint is gone. -/
def Lost (d : RouteDecision) (t : FabricTopology) : Prop :=
  (∃ l, d.Holds l ∧ l.Superseded t) ∨ ∃ id, d.EndsAt id ∧ t.devices.find? id = none

theorem Lost.not_rechecked {d : RouteDecision} {t : FabricTopology} (h : Lost d t) : ¬ Rechecked d t := by
  intro hre
  rcases h with ⟨l, hl, hsup⟩ | ⟨id, hid, hgone⟩
  · exact hsup.not_stands (hre.stands hl)
  · have hholds : endpointHolds t id = true := by
      rcases hid with rfl | rfl
      · exact hre.source
      · exact hre.destination
    obtain ⟨rec, hrec, _⟩ := endpointHolds_iff.mp hholds
    exact absurd (hgone.symm.trans hrec) (by simp)

/-- Fencing supersedes a lease it finds standing: validation lets a generation advance only where it grows. -/
theorem superseded_fence {κ α Tag : Type} [LinearOrder κ] {gen : α → Gen Tag} {f : α → α}
    {m : SortedMap κ α} {k : κ} {v : α} (hgrow : StampsGrow gen m (m.mapVals f)) (hv : m.find? k = some v)
    (hnext : gen (f v) = (gen v).next) : Superseded gen (m.mapVals f) k (gen v) := by
  have hnew : (m.mapVals f).find? k = some (f v) := by rw [SortedMap.find?_mapVals, hv, Option.map_some]
  refine .of_lt hnew ?_
  rw [hnext]
  have hle : gen v ≤ (gen v).next := hnext ▸ hgrow hv hnew
  exact Gen.lt_next.mpr (Gen.not_next_lt.mp (not_lt.mpr hle))

/-- **What the re-check notices is lost for good.** -/
theorem Edited.lost {r : FabricRegistry} {cand : FabricTopology} {op : RegistryOp} {d : RouteDecision}
    (h : Edited r.current op cand) (hadm : FabricTopology.Admissible r.current (r.committed cand))
    (hstand : ∀ l, d.Holds l → l.Stands r.current) (hrev : op.Revokes r.current d) :
    Lost d (r.committed cand) := by
  cases h with
  | @removeDevice id => exact Or.inr ⟨id, hrev, by simp [SortedMap.find?_erase]⟩
  | @removeSwitch id =>
    obtain ⟨l, hl, hon⟩ := hrev
    refine Or.inl ⟨l, hl, ?_⟩
    cases l with
    | switch sw g =>
      obtain rfl : sw = id := hon
      exact .of_none (by simp [SortedMap.find?_erase])
    -- the ports of a switch go with it
    | port pid g =>
      have hsw : pid.sw = id := hon
      refine .of_none ?_
      show (r.current.ports.filter fun p _ => p.sw ≠ id).find? pid = none
      rw [SortedMap.find?_filter]
      simp [hsw]
    | partition _ _ => exact hon.elim
  | @removePort id =>
    obtain ⟨g, hl⟩ := hrev
    exact Or.inl ⟨_, hl, .of_none (by simp [SortedMap.find?_erase])⟩
  | @invalidateForWorker w b =>
    obtain ⟨l, hl, hattr⟩ := hrev
    refine Or.inl ⟨l, hl, ?_⟩
    -- fencing advances the generation of what is attributed, past the one of the lease
    have hnow := hstand l hl
    cases l with
    | switch id g =>
      obtain ⟨rec, hrec, rfl⟩ := hnow
      obtain ⟨rec', hrec', hattr⟩ := hattr
      obtain rfl := Option.some.inj (hrec.symm.trans hrec')
      exact superseded_fence hadm.switchGen hrec (by rw [SwitchRecord.fence, if_pos hattr])
    | port id g =>
      obtain ⟨rec, hrec, rfl⟩ := hnow
      obtain ⟨rec', hrec', hattr⟩ := hattr
      obtain rfl := Option.some.inj (hrec.symm.trans hrec')
      exact superseded_fence hadm.portGen hrec (by rw [SwitchPortRecord.fence, if_pos hattr])
    | partition id g =>
      obtain ⟨rec, hrec, rfl⟩ := hnow
      obtain ⟨rec', hrec', hattr⟩ := hattr
      obtain rfl := Option.some.inj (hrec.symm.trans hrec')
      exact superseded_fence hadm.partitionGen hrec (by rw [FabricPartition.fence, if_pos hattr])
  | _ => exact hrev.elim

/-! ## Runs -/

/-- What the operation must not do behind the re-check's back. -/
structure KeepsPath (d : RouteDecision) (t : FabricTopology) (op : RegistryOp) : Prop where
  /-- It takes down a link of the path only while taking away something the re-check looks at. -/
  links    : ∀ l, d.Uses l → op.TakesDown t l → op.Revokes t d
  /-- It brings back no entity that `d` holds a lease on. -/
  leases   : ∀ l, d.Holds l → ¬ l.Readmitted t op
  /-- It brings back no endpoint. -/
  endpoint : ∀ id, d.EndsAt id → t.devices.find? id = none → op.newDevice? id = none
  /-- It stores no endpoint that is not marked present. -/
  present  : ∀ id rec, d.EndsAt id → op.newDevice? id = some rec → rec.present = true

/-- The guard on a step: the operation keeps the path, or is rejected. -/
def PathKept (d : RouteDecision) (r : FabricRegistry) (op : RegistryOp) : Prop :=
  r.Accepts op → KeepsPath d r.current op

/-- The links of the path are in service, the endpoints present, and all leases stand. -/
structure Standing (d : RouteDecision) (t : FabricTopology) : Prop where
  links     : ∀ l, d.Uses l → t.LinkUsable l
  endpoints : ∀ id, d.EndsAt id → t.DevicePresent id
  leases    : ∀ l, d.Holds l → l.Stands t

/-- **One step.** A decision that stands or is lost does so after an operation that keeps its path. -/
theorem standing_or_lost_exec {d : RouteDecision} {r : FabricRegistry} {op : RegistryOp}
    (h : Standing d r.current ∨ Lost d r.current)
    (hok : PathKept d r op) :
    Standing d (r.exec op).current ∨ Lost d (r.exec op).current := by
  rcases exec_edited r op with heq | ⟨cand, hed, heq, hadm⟩
  · rwa [heq]
  have hkeep : KeepsPath d r.current op := hok ⟨cand, hed, hadm⟩
  rcases h with hstand | hlost
  · -- lost now, or every part of `Standing` is kept
    by_cases hlost : Lost d (r.exec op).current
    · exact Or.inr hlost
    refine Or.inl ⟨?_, ?_, ?_⟩
    · intro l hl
      rw [heq]
      refine hed.linkUsable (hstand.links l hl) fun hdown => ?_
      apply hlost
      rw [heq]
      exact hed.lost hadm hstand.leases (hkeep.links l hl hdown)
    · intro id hid
      have hdev := hed.devicePresent (hstand.endpoints id hid) fun rec => hkeep.present id rec hid
      rcases hdev with hpresent | hgone
      · rw [heq]; exact hpresent
      · exact absurd (Or.inr ⟨id, hid, by rw [heq]; exact hgone⟩) hlost
    · intro l hl
      rcases (hstand.leases l hl).exec op with hnow | hsup
      · exact hnow
      · exact absurd (Or.inl ⟨l, hl, hsup⟩) hlost
  · -- what was lost is not brought back
    right
    rcases hlost with ⟨l, hl, hsup⟩ | ⟨id, hid, hgone⟩
    · exact Or.inl ⟨l, hl, hsup.exec op (hkeep.leases l hl)⟩
    · refine Or.inr ⟨id, hid, ?_⟩
      rw [heq]
      cases hback : cand.devices.find? id with
      | none => exact hback
      | some rec =>
        have hnew := (hed.device_new hgone).symm.trans hback
        exact absurd (hnew.symm.trans (hkeep.endpoint id hid hgone)) (by simp)

/-- Admitted endpoints are present. -/
theorem present_of_admitted {t : FabricTopology} {src dst : DeviceId}
    (h : admitEndpoints t src dst = none) : t.DevicePresent src ∧ t.DevicePresent dst := by
  unfold admitEndpoints FabricTopology.lookupDevice at h
  split at h
  · next s dd hs hdd =>
    split_ifs at h with habsent
    rw [Bool.or_eq_true, Bool.not_eq_true', Bool.not_eq_true', not_or, Bool.not_eq_false,
      Bool.not_eq_false] at habsent
    exact ⟨⟨s, hs, habsent.1⟩, dd, hdd, habsent.2⟩
  · exact absurd h (by simp)

/-- A decision stands when it is issued. -/
theorem Issued.standing {d : RouteDecision} {t : FabricTopology} {src dst : DeviceId}
    {policy : RoutePolicy} {measurements : List Measurement} {epoch : CoordinatorEpoch} {best : FabricPath}
    (hkeyed : t.Keyed) (hgrant : Granted t src dst policy measurements best)
    (hd : Issued d t src dst policy epoch best) : Standing d t := by
  refine ⟨?_, ?_, fun l hl => hd.stands hkeyed hgrant hl⟩
  · rintro l ⟨q, hq, hl⟩
    obtain rfl := Option.some.inj (hd.selected.symm.trans hq)
    obtain ⟨p, hp, _, rfl⟩ := hgrant.enumerated
    exact (FabricTopology.enumeratePaths_found hp).links_usable hkeyed l hl
  · obtain ⟨hsrc, hdst⟩ := present_of_admitted hgrant.admitted
    rintro id (rfl | rfl)
    · rw [hd.source]; exact hsrc
    · rw [hd.destination]; exact hdst

/-- Every switch and known port of a granted path is leased. -/
theorem Granted.leased {t : FabricTopology} {src dst : DeviceId} {policy : RoutePolicy}
    {measurements : List Measurement} {best : FabricPath}
    (hgrant : Granted t src dst policy measurements best) :
    (∀ sw ∈ best.switchSequence, ∃ g, (sw, g) ∈ best.switchGens) ∧
      ∀ pid ∈ best.knownPorts, ∃ g, (pid, g) ∈ best.portGens := by
  obtain ⟨p, _, hfilter, rfl⟩ := hgrant.enumerated
  constructor
  · intro sw hsw
    obtain ⟨rec, hrec, _⟩ := hardFilter_switches hfilter sw hsw
    exact ⟨rec.gen, mem_captureSwitchGens.mpr ⟨hsw, rec, hrec, rfl⟩⟩
  · intro pid hpid
    obtain ⟨rec, hrec, _⟩ := hardFilter_ports hfilter pid hpid
    exact ⟨rec.gen, mem_capturePortGens.mpr ⟨hpid, rec, hrec, rfl⟩⟩

/-- The re-check sees to switches and ports by itself. -/
theorem Rechecked.clean {d : RouteDecision} {t t₀ : FabricTopology} {src dst : DeviceId}
    {policy : RoutePolicy} {measurements : List Measurement} {best : FabricPath} (h : Rechecked d t)
    (hgrant : Granted t₀ src dst policy measurements best) (hsel : d.selected = some best) :
    best.Clean t := by
  obtain ⟨hsw, hport⟩ := hgrant.leased
  constructor
  · intro sw hmem
    obtain ⟨g, hg⟩ := hsw sw hmem
    obtain ⟨rec, hrec, husable, _⟩ := switchHolds_iff.mp (h.switches _ hsel _ hg)
    exact ⟨rec, hrec, husable⟩
  · intro pid hmem
    obtain ⟨g, hg⟩ := hport pid hmem
    obtain ⟨rec, hrec, husable, _⟩ := portHolds_iff.mp (h.ports _ hsel _ hg)
    exact ⟨rec, hrec, husable⟩

namespace FabricRegistry

/-- **An authoritative route can be used.** Along every run after `route` whose accepted operations keep the path of
    its allowed decision: wherever the decision is authoritative, all switches, known ports and links of its path
    are up or degraded, and both endpoints are present. -/
theorem route_intact {r₀ : FabricRegistry} (h₀ : r₀.Reachable) (src dst : DeviceId) (policy : RoutePolicy)
    (now : UInt64) (hallowed : (r₀.route src dst policy now).1.outcome.isAllowed = true)
    {r : FabricRegistry}
    (hrun : Steps exec (PathKept (r₀.route src dst policy now).1) (r₀.route src dst policy now).2 r)
    (hauth : r.decisionStillAuthoritative (r₀.route src dst policy now).1 = true) :
    RouteIntact r.current (r₀.route src dst policy now).1 := by
  obtain ⟨best, hgrant⟩ := (route_allowed_iff r₀ src dst policy now).mp hallowed
  have hd := route_issued now hgrant
  have hstart : Standing (r₀.route src dst policy now).1 (r₀.route src dst policy now).2.current :=
    hd.standing h₀.wellFormed.keyed hgrant
  have hstep : ∀ (s : FabricRegistry) op, (Standing (r₀.route src dst policy now).1 s.current ∨
      Lost (r₀.route src dst policy now).1 s.current) → PathKept (r₀.route src dst policy now).1 s op →
      Standing (r₀.route src dst policy now).1 (s.exec op).current ∨
        Lost (r₀.route src dst policy now).1 (s.exec op).current :=
    fun s op hs hok => standing_or_lost_exec hs hok
  have hre : Rechecked (r₀.route src dst policy now).1 r.current := stillAuthoritative_iff.mp hauth
  rcases hrun.invariant hstep (Or.inl hstart) with hstand | hlost
  · exact ⟨⟨best, hd.selected, hre.clean hgrant hd.selected, fun l hl => hstand.links l ⟨best, hd.selected, hl⟩⟩,
      hstand.endpoints _ (Or.inl rfl), hstand.endpoints _ (Or.inr rfl)⟩
  · exact absurd hre hlost.not_rechecked

/-- A congestion report degrades a link of the path; the decision stays authoritative and its route usable. -/
theorem route_intact_congestion :
    let r₀ := after [.applyBulk (buildSyntheticScan .singleSwitchTwoGpu)]
    let d := (r₀.route ⟨1⟩ ⟨2⟩ {} 0).1
    let report : RegistryOp :=
      .publishCongestion { links := [{ link := ⟨100⟩, linkKnown := true, degraded := true }] }
    RouteIntact ((r₀.route ⟨1⟩ ⟨2⟩ {} 0).2.exec report).current d := by
  intro r₀ d report
  have hkeep : KeepsPath d (r₀.route ⟨1⟩ ⟨2⟩ {} 0).2.current report :=
    ⟨fun l _ hdown => hdown.elim, fun l _ => by
      cases l <;> simp [report, Lease.Readmitted, RegistryOp.newSwitch?, RegistryOp.newPort?,
        RegistryOp.newPartition?], fun _ _ _ => rfl, fun _ _ _ hnew => absurd hnew (by
      simp [report, RegistryOp.newDevice?])⟩
  exact route_intact (reachable_after _) ⟨1⟩ ⟨2⟩ {} 0 (by decide +kernel) (.single fun _ => hkeep)
    (by decide +kernel)

/-- Removing a link of the path leaves the decision authoritative. -/
theorem removed_link_stays_authoritative :
    let r₀ := after [.applyBulk (buildSyntheticScan .singleSwitchTwoGpu)]
    let d := (r₀.route ⟨1⟩ ⟨2⟩ {} 0).1
    let r := (r₀.route ⟨1⟩ ⟨2⟩ {} 0).2.exec (.removeLink ⟨100⟩)
    r₀.Reachable ∧ d.outcome.isAllowed = true ∧ r.decisionStillAuthoritative d = true ∧
      ¬ RouteIntact r.current d := by
  intro r₀ d r
  refine ⟨reachable_after _, by decide +kernel, by decide +kernel, ?_⟩
  rintro ⟨⟨p, hp, _, hlinks⟩, _, _⟩
  have hsel : d.selected.map (·.links) = some [⟨100⟩, ⟨101⟩] := by decide +kernel
  rw [hp] at hsel
  have hall : p.links = [⟨100⟩, ⟨101⟩] := Option.some.inj hsel
  have hmem : (⟨100⟩ : LinkId) ∈ p.links := by rw [hall]; exact List.mem_cons_self
  obtain ⟨rec, hrec, _⟩ := hlinks _ hmem
  have hgone : (r.current.links.find? ⟨100⟩).isNone = true := by decide +kernel
  rw [hrec] at hgone
  exact absurd hgone (by simp)

end FabricRegistry

end NVSwitchFabric
