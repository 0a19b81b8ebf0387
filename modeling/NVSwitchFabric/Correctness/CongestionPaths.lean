import NVSwitchFabric.Correctness.PathIntact
import NVSwitchFabric.Correctness.SwitchWalks

/-!
# `Correctness.CongestionPaths` — when a congestion report adds paths

A report of degradation puts its link in state DEGRADED whatever the state was, so a link that was down or waiting for
revalidation carries paths again. In terms of walks: after the report, links count as up that are `Usable` or that the
report names as degraded (`leads_congested_iff`). Paths are added exactly if some walk over such links needs one that
was not usable (`Raises`); nothing else in the merge matters to enumeration.
-/

namespace NVSwitchFabric

open Lib

/-- The observation reports the link as degraded. -/
def CongestionObservation.Degrades (c : CongestionObservation) (l : LinkId) : Prop :=
  ∃ ld ∈ c.links, ld.linkKnown = true ∧ ld.link = l ∧ ld.degraded = true

namespace FabricTopology

variable {t : FabricTopology} {c : CongestionObservation} {src dst : DeviceId} {cfg : TraversalConfig}

/-- The candidate of `publishCongestion`. -/
def congested (c : CongestionObservation) (t : FabricTopology) : FabricTopology :=
  { t with links := c.links.foldl Edit.mergeDegradation t.links, topologyGen := t.topologyGen.next }

/-- The links over which paths may run once the observation is merged. -/
def UpAfter (c : CongestionObservation) (rec : LinkRecord) : Prop := rec.Usable ∨ c.Degrades rec.id

/-- The report raises a link that enumeration needs: some walk it would return, between devices it accepts, is over
    links of which one is neither up nor degraded. -/
def Raises (t : FabricTopology) (c : CongestionObservation) (src dst : DeviceId) (cfg : TraversalConfig) : Prop :=
  t.Joinable src dst ∧ ∃ sws ls, t.SwitchWalk (UpAfter c) src dst sws ls ∧ Within cfg sws ∧ ∃ l ∈ ls, ¬ t.LinkUsable l

/-! ## Walks after the report -/

theorem merge_keeps (lds : List LinkDegradation) (rec : LinkRecord) :
    let rec' := lds.foldl (fun rec ld => rec.merge ld.degraded) rec
    rec'.rootSwitch = rec.rootSwitch ∧ rec'.otherEnd = rec.otherEnd ∧ rec'.port = rec.port := by
  induction lds generalizing rec with
  | nil => exact ⟨rfl, rfl, rfl⟩
  | cons ld lds ih => exact ih (rec.merge ld.degraded)

/-- **After the report a link leads where it led before**, if it was usable or is reported. -/
theorem leads_congested_iff (hkeyed : t.Keyed) {t' : FabricTopology} (hlinks : t'.links = (t.congested c).links)
    (hports : t'.ports = t.ports) {sw : SwitchId} {l : LinkId} {far : LinkEnd → Prop} :
    t'.Leads LinkRecord.Usable sw l far ↔ t.Leads (UpAfter c) sw l far := by
  have hport : ∀ pid, t'.PortUsable pid ↔ t.PortUsable pid := by
    intro pid
    unfold PortUsable
    rw [hports]
  have hup : ∀ {rec}, t.links.find? l = some rec →
      (LinkRecord.Usable ((c.links.filter fun ld => ld.linkKnown && ld.link = l).foldl
        (fun rec ld => rec.merge ld.degraded) rec) ↔ UpAfter c rec) := by
    intro rec hrec
    have hkey : rec.id = l := hkeyed.links hrec
    unfold LinkRecord.Usable UpAfter CongestionObservation.Degrades
    rw [usable_foldl_merge_iff, hkey]
    refine or_congr_right (exists_congr fun ld => ?_)
    rw [List.mem_filter, Bool.and_eq_true, decide_eq_true_eq, and_assoc, and_assoc]
  have hfind : t'.links.find? l = (t.links.find? l).map fun rec =>
      (c.links.filter fun ld => ld.linkKnown && ld.link = l).foldl (fun rec ld => rec.merge ld.degraded) rec := by
    rw [hlinks]
    exact find?_foldl_mergeDegradation c.links t.links l
  unfold Leads
  rw [hfind]
  constructor
  · rintro ⟨rec', hrec', hroot, hfar, hstate, hpid⟩
    obtain ⟨rec, hrec, rfl⟩ := Option.map_eq_some_iff.mp hrec'
    obtain ⟨hsame, hend, hon⟩ := merge_keeps (c.links.filter fun ld => ld.linkKnown && ld.link = l) rec
    rw [hsame] at hroot
    rw [hend] at hfar
    rw [hon, hport] at hpid
    exact ⟨rec, hrec, hroot, hfar, (hup hrec).mp hstate, hpid⟩
  · rintro ⟨rec, hrec, hroot, hfar, hstate, hpid⟩
    obtain ⟨hsame, hend, hon⟩ := merge_keeps (c.links.filter fun ld => ld.linkKnown && ld.link = l) rec
    refine ⟨_, Option.map_eq_some_iff.mpr ⟨rec, hrec, rfl⟩, hsame.trans hroot, ?_, (hup hrec).mpr hstate, ?_⟩
    · rwa [hend]
    · rwa [hon, hport]

/-- A walk whose links are all usable is one that enumeration looks for. -/
theorem SwitchWalk.of_usable {sws : List SwitchId} {ls : List LinkId} (h : t.SwitchWalk (UpAfter c) src dst sws ls)
    (hall : ∀ l ∈ ls, t.LinkUsable l) : t.SwitchWalk LinkRecord.Usable src dst sws ls := by
  refine h.transfer ?_
  rintro l hl sw far ⟨rec, hrec, hroot, hfar, _, hport⟩
  obtain ⟨rec', hrec', hup⟩ := hall l hl
  obtain rfl := Option.some.inj (hrec.symm.trans hrec')
  exact ⟨rec, hrec, hroot, hfar, hup, hport⟩

end FabricTopology

/-! ## Paths before and after -/

namespace FabricRegistry

open FabricTopology

variable {r : FabricRegistry} {c : CongestionObservation} {src dst : DeviceId} {cfg : TraversalConfig}

/-- Every path after the report, by its links, was there before. -/
def AddsNoPath (r : FabricRegistry) (c : CongestionObservation) (src dst : DeviceId) (cfg : TraversalConfig) : Prop :=
  ∀ ls ∈ ((r.exec (.publishCongestion c)).paths src dst cfg).map (·.links), ls ∈ (r.paths src dst cfg).map (·.links)

/-- An accepted report is published. -/
theorem exec_publishCongestion_current (h : r.Accepts (.publishCongestion c)) :
    (r.exec (.publishCongestion c)).current = r.committed (r.current.congested c) := by
  obtain ⟨cand, hed, hadm⟩ := h
  have hcurrent := hed.exec_current hadm
  cases hed
  exact hcurrent

/-- **When congestion evidence adds no paths.** In a reachable state, for an accepted report and an enumeration that was
    not cut short: exactly if the report raises no link that enumeration needs. -/
theorem congestion_adds_none_iff (hr : r.Reachable) (hacc : r.Accepts (.publishCongestion c))
    (hfew : (r.paths src dst cfg).length < cfg.maxPaths.toNat) :
    r.AddsNoPath c src dst cfg ↔ ¬ r.current.Raises c src dst cfg := by
  have hwf := hr.wellFormed
  have hwf' := (hr.exec (.publishCongestion c)).wellFormed
  unfold AddsNoPath paths at *
  rw [exec_publishCongestion_current hacc] at hwf' ⊢
  by_cases hjoin : r.current.Joinable src dst
  · have hjoin' : (r.committed (r.current.congested c)).Joinable src dst := ⟨hjoin.source, hjoin.destination, hjoin.distinct⟩
    have hleads : ∀ sw l far, (r.committed (r.current.congested c)).Leads LinkRecord.Usable sw l far ↔
        r.current.Leads (UpAfter c) sw l far := fun sw l far => leads_congested_iff hwf.keyed rfl rfl
    rw [enumeratePaths_subset_iff hwf'.keyed hjoin hjoin' hfew]
    constructor
    · rintro hsub ⟨_, sws, ls, hwalk, hwithin, l, hl, hdown⟩
      -- the walk is found after the report, so it was found before, over usable links
      have hafter := (mem_links_iff hwf'.keyed hwf'.integral).mpr
        ⟨sws, hwalk.transfer fun l _ sw far => (hleads sw l far).mpr, hwithin⟩
      obtain ⟨sws', hbefore, _⟩ := (mem_links_iff hwf.keyed hwf.integral).mp (hsub ls hafter)
      obtain ⟨_, _, rec, hrec, _, _, hup, _⟩ := hbefore.exists_leads l hl
      exact hdown ⟨rec, hrec, hup⟩
    · intro hnone ls hls
      obtain ⟨sws, hafter, hwithin⟩ := (mem_links_iff hwf'.keyed hwf'.integral).mp hls
      have hwalk : r.current.SwitchWalk (UpAfter c) src dst sws ls :=
        hafter.transfer fun l _ sw far => (hleads sw l far).mp
      refine (mem_links_iff hwf.keyed hwf.integral).mpr ⟨sws, hwalk.of_usable ?_, hwithin⟩
      intro l hl
      by_contra hdown
      exact hnone ⟨hjoin, sws, ls, hwalk, hwithin, l, hl, hdown⟩
  · -- devices that cannot be joined have no paths, before or after
    refine ⟨fun _ hraises => hjoin hraises.1, ?_⟩
    intro _ ls hls
    obtain ⟨q, hq, rfl⟩ := List.mem_map.mp hls
    have hjoin' := (joinable_of_enumerated hq).1
    exact absurd ⟨hjoin'.source, hjoin'.destination, hjoin'.distinct⟩ hjoin

/-- A report that one link is degraded. -/
def degrading (l : LinkId) : CongestionObservation := { links := [{ link := l, linkKnown := true, degraded := true }] }

/-- Degrading a link that is up adds nothing. -/
theorem congestion_adds_none_singleSwitch :
    (after [.applyBulk (buildSyntheticScan .singleSwitchTwoGpu)]).AddsNoPath (degrading ⟨100⟩) ⟨1⟩ ⟨2⟩ {} := by
  refine (congestion_adds_none_iff (reachable_after _) (accepts_of_id_ne (by decide +kernel)) (by decide +kernel)).mpr ?_
  rintro ⟨_, sws, ls, hwalk, _, l, hl, hdown⟩
  have hall : ∀ e ∈ (after [.applyBulk (buildSyntheticScan .singleSwitchTwoGpu)]).current.links.entries,
      usableState e.2.state = true := by
    decide +kernel
  obtain ⟨_, _, rec, hrec, _⟩ := hwalk.exists_leads l hl
  exact hdown ⟨rec, hrec, hall (l, rec) (SortedMap.find?_eq_some_iff.mp hrec)⟩

/-- A link that is down carries a path again once it is reported degraded. -/
theorem degraded_link_raised :
    let r := after [.applyBulk (buildSyntheticScan .singleSwitchTwoGpu), .setLinkState ⟨100⟩ .down false]
    r.Reachable ∧ r.Accepts (.publishCongestion (degrading ⟨100⟩)) ∧ r.paths ⟨1⟩ ⟨2⟩ {} = [] ∧
      ((r.exec (.publishCongestion (degrading ⟨100⟩))).paths ⟨1⟩ ⟨2⟩ {}).map (·.links) = [[⟨100⟩, ⟨101⟩]] ∧
      ¬ r.AddsNoPath (degrading ⟨100⟩) ⟨1⟩ ⟨2⟩ {} := by
  intro r
  have hbefore : r.paths ⟨1⟩ ⟨2⟩ {} = [] := by decide +kernel
  have hafter : ((r.exec (.publishCongestion (degrading ⟨100⟩))).paths ⟨1⟩ ⟨2⟩ {}).map (·.links) = [[⟨100⟩, ⟨101⟩]] := by
    decide +kernel
  refine ⟨reachable_after _, accepts_of_id_ne (by decide +kernel), hbefore, hafter, ?_⟩
  intro hnone
  have hkept := hnone [⟨100⟩, ⟨101⟩] (by rw [hafter]; exact List.mem_cons_self)
  rw [hbefore] at hkept
  exact absurd hkept List.not_mem_nil

end FabricRegistry

end NVSwitchFabric
