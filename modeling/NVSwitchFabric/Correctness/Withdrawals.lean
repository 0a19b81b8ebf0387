import NVSwitchFabric.Correctness.Distance
import NVSwitchFabric.Correctness.Edited

/-!
# `Correctness.Withdrawals` — what is taken away opens no path

Removing records, putting them into a state that is not usable, and expiring or fencing evidence withdraw parts of the
fabric. After any run of such operations the devices, ports and links that can be used are among those that could be used
before, unchanged (`Withdrawn`). So there are no new paths and no more of them, and none is shorter than the
shortest before (`withdrawals_add_none`).
-/

namespace NVSwitchFabric

open Lib

/-- The operations that add nothing that can be used, whatever the states they find. -/
def RegistryOp.withdraws : RegistryOp → Bool
  | .removeDevice _ | .removeSwitch _ | .removePort _ | .removeLink _ | .removePartition _ => true
  | .setSwitchState _ state | .setPortState _ state | .setLinkState _ state _ => !usableState state
  | .restartSwitch _ _ | .markPartitionStale _ => true
  | .invalidateForWorker _ _ | .expireDynamicEvidence => true
  | .setEpoch _ | .publishMeasurement _ | .recordDecision _ | .route _ _ _ _ => true
  | _ => false

namespace FabricTopology

variable {t t' : FabricTopology} {src dst : DeviceId} {cfg : TraversalConfig}

/-- What can be used of `t'` could be used of `t`. -/
structure Withdrawn (t' t : FabricTopology) : Prop where
  devices : t'.devices.SubAmong (fun r => endpointState r.state = true) t.devices
  ports   : t'.ports.SubAmong (fun r => usableState r.state = true) t.ports
  links   : t'.links.SubAmong (fun r => usableState r.state = true) t.links

theorem Withdrawn.refl (t : FabricTopology) : t.Withdrawn t :=
  ⟨(SortedMap.Sub.refl _).among, (SortedMap.Sub.refl _).among, (SortedMap.Sub.refl _).among⟩

theorem Withdrawn.trans {t'' : FabricTopology} (h : t''.Withdrawn t') (h' : t'.Withdrawn t) : t''.Withdrawn t :=
  ⟨h.devices.trans h'.devices, h.ports.trans h'.ports, h.links.trans h'.links⟩

/-! ## Operations -/

/-- A rewrite that makes some records await revalidation. -/
theorem subAmong_awaiting {κ α : Type} [LinearOrder κ] {state : α → EntityState} {good : EntityState → Bool}
    (hgood : good .revalidationRequired = false) {f : α → α} (hf : ∀ v, f v = v ∨ state (f v) = .revalidationRequired)
    (m : SortedMap κ α) : (m.mapVals f).SubAmong (fun v => good (state v) = true) m := by
  refine SortedMap.subAmong_mapVals (fun v hv => (hf v).resolve_right fun hawaits => ?_) m
  rw [hawaits, hgood] at hv
  exact absurd hv (by simp)

/-- **What a withdrawing edit makes.** -/
theorem withdrawn_of_edited {op : RegistryOp} {cand : FabricTopology} (hop : op.withdraws = true) (h : Edited t op cand) :
    cand.Withdrawn t := by
  have hrefl := Withdrawn.refl t
  have hlinks : ∀ keep, (t.links.filter keep).SubAmong (fun r => usableState r.state = true) t.links :=
    fun keep => (SortedMap.filter_sub keep _).among
  have hbad : ∀ {state : EntityState}, (!usableState state) = true → ¬ usableState state = true := by
    intro state h
    rw [Bool.not_eq_true'] at h
    simp [h]
  cases h with
  | removeDevice => exact { hrefl with devices := (SortedMap.filter_sub _ _).among, links := hlinks _ }
  | removeSwitch => exact { hrefl with ports := (SortedMap.filter_sub _ _).among, links := hlinks _ }
  | removePort => exact { hrefl with ports := (SortedMap.filter_sub _ _).among, links := hlinks _ }
  | removeLink => exact { hrefl with links := hlinks _ }
  | setPortState => exact { hrefl with ports := SortedMap.subAmong_insert _ _ (hbad hop) }
  | setLinkState => exact { hrefl with links := SortedMap.subAmong_insert _ _ (hbad hop) }
  | invalidateForWorker =>
    refine ⟨subAmong_awaiting rfl ?_ _, subAmong_awaiting rfl ?_ _, subAmong_awaiting rfl ?_ _⟩
    · intro rec
      unfold DeviceRecord.fence
      split
      · exact Or.inr rfl
      · exact Or.inl rfl
    · intro rec
      unfold SwitchPortRecord.fence
      split
      · exact Or.inr rfl
      · exact Or.inl rfl
    · intro rec
      unfold LinkRecord.fence
      split
      · exact Or.inr rfl
      · exact Or.inl rfl
  | expireDynamicEvidence =>
    refine ⟨subAmong_awaiting rfl ?_ _, subAmong_awaiting rfl ?_ _, subAmong_awaiting rfl ?_ _⟩
    · intro rec
      unfold DeviceRecord.expire
      split
      · exact Or.inr rfl
      · exact Or.inl rfl
    · intro rec
      unfold SwitchPortRecord.expire
      split
      · exact Or.inr rfl
      · exact Or.inl rfl
    · intro rec
      unfold LinkRecord.expire
      split
      · exact Or.inr rfl
      · exact Or.inl rfl
  | setSwitchState => exact ⟨hrefl.devices, hrefl.ports, hrefl.links⟩
  | restartSwitch => exact ⟨hrefl.devices, hrefl.ports, hrefl.links⟩
  | removePartition => exact ⟨hrefl.devices, hrefl.ports, hrefl.links⟩
  | markPartitionStale => exact ⟨hrefl.devices, hrefl.ports, hrefl.links⟩
  | _ => nomatch hop

/-- **After a run of withdrawals** less can be used. -/
theorem withdrawn_run (r : FabricRegistry) {ops : List RegistryOp} (hops : ∀ op ∈ ops, op.withdraws = true) :
    (runAll FabricRegistry.exec r ops).current.Withdrawn r.current := by
  induction ops generalizing r with
  | nil => exact Withdrawn.refl _
  | cons op ops ih =>
    have hlater := ih (r.exec op) fun op' hop' => hops op' (List.mem_cons_of_mem _ hop')
    have hone : (r.exec op).current.Withdrawn r.current := by
      rcases exec_edited r op with heq | ⟨cand, hedited, heq, _⟩
      · rw [heq]
        exact Withdrawn.refl _
      · have hcand := withdrawn_of_edited (hops op List.mem_cons_self) hedited
        rw [heq]
        exact ⟨hcand.devices, hcand.ports, hcand.links⟩
    exact hlater.trans hone

/-! ## Paths -/

/-- What leads somewhere did so before. -/
theorem Withdrawn.leads (h : t'.Withdrawn t) {sw : SwitchId} {l : LinkId} {far : LinkEnd → Prop}
    (hl : t'.Leads LinkRecord.Usable sw l far) : t.Leads LinkRecord.Usable sw l far := by
  obtain ⟨rec, hrec, hroot, hfar, hup, p, hp, hstate⟩ := hl
  exact ⟨rec, h.links hup hrec, hroot, hfar, hup, p, h.ports hstate hp, hstate⟩

theorem Withdrawn.joinable (h : t'.Withdrawn t) (hjoin : t'.Joinable src dst) : t.Joinable src dst := by
  obtain ⟨⟨s, hs, hsrc⟩, ⟨d, hd, hdst⟩, hne⟩ := hjoin
  exact ⟨⟨s, h.devices hsrc hs, hsrc⟩, ⟨d, h.devices hdst hd, hdst⟩, hne⟩

/-- The search tree loses link sequences only. -/
theorem Withdrawn.links_subset (h : t'.Withdrawn t) (hwf : t.WellFormed) (hwf' : t'.WellFormed) :
    (t'.pathsInOrder src dst cfg).map (·.links) ⊆ (t.pathsInOrder src dst cfg).map (·.links) := by
  intro ls hls
  obtain ⟨sws, hwalk, hwithin⟩ := (mem_links_iff hwf'.keyed hwf'.integral).mp hls
  exact (mem_links_iff hwf.keyed hwf.integral).mpr ⟨sws, hwalk.transfer fun _ _ _ _ hl => h.leads hl, hwithin⟩

/-- **Withdrawals open no path.** After any run of them, from any reachable registry, an enumeration returns no more paths
    than before; its first path is no shorter than the first one before; and if the one before was not cut short, each
    path is one of those. -/
theorem withdrawals_add_none {r : FabricRegistry} (hr : r.Reachable) {ops : List RegistryOp}
    (hops : ∀ op ∈ ops, op.withdraws = true) (src dst : DeviceId) (cfg : TraversalConfig) :
    let after := runAll FabricRegistry.exec r ops
    (after.paths src dst cfg).length ≤ (r.paths src dst cfg).length ∧
      (∀ p p', (r.paths src dst cfg).head? = some p → (after.paths src dst cfg).head? = some p' →
        p.hops.length ≤ p'.hops.length) ∧
      ((r.paths src dst cfg).length < cfg.maxPaths.toNat →
        (after.paths src dst cfg).map (·.links) ⊆ (r.paths src dst cfg).map (·.links)) := by
  intro after
  have hlost := withdrawn_run r hops
  have hwf := hr.wellFormed
  have hwf' : after.current.WellFormed := (hr.steps (Steps.of_runAll _ r ops)).wellFormed
  by_cases hjoin' : after.current.Joinable src dst
  · have hjoin := hlost.joinable hjoin'
    have hsub : (after.current.pathsInOrder src dst cfg).map (·.links) ⊆ (r.current.pathsInOrder src dst cfg).map (·.links) :=
      hlost.links_subset hwf hwf'
    have heq : r.paths src dst cfg = (r.current.pathsInOrder src dst cfg).take cfg.maxPaths.toNat := enumeratePaths_eq hjoin
    have heq' : after.paths src dst cfg = (after.current.pathsInOrder src dst cfg).take cfg.maxPaths.toNat :=
      enumeratePaths_eq hjoin'
    refine ⟨?_, ?_, ?_⟩
    · have hlen := ((links_nodup hwf'.keyed).subperm hsub).length_le
      rw [List.length_map, List.length_map] at hlen
      rw [heq, heq', List.length_take, List.length_take]
      omega
    · intro p p' hp hp'
      have hmem' := List.mem_of_head? hp'
      have hdepth := (joinable_of_enumerated hmem').2
      have htree : p' ∈ after.current.pathsInOrder src dst cfg :=
        (mem_pathsInOrder_iff hdepth).mpr (enumeratePaths_found hmem')
      -- the path was there, and the first one before was no longer
      obtain ⟨p₀, hp₀, hlinks⟩ := List.mem_map.mp (hsub (List.mem_map_of_mem htree))
      have hlen₀ := ((mem_pathsInOrder_iff hdepth).mp hp₀).links_length hwf hdepth
      have hlen' := ((mem_pathsInOrder_iff hdepth).mp htree).links_length hwf' hdepth
      have hfirst := head_le hp hp₀
      rw [hlinks] at hlen₀
      omega
    · intro hfew
      have hall : r.paths src dst cfg = r.current.pathsInOrder src dst cfg := enumeratePaths_all hjoin hfew
      rw [hall, heq', List.map_take]
      exact fun ls hls => hsub (List.mem_of_mem_take hls)
  · have hnone : after.paths src dst cfg = [] := enumeratePaths_of_not_joinable hjoin'
    rw [hnone]
    refine ⟨Nat.zero_le _, ?_, ?_⟩
    · intro p p' _ hp'
      nomatch hp'
    · intro _ ls hls
      nomatch hls

/-- A port of one of two redundant switches goes down, and the records of the worker are fenced. -/
theorem withdrawals_add_none_twoSwitchRedundant :
    let r := FabricRegistry.after [.applyBulk (buildSyntheticScan .twoSwitchRedundant)]
    let after := runAll FabricRegistry.exec r [.setPortState ⟨⟨10⟩, 0⟩ .down, .invalidateForWorker ⟨ascii "w"⟩ 1]
    (after.paths ⟨1⟩ ⟨2⟩ {}).length ≤ (r.paths ⟨1⟩ ⟨2⟩ {}).length ∧ (after.paths ⟨1⟩ ⟨2⟩ {}).length ≠ 0 := by
  intro r after
  have hops : ∀ op ∈ [RegistryOp.setPortState ⟨⟨10⟩, 0⟩ .down, .invalidateForWorker ⟨ascii "w"⟩ 1],
      op.withdraws = true := by decide
  exact ⟨(withdrawals_add_none (FabricRegistry.reachable_after _) hops ⟨1⟩ ⟨2⟩ {}).1, by decide +kernel⟩

end FabricTopology

end NVSwitchFabric
