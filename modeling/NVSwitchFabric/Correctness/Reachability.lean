import NVSwitchFabric.Correctness.PartitionGate
import NVSwitchFabric.Correctness.UsablePaths

/-!
# `Correctness.Reachability` — what a reachability verdict accounts for

`deviceReachability` keeps, for each endpoint, the last partition in service that lists it (`partitionOf`), and blocks a
pair whose two last partitions differ (`Apart`). That is not the gate of `computeRoute`, which looks for one partition
that joins the pair: `gates_agree_iff` says on which pairs the two agree.

What is not blocked is reached when some path is enumerated (`reached_iff`), whatever the state of the switches on it,
and a device is reached from itself in any state. `reached_sound_iff` says what must not be the case for a verdict of
reachable to be borne out by a path.
-/

namespace NVSwitchFabric

open Lib

namespace FabricTopology

variable {t : FabricTopology} {src dst dev : DeviceId} {policy : RoutePolicy}

/-! ## The partition of an endpoint -/

/-- The partition is in service and lists the device. -/
def lists (dev : DeviceId) (p : FabricPartition) : Bool := p.inService && p.members.contains dev

/-- `srcPart`, `dstPart` of the source: the last partition in service that lists the device. -/
def partitionOf (t : FabricTopology) (dev : DeviceId) : Option FabricPartition :=
  t.partitions.entries.foldl (fun acc e =>
    if e.2.state.isStaleOrRevalidation then acc
    else if e.2.members.contains dev then some e.2 else acc) none

theorem lists_iff {p : FabricPartition} : lists dev p = true ↔ p.inService = true ∧ dev ∈ p.members := by
  unfold lists
  rw [Bool.and_eq_true, List.contains_iff_mem]

theorem lists_of_joins {p : FabricPartition} (hs : p.inService = true) :
    p.joins src dst = true ↔ lists src p = true ∧ lists dst p = true := by
  show (p.members.contains src && p.members.contains dst) = true ↔ _
  rw [Bool.and_eq_true, List.contains_iff_mem, List.contains_iff_mem, lists_iff, lists_iff]
  exact ⟨fun h => ⟨⟨hs, h.1⟩, hs, h.2⟩, fun h => ⟨h.1.2, h.2.2⟩⟩

theorem partitionOf_eq (t : FabricTopology) (dev : DeviceId) :
    t.partitionOf dev = (t.partitions.entries.reverse.find? fun e => lists dev e.2).map Prod.snd := by
  have hstep : (fun (acc : Option FabricPartition) (e : PartitionId × FabricPartition) =>
      if e.2.state.isStaleOrRevalidation then acc else if e.2.members.contains dev then some e.2 else acc) =
      fun acc e => if lists dev e.2 then some e.2 else acc := by
    funext acc e
    unfold lists FabricPartition.inService
    cases e.2.state.isStaleOrRevalidation <;> simp
  unfold partitionOf
  rw [hstep]
  have hvals := foldl_last_match (lists dev) (t.partitions.entries.map Prod.snd) none
  rw [List.foldl_map, Option.or_none, ← List.map_reverse, List.find?_map] at hvals
  exact hvals

theorem partitionOf_eq_some_iff (hkeyed : t.Keyed) {p : FabricPartition} :
    t.partitionOf dev = some p ↔ t.partitions.find? p.id = some p ∧ lists dev p = true ∧
      ∀ k' p', t.partitions.find? k' = some p' → lists dev p' = true → k' ≤ p.id := by
  rw [partitionOf_eq, Option.map_eq_some_iff]
  constructor
  · rintro ⟨⟨k, p'⟩, hfind, rfl⟩
    obtain ⟨hk, hrest⟩ := SortedMap.find?_reverse_eq_some_iff.mp hfind
    have hid : p'.id = k := hkeyed.partitions hk
    rw [hid]
    exact ⟨hk, hrest⟩
  · intro h
    exact ⟨(p.id, p), SortedMap.find?_reverse_eq_some_iff.mpr h, rfl⟩

theorem partitionOf_eq_none_iff :
    t.partitionOf dev = none ↔ ∀ k p, t.partitions.find? k = some p → lists dev p = false := by
  rw [partitionOf_eq, Option.map_eq_none_iff]
  exact SortedMap.find?_reverse_eq_none_iff

/-- Both devices are in partitions, and the last ones differ. -/
def Apart (t : FabricTopology) (src dst : DeviceId) : Prop :=
  ∃ sp dp, t.partitionOf src = some sp ∧ t.partitionOf dst = some dp ∧ sp.id ≠ dp.id

/-! ## The verdict -/

/-- The verdict is that `dst` can be reached from `src`. -/
def Reached (t : FabricTopology) (src dst : DeviceId) : Prop :=
  t.deviceReachability src dst = .reachable ∨ t.deviceReachability src dst = .reachableDegraded

/-- One of the two verdicts of `Reached`. -/
def positive (v : Reachability) : Bool := v = .reachable || v = .reachableDegraded

theorem reached_iff_positive : t.Reached src dst ↔ positive (t.deviceReachability src dst) = true := by
  unfold Reached positive
  rw [Bool.or_eq_true, decide_eq_true_iff, decide_eq_true_iff]

/-- A check with another verdict is one that has to be passed. -/
theorem positive_check {c : Prop} [Decidable c] {v w : Reachability} (hv : positive v = false) :
    positive (if c then v else w) = true ↔ ¬ c ∧ positive w = true := by
  by_cases h : c
  · rw [if_pos h, hv]
    simp [h]
  · rw [if_neg h]
    simp [h]

theorem endpoint_checks {st : EntityState} (h : endpointState st = true) :
    st.isStaleOrRevalidation = false ∧ st ≠ .unsupported ∧
      (decide (st = .down) || decide (st = .absent) || decide (st = .unreachable)) = false := by
  revert h
  cases st <;> simp [endpointState, usableState, EntityState.isStaleOrRevalidation]

/-- The last part of `deviceReachability`: the verdict from the paths, and what accounts for there being none. -/
def pathVerdict (t : FabricTopology) (src dst : DeviceId) : Reachability :=
  let paths := t.enumeratePaths src dst {}
  if paths.isEmpty then
    if t.switches.entries.any fun e => (decide (e.2.state = .down) || decide (e.2.state = .absent) ||
        decide (e.2.state = .unreachable)) || e.2.state.isStaleOrRevalidation then .switchDown
    else if t.ports.entries.any fun e => e.2.state = .down || e.2.state = .unreachable || e.2.state = .disabled ||
        e.2.state.isStaleOrRevalidation then .portDown
    else if t.switches.entries.any fun e => e.2.state.isStaleOrRevalidation then .revalidationRequired
    else .unreachable
  else if paths.any fun p => p.state = .up then .reachable
  else .reachableDegraded

/-- The partition check of `deviceReachability`. -/
def blocked (t : FabricTopology) (src dst : DeviceId) : Bool :=
  match t.partitionOf src, t.partitionOf dst with
  | some sp, some dp => sp.id ≠ dp.id
  | _, _ => false

theorem blocked_eq_true_iff : t.blocked src dst = true ↔ t.Apart src dst := by
  unfold blocked Apart
  cases hsp : t.partitionOf src with
  | none => simp
  | some sp =>
    cases hdp : t.partitionOf dst with
    | none => simp
    | some dp => simp

/-- The checks on two known devices, in their order. -/
theorem deviceReachability_eq {s d : DeviceRecord} (hs : t.lookupDevice src = some s) (hd : t.lookupDevice dst = some d) :
    t.deviceReachability src dst =
      if src = dst then .reachable
      else if s.state.isStaleOrRevalidation then .endpointStale
      else if d.state.isStaleOrRevalidation then .endpointStale
      else if s.state = .unsupported || d.state = .unsupported then .unsupported
      else if (s.state = .down || s.state = .absent || s.state = .unreachable) ||
          (d.state = .down || d.state = .absent || d.state = .unreachable) then .unreachable
      else if t.blocked src dst then .partitionBlocked
      else t.pathVerdict src dst := by
  have hpart : ∀ dev, t.partitions.entries.foldl (fun acc e =>
      if e.2.state.isStaleOrRevalidation then acc else if dev ∈ e.2.members then some e.2 else acc) none =
      t.partitionOf dev := by
    intro dev
    unfold partitionOf
    simp only [List.contains_iff_mem]
  unfold deviceReachability
  rw [hs, hd]
  dsimp only
  simp only [hpart]
  rfl

/-- Devices in endpoint states pass all checks up to the one of their partitions. -/
theorem deviceReachability_joinable (h : t.Joinable src dst) :
    t.deviceReachability src dst = if t.blocked src dst then .partitionBlocked else t.pathVerdict src dst := by
  obtain ⟨⟨s, hs, hsrc⟩, ⟨d, hd, hdst⟩, hne⟩ := h
  obtain ⟨hs₁, hs₂, hs₃⟩ := endpoint_checks hsrc
  obtain ⟨hd₁, hd₂, hd₃⟩ := endpoint_checks hdst
  rw [deviceReachability_eq hs hd, if_neg hne, hs₁, hd₁, hs₃, hd₃, decide_eq_false hs₂, decide_eq_false hd₂]
  rfl

theorem pathVerdict_ne_blocked : t.pathVerdict src dst ≠ .partitionBlocked := by
  unfold pathVerdict
  dsimp only
  split_ifs <;> simp

theorem pathVerdict_positive_iff : positive (t.pathVerdict src dst) = true ↔ t.enumeratePaths src dst {} ≠ [] := by
  rw [Ne, ← List.isEmpty_iff]
  unfold pathVerdict
  dsimp only
  by_cases hnone : (t.enumeratePaths src dst {}).isEmpty = true
  · rw [if_pos hnone]
    simp (disch := decide) only [positive_check]
    exact iff_of_false (fun h => Bool.false_ne_true h.2.2.2) (not_not.mpr hnone)
  · rw [if_neg hnone]
    refine iff_of_true ?_ hnone
    split <;> rfl

/-- **A pair in endpoint states is blocked iff the last partitions of its devices differ.** -/
theorem blocked_iff (h : t.Joinable src dst) : t.deviceReachability src dst = .partitionBlocked ↔ t.Apart src dst := by
  rw [deviceReachability_joinable h, ← blocked_eq_true_iff]
  split
  · next hblocked => exact iff_of_true rfl hblocked
  · next hopen => exact iff_of_false pathVerdict_ne_blocked hopen

/-- **A verdict of reachable** is one of a device on itself, or there is an enumerated path between the devices and their
    last partitions do not differ. -/
theorem reached_iff : t.Reached src dst ↔
    (src = dst ∧ ∃ s, t.lookupDevice src = some s) ∨
      (¬ t.Apart src dst ∧ t.enumeratePaths src dst {} ≠ []) := by
  rw [reached_iff_positive]
  by_cases hjoin : t.Joinable src dst
  · have hne := hjoin.distinct
    rw [deviceReachability_joinable hjoin, positive_check rfl, blocked_eq_true_iff, pathVerdict_positive_iff]
    exact ⟨Or.inr, fun h => h.resolve_left fun hself => hne hself.1⟩
  · have hnone : t.enumeratePaths src dst {} = [] := by
      by_contra hsome
      obtain ⟨q, hq⟩ := List.exists_mem_of_ne_nil _ hsome
      exact hjoin (joinable_of_enumerated hq).1
    -- no path, so only a device itself can be reached
    have hpath : ¬ positive (t.pathVerdict src dst) = true := fun h => pathVerdict_positive_iff.mp h hnone
    rw [hnone, or_iff_left (fun h => h.2 rfl)]
    constructor
    · intro h
      cases hs : t.lookupDevice src with
      | none =>
        unfold deviceReachability at h
        rw [hs] at h
        exact absurd h Bool.false_ne_true
      | some s =>
        cases hd : t.lookupDevice dst with
        | none =>
          unfold deviceReachability at h
          rw [hs, hd] at h
          exact absurd h Bool.false_ne_true
        | some d =>
          rw [deviceReachability_eq hs hd] at h
          by_cases heq : src = dst
          · exact ⟨heq, s, rfl⟩
          · rw [if_neg heq] at h
            simp (disch := decide) only [positive_check] at h
            exact absurd h.2.2.2.2.2 hpath
    · rintro ⟨rfl, s, hs⟩
      rw [deviceReachability_eq hs hs, if_pos rfl]
      rfl

/-! ## The two partition gates -/

/-- Some partition in service lists the device. -/
def Listed (t : FabricTopology) (dev : DeviceId) : Prop := ∃ k p, t.partitions.find? k = some p ∧ lists dev p = true

/-- The gates have the same partitions to go by: if any is in service, each device is listed by one; and if one joins the
    pair, the last one that lists either device joins the pair, too. -/
structure GatesAligned (t : FabricTopology) (src dst : DeviceId) : Prop where
  listed : (∃ k p, t.partitions.find? k = some p ∧ p.inService = true) → t.Listed src ∧ t.Listed dst
  joined : (∃ k p, t.partitions.find? k = some p ∧ p.inService = true ∧ p.joins src dst = true) →
    ∃ k p, t.partitions.find? k = some p ∧ p.inService = true ∧ p.joins src dst = true ∧
      ∀ k' p', t.partitions.find? k' = some p' → lists src p' = true ∨ lists dst p' = true → k' ≤ k

theorem listed_iff : t.Listed dev ↔ ∃ p, t.partitionOf dev = some p := by
  rw [← Option.isSome_iff_exists, ← Option.ne_none_iff_isSome, Ne, partitionOf_eq_none_iff]
  unfold Listed
  simp

/-- Partitions that are last for both devices are the same if one of them joins the pair. -/
theorem joined_iff (hkeyed : t.Keyed) {sp dp : FabricPartition} (hsp : t.partitionOf src = some sp)
    (hdp : t.partitionOf dst = some dp) :
    sp.id = dp.id ↔ ∃ k p, t.partitions.find? k = some p ∧ p.inService = true ∧ p.joins src dst = true ∧
      ∀ k' p', t.partitions.find? k' = some p' → lists src p' = true ∨ lists dst p' = true → k' ≤ k := by
  obtain ⟨hs, hslists, hsmax⟩ := (partitionOf_eq_some_iff hkeyed).mp hsp
  obtain ⟨hd, hdlists, hdmax⟩ := (partitionOf_eq_some_iff hkeyed).mp hdp
  constructor
  · intro hid
    have hsame : sp = dp := by
      rw [hid, hd] at hs
      exact (Option.some.inj hs).symm
    subst hsame
    have hservice := (lists_iff.mp hslists).1
    refine ⟨sp.id, sp, hs, hservice, (lists_of_joins hservice).mpr ⟨hslists, hdlists⟩, ?_⟩
    rintro k' p' hk' (hp' | hp')
    · exact hsmax k' p' hk' hp'
    · exact hdmax k' p' hk' hp'
  · rintro ⟨k, p, hk, hservice, hjoins, hmax⟩
    obtain ⟨hpsrc, hpdst⟩ := (lists_of_joins hservice).mp hjoins
    -- last for its device and last for either: the partition that joins them is both
    have hsk : sp.id = k := le_antisymm (hmax _ _ hs (Or.inl hslists)) (hsmax k p hk hpsrc)
    have hdk : dp.id = k := le_antisymm (hmax _ _ hd (Or.inr hdlists)) (hdmax k p hk hpdst)
    rw [hsk, hdk]

theorem apart_iff {sp dp : FabricPartition} (hsp : t.partitionOf src = some sp) (hdp : t.partitionOf dst = some dp) :
    t.Apart src dst ↔ sp.id ≠ dp.id := by
  unfold Apart
  rw [hsp, hdp]
  simp

theorem Apart.listed (h : t.Apart src dst) : t.Listed src ∧ t.Listed dst := by
  obtain ⟨sp, dp, hsp, hdp, _⟩ := h
  exact ⟨listed_iff.mpr ⟨sp, hsp⟩, listed_iff.mpr ⟨dp, hdp⟩⟩

/-- No partition joins a device that none of them lists. -/
theorem gateClosed_of_not_listed (hservice : ∃ k p, t.partitions.find? k = some p ∧ p.inService = true)
    (hno : ¬ (t.Listed src ∧ t.Listed dst)) : t.GateClosed src dst := by
  refine ⟨hservice, fun k p hk hps => Bool.eq_false_iff.mpr fun hjoins => hno ?_⟩
  obtain ⟨hpsrc, hpdst⟩ := (lists_of_joins hps).mp hjoins
  exact ⟨⟨k, p, hk, hpsrc⟩, k, p, hk, hpdst⟩

theorem gateClosed_iff (hservice : ∃ k p, t.partitions.find? k = some p ∧ p.inService = true) : t.GateClosed src dst ↔
    ¬ ∃ k p, t.partitions.find? k = some p ∧ p.inService = true ∧ p.joins src dst = true := by
  unfold GateClosed
  rw [and_iff_right hservice]
  simp

/-- Of listed devices, the gates agree exactly if the last partitions join the pair whenever any partition does. -/
theorem agree_iff_of_listed (hkeyed : t.Keyed) (hservice : ∃ k p, t.partitions.find? k = some p ∧ p.inService = true)
    (hlisted : t.Listed src ∧ t.Listed dst) :
    (t.Apart src dst ↔ t.GateClosed src dst) ↔ t.GatesAligned src dst := by
  obtain ⟨sp, hsp⟩ := listed_iff.mp hlisted.1
  obtain ⟨dp, hdp⟩ := listed_iff.mp hlisted.2
  rw [apart_iff hsp hdp, gateClosed_iff hservice, not_iff_not, joined_iff hkeyed hsp hdp]
  constructor
  · intro hiff
    exact ⟨fun _ => hlisted, hiff.mpr⟩
  · intro haligned
    refine ⟨?_, haligned.joined⟩
    rintro ⟨k, p, hk, hs, hjoins, _⟩
    exact ⟨k, p, hk, hs, hjoins⟩

/-- **When the two gates agree.** For distinct devices that are present and up, reachability is blocked exactly if the gate
    of a route refuses the pair, provided the gates are aligned on it, and only then. -/
theorem gates_agree_iff (hkeyed : t.Keyed) {s d : DeviceRecord} (hsrc : t.lookupDevice src = some s)
    (hdst : t.lookupDevice dst = some d) (hs : s.present = true ∧ s.state = .up)
    (hd : d.present = true ∧ d.state = .up) (hne : src ≠ dst) (hin : policy.insidePartition = true) :
    (t.deviceReachability src dst = .partitionBlocked ↔ t.gateRefuses src dst policy = true) ↔
      t.GatesAligned src dst := by
  have hjoin : t.Joinable src dst :=
    ⟨⟨s, hsrc, by rw [hs.2]; rfl⟩, ⟨d, hdst, by rw [hd.2]; rfl⟩, hne⟩
  rw [blocked_iff hjoin, gateRefuses_iff, and_iff_right hin]
  by_cases hservice : ∃ k p, t.partitions.find? k = some p ∧ p.inService = true
  · by_cases hlisted : t.Listed src ∧ t.Listed dst
    · exact agree_iff_of_listed hkeyed hservice hlisted
    · -- a device that is not listed: nothing to compare, and nothing that joins the pair
      have hclosed := gateClosed_of_not_listed hservice hlisted
      refine iff_of_false (fun hiff => hlisted (hiff.mpr hclosed).listed) fun haligned => hlisted ?_
      exact haligned.listed hservice
  · -- no partition in service: both gates are open
    have hapart : ¬ t.Apart src dst := by
      intro h
      obtain ⟨k, p, hk, hp⟩ := h.listed.1
      exact hservice ⟨k, p, hk, (lists_iff.mp hp).1⟩
    refine iff_of_true (iff_of_false hapart fun hclosed => hservice hclosed.1) ⟨?_, ?_⟩
    · exact fun h => absurd h hservice
    · rintro ⟨k, p, hk, hps, _⟩
      exact absurd ⟨k, p, hk, hps⟩ hservice

end FabricTopology

/-- The fabric of the split scenario: GPUs 1 and 2 in one partition, 3 and 4 in another. -/
def splitFabric : FabricTopology := (FabricRegistry.after [.applyBulk (buildSyntheticScan .partitionSplit)]).current

theorem splitFabric_keyed : splitFabric.Keyed := (FabricRegistry.reachable_after _).wellFormed.keyed

theorem splitFabric_device (id : DeviceId) (h : id = ⟨1⟩ ∨ id = ⟨3⟩) :
    ∃ rec, splitFabric.lookupDevice id = some rec ∧ rec.present = true ∧ rec.state = .up := by
  apply FabricTopology.device_of_any
  rcases h with rfl | rfl
  · decide +kernel
  · decide +kernel

/-- Across the split both gates are closed. -/
theorem gates_agree_split : splitFabric.GatesAligned ⟨1⟩ ⟨3⟩ := by
  obtain ⟨s, hsrc, hs⟩ := splitFabric_device ⟨1⟩ (Or.inl rfl)
  obtain ⟨d, hdst, hd⟩ := splitFabric_device ⟨3⟩ (Or.inr rfl)
  have hiff := @FabricTopology.gates_agree_iff splitFabric ⟨1⟩ ⟨3⟩ {} splitFabric_keyed s d hsrc hdst hs hd
    (by decide) rfl
  exact hiff.mp (iff_of_true (by decide +kernel) (by decide +kernel))

/-- One switch, two GPUs on it, and active partitions with the given members. -/
def partitioned (members : List (List DeviceId)) : FabricTopology :=
  (FabricRegistry.after (.applyBulk (buildSyntheticScan .singleSwitchTwoGpu) :: members.mapIdx fun i ids =>
    .publishPartition (makeSyntheticPartition ⟨decimal i⟩ ids [⟨10⟩] .active))).current

/-- The gates part in both directions: a partition that lists one of the devices closes the gate of a route only, and
    a second partition that lists one of two joined devices blocks reachability only. -/
theorem gates_disagree :
    let present (t : FabricTopology) := ∀ id ∈ [(⟨1⟩ : DeviceId), ⟨2⟩],
      (t.lookupDevice id).any (fun rec => rec.present && rec.state = .up) = true
    let oneSided := partitioned [[⟨1⟩]]
    let overlapping := partitioned [[⟨1⟩, ⟨2⟩], [⟨2⟩]]
    (present oneSided ∧ oneSided.partitions.size = 1 ∧
      oneSided.deviceReachability ⟨1⟩ ⟨2⟩ = .reachable ∧ oneSided.gateRefuses ⟨1⟩ ⟨2⟩ {} = true ∧
      (computeRoute oneSided ⟨1⟩ ⟨2⟩ {} [] ⟨1⟩ ⟨0⟩ ⟨[]⟩ 0 0).outcome = .partitionBlocked) ∧
    (present overlapping ∧ overlapping.partitions.size = 2 ∧
      overlapping.deviceReachability ⟨1⟩ ⟨2⟩ = .partitionBlocked ∧ overlapping.gateRefuses ⟨1⟩ ⟨2⟩ {} = false ∧
      (computeRoute overlapping ⟨1⟩ ⟨2⟩ {} [] ⟨1⟩ ⟨0⟩ ⟨[]⟩ 0 0).outcome = .routeAllowed) := by
  decide +kernel

/-! ## Verdicts and paths -/

namespace FabricTopology

variable {t : FabricTopology} {src dst : DeviceId}

/-- The links and the out-ports of the path are up or degraded. -/
structure Wired (t : FabricTopology) (q : FabricPath) : Prop where
  links    : ∀ l ∈ q.links, t.LinkUsable l
  outPorts : ∀ h ∈ q.hops, t.PortUsable h.outPort

/-- There is a device record in a state that counts as an endpoint: up, degraded or present. -/
def EndpointUp (t : FabricTopology) (dev : DeviceId) : Prop :=
  ∃ rec, t.lookupDevice dev = some rec ∧ endpointState rec.state = true

/-- A verdict of reachable is borne out: by the states of the devices, and by a path between them if there are two, all of
    whose switches, out-ports and links are up or degraded. -/
def ReachedSound (t : FabricTopology) (src dst : DeviceId) : Prop :=
  t.Reached src dst → t.EndpointUp src ∧ t.EndpointUp dst ∧
    (src ≠ dst → ∃ q, SwitchPath t src dst q ∧ t.Wired q ∧ ∀ s ∈ q.switchSequence, t.SwitchUsable s)

/-- An open path joins the devices, which repeats no switch and has at most as many as are searched. -/
def Connected (t : FabricTopology) (src dst : DeviceId) : Prop :=
  ∃ q, SwitchPath t src dst q ∧ q.switchSequence.Nodup ∧ q.switchSequence.length ≤ Limits.kMaxPathDepth ∧ t.Open q

/-- Switches that are neither up nor degraded cut the devices off: each path over usable links and out-ports crosses
    one. -/
def CutOff (t : FabricTopology) (src dst : DeviceId) : Prop :=
  ∀ q, SwitchPath t src dst q → t.Wired q → ∃ s ∈ q.switchSequence, ¬ t.SwitchUsable s

/-- Enumeration with the default bounds finds something iff the devices are connected. -/
theorem enumeratePaths_ne_nil_iff (hkeyed : t.Keyed) (hjoin : t.Joinable src dst) :
    t.enumeratePaths src dst {} ≠ [] ↔ t.Connected src dst := by
  have hbound : ({} : TraversalConfig).maxPaths.toNat ≠ 0 := by decide
  have hopen : ∀ q, q ∈ t.pathsInOrder src dst {} ↔ SwitchPath t src dst q ∧ q.switchSequence.Nodup ∧
      q.switchSequence.length ≤ Limits.kMaxPathDepth ∧ t.Open q :=
    fun q => mem_pathsInOrder_iff_open hkeyed rfl (by decide)
  rw [enumeratePaths_eq hjoin, Ne, List.take_eq_nil_iff, or_iff_right hbound]
  constructor
  · intro hsome
    obtain ⟨q, hq⟩ := List.exists_mem_of_ne_nil _ hsome
    exact ⟨q, (hopen q).mp hq⟩
  · rintro ⟨q, hq⟩
    exact List.ne_nil_of_mem ((hopen q).mpr hq)

/-- **When a verdict of reachable is borne out.** Of a device on itself: when it is in an endpoint state. Of two devices:
    unless they are in endpoint states, not in different partitions, connected, and cut off by switches. -/
theorem reached_sound_iff (hkeyed : t.Keyed) : t.ReachedSound src dst ↔
    (src = dst → ∀ rec, t.lookupDevice src = some rec → endpointState rec.state = true) ∧
      ¬ (t.Joinable src dst ∧ ¬ t.Apart src dst ∧ t.Connected src dst ∧ t.CutOff src dst) := by
  unfold ReachedSound
  rw [reached_iff]
  constructor
  · intro hsound
    constructor
    · rintro rfl rec hrec
      obtain ⟨⟨rec', hrec', hstate⟩, _⟩ := hsound (Or.inl ⟨rfl, rec, hrec⟩)
      obtain rfl := Option.some.inj (hrec.symm.trans hrec')
      exact hstate
    -- a connected pair is enumerated, so it is reached, whatever its switches are
    · rintro ⟨hjoin, hapart, hconn, hcut⟩
      have hreached := (enumeratePaths_ne_nil_iff hkeyed hjoin).mpr hconn
      obtain ⟨_, _, hpath⟩ := hsound (Or.inr ⟨hapart, hreached⟩)
      obtain ⟨q, hq, hwired, hswitches⟩ := hpath hjoin.distinct
      obtain ⟨s, hs, hbad⟩ := hcut q hq hwired
      exact hbad (hswitches s hs)
  · rintro ⟨hself, hnot⟩ (⟨rfl, rec, hrec⟩ | ⟨hapart, hsome⟩)
    · have hup : t.EndpointUp src := ⟨rec, hrec, hself rfl rec hrec⟩
      exact ⟨hup, hup, fun hne => absurd rfl hne⟩
    · obtain ⟨q, hq⟩ := List.exists_mem_of_ne_nil _ hsome
      have hjoin := (joinable_of_enumerated hq).1
      refine ⟨hjoin.source, hjoin.destination, fun _ => ?_⟩
      -- if no wired path has good switches, the pair is cut off
      by_contra hnone
      refine hnot ⟨hjoin, hapart, (enumeratePaths_ne_nil_iff hkeyed hjoin).mp hsome, ?_⟩
      intro q hq hwired
      by_contra hbad
      push Not at hbad
      exact hnone ⟨q, hq, hwired, hbad⟩

/-- A path begins on the switch of a link's port. -/
theorem Crossing.firstSwitch {p : Partial} (h : Crossing t src p) :
    ∃ id rec, t.links.find? id = some rec ∧ rec.port.sw ∈ p.switches := by
  induction h with
  | @enter sw e edge =>
    obtain ⟨id, rec, hrec, _, rfl⟩ := edge
    exact ⟨id, rec, hrec, List.mem_singleton.mpr rfl⟩
  | cross _ _ _ ih =>
    obtain ⟨id, rec, hrec, hmem⟩ := ih
    exact ⟨id, rec, hrec, List.mem_append_left _ hmem⟩

/-- If all links are on the ports of switches that are not usable, all devices are cut off. -/
theorem cutOff_of_links (h : ∀ e ∈ t.links.entries, ¬ t.SwitchUsable e.2.port.sw) : t.CutOff src dst := by
  intro q hq _
  cases hq with
  | leave known =>
    obtain ⟨id, rec, hrec, hmem⟩ := known.firstSwitch
    exact ⟨rec.port.sw, hmem, h (id, rec) (SortedMap.find?_eq_some_iff.mp hrec)⟩

end FabricTopology

/-- Across one switch that is up the verdict is borne out. -/
theorem reached_sound_singleSwitch :
    let t := (FabricRegistry.after [.applyBulk (buildSyntheticScan .singleSwitchTwoGpu)]).current
    t.Reached ⟨1⟩ ⟨2⟩ ∧ t.ReachedSound ⟨1⟩ ⟨2⟩ := by
  intro t
  have hkeyed : t.Keyed := (FabricRegistry.reachable_after _).wellFormed.keyed
  have hpath : ∃ q ∈ t.enumeratePaths ⟨1⟩ ⟨2⟩ {}, t.Usable q := by decide +kernel
  obtain ⟨q, hq, husable⟩ := hpath
  have hfound := FabricTopology.enumeratePaths_found hq
  refine ⟨Or.inl (by decide +kernel), (FabricTopology.reached_sound_iff hkeyed).mpr ⟨?_, ?_⟩⟩
  · intro heq
    exact absurd heq (by decide)
  · rintro ⟨_, _, _, hcut⟩
    obtain ⟨s, hs, hbad⟩ := hcut q hfound.switchPath ⟨husable.links, (hfound.isOpen hkeyed).outPorts⟩
    exact hbad (husable.switches s hs)

/-- Two verdicts of reachable that nothing bears out: over the only switch, which is down, and of a device on itself that
    is down. -/
theorem reached_unsound :
    let switchDown := (FabricRegistry.after [.applyBulk (buildSyntheticScan .singleSwitchTwoGpu),
      .setSwitchState ⟨10⟩ .down]).current
    let scan := buildSyntheticScan .singleSwitchTwoGpu
    let deviceDown := (FabricRegistry.after
      [.applyBulk { scan with devices := scan.devices.map fun d => { d with state := .down } }]).current
    (switchDown.checkIntegrity = [] ∧ switchDown.deviceReachability ⟨1⟩ ⟨2⟩ = .reachable ∧
      ¬ switchDown.ReachedSound ⟨1⟩ ⟨2⟩) ∧
    (deviceDown.checkIntegrity = [] ∧ deviceDown.deviceReachability ⟨1⟩ ⟨1⟩ = .reachable ∧
      ¬ deviceDown.ReachedSound ⟨1⟩ ⟨1⟩) := by
  intro switchDown scan deviceDown
  have hacross : switchDown.deviceReachability ⟨1⟩ ⟨2⟩ = .reachable := by decide +kernel
  have hself : deviceDown.deviceReachability ⟨1⟩ ⟨1⟩ = .reachable := by decide +kernel
  refine ⟨⟨by decide +kernel, hacross, fun hsound => ?_⟩, by decide +kernel, hself, fun hsound => ?_⟩
  · obtain ⟨_, _, hpath⟩ := hsound (Or.inl hacross)
    obtain ⟨q, hq, hwired, hswitches⟩ := hpath (by decide)
    have hcut : switchDown.CutOff ⟨1⟩ ⟨2⟩ := FabricTopology.cutOff_of_links (by decide +kernel)
    obtain ⟨s, hs, hbad⟩ := hcut q hq hwired
    exact hbad (hswitches s hs)
  · obtain ⟨⟨rec, hrec, hstate⟩, _⟩ := hsound (Or.inl hself)
    have hdown : (deviceDown.lookupDevice ⟨1⟩).all (fun rec => !endpointState rec.state) = true := by
      decide +kernel
    rw [hrec, Option.all_some, hstate] at hdown
    exact absurd hdown (by simp)

end NVSwitchFabric
