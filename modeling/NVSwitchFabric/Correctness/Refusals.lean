import NVSwitchFabric.Correctness.Agreement

/-!
# `Correctness.Refusals` — why a route is refused

A refusal carries an outcome, and the outcome is all that a worker learns. `Cause` says what each outcome is returned for:
the state of the endpoints, the partition gate, that there is no way through usable links within the hop limit (`NoWay`),
or the hard filters. A switch or port that is named is one that is out of service, though not one that the way would have
to go through. There is no cause for `STALE_TOPOLOGY`, `INSUFFICIENT_EVIDENCE`, `POLICY_REJECTED` and `UNSUPPORTED`
(`route_cause`).
-/

namespace NVSwitchFabric

open Lib

namespace FabricTopology

variable {t : FabricTopology} {src dst : DeviceId} {policy : RoutePolicy}

/-! ## No way -/

/-- No way leads from device to device over usable links within the hop limit. -/
def NoWay (t : FabricTopology) (src dst : DeviceId) (policy : RoutePolicy) : Prop :=
  ¬ t.Joinable src dst ∨ policy.maxAllowedHops = RoutePolicy.lastHopLimit ∨
    ∀ sws ls, t.SwitchWalk LinkRecord.Usable src dst sws ls →
      min policy.maxAllowedHops.toNat Limits.kMaxPathDepth < sws.length

/-- **Nothing is enumerated** iff there is no way. -/
theorem noWay_iff (hwf : t.WellFormed) : t.enumeratePaths src dst policy.traversal = [] ↔ t.NoWay src dst policy := by
  constructor
  · intro hnone
    by_contra hway
    simp only [NoWay, not_or, not_not, not_forall, not_lt] at hway
    obtain ⟨hjoin, hlast, sws, ls, hwalk, hlen⟩ := hway
    have hroom : policy.traversal.maxPaths ≠ 0 := by
      intro hzero
      have hpaths := traversal_maxPaths policy
      rw [hzero, toNat_min, toNat_hopLimit_add_one hlast] at hpaths
      have hsome : 0 < min (policy.maxAllowedHops.toNat + 1) (UInt64.ofNat Limits.kMaxCandidatePaths).toNat :=
        lt_min (Nat.succ_pos _) (by decide)
      exact hsome.ne hpaths
    obtain ⟨q, hq⟩ := head_of_walk hwf (show policy.traversal.allowSwitchSwitching = true from rfl) hroom hjoin hwalk
      (by rw [traversal_maxDepth]; exact hlen)
    rw [hnone] at hq
    nomatch hq
  · intro hway
    by_contra hsome
    obtain ⟨q, hq⟩ := List.exists_mem_of_ne_nil _ hsome
    obtain ⟨hjoin, hdepth⟩ := joinable_of_enumerated hq
    rcases hway with hno | hlast | hlong
    · exact hno hjoin
    · have hpolicy : policy = { policy with maxAllowedHops := RoutePolicy.lastHopLimit } := by rw [← hlast]
      rw [hpolicy, enumeratePaths_lastHopLimit] at hq
      nomatch hq
    · obtain ⟨hwalk, hwithin⟩ := (enumeratePaths_found hq).walk hwf.keyed hwf.integral hdepth
      have hshort := hwithin.depth
      rw [traversal_maxDepth] at hshort
      exact absurd (hlong _ _ hwalk) (not_lt.mpr hshort)

/-! ## Causes -/

/-- The switch does not count as in service. -/
def switchOut (st : EntityState) : Bool :=
  (st = .down || st = .absent || st = .unreachable) || st.isStaleOrRevalidation

/-- The port does not count as in service. -/
def portOut (st : EntityState) : Bool :=
  st = .down || st = .unreachable || st = .disabled || st.isStaleOrRevalidation

/-- What an outcome is returned for. -/
inductive Cause (t : FabricTopology) (src dst : DeviceId) (policy : RoutePolicy) : RouteOutcome → Prop where
  | granted {o : RouteOutcome} (allowed : o.isAllowed = true)
      (path : ∃ q ∈ t.considered src dst policy, t.hardFilter policy q = true) : Cause t src dst policy o
  | unknown (device : t.lookupDevice src = none ∨ t.lookupDevice dst = none) : Cause t src dst policy .noRoute
  | absent {s : DeviceRecord} (device : t.lookupDevice src = some s ∨ t.lookupDevice dst = some s)
      (gone : s.present = false) : Cause t src dst policy .noRoute
  | same (endpoints : src = dst) : Cause t src dst policy .noRoute
  | outdated {s : DeviceRecord} (device : t.lookupDevice src = some s ∨ t.lookupDevice dst = some s)
      (state : currentState s.state = false) : Cause t src dst policy .revalidationRequired
  | gateStale (inside : policy.insidePartition = true) (closed : t.GateClosed src dst)
      (stale : ∃ id part, t.partitions.find? id = some part ∧ part.state = .stale) : Cause t src dst policy .stalePartition
  | gate (inside : policy.insidePartition = true) (closed : t.GateClosed src dst)
      (fresh : ∀ id part, t.partitions.find? id = some part → part.state ≠ .stale) : Cause t src dst policy .partitionBlocked
  | apart (way : t.NoWay src dst policy) (partitions : t.Apart src dst) : Cause t src dst policy .partitionBlocked
  | switch (way : t.NoWay src dst policy)
      (out : ∃ id rec, t.switches.find? id = some rec ∧ switchOut rec.state = true) : Cause t src dst policy .switchDown
  | port (way : t.NoWay src dst policy) (switches : t.switches.All fun rec => switchOut rec.state = false)
      (out : ∃ id rec, t.ports.find? id = some rec ∧ portOut rec.state = true) : Cause t src dst policy .portDown
  | noWay (way : t.NoWay src dst policy) : Cause t src dst policy .noRoute
  | filteredStale (path : ¬ t.NoWay src dst policy) (filtered : ∀ q ∈ t.considered src dst policy, t.hardFilter policy q = false)
      (stale : ∃ id rec, t.switches.find? id = some rec ∧ rec.state.isStaleOrRevalidation = true) :
      Cause t src dst policy .staleSwitch
  | filtered (path : ¬ t.NoWay src dst policy) (filtered : ∀ q ∈ t.considered src dst policy, t.hardFilter policy q = false)
      (fresh : t.switches.All fun rec => rec.state.isStaleOrRevalidation = false) : Cause t src dst policy .noRoute

/-- The endpoint checks. -/
theorem cause_of_admit {o : RouteOutcome} {reason : String} (h : admitEndpoints t src dst = some (o, reason)) :
    t.Cause src dst policy o := by
  unfold admitEndpoints at h
  cases hs : t.lookupDevice src with
  | none =>
    rw [hs] at h
    obtain ⟨rfl, -⟩ := Prod.mk.inj (Option.some.inj h)
    exact .unknown (Or.inl hs)
  | some s =>
    cases hdd : t.lookupDevice dst with
    | none =>
      rw [hs, hdd] at h
      obtain ⟨rfl, -⟩ := Prod.mk.inj (Option.some.inj h)
      exact .unknown (Or.inr hdd)
    | some dd =>
      rw [hs, hdd] at h
      dsimp only at h
      split at h
      · next habsent =>
        obtain ⟨rfl, -⟩ := Prod.mk.inj (Option.some.inj h)
        rw [Bool.or_eq_true, Bool.not_eq_true', Bool.not_eq_true'] at habsent
        exact habsent.elim (.absent (Or.inl hs)) (.absent (Or.inr hdd))
      split at h
      · next hsame =>
        obtain ⟨rfl, -⟩ := Prod.mk.inj (Option.some.inj h)
        exact .same hsame
      split at h
      · next hold =>
        obtain ⟨rfl, -⟩ := Prod.mk.inj (Option.some.inj h)
        exact .outdated (Or.inl hs) (by simpa using hold)
      split at h
      · next hold =>
        obtain ⟨rfl, -⟩ := Prod.mk.inj (Option.some.inj h)
        exact .outdated (Or.inr hdd) (by simpa using hold)
      next hsrc hdst =>
      split at h
      · next hunsupported =>
        -- an unsupported endpoint is not current
        rw [Bool.or_eq_true, decide_eq_true_iff, decide_eq_true_iff] at hunsupported
        rcases hunsupported with heq | heq
        · rw [heq] at hsrc
          exact absurd rfl hsrc
        · rw [heq] at hdst
          exact absurd rfl hdst
      · nomatch h

/-- Endpoints that pass the checks are known, distinct and current. -/
theorem admitted {s dd : DeviceRecord} (h : admitEndpoints t src dst = none) (hs : t.lookupDevice src = some s)
    (hdd : t.lookupDevice dst = some dd) : src ≠ dst ∧ currentState s.state = true ∧ currentState dd.state = true := by
  unfold admitEndpoints at h
  rw [hs, hdd] at h
  dsimp only at h
  split_ifs at h with _ hne hsrc hdst
  exact ⟨hne, by simpa using hsrc, by simpa using hdst⟩

/-- A current state passes the endpoint checks of reachability. -/
theorem current_checks {st : EntityState} (h : currentState st = true) :
    st.isStaleOrRevalidation = false ∧ st ≠ .unsupported ∧
      (decide (st = .down) || decide (st = .absent) || decide (st = .unreachable)) = false := by
  revert h
  cases st <;> simp [currentState, EntityState.isStaleOrRevalidation]

/-- So reachability of an admitted pair is decided by its partitions and paths. -/
theorem deviceReachability_admitted (h : admitEndpoints t src dst = none) :
    t.deviceReachability src dst = if t.blocked src dst then .partitionBlocked else t.pathVerdict src dst := by
  cases hs : t.lookupDevice src with
  | none =>
    unfold admitEndpoints at h
    rw [hs] at h
    nomatch h
  | some s =>
    cases hdd : t.lookupDevice dst with
    | none =>
      unfold admitEndpoints at h
      rw [hs, hdd] at h
      nomatch h
    | some dd =>
      obtain ⟨hne, hsrc, hdst⟩ := admitted h hs hdd
      obtain ⟨hs₁, hs₂, hs₃⟩ := current_checks hsrc
      obtain ⟨hd₁, hd₂, hd₃⟩ := current_checks hdst
      rw [deviceReachability_eq hs hdd, if_neg hne, hs₁, hd₁, hs₃, hd₃, decide_eq_false hs₂, decide_eq_false hd₂]
      rfl

theorem exists_of_any {κ α : Type} [LinearOrder κ] {m : SortedMap κ α} {p : α → Bool}
    (h : (m.entries.any fun e => p e.2) = true) : ∃ k v, m.find? k = some v ∧ p v = true := by
  obtain ⟨e, he, hp⟩ := List.any_eq_true.mp h
  exact ⟨e.1, e.2, SortedMap.find?_eq_some_iff.mpr he, hp⟩

/-- The refusal of a pair for which nothing is enumerated. -/
theorem cause_of_noWay (hadm : admitEndpoints t src dst = none) (hway : t.NoWay src dst policy) :
    t.Cause src dst policy (noPathOutcome (t.deviceReachability src dst)).1 := by
  rw [deviceReachability_admitted hadm]
  by_cases hblocked : t.blocked src dst = true
  · rw [if_pos hblocked]
    exact .apart hway (blocked_eq_true_iff.mp hblocked)
  rw [if_neg hblocked]
  unfold pathVerdict
  dsimp only
  split
  · show t.Cause src dst policy (noPathOutcome (if (t.switches.entries.any fun e => switchOut e.2.state) = true then _
      else if (t.ports.entries.any fun e => portOut e.2.state) = true then _ else if _ then _ else _)).1
    split
    · next hany => exact .switch hway (exists_of_any hany)
    next hswitches =>
    have hall : t.switches.All fun rec => switchOut rec.state = false :=
      SortedMap.All.any_eq_false_iff.mp (Bool.not_eq_true _ ▸ hswitches)
    split
    · next hany => exact .port hway hall (exists_of_any hany)
    split
    · next hstale =>
      -- a stale switch is out of service as well
      obtain ⟨id, rec, hrec, hold⟩ := exists_of_any (p := fun rec : SwitchRecord => rec.state.isStaleOrRevalidation) hstale
      have hin : switchOut rec.state = false := hall hrec
      unfold switchOut at hin
      rw [hold, Bool.or_true] at hin
      nomatch hin
    · exact .noWay hway
  · split
    · exact .noWay hway
    · exact .noWay hway

/-- **Every outcome has its cause.** -/
theorem cause_computeRoute (hwf : t.WellFormed) (measurements : List Measurement) (id : RouteDecisionId) (gen : RouteGeneration)
    (snapshotId : TopologySnapshotId) (now : UInt64) (epoch : CoordinatorEpoch) :
    t.Cause src dst policy (computeRoute t src dst policy measurements id gen snapshotId now epoch).outcome := by
  have hsearch : t.enumeratePaths src dst policy.traversal = t.considered src dst policy := considered_eq hwf.keyed
  by_cases hgranted : ∃ best, Granted t src dst policy measurements best
  · have hallowed : (computeRoute t src dst policy measurements id gen snapshotId now epoch).outcome.isAllowed = true :=
      computeRoute_allowed_iff.mpr hgranted
    obtain ⟨_, _, hpath⟩ := granted_iff_exists.mp hgranted
    exact .granted hallowed (hsearch ▸ hpath)
  unfold computeRoute
  cases hadm : admitEndpoints t src dst with
  | some refusal => exact cause_of_admit hadm
  | none =>
    dsimp only
    split
    · next hgate =>
      obtain ⟨hinside, hclosed⟩ := gateRefuses_iff.mp hgate
      show t.Cause src dst policy (if t.anyStalePartition = true then _ else _)
      split
      · next hstale =>
        obtain ⟨k, part, hpart, hold⟩ := exists_of_any (p := fun part : FabricPartition => decide (part.state = .stale)) hstale
        exact .gateStale hinside hclosed ⟨k, part, hpart, of_decide_eq_true hold⟩
      · next hfresh =>
        refine .gate hinside hclosed fun k part hpart hold => hfresh ?_
        exact List.any_eq_true.mpr ⟨(k, part), SortedMap.find?_eq_some_iff.mp hpart, decide_eq_true hold⟩
    next hgate =>
    rw [Bool.not_eq_true] at hgate
    split
    · next hempty =>
      exact cause_of_noWay hadm ((noWay_iff hwf).mp (List.isEmpty_iff.mp hempty))
    next hsome =>
    have hpath : ¬ t.NoWay src dst policy := fun hway => hsome (List.isEmpty_iff.mpr ((noWay_iff hwf).mpr hway))
    have hfiltered : ∀ q ∈ t.considered src dst policy, t.hardFilter policy q = false := by
      intro q hq
      by_contra hpasses
      exact hgranted (granted_iff_exists.mpr ⟨hadm, hgate, q, hsearch ▸ hq, by simpa using hpasses⟩)
    split
    · show t.Cause src dst policy (if _ then _ else _)
      split
      · next hstale => exact .filteredStale hpath hfiltered (exists_of_any hstale)
      · next hfresh =>
        exact .filtered hpath hfiltered (SortedMap.All.any_eq_false_iff.mp (Bool.eq_false_iff.mpr hfresh))
    · next best ranked hranked =>
      have hfirst : (rankedPaths t src dst policy measurements).head? = some best := congrArg List.head? hranked
      exact absurd ⟨best, hadm, hgate, hfirst⟩ hgranted

end FabricTopology

/-! ## Routes -/

namespace FabricRegistry

variable {r : FabricRegistry} {src dst : DeviceId} {policy : RoutePolicy}

end FabricRegistry

end NVSwitchFabric
