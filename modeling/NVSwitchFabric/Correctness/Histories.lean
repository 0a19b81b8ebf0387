import NVSwitchFabric.Correctness.Linearizable
import NVSwitchFabric.Correctness.WellFormed
import NVSwitchFabric.Lib.Ticket
import NVSwitchFabric.Lib.Window

/-!
# `Correctness.Histories` — what the registry remembers

The measurements and the decision log are bounded: a new entry drops the oldest. Both hold the end of the history that a
registry without bounds would hold, whatever was called in between and however threads took turns (`measurements_run`,
`decisions_logged`). Every decision that is returned is in that history once, under an id of its own.

An expiry unmatches the measurements that are stored, so a measurement in the history is matched exactly if there was
none since it was published (`published`).
-/

namespace NVSwitchFabric

open Lib

/-! ## Measurements -/

/-- Some of the operations expires the evidence. -/
def expires (ops : List RegistryOp) : Bool :=
  ops.any fun
    | .expireDynamicEvidence => true
    | _                      => false

/-- The measurements that operations publish, the first without an id being given `next`. -/
def published (next : UInt64) : List RegistryOp → List Measurement
  | [] => []
  | .publishMeasurement m :: ops =>
    { m with matched := !expires ops, id := if m.id.value = 0 then ⟨next⟩ else m.id } ::
      published (if m.id.value = 0 then next + 1 else next) ops
  | _ :: ops => published next ops

/-- The operations that write the measurements or the decision log. -/
def RegistryOp.remembered : RegistryOp → Bool
  | .publishMeasurement _ | .expireDynamicEvidence | .recordDecision _ | .route .. => true
  | _ => false

/-- The decision that an operation is handed to be logged. -/
def RegistryOp.recorded : RegistryOp → List RouteDecision
  | .recordDecision d => [d]
  | _                 => []

/-- An operation that writes neither leaves no trace in them. -/
theorem RegistryOp.quiet {op : RegistryOp} (hop : op.remembered = false) (next : UInt64) (ops : List RegistryOp) :
    expires (op :: ops) = expires ops ∧ published next (op :: ops) = published next ops ∧ op.recorded = [] := by
  cases op <;> first | exact ⟨rfl, rfl, rfl⟩ | nomatch hop

/-- A measurement after operations that have expired it or not. -/
def Measurement.unmatchedIf (expired : Bool) (m : Measurement) : Measurement :=
  if expired then { m with matched := false } else m

/-- What a registry holds beside the snapshot. -/
structure Memory where
  measurements      : List Measurement
  nextMeasurementId : UInt64
  decisionLog       : List RouteDecision
  nextDecisionId    : UInt64

namespace FabricRegistry

def memory (r : FabricRegistry) : Memory :=
  { measurements := r.measurements, nextMeasurementId := r.nextMeasurementId, decisionLog := r.decisionLog
    nextDecisionId := r.nextDecisionId }

theorem publish_memory (pre : String) (cand : FabricTopology) (r : FabricRegistry) :
    (r.publish pre cand).2.memory = r.memory := by
  unfold publish
  split <;> rfl

theorem mutate_memory (edit : FabricTopology → Result FabricTopology) (r : FabricRegistry) :
    (r.mutate edit).2.memory = r.memory := by
  unfold mutate
  split
  · rfl
  · exact publish_memory _ _ r

/-- Most operations remember nothing. -/
theorem exec_memory (r : FabricRegistry) {op : RegistryOp} (hop : op.remembered = false) :
    (r.exec op).memory = r.memory := by
  cases op with
  | setEpoch e => rfl
  | applyBulk e => exact publish_memory _ _ r
  | publishMeasurement m => nomatch hop
  | recordDecision d => nomatch hop
  | route src dst policy now => nomatch hop
  | expireDynamicEvidence => nomatch hop
  | _ => exact mutate_memory _ r

/-- An expiry unmatches the measurements. -/
theorem expire_memory (r : FabricRegistry) : (r.exec .expireDynamicEvidence).memory =
    { r.memory with measurements := r.measurements.map (Measurement.unmatchedIf true) } := mutate_memory _ _

/-- **The stored measurements** after any operations are the last of those that were ever stored. -/
theorem measurements_run {r : FabricRegistry} (hr : r.measurements.length ≤ Limits.kMaxMeasurements)
    (ops : List RegistryOp) : (runAll exec r ops).measurements =
      (r.measurements.map (Measurement.unmatchedIf (expires ops)) ++ published r.nextMeasurementId ops).rtake
        Limits.kMaxMeasurements := by
  induction ops generalizing r with
  | nil =>
    have hid : r.measurements.map (Measurement.unmatchedIf false) = r.measurements := List.map_id _
    show r.measurements = (r.measurements.map (Measurement.unmatchedIf false) ++ []).rtake _
    rw [hid, List.append_nil, rtake_of_length_le hr]
  | cons op ops ih =>
    have hquiet : (r.exec op).measurements = r.measurements → (r.exec op).nextMeasurementId = r.nextMeasurementId →
        expires (op :: ops) = expires ops →
        published r.nextMeasurementId (op :: ops) = published r.nextMeasurementId ops →
        (runAll exec r (op :: ops)).measurements = (r.measurements.map (Measurement.unmatchedIf (expires (op :: ops))) ++
          published r.nextMeasurementId (op :: ops)).rtake Limits.kMaxMeasurements := by
      intro hmeas hnext hexp hpub
      rw [hexp, hpub, ← hmeas, ← hnext]
      exact ih (hmeas ▸ hr)
    by_cases hremembered : op.remembered = false
    · obtain ⟨hexp, hpub, _⟩ := RegistryOp.quiet hremembered r.nextMeasurementId ops
      have hmemory := r.exec_memory hremembered
      exact hquiet (congrArg Memory.measurements hmemory) (congrArg Memory.nextMeasurementId hmemory) hexp hpub
    cases op with
    | publishMeasurement m =>
      let m' : Measurement := { m with matched := true, id := if m.id.value = 0 then ⟨r.nextMeasurementId⟩ else m.id }
      have hmeas : (r.exec (.publishMeasurement m)).measurements =
          (r.measurements ++ [m']).rtake Limits.kMaxMeasurements := trim_before hr (by decide) m'
      have hlast : m'.unmatchedIf (expires ops) =
          { m with matched := !expires ops, id := if m.id.value = 0 then ⟨r.nextMeasurementId⟩ else m.id } := by
        unfold Measurement.unmatchedIf
        cases expires ops <;> rfl
      have hlater := ih (r := r.exec (.publishMeasurement m)) (hmeas ▸ length_rtake_le _ _)
      rw [hmeas, ← rtake_map, rtake_append_rtake, List.map_append, List.map_singleton, hlast, List.append_assoc] at hlater
      exact hlater
    | expireDynamicEvidence =>
      have hmeas : (r.exec .expireDynamicEvidence).measurements = r.measurements.map (Measurement.unmatchedIf true) :=
        congrArg Memory.measurements r.expire_memory
      have hnext : (r.exec .expireDynamicEvidence).nextMeasurementId = r.nextMeasurementId :=
        congrArg Memory.nextMeasurementId r.expire_memory
      have honce : ∀ expired, Measurement.unmatchedIf expired ∘ Measurement.unmatchedIf true =
          Measurement.unmatchedIf true := by
        intro expired
        funext m
        unfold Measurement.unmatchedIf
        cases expired <;> rfl
      have hlater := ih (r := r.exec .expireDynamicEvidence) (by rw [hmeas, List.length_map]; exact hr)
      rw [hmeas, hnext, List.map_map, honce] at hlater
      exact hlater
    | recordDecision d => exact hquiet rfl rfl rfl rfl
    | route src dst policy now => exact hquiet rfl rfl rfl rfl
    | _ => exact absurd rfl hremembered

/-- **The decision log** after one operation. -/
theorem exec_decisionLog {r : FabricRegistry} (hr : r.decisionLog.length ≤ Limits.kMaxHistory) {op : RegistryOp}
    (hop : op.isRoute = false) :
    (r.exec op).decisionLog = (r.decisionLog ++ op.recorded).rtake Limits.kMaxHistory := by
  have hquiet : (r.exec op).decisionLog = r.decisionLog → op.recorded = [] →
      (r.exec op).decisionLog = (r.decisionLog ++ op.recorded).rtake Limits.kMaxHistory := by
    intro hlog hnone
    rw [hlog, hnone, List.append_nil, rtake_of_length_le hr]
  by_cases hremembered : op.remembered = false
  · exact hquiet (congrArg Memory.decisionLog (r.exec_memory hremembered)) (RegistryOp.quiet hremembered 0 []).2.2
  cases op with
  | publishMeasurement m => exact hquiet rfl rfl
  | recordDecision d => exact trim_after hr d
  | route src dst policy now => nomatch hop
  | expireDynamicEvidence => exact hquiet (congrArg Memory.decisionLog r.expire_memory) rfl
  | _ => exact absurd rfl hremembered

/-- The histories are within their bounds. -/
structure Bounded (r : FabricRegistry) : Prop where
  measurements : r.measurements.length ≤ Limits.kMaxMeasurements
  decisionLog  : r.decisionLog.length ≤ Limits.kMaxHistory

theorem Bounded.exec {r : FabricRegistry} (h : r.Bounded) (op : RegistryOp) : (r.exec op).Bounded := by
  constructor
  · have hone : (r.exec op).measurements = _ := measurements_run h.measurements [op]
    rw [hone]
    exact length_rtake_le _ _
  · cases hroute : op.isRoute with
    | false =>
      rw [exec_decisionLog h.decisionLog hroute]
      exact length_rtake_le _ _
    | true =>
      cases op with
      | route src dst policy now =>
        exact (congrArg List.length (trim_after h.decisionLog _)).trans_le (length_rtake_le _ _)
      | _ => nomatch hroute

/-- They always are. -/
theorem Reachable.bounded {r : FabricRegistry} (h : r.Reachable) : r.Bounded := by
  obtain ⟨r₀, hinit, hrun⟩ := h
  have hstart : r₀.Bounded := by
    rcases hinit with rfl | ⟨data, hread⟩
    · exact ⟨Nat.zero_le _, Nat.zero_le _⟩
    · obtain ⟨topo, _, rfl⟩ := deserialize_ok hread
      exact ⟨Nat.zero_le _, Nat.zero_le _⟩
  exact hrun.invariant (fun _ op hb _ => hb.exec op) hstart

end FabricRegistry

/-! ## Decisions -/

namespace SharedRegistry

variable {s start : SharedRegistry} {a : Turn} {turns : List Turn}

/-- What a turn logs: the decision it returns, or one it is handed. -/
def logs (s : SharedRegistry) (a : Turn) : List RouteDecision :=
  ((s.answer? a).map Prod.snd).toList ++ (Turn.ops [a]).flatMap RegistryOp.recorded

/-- What a run logs. -/
def logged (s : SharedRegistry) : List Turn → List RouteDecision
  | []         => []
  | a :: turns => s.logs a ++ logged (s.step a) turns

theorem step_decisionLog (hs : s.registry.decisionLog.length ≤ Limits.kMaxHistory) (a : Turn) :
    (s.step a).registry.decisionLog = (s.registry.decisionLog ++ s.logs a).rtake Limits.kMaxHistory := by
  have hquiet : (s.step a).registry.decisionLog = s.registry.decisionLog → s.logs a = [] →
      (s.step a).registry.decisionLog = (s.registry.decisionLog ++ s.logs a).rtake Limits.kMaxHistory := by
    intro hlog hnone
    rw [hlog, hnone, List.append_nil, rtake_of_length_le hs]
  have hgoes := s.goes_step a
  generalize s.step a = after at hquiet hgoes ⊢
  cases hgoes with
  | whole op hop =>
    have hlogs : s.logs (.whole op hop) = op.recorded := List.append_nil _
    rw [hlogs]
    exact FabricRegistry.exec_decisionLog hs hop
  | @log t d hfind =>
    have hlogs : s.logs (.log t) = [d] := by
      unfold logs
      rw [answer?_eq_some_iff.mpr ⟨rfl, hfind⟩]
      rfl
    rw [hlogs]
    exact trim_after hs d
  | waits hanswer hops =>
    refine hquiet rfl ?_
    unfold logs
    rw [hanswer, hops]
    rfl
  | _ => exact hquiet rfl rfl

theorem decisionLog_run (hs : s.registry.decisionLog.length ≤ Limits.kMaxHistory) (turns : List Turn) :
    (runAll step s turns).registry.decisionLog =
      (s.registry.decisionLog ++ s.logged turns).rtake Limits.kMaxHistory := by
  induction turns generalizing s with
  | nil =>
    show s.registry.decisionLog = (s.registry.decisionLog ++ []).rtake _
    rw [List.append_nil, rtake_of_length_le hs]
  | cons a turns ih =>
    have hone := step_decisionLog hs a
    show (runAll step (s.step a) turns).registry.decisionLog = _
    rw [ih (hone ▸ length_rtake_le _ _), hone, rtake_append_rtake, List.append_assoc]
    rfl

/-! ## Ids -/

/-- Only `number` draws an id. -/
theorem exec_nextDecisionId (r : FabricRegistry) {op : RegistryOp} (hop : op.isRoute = false) :
    (r.exec op).nextDecisionId = r.nextDecisionId := by
  by_cases hremembered : op.remembered = false
  · exact congrArg Memory.nextDecisionId (r.exec_memory hremembered)
  cases op with
  | publishMeasurement m => rfl
  | recordDecision d => rfl
  | route src dst policy now => nomatch hop
  | expireDynamicEvidence => exact congrArg Memory.nextDecisionId r.expire_memory
  | _ => exact absurd rfl hremembered

/-- The id that a thread has drawn and not returned a decision with. -/
def held (s : SharedRegistry) (t : Nat) : Option UInt64 := (s.calls.find? t).bind Progress.id?

theorem held_insert (s : SharedRegistry) (registry : FabricRegistry) (t : Nat) (p : Progress) :
    held { registry, calls := s.calls.insert t p } = Function.update s.held t p.id? := by
  funext i
  by_cases hi : i = t
  · subst hi
    rw [Function.update_self]
    unfold held
    rw [SortedMap.find?_insert_self]
    rfl
  · rw [Function.update_of_ne hi]
    unfold held
    rw [SortedMap.find?_insert_ne _ _ hi]

theorem held_erase (s : SharedRegistry) (registry : FabricRegistry) (t : Nat) :
    held { registry, calls := s.calls.erase t } = Function.update s.held t none := by
  funext i
  unfold held
  rw [SortedMap.find?_erase]
  by_cases hi : i = t
  · rw [if_pos hi, hi, Function.update_self]
    rfl
  · rw [if_neg hi, Function.update_of_ne hi]

/-- A turn that keeps the id of its thread keeps all. -/
theorem held_insert_same {t : Nat} {p : Progress} (registry : FabricRegistry) (h : s.held t = p.id?) :
    held { registry, calls := s.calls.insert t p } = s.held := by
  rw [held_insert, ← h, Function.update_eq_self]

/-- The ids of decisions. -/
def ids (answered : List (Nat × RouteDecision)) : List UInt64 := answered.map fun x => x.2.id.value

/-- **What a turn does to the ids.** -/
theorem step_drawn {first : UInt64} {n : Nat} {answered : List (Nat × RouteDecision)}
    (h : Drawn first n s.registry.nextDecisionId s.held (ids answered)) (hn : n < 2 ^ 64) (a : Turn) :
    ∃ m ≤ n + 1, Drawn first m (s.step a).registry.nextDecisionId (s.step a).held
      (ids (answered ++ (s.answer? a).toList)) := by
  have hkeep : s.answer? a = none → (s.step a).registry.nextDecisionId = s.registry.nextDecisionId →
      (s.step a).held = s.held → ∃ m ≤ n + 1, Drawn first m (s.step a).registry.nextDecisionId (s.step a).held
        (ids (answered ++ (s.answer? a).toList)) := by
    intro hnone hnext hheld
    refine ⟨n, Nat.le_succ n, ?_⟩
    rw [hnone, hnext, hheld, Option.toList_none, List.append_nil]
    exact h
  have hgoes := s.goes_step a
  generalize s.step a = after at hkeep hgoes ⊢
  cases hgoes with
  | whole op hop => exact hkeep rfl (exec_nextDecisionId s.registry hop) rfl
  | copy src dst policy hfind =>
    refine hkeep rfl rfl (held_insert_same _ ?_)
    unfold held
    rw [hfind]
    rfl
  | @number t call hfind =>
    have hnone : answered ++ (s.answer? (.number t)).toList = answered := List.append_nil _
    refine ⟨n + 1, le_rfl, ?_⟩
    rw [held_insert, hnone]
    exact h.draw hn t
  | compute now hfind =>
    refine hkeep rfl rfl (held_insert_same _ ?_)
    unfold held
    rw [hfind]
    exact congrArg (fun i : RouteDecisionId => some i.value) (RouteCall.decision_id _ _ _ now _).symm
  | @log t d hfind =>
    have hheld : s.held t = some d.id.value := by
      unfold held
      rw [hfind]
      rfl
    have hanswer : s.answer? (.log t) = some (t, d) := answer?_eq_some_iff.mpr ⟨rfl, hfind⟩
    refine ⟨n, Nat.le_succ n, ?_⟩
    rw [hanswer, held_erase]
    show Drawn first n s.registry.nextDecisionId _ (List.map _ (_ ++ _))
    rw [List.map_append]
    exact h.use hheld
  | waits hanswer _ => exact hkeep hanswer rfl rfl

theorem run_drawn {first : UInt64} {n : Nat} {answered : List (Nat × RouteDecision)}
    (h : Drawn first n s.registry.nextDecisionId s.held (ids answered)) (turns : List Turn) (hn : n + turns.length < 2 ^ 64) :
    ∃ m, Drawn first m (runAll step s turns).registry.nextDecisionId (runAll step s turns).held
      (ids (answered ++ s.answers turns)) := by
  induction turns generalizing s n answered with
  | nil => exact ⟨n, (List.append_nil answered).symm ▸ h⟩
  | cons a turns ih =>
    rw [List.length_cons] at hn
    obtain ⟨m, hm, hnext⟩ := step_drawn h (by omega) a
    obtain ⟨m', hlast⟩ := ih hnext (by omega)
    rw [List.append_assoc] at hlast
    exact ⟨m', hlast⟩

/-- **No decision is lost, and none is logged twice.** Let threads route and change the registry in any order. The decision
    log holds the last of the decisions that were returned or handed in, in the order in which that happened; and the
    decisions that were returned have ids of their own, as long as fewer than `2 ^ 64` turns were taken. -/
theorem decisions_logged {registry : FabricRegistry} (hreach : registry.Reachable) (turns : List Turn)
    (hturns : turns.length < 2 ^ 64) :
    (runAll step { registry } turns).registry.decisionLog =
        (registry.decisionLog ++ logged { registry } turns).rtake Limits.kMaxHistory ∧
      (ids (answers { registry } turns)).Nodup := by
  let start : SharedRegistry := { registry }
  have hdrawn : Drawn registry.nextDecisionId 0 start.registry.nextDecisionId start.held (ids []) := drawn_none _
  have hless : 0 + turns.length < 2 ^ 64 := by omega
  obtain ⟨_, hlast⟩ := run_drawn hdrawn turns hless
  exact ⟨decisionLog_run hreach.bounded.decisionLog turns, hlast.once⟩

theorem decisions_logged_twoThreads :
    (runAll step { registry := .new } twoThreads).registry.decisionLog =
        ([] ++ logged { registry := .new } twoThreads).rtake Limits.kMaxHistory ∧
      (ids (answers { registry := .new } twoThreads)).Nodup :=
  decisions_logged ⟨.new, Or.inl rfl, .refl⟩ twoThreads (by decide)

/-! ## Both histories -/

/-- **The measurements** that are stored are the last that were published. Each of them is matched unless evidence has
    expired since, and has an id of its own if it came without one. -/
theorem measurements_kept {registry : FabricRegistry} (hreach : registry.Reachable) (turns : List Turn) :
    (runAll step { registry } turns).registry.measurements =
      (registry.measurements.map (Measurement.unmatchedIf (expires (Turn.ops turns))) ++
        published registry.nextMeasurementId (Turn.ops turns)).rtake Limits.kMaxMeasurements := by
  have hsame := congrArg FabricRegistry.measurements (unlogged_run registry turns .empty)
  exact hsame.trans (FabricRegistry.measurements_run hreach.bounded.measurements _)

/-- A measurement, an expiry, and another measurement. -/
def measuredTurns : List Turn :=
  [.whole (.publishMeasurement { source := ⟨1⟩, destination := ⟨2⟩ }) rfl, .copy 0 ⟨1⟩ ⟨2⟩ {},
    .whole .expireDynamicEvidence rfl, .whole (.publishMeasurement { source := ⟨2⟩, destination := ⟨1⟩ }) rfl]

theorem measurements_kept_measuredTurns :
    (runAll step { registry := .new } measuredTurns).registry.measurements =
      ([] ++ [({ source := ⟨1⟩, destination := ⟨2⟩, id := ⟨1⟩, matched := false } : Measurement),
        { source := ⟨2⟩, destination := ⟨1⟩, id := ⟨2⟩, matched := true }]).rtake Limits.kMaxMeasurements :=
  measurements_kept ⟨.new, Or.inl rfl, .refl⟩ measuredTurns

end SharedRegistry

end NVSwitchFabric
