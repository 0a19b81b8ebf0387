import NVSwitchFabric.Correctness.Unlogged
import NVSwitchFabric.Runtime.Shared
import Mathlib.Data.List.Induction

/-!
# `Correctness.Linearizable` — concurrent routing

Threads route while others change the fabric. Every decision that a call returns is the one that a registry with a single
thread gives, at the moment at which the call has copied the snapshot and with the calls that were complete by then: no
decision mixes two states of the fabric. Only its ids are drawn later, and the epoch it is stamped with is the one of
the moment at which it is computed (`route_linearizable`).

The invariant of a run says of each call that is under way where in the run it has copied and computed (`Traced`).
-/

namespace NVSwitchFabric

open Lib

/-- A decision has the id that its call has drawn. -/
theorem RouteCall.decision_id (call : RouteCall) (did obs now : UInt64) (epoch : CoordinatorEpoch) :
    (call.decision did obs now epoch).id = ⟨did⟩ := by
  unfold decision
  rw [FabricRegistry.computeRoute_stamps]

namespace SharedRegistry

variable {s start : SharedRegistry} {t : Nat} {a : Turn} {turns : List Turn}

/-! ## One turn -/

/-- What a call has copied that is made now. -/
def copying (s : SharedRegistry) (src dst : DeviceId) (policy : RoutePolicy) : RouteCall :=
  { src, dst, policy, snap := s.registry.current, measCopy := s.registry.measurements }

theorem answer?_eq_some_iff {d : RouteDecision} :
    s.answer? a = some (t, d) ↔ a = .log t ∧ s.calls.find? t = some (.computed d) := by
  constructor
  · intro h
    cases a with
    | log t' =>
      unfold answer? at h
      dsimp only at h
      split at h
      · next d' hfind =>
        obtain ⟨rfl, rfl⟩ := Prod.mk.inj (Option.some.inj h)
        exact ⟨rfl, hfind⟩
      · exact absurd h (by simp)
    | _ => nomatch h
  · rintro ⟨rfl, hfind⟩
    unfold answer?
    dsimp only
    rw [hfind]

/-- How a turn goes. -/
inductive Goes (s : SharedRegistry) : Turn → SharedRegistry → Prop where
  | whole (op : RegistryOp) (h : op.isRoute = false) : Goes s (.whole op h) { s with registry := s.registry.exec op }
  | copy {t : Nat} (src dst : DeviceId) (policy : RoutePolicy) (hfind : s.calls.find? t = none) :
    Goes s (.copy t src dst policy) { s with calls := s.calls.insert t (.copied (s.copying src dst policy)) }
  | number {t : Nat} {call : RouteCall} (hfind : s.calls.find? t = some (.copied call)) :
    Goes s (.number t) {
      registry := { s.registry with
        nextDecisionId := s.registry.nextDecisionId + 1
        nextObservationId := s.registry.nextObservationId + 1 }
      calls := s.calls.insert t (.numbered call s.registry.nextDecisionId s.registry.nextObservationId) }
  | compute {t : Nat} {call : RouteCall} {did obs : UInt64} (now : UInt64)
    (hfind : s.calls.find? t = some (.numbered call did obs)) :
    Goes s (.compute t now)
      { s with calls := s.calls.insert t (.computed (call.decision did obs now s.registry.epoch)) }
  | log {t : Nat} {d : RouteDecision} (hfind : s.calls.find? t = some (.computed d)) :
    Goes s (.log t) { registry := s.registry.logDecision d, calls := s.calls.erase t }
  | waits {a : Turn} (hanswer : s.answer? a = none) (hops : Turn.ops [a] = []) : Goes s a s

/-- **Every turn goes one of these ways.** -/
theorem goes_step (s : SharedRegistry) (a : Turn) : s.Goes a (s.step a) := by
  cases a with
  | whole op h => exact .whole op h
  | copy t src dst policy =>
    unfold step
    dsimp only
    split
    · exact .waits rfl rfl
    · next hfind => exact .copy src dst policy hfind
  | number t =>
    unfold step
    dsimp only
    split
    · next hfind => exact .number hfind
    · exact .waits rfl rfl
  | compute t now =>
    unfold step
    dsimp only
    split
    · next hfind => exact .compute now hfind
    · exact .waits rfl rfl
  | log t =>
    unfold step
    dsimp only
    split
    · next hfind => exact .log hfind
    · next hother =>
      refine .waits ?_ rfl
      rw [Option.eq_none_iff_forall_ne_some]
      rintro ⟨t', d⟩ heq
      obtain ⟨hturn, hfind⟩ := answer?_eq_some_iff.mp heq
      obtain rfl := Turn.log.inj hturn
      exact hother d hfind

/-- A thread that is inside `route` after a turn has not returned in it. -/
theorem answer?_ne (h : (s.step a).calls.find? t ≠ none) (d : RouteDecision) : s.answer? a ≠ some (t, d) := by
  intro heq
  obtain ⟨rfl, hfind⟩ := answer?_eq_some_iff.mp heq
  refine h ?_
  unfold step
  dsimp only
  rw [hfind]
  dsimp only
  rw [SortedMap.find?_erase, if_pos rfl]

/-- **What a turn does to a call**: it goes on from where it was, or nothing happens to it. -/
theorem calls_step {p : Progress} (h : (s.step a).calls.find? t = some p) :
    s.calls.find? t = some p ∨
      (∃ src dst policy, a = .copy t src dst policy ∧ p = .copied (s.copying src dst policy)) ∨
      (∃ call, a = .number t ∧ s.calls.find? t = some (.copied call) ∧
        p = .numbered call s.registry.nextDecisionId s.registry.nextObservationId) ∨
      ∃ call did obs now, a = .compute t now ∧ s.calls.find? t = some (.numbered call did obs) ∧
        p = .computed (call.decision did obs now s.registry.epoch) := by
  have hput : ∀ {t' : Nat} {q : Progress}, (s.calls.insert t' q).find? t = some p →
      s.calls.find? t = some p ∨ t' = t ∧ p = q := by
    intro t' q hq
    by_cases heq : t = t'
    · subst heq
      rw [SortedMap.find?_insert_self] at hq
      exact Or.inr ⟨rfl, (Option.some.inj hq).symm⟩
    · rw [SortedMap.find?_insert_ne _ _ heq] at hq
      exact Or.inl hq
  have hgoes := s.goes_step a
  generalize s.step a = next at h hgoes
  cases hgoes with
  | whole op hop => exact Or.inl h
  | copy src dst policy _ =>
    rcases hput h with hold | ⟨rfl, rfl⟩
    · exact Or.inl hold
    · exact Or.inr (Or.inl ⟨src, dst, policy, rfl, rfl⟩)
  | number hfind =>
    rcases hput h with hold | ⟨rfl, rfl⟩
    · exact Or.inl hold
    · exact Or.inr (Or.inr (Or.inl ⟨_, rfl, hfind, rfl⟩))
  | compute now hfind =>
    rcases hput h with hold | ⟨rfl, rfl⟩
    · exact Or.inl hold
    · exact Or.inr (Or.inr (Or.inr ⟨_, _, _, now, rfl, hfind, rfl⟩))
  | log _ =>
    dsimp only at h
    rw [SortedMap.find?_erase] at h
    split at h
    · nomatch h
    · exact Or.inl h
  | waits => exact Or.inl h

/-- Only the calls that hold the lock throughout change what is not logged. -/
theorem unlogged_step (s : SharedRegistry) (a : Turn) :
    (s.step a).registry.unlogged = (runAll FabricRegistry.exec s.registry (Turn.ops [a])).unlogged := by
  have hgoes := s.goes_step a
  generalize s.step a = next at hgoes
  cases hgoes with
  | waits _ hops =>
    rw [hops]
    rfl
  | _ => rfl

/-! ## Runs -/

theorem answers_append (s : SharedRegistry) (turns later : List Turn) :
    s.answers (turns ++ later) = s.answers turns ++ (runAll step s turns).answers later := by
  induction turns generalizing s with
  | nil => rfl
  | cons a turns ih =>
    show (s.answer? a).toList ++ (s.step a).answers (turns ++ later) = _
    rw [ih, ← List.append_assoc]
    rfl

theorem answers_concat (s : SharedRegistry) (turns : List Turn) (a : Turn) :
    s.answers (turns ++ [a]) = s.answers turns ++ ((runAll step s turns).answer? a).toList := by
  rw [answers_append]
  exact congrArg _ (List.append_nil _)

theorem runAll_concat (s : SharedRegistry) (turns : List Turn) (a : Turn) :
    runAll step s (turns ++ [a]) = (runAll step s turns).step a := List.foldl_concat ..

/-- What is not logged is that of the single-threaded registry. -/
theorem unlogged_run (registry : FabricRegistry) (turns : List Turn) (calls : SortedMap Nat Progress) :
    (runAll step { registry, calls } turns).registry.unlogged =
      (runAll FabricRegistry.exec registry (Turn.ops turns)).unlogged := by
  induction turns using List.reverseRecOn with
  | nil => rfl
  | append_singleton turns a ih =>
    have hops : Turn.ops (turns ++ [a]) = Turn.ops turns ++ Turn.ops [a] := List.filterMap_append
    have hone : ∀ r r' : FabricRegistry, r.unlogged = r'.unlogged →
        (runAll FabricRegistry.exec r (Turn.ops [a])).unlogged = (runAll FabricRegistry.exec r' (Turn.ops [a])).unlogged := by
      intro r r' heq
      cases a with
      | whole op hop =>
        show (r.exec op).unlogged = (r'.exec op).unlogged
        rw [← r.exec_unlogged, heq, r'.exec_unlogged]
      | _ => exact heq
    have happ : runAll FabricRegistry.exec registry (Turn.ops turns ++ Turn.ops [a]) =
        runAll FabricRegistry.exec (runAll FabricRegistry.exec registry (Turn.ops turns)) (Turn.ops [a]) :=
      List.foldl_append ..
    rw [runAll_concat, unlogged_step, hone _ _ ih, hops, happ]

/-- A call of `t` has copied after `before`, and has not returned in what followed. -/
structure Under (start : SharedRegistry) (t : Nat) (before later : List Turn) (call : RouteCall) : Prop where
  copied : call = (runAll step start before).copying call.src call.dst call.policy
  silent : ∀ x ∈ (runAll step start before).answers (.copy t call.src call.dst call.policy :: later), x.1 ≠ t

/-- Where in a run a call has got where it is. -/
def Traced (start : SharedRegistry) (turns : List Turn) (t : Nat) : Progress → Prop
  | .copied call | .numbered call _ _ => ∃ before later,
    turns = before ++ .copy t call.src call.dst call.policy :: later ∧ Under start t before later call
  | .computed d => ∃ call before during now later did obs,
    turns = before ++ .copy t call.src call.dst call.policy :: (during ++ .compute t now :: later) ∧
      Under start t before (during ++ .compute t now :: later) call ∧
      d = call.decision did obs now
        (runAll step start (before ++ .copy t call.src call.dst call.policy :: during)).registry.epoch

theorem Under.concat {before later : List Turn} {call : RouteCall} (h : Under start t before later call)
    (hquiet : ∀ d, (runAll step start (before ++ .copy t call.src call.dst call.policy :: later)).answer? a ≠ some (t, d)) :
    Under start t before (later ++ [a]) call := by
  refine ⟨h.copied, ?_⟩
  rw [← List.cons_append, answers_concat]
  rintro ⟨t', d⟩ hx rfl
  rcases List.mem_append.mp hx with hold | hnew
  · exact h.silent _ hold rfl
  · have hrun : runAll step (runAll step start before) (.copy t' call.src call.dst call.policy :: later) =
        runAll step start (before ++ .copy t' call.src call.dst call.policy :: later) := (List.foldl_append ..).symm
    rw [hrun] at hnew
    exact hquiet d (Option.mem_toList.mp hnew)

/-- A turn that does nothing to a call leaves it traced. -/
theorem Traced.concat {p : Progress} (h : Traced start turns t p)
    (hquiet : ∀ d, (runAll step start turns).answer? a ≠ some (t, d)) : Traced start (turns ++ [a]) t p := by
  cases p with
  | copied call =>
    obtain ⟨before, later, rfl, hunder⟩ := h
    exact ⟨before, later ++ [a], by simp, hunder.concat hquiet⟩
  | numbered call did obs =>
    obtain ⟨before, later, rfl, hunder⟩ := h
    exact ⟨before, later ++ [a], by simp, hunder.concat hquiet⟩
  | computed d =>
    obtain ⟨call, before, during, now, later, did, obs, rfl, hunder, hd⟩ := h
    have hmore := hunder.concat hquiet
    rw [List.append_assoc, List.cons_append] at hmore
    exact ⟨call, before, during, now, later ++ [a], did, obs, by simp, hmore, hd⟩

/-- **Every call under way is traced.** -/
theorem traced_run {registry : FabricRegistry} {p : Progress} (h : (runAll step { registry } turns).calls.find? t = some p) :
    Traced { registry } turns t p := by
  induction turns using List.reverseRecOn generalizing p with
  | nil => exact absurd h (by simp [runAll])
  | append_singleton turns a ih =>
    rw [runAll_concat] at h
    have hquiet := answer?_ne (h ▸ Option.some_ne_none p : ((runAll step { registry } turns).step a).calls.find? t ≠ none)
    rcases calls_step h with hold | ⟨src, dst, policy, rfl, rfl⟩ | ⟨call, rfl, hold, rfl⟩ | ⟨call, did, obs, now, rfl, hold, rfl⟩
    · exact (ih hold).concat hquiet
    · refine ⟨turns, [], rfl, rfl, ?_⟩
      intro x hx
      nomatch hx
    · obtain ⟨before, later, rfl, hunder⟩ := ih hold
      exact ⟨before, later ++ [.number t], by simp, hunder.concat hquiet⟩
    · obtain ⟨before, later, rfl, hunder⟩ := ih hold
      exact ⟨call, before, later, now, [], did, obs, by simp, hunder.concat hquiet, rfl⟩

/-- The answers of a run are given by its turns. -/
theorem exists_of_mem_answers {d : RouteDecision} (h : (t, d) ∈ s.answers turns) :
    ∃ sofar rest, turns = sofar ++ .log t :: rest ∧ (runAll step s sofar).calls.find? t = some (.computed d) := by
  induction turns generalizing s with
  | nil => nomatch h
  | cons a turns ih =>
    rcases List.mem_append.mp h with hnow | hlater
    · obtain ⟨rfl, hfind⟩ := answer?_eq_some_iff.mp (Option.mem_toList.mp hnow)
      exact ⟨[], turns, rfl, hfind⟩
    · obtain ⟨sofar, rest, rfl, hfind⟩ := ih hlater
      exact ⟨a :: sofar, rest, rfl, hfind⟩

/-- What a call decides is what `route` would have decided where the call has copied, but for the ids and the epoch. -/
theorem decision_copying (s : SharedRegistry) (src dst : DeviceId) (policy : RoutePolicy) (did obs now : UInt64)
    (epoch : CoordinatorEpoch) : (s.copying src dst policy).decision did obs now epoch =
      { (s.registry.route src dst policy now).1 with id := ⟨did⟩, observation := ⟨obs⟩, epoch := epoch } := by
  unfold copying RouteCall.decision FabricRegistry.route
  dsimp only
  rw [FabricRegistry.computeRoute_stamps, FabricRegistry.computeRoute_stamps _ _ _ _ _ ⟨s.registry.nextDecisionId⟩]

/-- **A call that nothing comes between** is `route`. -/
theorem run_alone (hidle : s.calls.find? t = none) (src dst : DeviceId) (policy : RoutePolicy) (now : UInt64) :
    runAll step s (Turn.alone t src dst policy now) = { s with registry := (s.registry.route src dst policy now).2 } ∧
      s.answers (Turn.alone t src dst policy now) = [(t, (s.registry.route src dst policy now).1)] := by
  let call := s.copying src dst policy
  let d := call.decision s.registry.nextDecisionId s.registry.nextObservationId now s.registry.epoch
  have hd : d = (s.registry.route src dst policy now).1 := rfl
  let copied : SharedRegistry := { s with calls := s.calls.insert t (.copied call) }
  let numbered := copied.step (.number t)
  let computed := numbered.step (.compute t now)
  have hcopied : s.step (.copy t src dst policy) = copied := by
    unfold step
    dsimp only
    rw [hidle]
    rfl
  have hnumbered : numbered.calls = copied.calls.insert t
      (.numbered call s.registry.nextDecisionId s.registry.nextObservationId) ∧
      numbered.registry = { s.registry with
        nextDecisionId := s.registry.nextDecisionId + 1
        nextObservationId := s.registry.nextObservationId + 1 } := by
    have hfind : copied.calls.find? t = some (.copied call) := SortedMap.find?_insert_self _ _ _
    unfold numbered step
    dsimp only
    rw [hfind]
    exact ⟨rfl, rfl⟩
  have hcomputed : computed.calls = numbered.calls.insert t (.computed d) ∧ computed.registry = numbered.registry := by
    have hfind : numbered.calls.find? t =
        some (.numbered call s.registry.nextDecisionId s.registry.nextObservationId) := by
      rw [hnumbered.1, SortedMap.find?_insert_self]
    unfold computed step
    dsimp only
    rw [hfind]
    refine ⟨?_, rfl⟩
    dsimp only
    rw [hnumbered.2]
  have hfind : computed.calls.find? t = some (.computed d) := by
    rw [hcomputed.1, SortedMap.find?_insert_self]
  have hcalls : computed.calls.erase t = s.calls := by
    apply SortedMap.ext_find?
    intro i
    rw [SortedMap.find?_erase, hcomputed.1, hnumbered.1]
    split
    · next heq => rw [heq, hidle]
    · next hne =>
      rw [SortedMap.find?_insert_ne _ _ hne, SortedMap.find?_insert_ne _ _ hne, SortedMap.find?_insert_ne _ _ hne]
  have hlog : computed.step (.log t) = { s with registry := (s.registry.route src dst policy now).2 } := by
    unfold step
    dsimp only
    rw [hfind]
    dsimp only
    rw [hcalls, hcomputed.2, hnumbered.2, hd]
    rfl
  constructor
  · show ((((s.step (.copy t src dst policy)).step (.number t)).step (.compute t now)).step (.log t)) = _
    rw [hcopied]
    exact hlog
  · have hanswer : computed.answer? (.log t) = some (t, d) := answer?_eq_some_iff.mpr ⟨rfl, hfind⟩
    show (((s.step (.copy t src dst policy)).step (.number t)).step (.compute t now)).answers [.log t] = _
    rw [hcopied]
    show (computed.answer? (.log t)).toList ++ [] = _
    rw [hanswer]
    rfl

/-- **Routing is linearizable.** Let threads take turns in any order. A decision that `route` returns to one of them is
    the decision of a registry with a single thread that has been through the calls that were complete when the snapshot
    was copied, but for its two ids and for the epoch, which is the one at the turn that computes it. -/
theorem route_linearizable (registry : FabricRegistry) (turns : List Turn) (t : Nat) (d : RouteDecision)
    (h : (t, d) ∈ answers { registry } turns) :
    ∃ before src dst policy during now later rest,
      turns = before ++ .copy t src dst policy :: (during ++ .compute t now :: later) ++ .log t :: rest ∧
      (∀ x ∈ (runAll step { registry } before).answers (.copy t src dst policy :: (during ++ .compute t now :: later)),
        x.1 ≠ t) ∧
      let r := runAll FabricRegistry.exec registry (Turn.ops before)
      d = { (r.route src dst policy now).1 with
        id := d.id, observation := d.observation, epoch := (runAll FabricRegistry.exec r (Turn.ops during)).epoch } := by
  obtain ⟨sofar, rest, rfl, hfind⟩ := exists_of_mem_answers h
  obtain ⟨call, before, during, now, later, did, obs, rfl, hunder, hd⟩ := traced_run hfind
  refine ⟨before, call.src, call.dst, call.policy, during, now, later, rest, rfl, hunder.silent, ?_⟩
  intro r
  have hr : (runAll step { registry } before).registry.unlogged = r.unlogged := unlogged_run registry before _
  have hops : Turn.ops (before ++ .copy t call.src call.dst call.policy :: during) =
      Turn.ops before ++ Turn.ops during := List.filterMap_append
  have hepoch : (runAll step { registry } (before ++ .copy t call.src call.dst call.policy :: during)).registry.epoch =
      (runAll FabricRegistry.exec r (Turn.ops during)).epoch := by
    have hunlogged := unlogged_run registry (before ++ .copy t call.src call.dst call.policy :: during) .empty
    rw [hops] at hunlogged
    have happ : runAll FabricRegistry.exec registry (Turn.ops before ++ Turn.ops during) =
        runAll FabricRegistry.exec r (Turn.ops during) := List.foldl_append ..
    rw [happ] at hunlogged
    have hsame := congrArg FabricRegistry.epoch hunlogged
    exact hsame
  rw [hepoch, hunder.copied, decision_copying, FabricRegistry.route_unlogged, hr] at hd
  rw [r.route_unlogged, hd]

/-- Two threads route, and the epoch is set while both are inside. -/
def twoThreads : List Turn :=
  [.copy 0 ⟨1⟩ ⟨2⟩ {}, .copy 1 ⟨2⟩ ⟨1⟩ {}, .number 1, .whole (.setEpoch 7) rfl, .number 0, .compute 0 5, .compute 1 6,
    .log 1, .log 0]

theorem route_linearizable_twoThreads :
    ∃ d, (0, d) ∈ answers { registry := .new } twoThreads ∧ ∃ before src dst policy now during,
      let r := runAll FabricRegistry.exec .new (Turn.ops before)
      d = { (r.route src dst policy now).1 with
        id := d.id, observation := d.observation, epoch := (runAll FabricRegistry.exec r (Turn.ops during)).epoch } := by
  have hreturned : ((answers { registry := .new } twoThreads).any fun x => x.1 = 0) = true := by decide +kernel
  obtain ⟨⟨t, d⟩, hmem, ht⟩ := List.any_eq_true.mp hreturned
  obtain rfl : t = 0 := of_decide_eq_true ht
  obtain ⟨before, src, dst, policy, during, now, _, _, _, _, hd⟩ := route_linearizable .new twoThreads 0 d hmem
  exact ⟨d, hmem, before, src, dst, policy, now, during, hd⟩

end SharedRegistry

end NVSwitchFabric
