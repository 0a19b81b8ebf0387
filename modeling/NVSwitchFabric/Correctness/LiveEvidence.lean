import NVSwitchFabric.Correctness.CoordinatorStep
import NVSwitchFabric.Correctness.Fencing

/-!
# `Correctness.LiveEvidence` — evidence and the connections behind it

Evidence of an incarnation is *live* while one of its records is in use; it is `Backed` when a connection registered
as that incarnation is open. Publishing brings live evidence only of an open connection, and a close fences that of
the connection it ends. Two things leave live evidence behind: a connection that registers again as someone else,
and a fencing that validation refuses. `EvidenceOk` excludes exactly these.
-/

namespace NVSwitchFabric

open Lib

/-! ## Live evidence -/

/-- Some record of the map is attributed and live. -/
def HasLive {κ α : Type} [LinearOrder κ] (attributed live : α → Bool) (m : SortedMap κ α) : Prop :=
  ∃ k v, m.find? k = some v ∧ attributed v = true ∧ live v = true

/-- After a bulk upsert, a live record is one of the new ones or was there before. -/
theorem HasLive.of_insertAll {κ α : Type} [LinearOrder κ] {attributed live : α → Bool} {key : α → κ}
    {m : SortedMap κ α} {recs : List α} (h : HasLive attributed live (m.insertAll key recs)) :
    (∃ v ∈ recs, attributed v = true) ∨ HasLive attributed live m := by
  obtain ⟨k, v, hv, hattr, hlive⟩ := h
  rcases SortedMap.find?_insertAll_cases hv with ⟨hmem, _⟩ | ⟨hold, _⟩
  · exact Or.inl ⟨v, hmem, hattr⟩
  · exact Or.inr ⟨k, v, hold, hattr, hlive⟩

/-- After fencing, a live record is one that was not fenced. -/
theorem HasLive.of_fence {κ α : Type} [LinearOrder κ] {attributed fencedBy live : α → Bool} {f : α → α}
    {m : SortedMap κ α} (hdead : ∀ v, fencedBy v = true → live (f v) = false)
    (hkeep : ∀ v, fencedBy v = false → f v = v) (h : HasLive attributed live (m.mapVals f)) :
    ∃ k v, m.find? k = some v ∧ fencedBy v = false ∧ attributed v = true ∧ live v = true := by
  obtain ⟨k, v', hv', hattr, hlive⟩ := h
  rw [SortedMap.find?_mapVals_eq_some] at hv'
  obtain ⟨v, hv, rfl⟩ := hv'
  cases hfenced : fencedBy v with
  | true => rw [hdead v hfenced] at hlive; exact absurd hlive (by simp)
  | false =>
    rw [hkeep v hfenced] at hattr hlive
    exact ⟨k, v, hv, hfenced, hattr, hlive⟩

/-- Evidence of incarnation `(w, b)` is in use: a device, switch, port or link that is up, degraded or present, or an
    active partition. -/
def FabricTopology.Live (t : FabricTopology) (w : WorkerId) (b : WorkerBootId) : Prop :=
  HasLive (fun v : DeviceRecord => v.attributedTo w b) (fun v => endpointState v.state) t.devices ∨
  HasLive (fun v : SwitchRecord => v.attributedTo w b) (fun v => endpointState v.state) t.switches ∨
  HasLive (fun v : SwitchPortRecord => v.attributedTo w b) (fun v => endpointState v.state) t.ports ∨
  HasLive (fun v : LinkRecord => v.attributedTo w b) (fun v => endpointState v.state) t.links ∨
  HasLive (fun v : FabricPartition => v.attributedTo w b) (fun v => decide (v.state = .active)) t.partitions

theorem Origin.attributedTo_iff {o : Origin} {w : WorkerId} {b : WorkerBootId} :
    o.attributedTo w b = true ↔ o.workerKnown = true ∧ o.worker = w ∧ o.workerBoot = b := by
  unfold Origin.attributedTo
  rw [Bool.and_eq_true, Bool.and_eq_true, decide_eq_true_iff, decide_eq_true_iff, and_assoc]

theorem Origin.attributedTo_stamp {o : Origin} {w w' : WorkerId} {b b' : WorkerBootId}
    (h : (o.stamp w b).attributedTo w' b' = true) : (w, b) = (w', b') := by
  obtain ⟨_, hw, hb⟩ := attributedTo_iff.mp h
  exact Prod.ext hw hb

/-- Live evidence is attributed evidence. -/
theorem FabricTopology.Live.anyAttributed {t : FabricTopology} {w : WorkerId} {b : WorkerBootId}
    (h : t.Live w b) : Edit.anyAttributed t w b = true := by
  have hany : ∀ {κ α : Type} [LinearOrder κ] {attributed live : α → Bool} {m : SortedMap κ α},
      HasLive attributed live m → m.entries.any (fun e => attributed e.2) = true := by
    rintro κ α _ attributed live m ⟨k, v, hv, hattr, _⟩
    exact List.any_eq_true.mpr ⟨(k, v), SortedMap.find?_eq_some_iff.mp hv, hattr⟩
  unfold Edit.anyAttributed
  rw [Bool.or_eq_true, Bool.or_eq_true, Bool.or_eq_true, Bool.or_eq_true]
  rcases h with h | h | h | h | h
  · exact Or.inr (hany h)
  · exact Or.inl (Or.inl (Or.inl (Or.inl (hany h))))
  · exact Or.inl (Or.inl (Or.inl (Or.inr (hany h))))
  · exact Or.inl (Or.inl (Or.inr (hany h)))
  · exact Or.inl (Or.inr (hany h))

/-- After a bulk upsert of records stamped with `(w, b)`, a live record is of `(w, b)` or was there before. -/
theorem HasLive.of_stamped {κ α ε : Type} [LinearOrder κ] {origin : α → Origin} {live : α → Bool} {key : α → κ}
    {m : SortedMap κ α} {entries : List ε} {f : ε → α} {w w' : WorkerId} {b b' : WorkerBootId}
    (h : HasLive (fun v => (origin v).attributedTo w' b') live (m.insertAll key (entries.map f)))
    (hstamp : ∀ e, ∃ o : Origin, origin (f e) = o.stamp w b) :
    (w, b) = (w', b') ∨ HasLive (fun v => (origin v).attributedTo w' b') live m := by
  rcases h.of_insertAll with ⟨v, hv, hattr⟩ | hold
  · obtain ⟨e, _, rfl⟩ := List.mem_map.mp hv
    obtain ⟨o, ho⟩ := hstamp e
    rw [ho] at hattr
    exact Or.inl (Origin.attributedTo_stamp hattr)
  · exact Or.inr hold

/-- A publication brings live evidence of its own incarnation only. -/
theorem Edited.live_stampedBulk {t cand topo : FabricTopology} {w w' : WorkerId} {b b' : WorkerBootId}
    (h : Edited t (.applyBulk (Coordinator.stampedBulk topo w b)) cand) (hlive : cand.Live w' b') :
    (w, b) = (w', b') ∨ t.Live w' b' := by
  cases h with
  | applyBulk =>
    rcases hlive with h | h | h | h | h
    · exact (h.of_stamped fun e => ⟨_, rfl⟩).imp_right Or.inl
    · exact (h.of_stamped fun e => ⟨_, rfl⟩).imp_right fun hold => Or.inr (Or.inl hold)
    · exact (h.of_stamped fun e => ⟨_, rfl⟩).imp_right fun hold => Or.inr (Or.inr (Or.inl hold))
    · exact (h.of_stamped fun e => ⟨_, rfl⟩).imp_right fun hold => Or.inr (Or.inr (Or.inr (Or.inl hold)))
    · exact (h.of_stamped fun e => ⟨_, rfl⟩).imp_right fun hold => Or.inr (Or.inr (Or.inr (Or.inr hold)))

/-- What is live after fencing `(w, b)` was live before and is not of `(w, b)`. -/
theorem live_fenced {t : FabricTopology} {w w' : WorkerId} {b b' : WorkerBootId}
    (h : (fenced w b t).Live w' b') : (w', b') ≠ (w, b) ∧ t.Live w' b' := by
  have hne : ∀ {o : Origin}, o.attributedTo w b = false → o.attributedTo w' b' = true →
      (w', b') ≠ (w, b) := by
    intro o hnot hattr heq
    obtain ⟨rfl, rfl⟩ := Prod.mk.inj heq
    exact absurd (hnot.symm.trans hattr) (by simp)
  rcases h with h | h | h | h | h
  · obtain ⟨k, v, hv, hnot, hattr, hlive⟩ := h.of_fence
      (fun v hv => by rw [DeviceRecord.fence_state hv]; rfl) (fun v hv => DeviceRecord.fence_other hv)
    exact ⟨hne hnot hattr, Or.inl ⟨k, v, hv, hattr, hlive⟩⟩
  · obtain ⟨k, v, hv, hnot, hattr, hlive⟩ := h.of_fence
      (fun v hv => by rw [SwitchRecord.fence_state hv]; rfl) (fun v hv => SwitchRecord.fence_other hv)
    exact ⟨hne hnot hattr, Or.inr (Or.inl ⟨k, v, hv, hattr, hlive⟩)⟩
  · obtain ⟨k, v, hv, hnot, hattr, hlive⟩ := h.of_fence
      (fun v hv => by rw [SwitchPortRecord.fence_state hv]; rfl) (fun v hv => SwitchPortRecord.fence_other hv)
    exact ⟨hne hnot hattr, Or.inr (Or.inr (Or.inl ⟨k, v, hv, hattr, hlive⟩))⟩
  · obtain ⟨k, v, hv, hnot, hattr, hlive⟩ := h.of_fence
      (fun v hv => by rw [LinkRecord.fence_state hv]; rfl) (fun v hv => LinkRecord.fence_other hv)
    exact ⟨hne hnot hattr, Or.inr (Or.inr (Or.inr (Or.inl ⟨k, v, hv, hattr, hlive⟩)))⟩
  · obtain ⟨k, v, hv, hnot, hattr, hlive⟩ := h.of_fence
      (fun v hv => by rw [FabricPartition.fence_state hv]; rfl) (fun v hv => FabricPartition.fence_other hv)
    exact ⟨hne hnot hattr, Or.inr (Or.inr (Or.inr (Or.inr ⟨k, v, hv, hattr, hlive⟩)))⟩

/-- **Fencing `(w, b)`** is vetoed and keeps the snapshot, or leaves only live evidence of others. -/
theorem invalidateForWorker_live {r : FabricRegistry} (hr : r.Reachable) (w : WorkerId) (b : WorkerBootId) :
    (¬ (Edit.anyAttributed r.current w b = true → Fenceable w b r.current) ∧
      (r.invalidateForWorker w b).2.current = r.current) ∨
    ((Edit.anyAttributed r.current w b = true → Fenceable w b r.current) ∧
      ∀ w' b', (r.invalidateForWorker w b).2.current.Live w' b' →
        (w', b') ≠ (w, b) ∧ r.current.Live w' b') := by
  have heq : r.invalidateForWorker w b = r.publish "" (fenced w b r.current) := rfl
  rw [← fenced_admissible_iff hr.wellFormed, heq]
  by_cases hadm : FabricTopology.Admissible r.current (r.committed (fenced w b r.current))
  · refine Or.inr ⟨hadm, ?_⟩
    intro w' b' hlive
    rw [FabricRegistry.publish_of_admissible "" hadm] at hlive
    exact live_fenced hlive
  · obtain ⟨why, herr⟩ := FabricRegistry.publish_of_not_admissible "" hadm
    rw [herr]
    exact Or.inl ⟨hadm, rfl⟩

namespace Coordinator

variable {c : Coordinator}

/-! ## Backing -/

/-- Everything the registry has of an incarnation is backed by an open connection registered as it. -/
def BackedBy (has : FabricRegistry → WorkerId → WorkerBootId → Prop) (c : Coordinator) : Prop :=
  ∀ w b, has c.registry w b → ∃ id, c.identity id = some (w, b)

/-- Live evidence is backed by an open connection registered as the incarnation it is attributed to. -/
def Backed (c : Coordinator) : Prop :=
  ∀ w b, c.registry.current.Live w b → ∃ id, c.identity id = some (w, b)

/-- No other open connection is registered as the incarnation. -/
def Alone (c : Coordinator) (id : Nat) (who : WorkerId × WorkerBootId) : Prop :=
  ∀ j, j ≠ id → c.identity j ≠ some who

/-- A connection that is not alone in backing an incarnation has another one beside it. -/
theorem exists_other {id : Nat} {who : WorkerId × WorkerBootId} (h : ¬ c.Alone id who) :
    ∃ j, j ≠ id ∧ c.identity j = some who := by
  unfold Alone at h
  push Not at h
  exact h

section
variable {has : FabricRegistry → WorkerId → WorkerBootId → Prop} {c' : Coordinator}

/-- What comes of a connection that is registered, and what was there, is backed. -/
theorem BackedBy.of_identity (h : c.BackedBy has) (hident : ∀ i, c'.identity i = c.identity i) (id : Nat)
    (hnew : ∀ w b, has c'.registry w b → c.identity id = some (w, b) ∨ has c.registry w b) : c'.BackedBy has := by
  intro w b hhas
  rcases hnew w b hhas with hself | hold
  · exact ⟨id, (hident id).trans hself⟩
  · obtain ⟨i, hi⟩ := h w b hold
    exact ⟨i, (hident i).trans hi⟩

/-- **A connection takes another identity, or none.** Everything stays backed exactly if the connection leaves nothing
    behind that it alone backed. -/
theorem BackedBy.iff_of_leaves {id : Nat} {new : Option (WorkerId × WorkerBootId)} (h : c.BackedBy has)
    (hident : ∀ i, c'.identity i = if i = id then new else c.identity i)
    (hsame : ∀ w b, has c'.registry w b ↔ has c.registry w b) :
    c'.BackedBy has ↔ ∀ w b, c.identity id = some (w, b) → new ≠ some (w, b) → c.Alone id (w, b) →
      ¬ has c.registry w b := by
  constructor
  · intro hnext w b _ hne halone hhas
    obtain ⟨i, hi⟩ := hnext w b ((hsame w b).mpr hhas)
    rw [hident] at hi
    by_cases hid : i = id
    · rw [if_pos hid] at hi
      exact hne hi
    · rw [if_neg hid] at hi
      exact halone i hid hi
  · intro hok w b hhas
    rw [hsame] at hhas
    by_cases hnew : new = some (w, b)
    · exact ⟨id, by rw [hident, if_pos rfl, hnew]⟩
    · obtain ⟨i, hi⟩ := h w b hhas
      by_cases hid : i = id
      · -- the connection backed what it is about to leave: another one must
        subst hid
        obtain ⟨j, hj, hjid⟩ := exists_other fun halone => hok w b hi hnew halone hhas
        exact ⟨j, by rw [hident, if_neg hj]; exact hjid⟩
      · exact ⟨i, by rw [hident, if_neg hid]; exact hi⟩

end

/-- The condition on an event. A connection that is alone in backing an incarnation registers as another one only
    while no evidence of the first is live, and closes only if such evidence can be fenced. -/
def EvidenceOk (c : Coordinator) : Event → Prop
  | .accept       => True
  | .frame id f _ => ∀ w b who, c.identity id = some (w, b) → c.admits f = some who → who ≠ (w, b) →
      c.Alone id (w, b) → ¬ c.registry.current.Live w b
  | .close id     => ∀ w b, c.identity id = some (w, b) → c.Alone id (w, b) →
      c.registry.current.Live w b → Fenceable w b c.registry.current

/-- What holds of the coordinator whatever happens. -/
structure Sound (c : Coordinator) : Prop where
  registry : c.registry.Reachable
  ids      : c.IdsBelow

theorem step_sound (c : Coordinator) (e : Event) (h : c.Sound) : (c.step e).Sound :=
  ⟨step_reachable e h.registry, step_idsBelow e h.ids⟩

theorem fresh_sound (epoch : CoordinatorEpoch) (persistPath : Str) (disk : Disk) :
    (fresh epoch persistPath disk).Sound := by
  refine ⟨fresh_reachable epoch persistPath disk, ?_⟩
  rintro id ⟨conn, hconn⟩
  exact absurd hconn (by simp [fresh, serving])

/-- An operation of an incarnation brings live evidence of that incarnation only. -/
theorem MadeBy.live {r : FabricRegistry} {w w' : WorkerId} {b b' : WorkerBootId} {op : RegistryOp}
    (hmade : MadeBy w b op) (hlive : (r.exec op).current.Live w' b') :
    (w, b) = (w', b') ∨ r.current.Live w' b' := by
  rcases exec_edited r op with heq | ⟨cand, hed, heq, _⟩
  · rw [heq] at hlive
    exact Or.inr hlive
  · rw [heq] at hlive
    cases hmade with
    | topology topo => exact hed.live_stampedBulk hlive
    | measurement m => nomatch hed
    | query src dst policy now => nomatch hed

/-- Serving a frame keeps evidence backed. -/
theorem Served.backed {id : Nat} {c' : Coordinator} (hserved : Served c id c') (h : c.Backed) :
    c'.Backed := by
  have hall : c.BackedBy fun r => r.current.Live := h
  refine hall.of_identity hserved.identity id ?_
  intro w b hlive
  rcases hserved.registry with heq | ⟨w₀, b₀, op, hid, hmade, heq⟩
  · rw [heq] at hlive
    exact Or.inr hlive
  · rw [heq] at hlive
    rcases hmade.live hlive with hself | hold
    · exact Or.inl (hself ▸ hid)
    · exact Or.inr hold

/-- Registering again keeps evidence backed exactly if it leaves none behind. -/
theorem register_backed_iff {id : Nat} {f : Frame} {now : UInt64} {conn : Connection} {w : WorkerId}
    {b : WorkerBootId} (hadm : c.admits f = some (w, b)) (h : c.Backed) :
    (c.register id conn w b).Backed ↔ c.EvidenceOk (.frame id f now) := by
  have hall : c.BackedBy fun r => r.current.Live := h
  have hiff := hall.iff_of_leaves (@register_identity c id conn w b) fun _ _ => Iff.rfl
  constructor
  · intro hnext w₀ b₀ who hid hwho hne
    obtain rfl := Option.some.inj (hadm.symm.trans hwho)
    exact hiff.mp hnext w₀ b₀ hid fun heq => hne (Option.some.inj heq)
  · intro hok
    exact hiff.mpr fun w₀ b₀ hid hne => hok w₀ b₀ (w, b) hid hadm fun heq => hne (congrArg some heq)

/-- Closing keeps evidence backed exactly if what it leaves can be fenced. -/
theorem close_backed_iff (id : Nat) (hsound : c.Sound) (h : c.Backed) :
    (c.step (.close id)).Backed ↔ c.EvidenceOk (.close id) := by
  cases hwho : c.identity id with
  | none =>
    refine iff_of_true ?_ fun w b hid => absurd (hwho.symm.trans hid) (by simp)
    intro w b hlive
    rw [step_close_registry, hwho] at hlive
    obtain ⟨i, hi⟩ := h w b hlive
    have hne : i ≠ id := by
      rintro rfl
      exact absurd (hwho.symm.trans hi) (by simp)
    exact ⟨i, by rw [step_close_identity, if_neg hne]; exact hi⟩
  | some who =>
    obtain ⟨w, b⟩ := who
    have hreg : (c.step (.close id)).registry = (c.registry.invalidateForWorker w b).2 := by
      rw [step_close_registry, hwho]
      rfl
    constructor
    · intro hnext w₀ b₀ hid halone hlive
      obtain ⟨rfl, rfl⟩ := Prod.mk.inj (Option.some.inj (hwho.symm.trans hid))
      rcases invalidateForWorker_live hsound.registry w b with ⟨_, hsame⟩ | ⟨hfence, _⟩
      · -- not fenced, so still live, and nobody is left to back it
        obtain ⟨i, hi⟩ := hnext w b (by rw [hreg, hsame]; exact hlive)
        rw [step_close_identity] at hi
        split at hi
        · exact absurd hi (by simp)
        · next hne => exact absurd hi (halone i hne)
      · exact hfence hlive.anyAttributed
    · intro hok w₀ b₀ hlive
      rw [hreg] at hlive
      rcases invalidateForWorker_live hsound.registry w b with ⟨hvetoed, hsame⟩ | ⟨_, hdead⟩
      · rw [hsame] at hlive
        obtain ⟨i, hi⟩ := h w₀ b₀ hlive
        by_cases hid : i = id
        · subst hid
          obtain ⟨rfl, rfl⟩ := Prod.mk.inj (Option.some.inj (hwho.symm.trans hi))
          -- the fencing is vetoed, so the condition says that another connection backs the evidence
          obtain ⟨j, hj, hjid⟩ := exists_other fun halone => hvetoed fun _ => hok w b hwho halone hlive
          exact ⟨j, by rw [step_close_identity, if_neg hj]; exact hjid⟩
        · exact ⟨i, by rw [step_close_identity, if_neg hid]; exact hi⟩
      · obtain ⟨hne, hold⟩ := hdead w₀ b₀ hlive
        obtain ⟨i, hi⟩ := h w₀ b₀ hold
        have hid : i ≠ id := by
          rintro rfl
          exact hne (Option.some.inj (hi.symm.trans hwho))
        exact ⟨i, by rw [step_close_identity, if_neg hid]; exact hi⟩

/-- **From a backed state exactly the events that satisfy the condition lead to a backed state.** -/
theorem step_backed_iff (e : Event) (hsound : c.Sound) (h : c.Backed) :
    (c.step e).Backed ↔ c.EvidenceOk e := by
  cases e with
  | accept =>
    refine iff_of_true ?_ trivial
    intro w b hlive
    rw [step_accept_registry] at hlive
    obtain ⟨i, hi⟩ := h w b hlive
    exact ⟨i, (step_accept_identity hsound.ids i).trans hi⟩
  | frame id f now =>
    rcases c.step_frame_cases id f now with ⟨conn, w, b, _, hadm, heq⟩ | ⟨hnone, hserved⟩
    · rw [heq]
      exact register_backed_iff hadm h
    · refine iff_of_true (hserved.backed h) ?_
      intro w b who hid hwho
      have hnot := hnone (isOpen_of_identity hid)
      exact absurd (hnot.symm.trans hwho) (by simp)
  | close id => exact close_backed_iff id hsound h

/-- **Evidence is backed over runs.** From a fresh coordinator, exactly those runs keep all live evidence backed in
    all their states whose events satisfy the condition. -/
theorem evidence_backed_iff (epoch : CoordinatorEpoch) (persistPath : Str) (disk : Disk)
    (events : List Event) :
    Always step Backed (fresh epoch persistPath disk) events ↔
      Obeys step EvidenceOk (fresh epoch persistPath disk) events := by
  have hempty : (fresh epoch persistPath disk).Backed := by
    rintro w b (⟨k, v, hv, _⟩ | ⟨k, v, hv, _⟩ | ⟨k, v, hv, _⟩ | ⟨k, v, hv, _⟩ | ⟨k, v, hv, _⟩)
    all_goals exact absurd hv (by simp [fresh, serving, FabricRegistry.setEpoch, FabricRegistry.new])
  exact always_iff_obeys_of step_sound (fun _ e hs hb => step_backed_iff e hs hb) (fresh_sound epoch persistPath disk) hempty events

/-- One connection registers, publishes a device, and registers again under a newer boot. -/
def registersAgain : List Event :=
  let w : WorkerId := ⟨ascii "w"⟩
  let oneDevice : FabricTopology :=
    { devices := SortedMap.empty.insert ⟨1⟩ (makeSyntheticDevice ⟨1⟩ (ascii "Synthetic") .up) }
  [.accept,
   .frame 0 { type := .register, payload := encodeRegister 1 w 1 } 0,
   .frame 0 { type := .publishTopology, payload := encodePublishTopology 1 w 1 oneDevice } 0,
   .frame 0 { type := .register, payload := encodeRegister 1 w 2 } 0]

/-- The device stays up, with nobody behind it. -/
theorem registered_again_unbacked : ¬ Always step Backed (fresh 1 [] .empty) registersAgain := by
  intro hall
  have hbacked := hall.last
  have hdevice : ((runAll step (fresh 1 [] .empty) registersAgain).registry.current.devices.find? ⟨1⟩).any
      (fun v => v.attributedTo ⟨ascii "w"⟩ 1 && endpointState v.state) = true := by decide +kernel
  obtain ⟨v, hv, hlive⟩ := (Option.any_eq_true _ _).mp hdevice
  rw [Bool.and_eq_true] at hlive
  obtain ⟨id, hid⟩ := hbacked ⟨ascii "w"⟩ 1 (Or.inl ⟨⟨1⟩, v, hv, hlive.1, hlive.2⟩)
  -- the only open connection is registered as the newer boot
  obtain ⟨conn, hconn⟩ := isOpen_of_identity hid
  have hkeys : (runAll step (fresh 1 [] .empty) registersAgain).conns.keys = [0] := by decide +kernel
  have hmem : id ∈ (runAll step (fresh 1 [] .empty) registersAgain).conns.keys :=
    List.mem_map.mpr ⟨_, SortedMap.find?_eq_some_iff.mp hconn, rfl⟩
  rw [hkeys, List.mem_singleton] at hmem
  subst hmem
  have hnow : (runAll step (fresh 1 [] .empty) registersAgain).identity 0 = some (⟨ascii "w"⟩, 2) := by
    decide +kernel
  exact absurd (hid.symm.trans hnow) (by decide)

end Coordinator

end NVSwitchFabric
