import NVSwitchFabric.Correctness.CoordinatorStep

/-!
# `Correctness.Exclusive` — incarnations are exclusive

A REGISTER frame is checked against two maps: no boot below the highest one of its worker, and not the active one.
That keeps two open connections from being the same incarnation although the active boot is forgotten on a close,
because of what `Exclusive` adds to the claim (`Exclusive.held`): an open connection with the highest boot of its
worker is the active one. Each event preserves it (`step_exclusive`), and no highest boot decreases
(`step_bootsGrow`).
-/

namespace NVSwitchFabric

open Lib

namespace Coordinator

variable {c c' : Coordinator} {e : Event}

/-- No two open connections are registered as one incarnation, an active boot is the highest one of its worker, and
    no open connection is above it. -/
structure Incarnations (c : Coordinator) : Prop where
  unique  : ∀ ⦃i j w b⦄, c.identity i = some (w, b) → c.identity j = some (w, b) → i = j
  highest : ∀ ⦃w b⦄, c.activeBoot.find? w = some b → c.maxBoot.find? w = some b
  bounded : ∀ ⦃i w b⦄, c.identity i = some (w, b) → ∃ m, c.maxBoot.find? w = some m ∧ b ≤ m

/-- The invariant of the events: an open connection with the highest boot of its worker is the active one, too. -/
structure Exclusive (c : Coordinator) : Prop extends Incarnations c where
  held : ∀ ⦃i w b⦄, c.identity i = some (w, b) → c.maxBoot.find? w = some b → c.activeBoot.find? w = some b

/-- The highest boot of no worker decreases. -/
def BootsGrow (c c' : Coordinator) : Prop :=
  ∀ ⦃w m⦄, c.maxBoot.find? w = some m → ∃ m', c'.maxBoot.find? w = some m' ∧ m ≤ m'

theorem BootsGrow.of_eq (h : c'.maxBoot = c.maxBoot) : BootsGrow c c' := by
  intro w m hm
  rw [h]
  exact ⟨m, hm, le_refl m⟩

theorem BootsGrow.trans {c'' : Coordinator} (h : BootsGrow c c') (h' : BootsGrow c' c'') : BootsGrow c c'' := by
  intro w m hm
  obtain ⟨m', hm', hle⟩ := h hm
  obtain ⟨m'', hm'', hle'⟩ := h' hm'
  exact ⟨m'', hm'', hle.trans hle'⟩

/-- The invariant looks at the boots and the identities only. -/
theorem Exclusive.congr (h : c.Exclusive) (hmax : c'.maxBoot = c.maxBoot) (hactive : c'.activeBoot = c.activeBoot)
    (hid : ∀ i, c'.identity i = c.identity i) : c'.Exclusive where
  unique i j w b hi hj := h.unique ((hid i).symm.trans hi) ((hid j).symm.trans hj)
  highest w b hb := by
    rw [hactive] at hb
    rw [hmax]
    exact h.highest hb
  bounded i w b hi := by
    rw [hmax]
    exact h.bounded ((hid i).symm.trans hi)
  held i w b hi hb := by
    rw [hmax] at hb
    rw [hactive]
    exact h.held ((hid i).symm.trans hi) hb

/-! ## Registering -/

section
variable {id : Nat} {f : Frame} {conn : Connection} {w : WorkerId} {b : WorkerBootId}

/-- **An admitted incarnation is not open**: its boot would be the highest one of its worker, hence active. -/
theorem Exclusive.not_open (h : c.Exclusive) (hadm : c.admits f = some (w, b)) (i : Nat) :
    c.identity i ≠ some (w, b) := by
  intro hi
  obtain ⟨m, hm, hle⟩ := h.bounded hi
  have hmb : m = b := le_antisymm (le_of_admits hadm hm) hle
  subst hmb
  exact active_ne_of_admits hadm (h.held hi hm)

theorem register_activeBoot (x : WorkerId) :
    (c.register id conn w b).activeBoot.find? x = if x = w then some b else c.activeBoot.find? x :=
  SortedMap.find?_insert c.activeBoot w x b

theorem register_exclusive (hadm : c.admits f = some (w, b)) (h : c.Exclusive) :
    (c.register id conn w b).Exclusive where
  unique i j x y hi hj := by
    rw [register_identity] at hi hj
    split at hi
    · next hi' =>
      split at hj
      · next hj' => exact hi'.trans hj'.symm
      -- an admitted boot is the identity of no other connection
      · obtain ⟨rfl, rfl⟩ := Prod.mk.inj (Option.some.inj hi)
        exact absurd hj (h.not_open hadm j)
    · split at hj
      · obtain ⟨rfl, rfl⟩ := Prod.mk.inj (Option.some.inj hj)
        exact absurd hi (h.not_open hadm i)
      · exact h.unique hi hj
  highest x y hy := by
    rw [register_activeBoot] at hy
    rw [register_maxBoot hadm]
    split
    · next hx => rwa [if_pos hx] at hy
    · next hx => exact h.highest (by rwa [if_neg hx] at hy)
  bounded i x y hi := by
    rw [register_identity] at hi
    rw [register_maxBoot hadm]
    by_cases hx : x = w
    · rw [if_pos hx]
      refine ⟨b, rfl, ?_⟩
      split at hi
      · exact (Prod.mk.inj (Option.some.inj hi)).2.ge
      · obtain ⟨m, hm, hle⟩ := h.bounded hi
        exact hle.trans (le_of_admits hadm (hx ▸ hm))
    · rw [if_neg hx]
      split at hi
      · exact absurd (Prod.mk.inj (Option.some.inj hi)).1.symm hx
      · exact h.bounded hi
  held i x y hi hy := by
    rw [register_maxBoot hadm] at hy
    rw [register_activeBoot]
    by_cases hx : x = w
    · rw [if_pos hx] at hy ⊢
      exact hy
    · rw [if_neg hx] at hy ⊢
      rw [register_identity] at hi
      split at hi
      · exact absurd (Prod.mk.inj (Option.some.inj hi)).1.symm hx
      · exact h.held hi hy

theorem register_bootsGrow (hadm : c.admits f = some (w, b)) : BootsGrow c (c.register id conn w b) := by
  intro x m hm
  rw [register_maxBoot hadm]
  by_cases hx : x = w
  · rw [if_pos hx]
    exact ⟨b, rfl, le_of_admits hadm (hx ▸ hm)⟩
  · rw [if_neg hx]
    exact ⟨m, hm, le_refl m⟩

end

/-! ## Closing -/

/-- An active boot that another open connection has is not the one that a close drops. -/
theorem close_exclusive (id : Nat) (h : c.Exclusive) : (c.step (.close id)).Exclusive := by
  have hopen : ∀ {i who}, (c.step (.close id)).identity i = some who → i ≠ id ∧ c.identity i = some who := by
    intro i who hi
    rw [step_close_identity] at hi
    split at hi
    · exact absurd hi (by simp)
    · next hne => exact ⟨hne, hi⟩
  refine ⟨⟨?_, ?_, ?_⟩, ?_⟩
  · intro i j w b hi hj
    exact h.unique (hopen hi).2 (hopen hj).2
  · intro w b hb
    rw [step_close_maxBoot]
    exact h.highest (step_close_activeBoot.mp hb).1
  · intro i w b hi
    rw [step_close_maxBoot]
    exact h.bounded (hopen hi).2
  · intro i w b hi hb
    rw [step_close_maxBoot] at hb
    obtain ⟨hne, hid⟩ := hopen hi
    exact step_close_activeBoot.mpr ⟨h.held hid hb, fun hid' => hne (h.unique hid hid')⟩

/-! ## Runs -/

/-- **Each event preserves the invariant.** -/
theorem step_exclusive (e : Event) (hids : c.IdsBelow) (h : c.Exclusive) : (c.step e).Exclusive := by
  cases e with
  | accept => exact h.congr step_accept_maxBoot step_accept_activeBoot (step_accept_identity hids)
  | frame id f now =>
    rcases c.step_frame_cases id f now with ⟨conn, w, b, _, hadm, heq⟩ | ⟨hnone, hserved⟩
    · rw [heq]
      exact register_exclusive hadm h
    · by_cases hopen : c.IsOpen id
      · exact h.congr hserved.maxBoot (step_frame_activeBoot now (hnone hopen)) hserved.identity
      · rw [step_frame_closed f now hopen]
        exact h
  | close id => exact close_exclusive id h

/-- **No event decreases a highest boot.** -/
theorem step_bootsGrow (c : Coordinator) (e : Event) : BootsGrow c (c.step e) := by
  cases e with
  | accept => exact .of_eq step_accept_maxBoot
  | frame id f now =>
    rcases c.step_frame_cases id f now with ⟨conn, w, b, _, hadm, heq⟩ | ⟨_, hserved⟩
    · rw [heq]
      exact register_bootsGrow hadm
    · exact .of_eq hserved.maxBoot
  | close id => exact .of_eq (step_close_maxBoot id)

/-- **Inversion of an action.** It is an event, or changes the registry at most. -/
theorem act_cases (c : Coordinator) (a : Action) :
    (∃ e, c.act a = c.step e) ∨ ∃ registry, c.act a = { c with registry := registry } := by
  cases a with
  | event e => exact Or.inl ⟨e, rfl⟩
  | mutate op => exact Or.inr ⟨c.registry.exec op, rfl⟩
  | restore path =>
    right
    show ∃ registry, (c.restoreFromAndRevalidate path).2 = { c with registry := registry }
    unfold restoreFromAndRevalidate
    split
    · exact ⟨c.registry, rfl⟩
    · exact ⟨_, rfl⟩

/-- The registry has no part in who is registered. -/
theorem Exclusive.withRegistry (h : c.Exclusive) (registry : FabricRegistry) :
    Exclusive { c with registry := registry } := h.congr rfl rfl fun _ => rfl

theorem act_exclusive (a : Action) (hids : c.IdsBelow) (h : c.Exclusive) :
    (c.act a).IdsBelow ∧ (c.act a).Exclusive := by
  rcases c.act_cases a with ⟨e, heq⟩ | ⟨registry, heq⟩
  · rw [heq]
    exact ⟨step_idsBelow e hids, step_exclusive e hids h⟩
  · rw [heq]
    exact ⟨hids, h.withRegistry registry⟩

theorem act_bootsGrow (c : Coordinator) (a : Action) : BootsGrow c (c.act a) := by
  rcases c.act_cases a with ⟨e, heq⟩ | ⟨registry, heq⟩
  · rw [heq]
    exact step_bootsGrow c e
  · rw [heq]
    exact .of_eq rfl

/-- Every state that a coordinator reaches from one without connections is exclusive. -/
theorem reachable_exclusive {registry : FabricRegistry} {persistPath : Str} {disk : Disk}
    (hrun : Steps act Free (serving registry persistPath disk) c) : c.Exclusive := by
  have hids : (serving registry persistPath disk).IdsBelow := by
    rintro id ⟨conn, hconn⟩
    exact absurd hconn (by simp [serving])
  have hstart : (serving registry persistPath disk).Exclusive := by
    refine ⟨⟨?_, ?_, ?_⟩, ?_⟩ <;> intros <;> simp_all [identity, serving]
  have hstep : ∀ (s : Coordinator) (a : Action), s.IdsBelow ∧ s.Exclusive → Free s a →
      (s.act a).IdsBelow ∧ (s.act a).Exclusive := fun s a h _ => act_exclusive a h.1 h.2
  exact (hrun.invariant hstep ⟨hids, hstart⟩).2

/-- No run decreases a highest boot. -/
theorem bootsGrow_of_steps (hrun : Steps act Free c c') : BootsGrow c c' := by
  have hgrow : ∀ (s : Coordinator) (a : Action), BootsGrow c s → Free s a → BootsGrow c (s.act a) :=
    fun s a h _ => h.trans (act_bootsGrow s a)
  exact hrun.invariant hgrow (.of_eq rfl)

/-- **Incarnations are exclusive in every state that can be reached** by a coordinator that starts with no connections,
    and no highest boot is smaller in a later state than in an earlier one. -/
theorem incarnations_exclusive (registry : FabricRegistry) (persistPath : Str) (disk : Disk) :
    ∀ c, Steps act Free (serving registry persistPath disk) c →
      Incarnations c ∧ ∀ c', Steps act Free c c' → BootsGrow c c' := by
  intro c hrun
  exact ⟨(reachable_exclusive hrun).toIncarnations, fun _ hlater => bootsGrow_of_steps hlater⟩

/-- A second connection cannot register as an incarnation that is open; it can once the first one has closed. -/
theorem second_register_waits :
    let w : WorkerId := ⟨ascii "w"⟩
    let register (id : Nat) : Action :=
      .event (.frame id { type := .register, payload := encodeRegister 1 w 2 } 0)
    let start := serving (FabricRegistry.new.setEpoch 1) [] .empty
    let c := runAll act start [.event .accept, .event .accept, register 0, register 1]
    let c' := runAll act c [.event (.close 0), register 1]
    (Incarnations c ∧ BootsGrow c c') ∧ (c.identity 0 = some (w, 2) ∧ c.identity 1 = none) ∧
      c'.identity 0 = none ∧ c'.identity 1 = some (w, 2) := by
  intro w register start c c'
  have hrun : Steps act Free start c := .of_runAll act start _
  obtain ⟨hinc, hgrow⟩ := incarnations_exclusive _ _ _ c hrun
  refine ⟨⟨hinc, hgrow c' (.of_runAll act c _)⟩, ⟨?_, ?_⟩, ?_, ?_⟩ <;> decide +kernel

end Coordinator

end NVSwitchFabric
