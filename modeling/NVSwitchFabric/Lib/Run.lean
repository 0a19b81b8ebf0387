/-!
# `Lib.Run` — guarded runs of a deterministic step function

A transition system is a step function `step : σ → ι → σ` on states and labels. `Steps step ok` is its
reflexive–transitive closure along labels that satisfy the guard `ok` *in the state they are taken in*; the
unguarded runs are those of the guard `Free`. An invariant is proved once per step and lifted to runs by
`Steps.invariant`; that a run to some state exists is a decreasing measure (`Steps.exists_of_measure`).

A run may also be given by its labels: then `Obeys` is its guard, `always_iff_obeys` says when a guard is exact, and
`Obeys.latch` is the rule for what the first step outside a guard sets for good, `always_iff_unfired` the one for two steps
that do harm only in one order. A law about any two states of a run is one about the list of states it visits
(`pairwise_visited`, `pairwise_visited_iff`).
-/

namespace Lib

variable {σ ι : Type}

/-- The guard that admits every label in every state. -/
def Free (_ : σ) (_ : ι) : Prop := True

/-- Runs of `step` whose labels all satisfy `ok` in the state they are taken in. -/
inductive Steps (step : σ → ι → σ) (ok : σ → ι → Prop) : σ → σ → Prop where
  | refl {s} : Steps step ok s s
  | tail {s t i} : Steps step ok s t → ok t i → Steps step ok s (step t i)

/-- Run a list of labels. -/
def runAll (step : σ → ι → σ) (s : σ) (labels : List ι) : σ := labels.foldl step s

namespace Steps

variable {step : σ → ι → σ} {ok ok' : σ → ι → Prop} {s t u : σ}

theorem single {i : ι} (h : ok s i) : Steps step ok s (step s i) := .tail .refl h

theorem trans (h₁ : Steps step ok s t) (h₂ : Steps step ok t u) : Steps step ok s u := by
  induction h₂ with
  | refl => exact h₁
  | tail _ hi ih => exact .tail ih hi

/-- A run under a guard is a run under any weaker guard. -/
theorem mono (himp : ∀ s i, ok s i → ok' s i) (h : Steps step ok s t) : Steps step ok' s t := by
  induction h with
  | refl => exact .refl
  | tail _ hi ih => exact .tail ih (himp _ _ hi)

theorem free (h : Steps step ok s t) : Steps step Free s t := h.mono fun _ _ _ => trivial

/-- **Invariant rule.** What every admitted step preserves, every run preserves. -/
theorem invariant {Inv : σ → Prop} (hstep : ∀ s i, Inv s → ok s i → Inv (step s i))
    (h : Steps step ok s t) (hs : Inv s) : Inv t := by
  induction h with
  | refl => exact hs
  | tail _ hi ih => exact hstep _ _ ih hi

/-- A list of labels is an unguarded run. -/
theorem of_runAll (step : σ → ι → σ) (s : σ) (labels : List ι) :
    Steps step Free s (runAll step s labels) := by
  induction labels generalizing s with
  | nil => exact .refl
  | cons i labels ih =>
    have hone : Steps step Free s (step s i) := single trivial
    exact hone.trans (ih (step s i))

/-- **Progress rule.** If from every state of the invariant `I` that is not yet in `G` some admitted step keeps `I`
    and decreases the measure, some run reaches `G`. -/
theorem exists_of_measure {I G : σ → Prop} (μ : σ → Nat)
    (hstep : ∀ s, I s → ¬ G s → ∃ i, ok s i ∧ I (step s i) ∧ μ (step s i) < μ s) (hs : I s) :
    ∃ t, Steps step ok s t ∧ I t ∧ G t := by
  induction hn : μ s using Nat.strongRecOn generalizing s with
  | ind n ih =>
    by_cases hG : G s
    · exact ⟨s, .refl, hs, hG⟩
    · obtain ⟨i, hok, hI, hless⟩ := hstep s hs hG
      obtain ⟨t, hrun, ht⟩ := ih (μ (step s i)) (hn ▸ hless) hI rfl
      have hone : Steps step ok s (step s i) := single hok
      exact ⟨t, hone.trans hrun, ht⟩

end Steps

/-! ## Runs as lists of labels -/

section
variable (step : σ → ι → σ)

/-- Every state of the run satisfies `P`, the first one included. -/
def Always (P : σ → Prop) : σ → List ι → Prop
  | s, []          => P s
  | s, i :: labels => P s ∧ Always P (step s i) labels

/-- Every step of the run satisfies `ok` in the state it is taken in. -/
def Obeys (ok : σ → ι → Prop) : σ → List ι → Prop
  | _, []          => True
  | s, i :: labels => ok s i ∧ Obeys ok (step s i) labels

end

/-- A run and one more step. -/
theorem obeys_concat {step : σ → ι → σ} {ok : σ → ι → Prop} {s : σ} {labels : List ι} {i : ι} :
    Obeys step ok s (labels ++ [i]) ↔ Obeys step ok s labels ∧ ok (runAll step s labels) i := by
  induction labels generalizing s with
  | nil => exact ⟨fun h => ⟨trivial, h.1⟩, fun h => ⟨h.2, trivial⟩⟩
  | cons j labels ih =>
    show ok s j ∧ Obeys step ok (step s j) (labels ++ [i]) ↔ _
    rw [ih, ← and_assoc]
    exact Iff.rfl

/-- What always holds holds at the start. -/
theorem Always.first {step : σ → ι → σ} {P : σ → Prop} {s : σ} {labels : List ι} (h : Always step P s labels) : P s := by
  cases labels with
  | nil => exact h
  | cons i labels => exact h.1

/-- **Exact guards.** If, under an invariant `Bg` of all runs over the labels `lab`, exactly the `ok` steps lead from a
    good state to good states, then exactly the runs that obey `ok` stay good. -/
theorem always_iff_obeys_on {step : σ → ι → σ} {Bg P : σ → Prop} {ok : σ → ι → Prop} {lab : ι → Prop}
    (hbg : ∀ s i, lab i → Bg s → Bg (step s i)) (hstep : ∀ s i, lab i → Bg s → P s → (P (step s i) ↔ ok s i))
    {s : σ} (hb : Bg s) (hs : P s) (labels : List ι) (hlab : ∀ i ∈ labels, lab i) :
    Always step P s labels ↔ Obeys step ok s labels := by
  induction labels generalizing s with
  | nil => exact iff_of_true hs trivial
  | cons i labels ih =>
    have hi : lab i := hlab i List.mem_cons_self
    have hrest : ∀ j ∈ labels, lab j := fun j hj => hlab j (List.mem_cons_of_mem _ hj)
    have hnext : P (step s i) ↔ ok s i := hstep s i hi hb hs
    constructor
    · rintro ⟨_, hall⟩
      have hP : P (step s i) := hall.first
      exact ⟨hnext.mp hP, (ih (hbg s i hi hb) hP hrest).mp hall⟩
    · rintro ⟨hok, hobeys⟩
      exact ⟨hs, (ih (hbg s i hi hb) (hnext.mpr hok) hrest).mpr hobeys⟩

/-- Exact guards over all labels. -/
theorem always_iff_obeys_of {step : σ → ι → σ} {Bg P : σ → Prop} {ok : σ → ι → Prop}
    (hbg : ∀ s i, Bg s → Bg (step s i)) (hstep : ∀ s i, Bg s → P s → (P (step s i) ↔ ok s i)) {s : σ}
    (hb : Bg s) (hs : P s) (labels : List ι) : Always step P s labels ↔ Obeys step ok s labels := by
  have hlab : ∀ i ∈ labels, (fun _ : ι => True) i := fun _ _ => trivial
  exact always_iff_obeys_on (fun s i _ => hbg s i) (fun s i _ => hstep s i) hb hs labels hlab

/-- Exact guards that need no background invariant. -/
theorem always_iff_obeys {step : σ → ι → σ} {P : σ → Prop} {ok : σ → ι → Prop}
    (hstep : ∀ s i, P s → (P (step s i) ↔ ok s i)) {s : σ} (hs : P s) (labels : List ι) :
    Always step P s labels ↔ Obeys step ok s labels := by
  have hbg : ∀ s i, (fun _ : σ => True) s → (fun _ : σ => True) (step s i) := fun _ _ _ => trivial
  exact always_iff_obeys_of hbg (fun s i _ h => hstep s i h) trivial hs labels

section
variable {step : σ → ι → σ} {ok ok' : σ → ι → Prop} {s : σ} {labels : List ι}

/-- Guards that allow the same steps. -/
theorem obeys_congr (h : ∀ s i, ok s i ↔ ok' s i) (s : σ) (labels : List ι) :
    Obeys step ok s labels ↔ Obeys step ok' s labels := by
  induction labels generalizing s with
  | nil => exact Iff.rfl
  | cons i labels ih => exact and_congr (h s i) (ih (step s i))

/-- Two guards that a run obeys, obeyed together. -/
theorem Obeys.and (h : Obeys step ok s labels) (h' : Obeys step ok' s labels) :
    Obeys step (fun s i => ok s i ∧ ok' s i) s labels := by
  induction labels generalizing s with
  | nil => trivial
  | cons i labels ih => exact ⟨⟨h.1, h'.1⟩, ih h.2 h'.2⟩

/-- What the steps of a guard preserve, a run that obeys it preserves. -/
theorem Obeys.invariant {Inv : σ → Prop} (hstep : ∀ s i, ok s i → Inv s → Inv (step s i))
    (h : Obeys step ok s labels) (hs : Inv s) : Inv (runAll step s labels) := by
  induction labels generalizing s with
  | nil => exact hs
  | cons i labels ih => exact ih h.2 (hstep s i h.1 hs)

/-- **Latch rule.** What some step outside `ok'` brings about, and the later steps preserve, holds at the end of a run
    that does not obey `ok'`. -/
theorem Obeys.latch {Inv Set : σ → Prop} (hstep : ∀ s i, ok s i → Inv s → Inv (step s i))
    (hset : ∀ s i, ok s i → Inv s → ¬ ok' s i → Set (step s i)) (hkeep : ∀ s i, ok s i → Set s → Set (step s i))
    (h : Obeys step ok s labels) (hs : Inv s) (hnot : ¬ Obeys step ok' s labels) :
    Set (runAll step s labels) := by
  induction labels generalizing s with
  | nil => exact absurd trivial hnot
  | cons i labels ih =>
    by_cases hi : ok' s i
    · -- the step that sets the latch comes later
      exact ih h.2 (hstep s i h.1 hs) fun hrest => hnot ⟨hi, hrest⟩
    · have hrest : Set (runAll step (step s i) labels) := h.2.invariant hkeep (hset s i h.1 hs hi)
      exact hrest

end

/-- What always holds holds at the end. -/
theorem Always.last {step : σ → ι → σ} {P : σ → Prop} {s : σ} {labels : List ι}
    (h : Always step P s labels) : P (runAll step s labels) := by
  induction labels generalizing s with
  | nil => exact h
  | cons i labels ih => exact ih h.2

/-- The property a run always has may be replaced by an equivalent one. -/
theorem always_congr {step : σ → ι → σ} {P Q : σ → Prop} (h : ∀ s, P s ↔ Q s) (s : σ) (labels : List ι) :
    Always step P s labels ↔ Always step Q s labels := by
  induction labels generalizing s with
  | nil => exact h s
  | cons i labels ih => exact and_congr (h s) (ih (step s i))

/-! ## Two steps that are harmless alone -/

/-- No step fires after one that arms. -/
def Unfired (step : σ → ι → σ) (arm fire : σ → ι → Prop) : σ → List ι → Prop
  | _, []          => True
  | s, i :: labels => (arm s i → Obeys step (fun t j => ¬ fire t j) (step s i) labels) ∧
      Unfired step arm fire (step s i) labels

section
variable {step : σ → ι → σ} {arm fire : σ → ι → Prop} {s : σ} {labels : List ι}

/-- A run in which nothing fires. -/
theorem Obeys.unfired (h : Obeys step (fun t j => ¬ fire t j) s labels) : Unfired step arm fire s labels := by
  induction labels generalizing s with
  | nil => trivial
  | cons i labels ih => exact ⟨fun _ => h.2, ih h.2⟩

/-- **Arm-and-fire rule.** If a safe state is left only by arming, and from an armed state exactly firing breaks `P`, then a
    run from a safe state always satisfies `P` exactly if nothing fires after something has armed. -/
theorem always_iff_unfired {Safe Armed P : σ → Prop} {lab : ι → Prop} (hsafe : ∀ s, Safe s → P s)
    (harmed : ∀ s, Armed s → P s) (harm : ∀ s i, lab i → Safe s → arm s i → Armed (step s i))
    (hrest : ∀ s i, lab i → Safe s → ¬ arm s i → Safe (step s i))
    (hkeep : ∀ s i, lab i → Armed s → ¬ fire s i → Armed (step s i))
    (hfire : ∀ s i, lab i → Armed s → fire s i → ¬ P (step s i)) (hs : Safe s) (hlab : ∀ i ∈ labels, lab i) :
    Always step P s labels ↔ Unfired step arm fire s labels := by
  -- from an armed state on: up to the first firing all is well, and it breaks `P`
  have hlater : ∀ (labels : List ι) (t : σ), Armed t → (∀ i ∈ labels, lab i) →
      (Always step P t labels ↔ Obeys step (fun t j => ¬ fire t j) t labels) := by
    intro labels
    induction labels with
    | nil => exact fun t ht _ => iff_of_true (harmed t ht) trivial
    | cons i labels ih =>
      intro t ht hall
      have hi := hall i List.mem_cons_self
      by_cases hf : fire t i
      · exact iff_of_false (fun h => hfire t i hi ht hf h.2.first) fun h => h.1 hf
      · have hnext := ih (step t i) (hkeep t i hi ht hf) fun j hj => hall j (List.mem_cons_of_mem _ hj)
        exact ⟨fun h => ⟨hf, hnext.mp h.2⟩, fun h => ⟨harmed t ht, hnext.mpr h.2⟩⟩
  induction labels generalizing s with
  | nil => exact iff_of_true (hsafe s hs) trivial
  | cons i labels ih =>
    have hi := hlab i List.mem_cons_self
    have htail : ∀ j ∈ labels, lab j := fun j hj => hlab j (List.mem_cons_of_mem _ hj)
    by_cases ha : arm s i
    · have hnext := hlater labels (step s i) (harm s i hi hs ha) htail
      exact ⟨fun h => ⟨fun _ => hnext.mp h.2, (hnext.mp h.2).unfired⟩, fun h => ⟨hsafe s hs, hnext.mpr (h.1 ha)⟩⟩
    · have hnext := ih (hrest s i hi hs ha) htail
      exact ⟨fun h => ⟨fun hno => absurd hno ha, hnext.mp h.2⟩, fun h => ⟨hsafe s hs, hnext.mpr h.2⟩⟩

end

/-! ## Pairs of states of a run -/

section
variable (step : σ → ι → σ)

/-- The states a run goes through, the first one included. -/
def visited : σ → List ι → List σ
  | s, []          => [s]
  | s, i :: labels => s :: visited (step s i) labels

/-- Every step of the run satisfies `ok`, which may look at the states before it (`past`, the nearest first). -/
def ObeysPast (ok : List σ → σ → ι → Prop) : List σ → σ → List ι → Prop
  | _, _, []             => True
  | past, s, i :: labels => ok past s i ∧ ObeysPast ok (s :: past) (step s i) labels

end

theorem mem_visited_self (step : σ → ι → σ) (s : σ) (labels : List ι) : s ∈ visited step s labels := by
  cases labels with
  | nil => exact List.mem_singleton.mpr rfl
  | cons i labels => exact List.mem_cons_self

theorem visited_cons (step : σ → ι → σ) (s : σ) (i : ι) (labels : List ι) :
    visited step s (i :: labels) = s :: visited step (step s i) labels := rfl

section
variable {step : σ → ι → σ} {R : σ → σ → Prop}

/-- **Order rule.** A transitive relation that every step satisfies orders the states of a run. -/
theorem pairwise_visited (htrans : ∀ {s t u}, R s t → R t u → R s u) (hstep : ∀ s i, R s (step s i)) (s : σ)
    (labels : List ι) : (visited step s labels).Pairwise R := by
  -- whatever is related to a state is related to all after it
  have hlater : ∀ (labels : List ι) (p s : σ), R p s → ∀ q ∈ visited step s labels, R p q := by
    intro labels
    induction labels with
    | nil =>
      intro p s hps q hq
      obtain rfl := List.mem_singleton.mp hq
      exact hps
    | cons i labels ih =>
      intro p s hps q hq
      rcases List.mem_cons.mp hq with rfl | hq
      · exact hps
      · exact ih p (step s i) (htrans hps (hstep s i)) q hq
  induction labels generalizing s with
  | nil => exact List.pairwise_singleton R s
  | cons i labels ih =>
    exact List.pairwise_cons.mpr ⟨hlater labels s (step s i) (hstep s i), ih (step s i)⟩

/-- **Exact guards over the past.** If, where all earlier states are related to the present one, exactly the `ok`
    steps keep it so, then the states of a run are pairwise related exactly if the run obeys `ok`. -/
theorem pairwise_visited_iff {ok : List σ → σ → ι → Prop}
    (hstep : ∀ past s i, (∀ p ∈ past, R p s) → ((∀ p ∈ s :: past, R p (step s i)) ↔ ok past s i)) (s : σ)
    (labels : List ι) : (visited step s labels).Pairwise R ↔ ObeysPast step ok [] s labels := by
  -- generalised to a past, whose states count as well
  have hrun : ∀ (labels : List ι) (past : List σ) (s : σ), (∀ p ∈ past, R p s) →
      (((∀ p ∈ past, ∀ q ∈ visited step s labels, R p q) ∧ (visited step s labels).Pairwise R) ↔
        ObeysPast step ok past s labels) := by
    intro labels
    induction labels with
    | nil =>
      intro past s hpast
      refine iff_of_true ⟨?_, List.pairwise_singleton R s⟩ trivial
      intro p hp q hq
      obtain rfl := List.mem_singleton.mp hq
      exact hpast p hp
    | cons i labels ih =>
      intro past s hpast
      have hnext := hstep past s i hpast
      rw [visited_cons, List.pairwise_cons]
      constructor
      · rintro ⟨hall, hself, hpair⟩
        have hlater : ∀ p ∈ s :: past, ∀ q ∈ visited step (step s i) labels, R p q := by
          intro p hp q hq
          rcases List.mem_cons.mp hp with rfl | hp
          · exact hself q hq
          · exact hall p hp q (List.mem_cons_of_mem _ hq)
        have hone : ∀ p ∈ s :: past, R p (step s i) :=
          fun p hp => hlater p hp _ (mem_visited_self step _ labels)
        exact ⟨hnext.mp hone, (ih (s :: past) (step s i) hone).mp ⟨hlater, hpair⟩⟩
      · rintro ⟨hok, hobeys⟩
        have hone := hnext.mpr hok
        obtain ⟨hlater, hpair⟩ := (ih (s :: past) (step s i) hone).mpr hobeys
        refine ⟨?_, hlater s List.mem_cons_self, hpair⟩
        intro p hp q hq
        rcases List.mem_cons.mp hq with rfl | hq
        · exact hpast p hp
        · exact hlater p (List.mem_cons_of_mem _ hp) q hq
  have h := hrun labels [] s (by simp)
  rw [← h]
  exact ⟨fun hpair => ⟨by simp, hpair⟩, And.right⟩

end

end Lib
