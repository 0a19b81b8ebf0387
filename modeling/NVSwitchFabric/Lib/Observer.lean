import NVSwitchFabric.Lib.Run

/-!
# `Lib.Observer` — what an observer sees of a run

An observer sees of a state only its image under `see`. If what it sees after a step is determined by what it has seen
before, and it does not see the steps that are left out, then it sees the same of a run with and without them
(`see_runAll_filter`). That a step goes unseen may rest on an invariant of the run.
-/

namespace Lib

variable {σ τ ι : Type} {step : σ → ι → σ} {see : σ → τ}

/-- What is seen after a step is determined by what is seen before it, if stepping from what is seen looks the same. -/
theorem see_congr {see : σ → σ} (h : ∀ s i, see (step s i) = see (step (see s) i)) {s t : σ} (hst : see s = see t) (i : ι) :
    see (step s i) = see (step t i) := by
  rw [h s, hst, ← h t]

/-- **Steps that are not seen may be left out** of a run. -/
theorem see_runAll_filter {Inv : σ → Prop} {lab : ι → Prop} {keep : ι → Bool}
    (hinv : ∀ s i, lab i → Inv s → Inv (step s i))
    (hcongr : ∀ {s t}, see s = see t → ∀ i, see (step s i) = see (step t i))
    (hquiet : ∀ s i, lab i → Inv s → keep i = false → see (step s i) = see s) {s : σ} (hs : Inv s) {labels : List ι}
    (hlab : ∀ i ∈ labels, lab i) : see (runAll step s labels) = see (runAll step s (labels.filter keep)) := by
  -- along two runs that look the same, of which only the first takes the unseen steps
  have hboth : ∀ (labels : List ι) (s t : σ), (∀ i ∈ labels, lab i) → Inv s → see s = see t →
      see (runAll step s labels) = see (runAll step t (labels.filter keep)) := by
    intro labels
    induction labels with
    | nil => exact fun s t _ _ hst => hst
    | cons i labels ih =>
      intro s t hall hs hst
      have hi := hall i List.mem_cons_self
      have hrest : ∀ j ∈ labels, lab j := fun j hj => hall j (List.mem_cons_of_mem _ hj)
      cases hkeep : keep i with
      | true =>
        rw [List.filter_cons_of_pos hkeep]
        exact ih (step s i) (step t i) hrest (hinv s i hi hs) (hcongr hst i)
      | false =>
        rw [List.filter_cons_of_neg (by simp [hkeep])]
        exact ih (step s i) t hrest (hinv s i hi hs) ((hquiet s i hi hs hkeep).trans hst)
  exact hboth labels s s hlab hs rfl

end Lib
