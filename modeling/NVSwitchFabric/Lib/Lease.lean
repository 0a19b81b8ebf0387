import NVSwitchFabric.Lib.SortedMap

/-!
# `Lib.Lease` — leases on generation-stamped records

A map whose records carry a stamp, and a lease taken on one record at the stamp it had. Updates may not
decrease the stamp of a record they keep (`StampsGrow`). A lease is `Superseded` when nothing stands under its
key at its stamp or below: the record is gone, or a newer one has taken its place.

Supersession is what a lease holder relies on to stay revoked, and `Superseded.step` says when it does: along
an update that decreases no stamp, unless the update brings the key back after it was gone, at the leased
stamp or below (`Readmits`). There is no tombstone, so that exception is real.
-/

namespace Lib

variable {κ α γ : Type} [LinearOrder κ] [LinearOrder γ]

/-- No record present on both sides of an update has a smaller stamp after it. -/
def StampsGrow (stamp : α → γ) (m m' : SortedMap κ α) : Prop :=
  ∀ ⦃k v v'⦄, m.find? k = some v → m'.find? k = some v' → stamp v ≤ stamp v'

/-- Nothing stands under `k` at stamp `g` or below. -/
def Superseded (stamp : α → γ) (m : SortedMap κ α) (k : κ) (g : γ) : Prop :=
  ∀ v, m.find? k = some v → g < stamp v

/-- The update brings `k`, which was gone, back at stamp `g` or below. -/
def Readmits (stamp : α → γ) (m m' : SortedMap κ α) (k : κ) (g : γ) : Prop :=
  m.find? k = none ∧ ∃ v, m'.find? k = some v ∧ stamp v ≤ g

variable {stamp : α → γ} {m m' : SortedMap κ α} {k : κ} {g : γ}

theorem Superseded.of_none (h : m.find? k = none) : Superseded stamp m k g := by
  intro v hv
  rw [h] at hv
  exact absurd hv (by simp)

theorem Superseded.of_lt {v : α} (h : m.find? k = some v) (hlt : g < stamp v) :
    Superseded stamp m k g := by
  intro v' hv'
  rw [h] at hv'
  obtain rfl := Option.some.inj hv'
  exact hlt

/-- A superseded lease does not stand. -/
theorem Superseded.ne {v : α} (h : Superseded stamp m k g) (hv : m.find? k = some v) : stamp v ≠ g :=
  ne_of_gt (h v hv)

/-- **A superseded lease stays superseded**, unless the key is readmitted at its stamp or below. -/
theorem Superseded.step (h : Superseded stamp m k g) (hgrow : StampsGrow stamp m m')
    (hno : ¬ Readmits stamp m m' k g) : Superseded stamp m' k g := by
  intro v' hv'
  cases hm : m.find? k with
  | none =>
    -- gone before the update: back only as a readmission
    exact not_le.mp fun hle => hno ⟨hm, v', hv', hle⟩
  | some v => exact (h v hm).trans_le (hgrow hm hv')

/-- A lease that a growing update found standing afterwards stands, or is superseded. -/
theorem StampsGrow.stands_or_superseded {v : α} (hgrow : StampsGrow stamp m m')
    (hv : m.find? k = some v) (hstamp : stamp v = g) :
    (∃ v', m'.find? k = some v' ∧ stamp v' = g) ∨ Superseded stamp m' k g := by
  cases hm' : m'.find? k with
  | none => exact Or.inr (.of_none hm')
  | some v' =>
    have hle : g ≤ stamp v' := hstamp ▸ hgrow hv hm'
    rcases hle.eq_or_lt with heq | hlt
    · exact Or.inl ⟨v', rfl, heq.symm⟩
    · exact Or.inr (.of_lt hm' hlt)

/-- Removing records decreases no stamp. -/
theorem StampsGrow.of_sub (h : m'.Sub m) : StampsGrow stamp m m' := by
  intro k v v' hv hv'
  obtain rfl := Option.some.inj (hv.symm.trans (h hv'))
  exact le_rfl

/-- There is no stamp in an empty map. -/
theorem StampsGrow.of_empty : StampsGrow stamp (SortedMap.empty : SortedMap κ α) m' := by
  intro k v v' hv
  exact absurd hv (by simp)

/-- Rewriting every record in place lets stamps grow iff it lets each record's stamp grow. -/
theorem stampsGrow_mapVals {f : α → α} :
    StampsGrow stamp m (m.mapVals f) ↔ ∀ k v, m.find? k = some v → stamp v ≤ stamp (f v) := by
  constructor
  · intro h k v hv
    exact h hv (by rw [SortedMap.find?_mapVals, hv]; rfl)
  · intro h k v v' hv hv'
    rw [SortedMap.find?_mapVals, hv] at hv'
    obtain rfl := Option.some.inj hv'
    exact h k v hv

/-! ## Writing records back -/

section
variable {key : α → κ} {f g : α → α}

/-- Writing back records whose counterparts stand at the same stamps decreases no stamp. -/
theorem StampsGrow.of_mirrored (h : m.Mirrored (fun v v' => v' = f v) m') (hkeyed : m.KeyedBy key)
    (hg : ∀ v, key (g v) = key v) (hstamp : ∀ v, stamp (g v) = stamp (f v)) :
    StampsGrow stamp m' (m'.insertAll key (m.entries.map fun e => g e.2)) := by
  intro k v v' hv hv'
  rcases h.find?_insertAll_cases hkeyed hg hv' with hold | ⟨u, rfl, hu⟩
  · exact (congrArg stamp (Option.some.inj (hv.symm.trans hold))).le
  · rw [hstamp, Option.some.inj (hv.symm.trans hu)]

/-- **Records that have fallen behind cannot be written back.** If every counterpart has a larger stamp, writing back
    decreases none only when there is no record. -/
theorem StampsGrow.eq_empty_of_behind {R : α → α → Prop} (h : m.Mirrored R m') (hlt : ∀ v v', R v v' → stamp v < stamp v')
    (hkeyed : m.KeyedBy key) (hg : ∀ v, key (g v) = key v) (hstamp : ∀ v, stamp (g v) = stamp v)
    (hgrow : StampsGrow stamp m' (m'.insertAll key (m.entries.map fun e => g e.2))) : m = .empty := by
  apply SortedMap.eq_empty_of_find?_none
  intro k
  by_contra hrec
  obtain ⟨v, hv⟩ := Option.ne_none_iff_exists'.mp hrec
  obtain ⟨v', hv', hR⟩ := h hv
  obtain ⟨w, hw, rfl⟩ := hkeyed.mirrored_insertAll hg m' hv
  have hle : stamp v' ≤ stamp (g v) := hgrow hv' hw
  rw [hstamp] at hle
  exact absurd (hlt v v' hR) (not_lt.mpr hle)

end

end Lib
