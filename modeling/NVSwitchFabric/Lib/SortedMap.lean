import Mathlib.Order.Lattice
import Mathlib.Data.List.Nodup
import Mathlib.Data.List.Perm.Subperm

/-!
# `Lib.SortedMap` — finite maps with ordered keys

An association list that carries the proof that its keys are strictly increasing: the ordered map of the
C++ standard library (`std::map`), iteration in key order included. The invariant is a field, so a map with
a repeated or misplaced key cannot be built, and every operation below re-establishes it once.

## Contents
- **Lookup.** `find?` and its reading as membership, `find?_eq_some_iff`; every other fact goes through it.
- **Edits.** `insert`, `filter`, `erase`, `mapVals` and the bulk upsert `insertAll`, each with its lookup law.
- **Submaps.** `Sub`: what is left after removals; `SameAmong`: what two maps share of some kind.
- **Keyed maps.** `KeyedBy`: records stored under their own key, and that every edit keeps it so.
- **Properties of values.** `All`: what holds of every value, through the same edits.
- **Mirrors.** `Mirrored`: every entry of one map has a counterpart in another, through the edits of the other.
- **Last match.** What a search from the end finds, `find?_reverse_eq_some_iff`.
- **A value that stays.** `Stores`: when a property of the value under one key survives an edit.
-/

namespace Lib

variable {κ α β : Type} [LinearOrder κ]

/-- A finite map as the list of its entries, strictly increasing in the key. -/
structure SortedMap (κ α : Type) [LinearOrder κ] where
  entries : List (κ × α)
  sorted  : (entries.map Prod.fst).Pairwise (· < ·)

namespace SortedMap

/-! ## Reading -/

/-- The empty map. -/
def empty : SortedMap κ α := ⟨[], List.Pairwise.nil⟩

instance : Inhabited (SortedMap κ α) := ⟨empty⟩

/-- The value stored under `k`. -/
def find? (m : SortedMap κ α) (k : κ) : Option α := m.entries.lookup k

/-- Whether `k` is a key. -/
def contains (m : SortedMap κ α) (k : κ) : Bool := (m.find? k).isSome

/-- Number of entries. -/
def size (m : SortedMap κ α) : Nat := m.entries.length

/-- The keys, in increasing order. -/
def keys (m : SortedMap κ α) : List κ := m.entries.map Prod.fst

/-- A map is its list of entries. -/
theorem ext_entries {m m' : SortedMap κ α} (h : m.entries = m'.entries) : m = m' := by
  cases m
  cases m'
  dsimp only at h
  subst h
  rfl

theorem keys_nodup (m : SortedMap κ α) : m.keys.Nodup :=
  m.sorted.imp fun h => ne_of_lt h

/-- `lookup` on a nonempty list, as a test of the head key. -/
theorem lookup_cons_ite (k k' : κ) (v' : α) (l : List (κ × α)) :
    List.lookup k ((k', v') :: l) = if k = k' then some v' else l.lookup k := by
  rw [List.lookup_cons]
  by_cases hk : k = k'
  · simp [hk]
  · rw [beq_false_of_ne hk, if_neg hk]

/-- In a list without repeated keys, `lookup` finds exactly the members. -/
theorem lookup_eq_some_iff_mem {l : List (κ × α)} (hnd : (l.map Prod.fst).Nodup) {k : κ} {v : α} :
    l.lookup k = some v ↔ (k, v) ∈ l := by
  induction l with
  | nil => simp
  | cons e l ih =>
    obtain ⟨k', v'⟩ := e
    rw [List.map_cons, List.nodup_cons] at hnd
    by_cases hk : k = k'
    · subst hk
      have hnot : (k, v) ∉ l := fun hm => hnd.1 (List.mem_map.mpr ⟨_, hm, rfl⟩)
      simp [hnot, eq_comm]
    · rw [lookup_cons_ite, if_neg hk, ih hnd.2]
      simp [hk]

/-- **Lookup is membership.** -/
theorem find?_eq_some_iff {m : SortedMap κ α} {k : κ} {v : α} :
    m.find? k = some v ↔ (k, v) ∈ m.entries :=
  lookup_eq_some_iff_mem m.keys_nodup

/-- A property of all entries can be tested. -/
instance decidableForall (m : SortedMap κ α) (P : κ → α → Prop) [∀ k v, Decidable (P k v)] :
    Decidable (∀ k v, m.find? k = some v → P k v) :=
  decidable_of_iff (∀ e ∈ m.entries, P e.1 e.2)
    ⟨fun h _ _ hv => h _ (find?_eq_some_iff.mp hv), fun h e he => h e.1 e.2 (find?_eq_some_iff.mpr he)⟩

/-- A map is what it stores under each key. -/
theorem ext_find? {m m' : SortedMap κ α} (h : ∀ k, m.find? k = m'.find? k) : m = m' := by
  apply ext_entries
  have hsorted : ∀ m : SortedMap κ α, m.entries.Pairwise fun e e' => e.1 < e'.1 := fun m => List.pairwise_map.mp m.sorted
  have hperm : m.entries.Perm m'.entries := by
    have hnodup : ∀ m : SortedMap κ α, m.entries.Nodup := fun m =>
      (hsorted m).imp fun hlt heq => hlt.ne (congrArg Prod.fst heq)
    apply (List.perm_ext_iff_of_nodup (hnodup m) (hnodup m')).mpr
    rintro ⟨k, v⟩
    rw [← find?_eq_some_iff, ← find?_eq_some_iff, h]
  exact hperm.eq_of_pairwise (fun e e' _ _ hlt hgt => absurd hlt (lt_asymm hgt)) (hsorted m) (hsorted m')

/-- What no entry satisfies. -/
theorem any_entries_eq_false {m : SortedMap κ α} {p : κ × α → Bool} :
    m.entries.any p = false ↔ ∀ k v, m.find? k = some v → p (k, v) = false := by
  rw [List.any_eq_false]
  constructor
  · intro h k v hv
    exact Bool.eq_false_iff.mpr (h (k, v) (find?_eq_some_iff.mp hv))
  · intro h e he
    exact Bool.eq_false_iff.mp (h e.1 e.2 (find?_eq_some_iff.mpr he))

theorem contains_iff {m : SortedMap κ α} {k : κ} : m.contains k = true ↔ ∃ v, m.find? k = some v :=
  Option.isSome_iff_exists

@[simp] theorem contains_eq_false {m : SortedMap κ α} {k : κ} :
    m.contains k = false ↔ m.find? k = none := by
  simp [contains]

theorem find?_eq_none_of_contains {m : SortedMap κ α} {k : κ} (h : ¬ m.contains k = true) :
    m.find? k = none := by
  rwa [Bool.not_eq_true, contains_eq_false] at h

/-- A key with a record is not a key without one. -/
theorem ne_of_find? {m : SortedMap κ α} {k x : κ} {v : α} (hk : m.find? k = none)
    (hx : m.find? x = some v) : k ≠ x := by
  rintro rfl
  exact absurd (hk.symm.trans hx) (by simp)

@[simp] theorem find?_empty (k : κ) : (empty : SortedMap κ α).find? k = none := rfl

/-! ## Insertion -/

/-- Insert into an ordered list of entries, replacing the entry of an equal key. -/
def insertEntry (k : κ) (v : α) : List (κ × α) → List (κ × α)
  | []            => [(k, v)]
  | (k', v') :: l =>
    if k < k' then (k, v) :: (k', v') :: l
    else if k = k' then (k, v) :: l
    else (k', v') :: insertEntry k v l

theorem mem_keys_insertEntry {k x : κ} {v : α} {l : List (κ × α)} :
    x ∈ (insertEntry k v l).map Prod.fst → x = k ∨ x ∈ l.map Prod.fst := by
  induction l with
  | nil => simp [insertEntry]
  | cons e l ih =>
    obtain ⟨k', v'⟩ := e
    intro hx
    unfold insertEntry at hx
    split at hx
    · simpa using hx
    · split at hx
      · simp only [List.map_cons, List.mem_cons] at hx ⊢
        exact hx.imp id Or.inr
      · simp only [List.map_cons, List.mem_cons] at hx ⊢
        rcases hx with hx | hx
        · exact Or.inr (Or.inl hx)
        · exact (ih hx).imp id Or.inr

theorem insertEntry_sorted {k : κ} {v : α} {l : List (κ × α)}
    (h : (l.map Prod.fst).Pairwise (· < ·)) :
    ((insertEntry k v l).map Prod.fst).Pairwise (· < ·) := by
  induction l with
  | nil => simp [insertEntry]
  | cons e l ih =>
    obtain ⟨k', v'⟩ := e
    rw [List.map_cons, List.pairwise_cons] at h
    unfold insertEntry
    split
    · next hlt =>
      rw [List.map_cons, List.map_cons, List.pairwise_cons, List.pairwise_cons]
      refine ⟨?_, h.1, h.2⟩
      intro x hx
      rcases List.mem_cons.mp hx with rfl | hx
      · exact hlt
      · exact hlt.trans (h.1 x hx)
    · next hlt =>
      split
      · next heq =>
        subst heq
        exact List.pairwise_cons.mpr ⟨h.1, h.2⟩
      · next hne =>
        rw [List.map_cons, List.pairwise_cons]
        refine ⟨?_, ih h.2⟩
        intro x hx
        rcases mem_keys_insertEntry hx with rfl | hx
        · exact lt_of_le_of_ne (not_lt.mp hlt) (Ne.symm hne)
        · exact h.1 x hx

/-- Set the value under `k`, whether or not `k` was a key. -/
def insert (m : SortedMap κ α) (k : κ) (v : α) : SortedMap κ α :=
  ⟨insertEntry k v m.entries, insertEntry_sorted m.sorted⟩

theorem lookup_insertEntry (k x : κ) (v : α) (l : List (κ × α)) :
    (insertEntry k v l).lookup x = if x = k then some v else l.lookup x := by
  induction l with
  | nil => exact lookup_cons_ite x k v []
  | cons e l ih =>
    obtain ⟨k', v'⟩ := e
    unfold insertEntry
    split
    · exact lookup_cons_ite x k v _
    · split
      · next heq =>
        subst heq
        rw [lookup_cons_ite, lookup_cons_ite]
        by_cases hx : x = k <;> simp [hx]
      · next hne =>
        rw [lookup_cons_ite, lookup_cons_ite, ih]
        by_cases hx : x = k'
        · subst hx; simp [Ne.symm hne]
        · simp [hx]

theorem find?_insert (m : SortedMap κ α) (k x : κ) (v : α) :
    (m.insert k v).find? x = if x = k then some v else m.find? x :=
  lookup_insertEntry k x v m.entries

@[simp] theorem find?_insert_self (m : SortedMap κ α) (k : κ) (v : α) :
    (m.insert k v).find? k = some v := by
  rw [find?_insert, if_pos rfl]

theorem find?_insert_ne (m : SortedMap κ α) {k x : κ} (v : α) (h : x ≠ k) :
    (m.insert k v).find? x = m.find? x := by
  rw [find?_insert, if_neg h]

theorem insertEntry_of_forall_lt {k : κ} {v : α} {l : List (κ × α)} (h : ∀ e ∈ l, e.1 < k) :
    insertEntry k v l = l ++ [(k, v)] := by
  induction l with
  | nil => rfl
  | cons e l ih =>
    have hlt : e.1 < k := h e List.mem_cons_self
    unfold insertEntry
    rw [if_neg (not_lt.mpr hlt.le), if_neg (ne_of_gt hlt),
      ih fun x hx => h x (List.mem_cons_of_mem _ hx)]
    rfl

/-- A key above all others is inserted at the end. -/
theorem entries_insert_of_forall_lt {m : SortedMap κ α} {k : κ} (v : α) (h : ∀ e ∈ m.entries, e.1 < k) :
    (m.insert k v).entries = m.entries ++ [(k, v)] :=
  insertEntry_of_forall_lt h

/-- Inserting under a new key takes one more entry, replacing takes none. -/
theorem length_insertEntry {k : κ} {v : α} {l : List (κ × α)} (h : (l.map Prod.fst).Pairwise (· < ·)) :
    (insertEntry k v l).length = if (l.lookup k).isSome then l.length else l.length + 1 := by
  induction l with
  | nil => rfl
  | cons e l ih =>
    obtain ⟨k', v'⟩ := e
    rw [List.map_cons, List.pairwise_cons] at h
    unfold insertEntry
    rw [lookup_cons_ite]
    split
    · next hlt =>
      -- `k` is below all keys, so it is not one of them
      have hnone : l.lookup k = none := by
        cases hl : l.lookup k with
        | none => rfl
        | some u =>
          have hnd : (l.map Prod.fst).Nodup := h.2.imp fun hab => ne_of_lt hab
          have hmem := (lookup_eq_some_iff_mem hnd).mp hl
          exact absurd (h.1 k (List.mem_map_of_mem (f := Prod.fst) hmem)) (not_lt.mpr hlt.le)
      rw [if_neg (ne_of_lt hlt), hnone]
      rfl
    · split
      · rfl
      · rw [List.length_cons, ih h.2, List.length_cons]
        split <;> rfl

theorem size_insert (m : SortedMap κ α) (k : κ) (v : α) :
    (m.insert k v).size = if m.contains k then m.size else m.size + 1 :=
  length_insertEntry m.sorted

theorem size_insert_of_none {m : SortedMap κ α} {k : κ} (v : α) (h : m.find? k = none) :
    (m.insert k v).size = m.size + 1 := by
  rw [size_insert, if_neg (by rw [contains_eq_false.mpr h]; simp)]

theorem size_insert_le (m : SortedMap κ α) (k : κ) (v : α) : (m.insert k v).size ≤ m.size + 1 := by
  rw [size_insert]
  split <;> omega

/-! ## Removal and update in place -/

/-- Keep the entries that satisfy `p`. -/
def filter (p : κ → α → Bool) (m : SortedMap κ α) : SortedMap κ α :=
  ⟨m.entries.filter fun e => p e.1 e.2, m.sorted.sublist (List.filter_sublist.map Prod.fst)⟩

theorem find?_filter_eq_some {p : κ → α → Bool} {m : SortedMap κ α} {k : κ} {v : α} :
    (m.filter p).find? k = some v ↔ m.find? k = some v ∧ p k v = true := by
  rw [find?_eq_some_iff, find?_eq_some_iff]
  exact List.mem_filter

theorem find?_filter (p : κ → α → Bool) (m : SortedMap κ α) (k : κ) :
    (m.filter p).find? k = (m.find? k).filter (p k) := by
  apply Option.ext
  intro v
  rw [find?_filter_eq_some, Option.filter_eq_some_iff]

/-- A key that is there is still there unless it is dropped. -/
theorem contains_filter_of_known {m : SortedMap κ α} {drop : κ → Bool} {k : κ} (h : m.contains k = true) :
    (m.filter fun k _ => !drop k).contains k = true ↔ drop k = false := by
  obtain ⟨v, hv⟩ := contains_iff.mp h
  rw [contains_iff]
  constructor
  · rintro ⟨v', hv'⟩
    simpa using (find?_filter_eq_some.mp hv').2
  · intro hk
    exact ⟨v, find?_filter_eq_some.mpr ⟨hv, by simp [hk]⟩⟩

/-- A filter that keeps every key and value keeps the map. -/
theorem filter_true (m : SortedMap κ α) : m.filter (fun _ _ => true) = m :=
  ext_entries (List.filter_eq_self.mpr fun _ _ => rfl)

/-- Remove the entry of `k`, if any. -/
def erase (m : SortedMap κ α) (k : κ) : SortedMap κ α := m.filter fun x _ => x ≠ k

theorem find?_erase_eq_some {m : SortedMap κ α} {k x : κ} {v : α} :
    (m.erase k).find? x = some v ↔ m.find? x = some v ∧ x ≠ k := by
  rw [erase, find?_filter_eq_some, decide_eq_true_iff]

theorem find?_erase (m : SortedMap κ α) (k x : κ) :
    (m.erase k).find? x = if x = k then none else m.find? x := by
  rw [erase, find?_filter]
  by_cases h : x = k
  · rw [if_pos h]
    cases m.find? x <;> simp [h]
  · rw [if_neg h]
    cases m.find? x <;> simp [h]

/-- Removing a key that is there makes the map smaller. -/
theorem size_erase_lt {m : SortedMap κ α} {k : κ} (h : m.contains k = true) : (m.erase k).size < m.size := by
  obtain ⟨v, hv⟩ := contains_iff.mp h
  apply List.length_filter_lt_length_iff_exists.mpr
  exact ⟨(k, v), find?_eq_some_iff.mp hv, by simp⟩

/-- Removing one key is dropping that key. -/
theorem erase_eq_filter (m : SortedMap κ α) (k : κ) : m.erase k = m.filter fun x _ => !decide (x = k) := by
  unfold erase
  congr 1
  funext x _
  simp

theorem size_filter_lt {m : SortedMap κ α} {k : κ} (h : m.contains k = true) :
    (m.filter fun x _ => !decide (x = k)).size < m.size := by
  rw [← erase_eq_filter]
  exact size_erase_lt h

/-- A map without keys is the empty one. -/
theorem eq_empty_of_find?_none {m : SortedMap κ α} (h : ∀ k, m.find? k = none) : m = empty := by
  apply ext_entries
  apply List.eq_nil_iff_forall_not_mem.mpr
  rintro ⟨k, v⟩ hmem
  exact absurd ((h k).symm.trans (find?_eq_some_iff.mpr hmem)) (by simp)

theorem eq_empty_of_size {m : SortedMap κ α} (h : m.size = 0) : m = empty :=
  ext_entries (List.length_eq_zero_iff.mp h)

/-- A map that is not empty has a key. -/
theorem exists_contains {m : SortedMap κ α} (h : m.size ≠ 0) : ∃ k, m.contains k = true := by
  by_contra hnone
  push Not at hnone
  have hempty : m = empty := eq_empty_of_find?_none fun k => find?_eq_none_of_contains (hnone k)
  exact h (by rw [hempty]; rfl)

/-- Rewrite every value, keys unchanged. -/
def mapVals (f : α → β) (m : SortedMap κ α) : SortedMap κ β :=
  ⟨m.entries.map fun e => (e.1, f e.2), by simpa [Function.comp_def] using m.sorted⟩

@[simp] theorem find?_mapVals (f : α → β) (m : SortedMap κ α) (k : κ) :
    (m.mapVals f).find? k = (m.find? k).map f := by
  have h : ∀ l : List (κ × α), (l.map fun e => (e.1, f e.2)).lookup k = (l.lookup k).map f := by
    intro l
    induction l with
    | nil => rfl
    | cons e l ih =>
      obtain ⟨k', v'⟩ := e
      rw [List.map_cons, lookup_cons_ite, lookup_cons_ite, ih]
      by_cases hk : k = k' <;> simp [hk]
  exact h m.entries

theorem find?_mapVals_eq_some {f : α → β} {m : SortedMap κ α} {k : κ} {v : β} :
    (m.mapVals f).find? k = some v ↔ ∃ old, m.find? k = some old ∧ f old = v := by
  rw [find?_mapVals, Option.map_eq_some_iff]

@[simp] theorem contains_mapVals (f : α → β) (m : SortedMap κ α) (k : κ) :
    (m.mapVals f).contains k = m.contains k := by
  rw [contains, find?_mapVals, Option.isSome_map]
  rfl

@[simp] theorem size_mapVals (f : α → β) (m : SortedMap κ α) : (m.mapVals f).size = m.size :=
  List.length_map _

/-- Rewriting values into themselves changes nothing. -/
theorem mapVals_eq_self {f : α → α} {m : SortedMap κ α} (h : ∀ e ∈ m.entries, f e.2 = e.2) : m.mapVals f = m := by
  apply ext_entries
  have hsame : ∀ e ∈ m.entries, (e.1, f e.2) = e := fun e he => Prod.ext rfl (h e he)
  exact (List.map_congr_left hsame).trans (List.map_id _)

theorem mapVals_id (m : SortedMap κ α) : m.mapVals (fun v => v) = m := ext_entries (List.map_id _)

theorem mapVals_insert (f : α → β) (m : SortedMap κ α) (k : κ) (v : α) :
    (m.insert k v).mapVals f = (m.mapVals f).insert k (f v) := by
  apply ext_find?
  intro x
  rw [find?_mapVals, find?_insert, find?_insert, find?_mapVals]
  split <;> rfl

theorem mapVals_erase (f : α → β) (m : SortedMap κ α) (k : κ) : (m.erase k).mapVals f = (m.mapVals f).erase k := by
  apply ext_find?
  intro x
  rw [find?_mapVals, find?_erase, find?_erase, find?_mapVals]
  split <;> rfl

/-- A value written over itself. -/
theorem insert_eq_self {m : SortedMap κ α} {k : κ} {v : α} (h : m.find? k = some v) : m.insert k v = m := by
  apply ext_find?
  intro x
  rw [find?_insert]
  split
  · next hx => rw [hx, h]
  · rfl

/-! ## Submaps -/

/-- Every entry of `m'` is one of `m`. -/
def Sub (m' m : SortedMap κ α) : Prop := ∀ ⦃k v⦄, m'.find? k = some v → m.find? k = some v

theorem Sub.refl (m : SortedMap κ α) : m.Sub m := fun _ _ h => h

theorem Sub.contains {m' m : SortedMap κ α} (h : m'.Sub m) {k : κ} (hk : m'.contains k = true) : m.contains k = true := by
  obtain ⟨v, hv⟩ := contains_iff.mp hk
  exact contains_iff.mpr ⟨v, h hv⟩

theorem filter_sub (p : κ → α → Bool) (m : SortedMap κ α) : (m.filter p).Sub m :=
  fun _ _ h => (find?_filter_eq_some.mp h).1

/-- A map with no other keys is no larger. -/
theorem size_le_of_contains {m' : SortedMap κ α} {m : SortedMap κ β}
    (h : ∀ k, m'.contains k = true → m.contains k = true) : m'.size ≤ m.size := by
  have hkeys : m'.keys ⊆ m.keys := by
    intro k hk
    obtain ⟨e, he, rfl⟩ := List.mem_map.mp hk
    obtain ⟨v, hv⟩ := contains_iff.mp (h e.1 (contains_iff.mpr ⟨e.2, find?_eq_some_iff.mpr he⟩))
    exact List.mem_map_of_mem (find?_eq_some_iff.mp hv)
  have hlen := (m'.keys_nodup.subperm hkeys).length_le
  unfold keys at hlen
  rwa [List.length_map, List.length_map] at hlen

theorem Sub.size_le {m' m : SortedMap κ α} (h : m'.Sub m) : m'.size ≤ m.size := size_le_of_contains fun _ => h.contains

/-- Every entry of `m'` that satisfies `p` is one of `m`. -/
def SubAmong (p : α → Prop) (m' m : SortedMap κ α) : Prop := ∀ ⦃k v⦄, p v → m'.find? k = some v → m.find? k = some v

section
variable {p : α → Prop} {m m' m'' : SortedMap κ α}

theorem Sub.among (h : m'.Sub m) : m'.SubAmong p m := fun _ _ _ hv => h hv

theorem SubAmong.trans (h : m''.SubAmong p m') (h' : m'.SubAmong p m) : m''.SubAmong p m :=
  fun _ _ hp hv => h' hp (h hp hv)

/-- Writing a value that does not satisfy `p`. -/
theorem subAmong_insert (m : SortedMap κ α) (k : κ) {v : α} (hv : ¬ p v) : (m.insert k v).SubAmong p m := by
  intro k' v' hp hfind
  by_cases hk : k' = k
  · subst hk
    rw [find?_insert_self] at hfind
    obtain rfl := Option.some.inj hfind
    exact absurd hp hv
  · rwa [find?_insert_ne _ _ hk] at hfind

/-- A rewrite that keeps the values that satisfy `p` after it. -/
theorem subAmong_mapVals {f : α → α} (hkeep : ∀ v, p (f v) → f v = v) (m : SortedMap κ α) : (m.mapVals f).SubAmong p m := by
  intro k v hp hfind
  obtain ⟨old, hold, rfl⟩ := find?_mapVals_eq_some.mp hfind
  rwa [hkeep old hp]

end

/-- The maps hold the same values among those that satisfy `p`. -/
def SameAmong (p : α → Prop) (m m' : SortedMap κ α) : Prop := ∀ k v, p v → (m'.find? k = some v ↔ m.find? k = some v)

theorem SameAmong.refl (p : α → Prop) (m : SortedMap κ α) : m.SameAmong p m := fun _ _ _ => Iff.rfl

/-- A rewrite that leaves the values alone that satisfy `p`, and makes no others such. -/
theorem sameAmong_mapVals {p : α → Prop} {f : α → α} (hkeep : ∀ v, p v → f v = v) (hfrom : ∀ v, p (f v) → p v)
    (m : SortedMap κ α) : m.SameAmong p (m.mapVals f) := by
  intro k v hv
  rw [find?_mapVals_eq_some]
  constructor
  · rintro ⟨old, hold, rfl⟩
    rwa [hkeep old (hfrom old hv)]
  · intro hold
    exact ⟨v, hold, hkeep v hv⟩

/-! ## Bulk upsert -/

/-- Insert every record of a list under its own key, later records winning. -/
def insertAll (key : α → κ) (m : SortedMap κ α) (recs : List α) : SortedMap κ α :=
  recs.foldl (fun m r => m.insert (key r) r) m

@[simp] theorem insertAll_nil (key : α → κ) (m : SortedMap κ α) : m.insertAll key [] = m := rfl

@[simp] theorem insertAll_cons (key : α → κ) (m : SortedMap κ α) (r : α) (recs : List α) :
    m.insertAll key (r :: recs) = (m.insert (key r) r).insertAll key recs := rfl

/-- **The last record under a key wins; an absent key is untouched.** -/
theorem find?_insertAll (key : α → κ) (m : SortedMap κ α) (recs : List α) (k : κ) :
    (m.insertAll key recs).find? k
      = ((recs.reverse.find? fun r => key r = k).or (m.find? k)) := by
  induction recs generalizing m with
  | nil => simp
  | cons r recs ih =>
    rw [insertAll_cons, ih, find?_insert, List.reverse_cons, List.find?_append, Option.or_assoc]
    by_cases hk : k = key r
    · simp [hk]
    · simp [hk, Ne.symm hk]

/-- An upsert repeated changes nothing more. -/
theorem insertAll_self (key : α → κ) (m : SortedMap κ α) (recs : List α) :
    (m.insertAll key recs).insertAll key recs = m.insertAll key recs := by
  apply ext_find?
  intro k
  rw [find?_insertAll key (m.insertAll key recs), find?_insertAll key m, ← Option.or_assoc, Option.or_self]

/-- Upserts of different keys commute. -/
theorem insertAll_comm {key : α → κ} {as bs : List α} (h : ∀ a ∈ as, ∀ b ∈ bs, key a ≠ key b) (m : SortedMap κ α) :
    (m.insertAll key as).insertAll key bs = (m.insertAll key bs).insertAll key as := by
  apply ext_find?
  intro k
  simp only [find?_insertAll]
  cases ha : as.reverse.find? fun r => key r = k with
  | none => rw [Option.none_or, Option.none_or]
  | some a =>
    -- no record of the other list is under the key of `a`
    have hkey : key a = k := by simpa using List.find?_some ha
    have hb : (bs.reverse.find? fun r => key r = k) = none := by
      rw [List.find?_eq_none]
      intro b hb
      have hne := h a (List.mem_reverse.mp (List.mem_of_find?_eq_some ha)) b (List.mem_reverse.mp hb)
      rw [hkey] at hne
      simpa using hne.symm
    rw [hb, Option.none_or, Option.none_or]

theorem insertAll_append (key : α → κ) (m : SortedMap κ α) (recs recs' : List α) :
    m.insertAll key (recs ++ recs') = (m.insertAll key recs).insertAll key recs' := List.foldl_append ..

/-- Records under keys of their own are found wherever they stand in a list. -/
theorem find?_reverse_eq_some_iff_of_nodup {key : α → κ} {recs : List α} (h : (recs.map key).Nodup) {k : κ} {v : α} :
    (recs.reverse.find? fun r => key r = k) = some v ↔ v ∈ recs ∧ key v = k := by
  constructor
  · intro hfind
    have hkey := List.find?_some hfind
    exact ⟨List.mem_reverse.mp (List.mem_of_find?_eq_some hfind), by simpa using hkey⟩
  · rintro ⟨hmem, rfl⟩
    cases hfind : recs.reverse.find? fun r => key r = key v with
    | none => exact absurd (List.find?_eq_none.mp hfind v (List.mem_reverse.mpr hmem)) (by simp)
    | some w =>
      have hkey : key w = key v := by simpa using List.find?_some hfind
      have hw := List.mem_reverse.mp (List.mem_of_find?_eq_some hfind)
      rw [List.inj_on_of_nodup_map h hw hmem hkey]

/-- **Records under keys of their own may be upserted in any order.** -/
theorem insertAll_perm {key : α → κ} {recs recs' : List α} (h : (recs.map key).Nodup) (hperm : recs.Perm recs')
    (m : SortedMap κ α) : m.insertAll key recs = m.insertAll key recs' := by
  apply ext_find?
  intro k
  rw [find?_insertAll, find?_insertAll]
  congr 1
  apply Option.ext
  intro v
  rw [find?_reverse_eq_some_iff_of_nodup h, find?_reverse_eq_some_iff_of_nodup ((hperm.map key).nodup_iff.mp h),
    hperm.mem_iff]

/-- After a bulk upsert a value is one of the records or was there before. -/
theorem find?_insertAll_cases {key : α → κ} {m : SortedMap κ α} {recs : List α} {k : κ} {v : α}
    (h : (m.insertAll key recs).find? k = some v) :
    (v ∈ recs ∧ key v = k) ∨ (m.find? k = some v ∧ ∀ r ∈ recs, key r ≠ k) := by
  rw [find?_insertAll] at h
  cases hf : recs.reverse.find? fun r => key r = k with
  | some r =>
    rw [hf, Option.some_or] at h
    obtain rfl := Option.some.inj h
    have hmem := List.mem_of_find?_eq_some hf
    have hkey := List.find?_some hf
    exact Or.inl ⟨List.mem_reverse.mp hmem, by simpa using hkey⟩
  | none =>
    rw [hf, Option.none_or] at h
    refine Or.inr ⟨h, fun r hr => ?_⟩
    have := List.find?_eq_none.mp hf r (List.mem_reverse.mpr hr)
    simpa using this

/-! ## Maps whose records carry their key -/

/-- Every record is stored under its own key. -/
def KeyedBy (key : α → κ) (m : SortedMap κ α) : Prop := ∀ ⦃k v⦄, m.find? k = some v → key v = k

namespace KeyedBy

variable {key : α → κ} {m : SortedMap κ α}

theorem empty : KeyedBy key (empty : SortedMap κ α) := by
  intro k v h
  exact absurd h (by simp)

theorem insert {k : κ} {v : α} (h : m.KeyedBy key) (hv : key v = k) : (m.insert k v).KeyedBy key := by
  intro x w hx
  rw [find?_insert] at hx
  split at hx
  · next heq =>
    obtain rfl := Option.some.inj hx
    exact hv.trans heq.symm
  · exact h hx

/-- Replacing a record by one with the same key. -/
theorem update {k : κ} {v w : α} (h : m.KeyedBy key) (hv : m.find? k = some v) (hw : key w = key v) :
    (m.insert k w).KeyedBy key := h.insert (hw.trans (h hv))

theorem filter {p : κ → α → Bool} (h : m.KeyedBy key) : (m.filter p).KeyedBy key := by
  intro k v hk
  exact h (find?_filter_eq_some.mp hk).1

theorem erase {k : κ} (h : m.KeyedBy key) : (m.erase k).KeyedBy key := h.filter

theorem mapVals {f : α → α} (h : m.KeyedBy key) (hf : ∀ v, key (f v) = key v) :
    (m.mapVals f).KeyedBy key := by
  intro k v hk
  rw [find?_mapVals_eq_some] at hk
  obtain ⟨w, hw, rfl⟩ := hk
  exact (hf w).trans (h hw)

theorem insertAll (h : m.KeyedBy key) (recs : List α) : (m.insertAll key recs).KeyedBy key := by
  intro k v hk
  rcases find?_insertAll_cases hk with ⟨_, hkey⟩ | ⟨hold, _⟩
  · exact hkey
  · exact h hold

/-- **Writing back.** Inserting all records of a map into an empty one makes the same map. -/
theorem insertAll_empty (h : m.KeyedBy key) :
    SortedMap.empty.insertAll key (m.entries.map Prod.snd) = m := by
  -- the records come in the order of their keys, so each is inserted at the end
  have happend : ∀ (l : List (κ × α)) (done : SortedMap κ α), done.entries ++ l = m.entries →
      done.insertAll key (l.map Prod.snd) = m := by
    intro l
    induction l with
    | nil =>
      intro done hdone
      rw [List.append_nil] at hdone
      exact ext_entries hdone
    | cons e l ih =>
      intro done hdone
      have hmem : e ∈ m.entries := hdone ▸ List.mem_append_right _ List.mem_cons_self
      have hkey : key e.2 = e.1 := h (find?_eq_some_iff.mpr hmem)
      have hsorted := m.sorted
      rw [← hdone, List.map_append, List.map_cons] at hsorted
      have hlast : ∀ x ∈ done.entries, x.1 < key e.2 := by
        intro x hx
        rw [hkey]
        exact (List.pairwise_append.mp hsorted).2.2 x.1 (List.mem_map_of_mem hx) e.1 List.mem_cons_self
      rw [List.map_cons, insertAll_cons]
      apply ih
      rw [entries_insert_of_forall_lt e.2 hlast, List.append_assoc, hkey]
      exact hdone
  exact happend m.entries SortedMap.empty rfl

end KeyedBy

/-! ## Properties of all values -/

/-- Every value satisfies `P`. -/
def All (P : α → Prop) (m : SortedMap κ α) : Prop := ∀ ⦃k v⦄, m.find? k = some v → P v

namespace All

variable {P : α → Prop} {m : SortedMap κ α}

theorem empty : All P (empty : SortedMap κ α) := by
  intro k v h
  exact absurd h (by simp)

theorem insert {k : κ} {v : α} (h : m.All P) (hv : P v) : (m.insert k v).All P := by
  intro x w hx
  rw [find?_insert] at hx
  split at hx
  · exact Option.some.inj hx ▸ hv
  · exact h hx

/-- What no entry satisfies, by running over the entries. -/
theorem any_eq_false_iff {p : α → Bool} : (m.entries.any fun e => p e.2) = false ↔ m.All fun v => p v = false := by
  rw [any_entries_eq_false]
  exact ⟨fun h _ _ hv => h _ _ hv, fun h _ _ hv => h hv⟩

/-- A fresh key adds its value and leaves the others. -/
theorem insert_iff {k : κ} {v : α} (hfresh : m.find? k = none) : (m.insert k v).All P ↔ m.All P ∧ P v := by
  constructor
  · intro h
    refine ⟨?_, h (find?_insert_self m k v)⟩
    intro x w hx
    exact h ((find?_insert_ne m v (ne_of_find? hfresh hx).symm).trans hx)
  · rintro ⟨h, hv⟩
    exact h.insert hv

theorem filter {p : κ → α → Bool} (h : m.All P) : (m.filter p).All P := by
  intro k v hk
  exact h (find?_filter_eq_some.mp hk).1

theorem erase {k : κ} (h : m.All P) : (m.erase k).All P := h.filter

theorem mapVals {f : α → α} (h : m.All P) (hf : ∀ v, P v → P (f v)) : (m.mapVals f).All P := by
  intro k v hk
  obtain ⟨w, hw, rfl⟩ := find?_mapVals_eq_some.mp hk
  exact hf w (h hw)

/-- Rewriting that leaves every value with the property alone changes nothing. -/
theorem mapVals_eq_self {f : α → α} (h : m.All P) (hf : ∀ v, P v → f v = v) : m.mapVals f = m :=
  SortedMap.mapVals_eq_self fun _ he => hf _ (h (find?_eq_some_iff.mpr he))

/-- After a bulk upsert: what the records put under their keys, the last of each, and what was there. -/
theorem insertAll {key : α → κ} {recs : List α} (h : m.All P)
    (hrecs : ∀ k v, (recs.reverse.find? fun r => key r = k) = some v → P v) : (m.insertAll key recs).All P := by
  intro k v hk
  rw [find?_insertAll] at hk
  cases hf : recs.reverse.find? fun r => key r = k with
  | some r =>
    rw [hf, Option.some_or] at hk
    exact hrecs k v (hf.trans hk)
  | none =>
    rw [hf, Option.none_or] at hk
    exact h hk

end All

/-! ## Mirrors -/

theorem find?_insertAll_of_ne {key : α → κ} {m : SortedMap κ α} {recs : List α} {k : κ}
    (h : ∀ r ∈ recs, key r ≠ k) : (m.insertAll key recs).find? k = m.find? k := by
  rw [find?_insertAll]
  have hnone : (recs.reverse.find? fun r => key r = k) = none := by
    rw [List.find?_eq_none]
    intro r hr
    simpa using h r (List.mem_reverse.mp hr)
  rw [hnone, Option.none_or]

/-- Every key of a record is a key after the upsert. -/
theorem contains_insertAll_of_mem {key : α → κ} {recs : List α} {r : α} (hr : r ∈ recs) (m : SortedMap κ α) :
    (m.insertAll key recs).contains (key r) = true := by
  unfold contains
  rw [find?_insertAll, Option.isSome_or, Bool.or_eq_true]
  left
  rw [List.find?_isSome]
  exact ⟨r, List.mem_reverse.mpr hr, by simp⟩

/-- An upsert under known keys adds no key. -/
theorem contains_insertAll_of_known {key : α → κ} {m : SortedMap κ α} {recs : List α}
    (h : ∀ r ∈ recs, m.contains (key r) = true) (k : κ) : (m.insertAll key recs).contains k = m.contains k := by
  by_cases hk : ∃ r ∈ recs, key r = k
  · obtain ⟨r, hr, rfl⟩ := hk
    rw [contains_insertAll_of_mem hr, h r hr]
  · unfold contains
    rw [find?_insertAll_of_ne fun r hr heq => hk ⟨r, hr, heq⟩]

theorem size_insertAll_of_known {key : α → κ} :
    ∀ {recs : List α} {m : SortedMap κ α}, (∀ r ∈ recs, m.contains (key r) = true) →
      (m.insertAll key recs).size = m.size := by
  intro recs
  induction recs with
  | nil => intro m _; rfl
  | cons r recs ih =>
    intro m h
    have hr : m.contains (key r) = true := h r List.mem_cons_self
    rw [insertAll_cons, ih, size_insert, if_pos hr]
    intro x hx
    have hknown := h x (List.mem_cons_of_mem _ hx)
    unfold contains at hknown ⊢
    rw [find?_insert]
    split
    · rfl
    · exact hknown

/-- Every entry of `m` has a counterpart in `m'`, under the same key and related to it by `R`. -/
def Mirrored (R : α → α → Prop) (m m' : SortedMap κ α) : Prop :=
  ∀ ⦃k v⦄, m.find? k = some v → ∃ v', m'.find? k = some v' ∧ R v v'

section Mirrored
variable {R R' : α → α → Prop} {m m' : SortedMap κ α} {key : α → κ} {f g : α → α}

theorem Mirrored.mono (h : Mirrored R m m') (himp : ∀ v v', R v v' → R' v v') : Mirrored R' m m' := by
  intro k v hv
  obtain ⟨v', hv', hR⟩ := h hv
  exact ⟨v', hv', himp v v' hR⟩

/-- An upsert of records with other keys leaves the mirror alone. -/
theorem Mirrored.insertAll {recs : List α} (h : Mirrored R m m') (hrecs : ∀ r ∈ recs, m.contains (key r) = false) :
    Mirrored R m (m'.insertAll key recs) := by
  intro k v hv
  have hne : ∀ r ∈ recs, key r ≠ k := by
    rintro r hr rfl
    rw [contains_eq_false.mp (hrecs r hr)] at hv
    exact absurd hv (by simp)
  rw [find?_insertAll_of_ne hne]
  exact h hv

theorem Mirrored.mapVals (h : Mirrored R m m') (hf : ∀ k v v', m'.find? k = some v' → R v v' → R' v (f v')) :
    Mirrored R' m (m'.mapVals f) := by
  intro k v hv
  obtain ⟨v', hv', hR⟩ := h hv
  exact ⟨f v', by rw [find?_mapVals, hv']; rfl, hf k v v' hv' hR⟩

/-- The records of a map, rewritten under their keys. -/
theorem KeyedBy.mem_map_entries (h : m.KeyedBy key) (hg : ∀ v, key (g v) = key v) {r : α}
    (hr : r ∈ m.entries.map fun e => g e.2) : ∃ v, m.find? (key r) = some v ∧ r = g v := by
  obtain ⟨⟨k, v⟩, hmem, rfl⟩ := List.mem_map.mp hr
  have hv : m.find? k = some v := find?_eq_some_iff.mpr hmem
  refine ⟨v, ?_, rfl⟩
  rw [hg, h hv]
  exact hv

/-- **A map whose records are all written, rewritten by `g`, is mirrored by `g`.** -/
theorem KeyedBy.mirrored_insertAll (h : m.KeyedBy key) (hg : ∀ v, key (g v) = key v) (m' : SortedMap κ α) :
    Mirrored (fun v v' => v' = g v) m (m'.insertAll key (m.entries.map fun e => g e.2)) := by
  intro k v hv
  have hmem : g v ∈ m.entries.map fun e => g e.2 := List.mem_map.mpr ⟨(k, v), find?_eq_some_iff.mp hv, rfl⟩
  have hkey : key (g v) = k := (hg v).trans (h hv)
  have hknown : (m'.insertAll key (m.entries.map fun e => g e.2)).contains (key (g v)) = true :=
    contains_insertAll_of_mem hmem m'
  rw [hkey] at hknown
  obtain ⟨v', hv'⟩ := contains_iff.mp hknown
  refine ⟨v', hv', ?_⟩
  rcases find?_insertAll_cases hv' with ⟨hr, hrkey⟩ | ⟨_, hne⟩
  · obtain ⟨u, hu, rfl⟩ := h.mem_map_entries hg hr
    rw [hrkey] at hu
    rw [Option.some.inj (hu.symm.trans hv)]
  · exact absurd hkey (hne (g v) hmem)

/-- **Writing the records of a map, rewritten by `g`, over another one**: what the written map has wins. -/
theorem KeyedBy.find?_insertAll (h : m.KeyedBy key) (hg : ∀ v, key (g v) = key v) (m' : SortedMap κ α) (k : κ) :
    (m'.insertAll key (m.entries.map fun e => g e.2)).find? k = ((m.find? k).map g).or (m'.find? k) := by
  cases hk : m.find? k with
  | some v =>
    obtain ⟨v', hv', rfl⟩ := h.mirrored_insertAll hg m' hk
    exact hv'
  | none =>
    refine find?_insertAll_of_ne ?_
    rintro r hr rfl
    obtain ⟨v, hv, _⟩ := h.mem_map_entries hg hr
    rw [hk] at hv
    exact absurd hv (by simp)

theorem KeyedBy.find?_insertAll_records (h : m.KeyedBy key) (m' : SortedMap κ α) (k : κ) :
    (m'.insertAll key (m.entries.map Prod.snd)).find? k = (m.find? k).or (m'.find? k) := by
  have hwritten := h.find?_insertAll (g := fun v => v) (fun _ => rfl) m' k
  rwa [Option.map_id'] at hwritten

/-- The last of the records of a map under a key is the one the map has there. -/
theorem KeyedBy.find?_reverse_records (h : m.KeyedBy key) (hg : ∀ v, key (g v) = key v) (k : κ) :
    ((m.entries.map fun e => g e.2).reverse.find? fun r => key r = k) = (m.find? k).map g := by
  have hwritten := h.find?_insertAll hg SortedMap.empty k
  rwa [SortedMap.find?_insertAll, find?_empty, Option.or_none, Option.or_none] at hwritten

/-- All values are as required iff the written ones are, and those left standing. -/
theorem KeyedBy.all_insertAll_iff (h : m.KeyedBy key) (hg : ∀ v, key (g v) = key v) (m' : SortedMap κ α) {P : α → Prop} :
    (m'.insertAll key (m.entries.map fun e => g e.2)).All P ↔
      (m.All fun v => P (g v)) ∧ ∀ k v, m'.find? k = some v → m.find? k = none → P v := by
  constructor
  · intro hall
    refine ⟨fun k v hv => hall (k := k) ?_, fun k v hv hnone => hall (k := k) ?_⟩
    · rw [h.find?_insertAll hg, hv]
      rfl
    · rw [h.find?_insertAll hg, hnone]
      exact hv
  · rintro ⟨hwritten, hleft⟩ k v hv
    rw [h.find?_insertAll hg] at hv
    cases hk : m.find? k with
    | some w =>
      rw [hk] at hv
      obtain rfl := Option.some.inj hv
      exact hwritten hk
    | none =>
      rw [hk] at hv
      exact hleft k v hv hk

/-- Writing the records of a mirrored map, rewritten by `g`, replaces counterparts and leaves the other entries. -/
theorem Mirrored.find?_insertAll_cases (h : Mirrored (fun v v' => v' = f v) m m') (hkeyed : m.KeyedBy key)
    (hg : ∀ v, key (g v) = key v) {k : κ} {v' : α}
    (hv' : (m'.insertAll key (m.entries.map fun e => g e.2)).find? k = some v') :
    m'.find? k = some v' ∨ ∃ v, v' = g v ∧ m'.find? k = some (f v) := by
  rcases SortedMap.find?_insertAll_cases hv' with ⟨hr, rfl⟩ | ⟨hold, _⟩
  · obtain ⟨v, hv, heq⟩ := hkeyed.mem_map_entries hg hr
    obtain ⟨u, hu, rfl⟩ := h hv
    exact Or.inr ⟨v, heq, hu⟩
  · exact Or.inl hold

/-- The keys of a mirrored map are known. -/
theorem Mirrored.contains_of_mem (h : Mirrored R m m') (hkeyed : m.KeyedBy key) (hg : ∀ v, key (g v) = key v) :
    ∀ r ∈ m.entries.map fun e => g e.2, m'.contains (key r) = true := by
  intro r hr
  obtain ⟨v, hv, _⟩ := hkeyed.mem_map_entries hg hr
  obtain ⟨v', hv', _⟩ := h hv
  exact contains_iff.mpr ⟨v', hv'⟩

end Mirrored

/-! ## The last match -/

section
variable {P : α → Bool} {m : SortedMap κ α}

/-- A search from the end finds a match that no other one comes after. -/
theorem of_find?_reverse {e : κ × α} (h : (m.entries.reverse.find? fun e => P e.2) = some e) :
    m.find? e.1 = some e.2 ∧ P e.2 = true ∧ ∀ k v, m.find? k = some v → P v = true → k ≤ e.1 := by
  have hmem : e ∈ m.entries := List.mem_reverse.mp (List.mem_of_find?_eq_some h)
  obtain ⟨hP, after, before, hsplit, hafter⟩ := List.find?_eq_some_iff_append.mp h
  refine ⟨find?_eq_some_iff.mpr hmem, hP, ?_⟩
  intro k v hv hPv
  have hentries : m.entries = before.reverse ++ e :: after.reverse := by
    rw [← List.reverse_reverse m.entries, hsplit]
    simp
  have hmem' : (k, v) ∈ m.entries := find?_eq_some_iff.mp hv
  have hsorted := m.sorted
  rw [hentries] at hmem' hsorted
  rw [List.map_append, List.map_cons, List.pairwise_append] at hsorted
  rcases List.mem_append.mp hmem' with hbefore | hlater
  · exact (hsorted.2.2 k (List.mem_map_of_mem hbefore) e.1 List.mem_cons_self).le
  · rcases List.mem_cons.mp hlater with heq | hlater
    · rw [← heq]
    · -- what comes after does not match
      have hnot := hafter (k, v) (List.mem_reverse.mp hlater)
      rw [hPv] at hnot
      exact absurd hnot (by simp)

/-- **A search from the end finds the match with the largest key.** -/
theorem find?_reverse_eq_some_iff {k : κ} {v : α} :
    (m.entries.reverse.find? fun e => P e.2) = some (k, v) ↔
      m.find? k = some v ∧ P v = true ∧ ∀ k' v', m.find? k' = some v' → P v' = true → k' ≤ k := by
  constructor
  · exact of_find?_reverse
  · rintro ⟨hv, hP, hlast⟩
    cases hfound : m.entries.reverse.find? fun e => P e.2 with
    | none =>
      have hmem : (k, v) ∈ m.entries.reverse := List.mem_reverse.mpr (find?_eq_some_iff.mp hv)
      exact absurd hP (List.find?_eq_none.mp hfound (k, v) hmem)
    | some e =>
      obtain ⟨he, hPe, hmax⟩ := of_find?_reverse hfound
      have hkey : e.1 = k := le_antisymm (hlast _ _ he hPe) (hmax k v hv hP)
      rw [hkey, hv] at he
      rw [← hkey, Option.some.inj he]

theorem find?_reverse_eq_none_iff :
    (m.entries.reverse.find? fun e => P e.2) = none ↔ ∀ k v, m.find? k = some v → P v = false := by
  rw [List.find?_eq_none]
  constructor
  · intro h k v hv
    exact Bool.eq_false_iff.mpr (h (k, v) (List.mem_reverse.mpr (find?_eq_some_iff.mp hv)))
  · intro h e he
    rw [h e.1 e.2 (find?_eq_some_iff.mpr (List.mem_reverse.mp he))]
    simp

end

/-! ## A value that stays -/

/-- The value under the key satisfies `P`. -/
def Stores (P : α → Prop) (m : SortedMap κ α) (k : κ) : Prop := ∃ v, m.find? k = some v ∧ P v

namespace Stores

variable {P Q : α → Prop} {m : SortedMap κ α} {k x : κ} {v : α}

theorem of_find? (hm : m.find? k = some v) : m.Stores P k ↔ P v := by
  constructor
  · rintro ⟨w, hw, hP⟩
    exact Option.some.inj (hm.symm.trans hw) ▸ hP
  · exact fun hP => ⟨v, hm, hP⟩

theorem insert_iff (h : m.Stores P k) : (m.insert x v).Stores P k ↔ ¬ (k = x ∧ ¬ P v) := by
  by_cases hx : k = x
  · subst hx
    rw [of_find? (find?_insert_self m k v)]
    exact ⟨fun hP hno => hno.2 hP, fun h => not_not.mp fun hP => h ⟨rfl, hP⟩⟩
  · refine iff_of_true ?_ fun hno => hx hno.1
    obtain ⟨w, hw, hP⟩ := h
    exact ⟨w, (find?_insert_ne m v hx).trans hw, hP⟩

theorem filter_iff {p : κ → α → Bool} {c : Prop} (h : m.Stores P k) (hp : ∀ v, p k v = true ↔ ¬ c) :
    (m.filter p).Stores P k ↔ ¬ c := by
  obtain ⟨w, hw, hP⟩ := h
  constructor
  · rintro ⟨w', hw', _⟩
    exact (hp w').mp (find?_filter_eq_some.mp hw').2
  · exact fun hc => ⟨w, find?_filter_eq_some.mpr ⟨hw, (hp w).mpr hc⟩, hP⟩

theorem erase_iff (h : m.Stores P k) : (m.erase x).Stores P k ↔ ¬ k = x :=
  h.filter_iff fun _ => decide_eq_true_iff

theorem mapVals {f : α → α} (h : m.Stores P k) (hf : ∀ v, P v → P (f v)) : (m.mapVals f).Stores P k := by
  obtain ⟨w, hw, hP⟩ := h
  exact ⟨f w, find?_mapVals_eq_some.mpr ⟨w, hw, rfl⟩, hf w hP⟩

/-- A rewrite of the values that satisfy `Q`, which takes `P` from them. -/
theorem rewrite_iff {f : α → α} (h : m.Stores P k) (hit : ∀ v, Q v → ¬ P (f v)) (miss : ∀ v, ¬ Q v → f v = v) :
    (m.mapVals f).Stores P k ↔ ¬ m.Stores Q k := by
  obtain ⟨w, hw, hP⟩ := h
  rw [of_find? (find?_mapVals_eq_some.mpr ⟨w, hw, rfl⟩), of_find? hw]
  constructor
  · exact fun hfw hQ => hit w hQ hfw
  · intro hQ
    rwa [miss w hQ]

theorem insertAll_iff {key : α → κ} {recs : List α} (h : m.Stores P k) :
    (m.insertAll key recs).Stores P k ↔ ¬ ∃ v, (recs.reverse.find? fun r => key r = k) = some v ∧ ¬ P v := by
  obtain ⟨w, hw, hP⟩ := h
  have hlookup := find?_insertAll key m recs k
  cases hnew : recs.reverse.find? fun r => key r = k with
  | none =>
    rw [hnew, Option.none_or, hw] at hlookup
    exact iff_of_true ⟨w, hlookup, hP⟩ fun ⟨_, hv, _⟩ => nomatch hv
  | some v =>
    rw [hnew, Option.some_or] at hlookup
    rw [of_find? hlookup]
    constructor
    · rintro hPv ⟨_, hv, hno⟩
      exact hno (Option.some.inj hv ▸ hPv)
    · exact fun hno => not_not.mp fun hPv => hno ⟨v, rfl, hPv⟩

/-- What is said of the last record under a key is said of what the map has there. -/
theorem records_iff {key : α → κ} {g : α → α} (h : m.KeyedBy key) (hg : ∀ v, key (g v) = key v) (hP : ∀ v, P (g v) ↔ P v)
    (k : κ) : (∃ v, ((m.entries.map fun e => g e.2).reverse.find? fun r => key r = k) = some v ∧ P v) ↔ m.Stores P k := by
  rw [h.find?_reverse_records hg]
  constructor
  · rintro ⟨_, hv, hPv⟩
    obtain ⟨u, hu, rfl⟩ := Option.map_eq_some_iff.mp hv
    exact ⟨u, hu, (hP u).mp hPv⟩
  · rintro ⟨u, hu, hPu⟩
    exact ⟨g u, by rw [hu]; rfl, (hP u).mpr hPu⟩

end Stores

end SortedMap

end Lib
