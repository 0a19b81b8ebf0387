import Mathlib.Data.List.Sort
import Mathlib.Data.Prod.Lex

/-!
# `Lib.StableSort` — what a stable sort returns

A stable sort by a total preorder puts first the element that nothing precedes strictly and that stands before
everything it ties with. `FirstUnder` states this on the unsorted list, so that a property of the head of a sorted
list can be read off the input. Where the preorder compares keys, `insertionSort_places` says what the whole result is:
the elements with their places in the input, in the order of the keys and then of the places.
-/

namespace Lib

variable {α : Type} {r : α → α → Prop}

/-- `a` is strictly below everything before it in the list and at most everything after it. -/
def FirstUnder (r : α → α → Prop) (l : List α) (a : α) : Prop :=
  ∃ l₁ l₂, l = l₁ ++ a :: l₂ ∧ (∀ b ∈ l₁, ¬ r b a) ∧ ∀ b ∈ l₂, r a b

theorem FirstUnder.mem {l : List α} {a : α} (h : FirstUnder r l a) : a ∈ l := by
  obtain ⟨l₁, l₂, rfl, _, _⟩ := h
  simp

/-- The first element stays first if its comparisons do not change. -/
theorem FirstUnder.congr {r' : α → α → Prop} {l : List α} {a : α} (h : FirstUnder r l a)
    (hsame : ∀ b ∈ l, (r' a b ↔ r a b) ∧ (r' b a ↔ r b a)) : FirstUnder r' l a := by
  obtain ⟨l₁, l₂, rfl, hbefore, hafter⟩ := h
  refine ⟨l₁, l₂, rfl, fun b hb => ?_, fun b hb => ?_⟩
  · rw [(hsame b (by simp [hb])).2]
    exact hbefore b hb
  · rw [(hsame b (by simp [hb])).1]
    exact hafter b hb

/-- At most one element comes first. -/
theorem FirstUnder.unique {l : List α} {a b : α} (ha : FirstUnder r l a) (hb : FirstUnder r l b) :
    a = b := by
  obtain ⟨l₁, l₂, rfl, hbefore, hafter⟩ := ha
  obtain ⟨m₁, m₂, heq, hbefore', hafter'⟩ := hb
  rcases List.append_eq_append_iff.mp heq with ⟨mid, rfl, hcut⟩ | ⟨mid, rfl, hcut⟩
  · cases mid with
    | nil => exact (List.cons.inj hcut).1
    | cons c mid =>
      -- `a` stands before `b`
      obtain ⟨rfl, rfl⟩ := List.cons.inj hcut
      exact absurd (hafter b (by simp)) (hbefore' a (by simp))
  · cases mid with
    | nil => exact (List.cons.inj hcut).1.symm
    | cons c mid =>
      obtain ⟨rfl, rfl⟩ := List.cons.inj hcut
      exact absurd (hafter' a (by simp)) (hbefore b (by simp))

variable [DecidableRel r]

theorem head?_orderedInsert (a : α) (l : List α) :
    (l.orderedInsert r a).head? = some (match l.head? with
      | some b => if r a b then a else b
      | none   => a) := by
  cases l with
  | nil => rfl
  | cons b l =>
    rw [List.orderedInsert_cons]
    by_cases hab : r a b
    · rw [if_pos hab]
      simp [hab]
    · rw [if_neg hab]
      simp [hab]

/-- The head of the sorted list comes first in the input. -/
theorem firstUnder_of_head? (htotal : ∀ a b, r a b ∨ r b a) (htrans : ∀ a b c, r a b → r b c → r a c)
    {l : List α} {a : α} (h : (l.insertionSort r).head? = some a) : FirstUnder r l a := by
  induction l generalizing a with
  | nil => exact absurd h (by simp)
  | cons x l ih =>
    rw [List.insertionSort_cons, head?_orderedInsert] at h
    cases hhead : (l.insertionSort r).head? with
    | none =>
      -- the rest is empty
      rw [hhead] at h
      obtain rfl := Option.some.inj h
      have hnil : l = [] := by
        rw [List.head?_eq_none_iff] at hhead
        exact List.length_eq_zero_iff.mp (by rw [← List.length_insertionSort r l, hhead]; rfl)
      subst hnil
      exact ⟨[], [], rfl, by simp, by simp⟩
    | some y =>
      rw [hhead] at h
      dsimp only at h
      obtain ⟨l₁, l₂, rfl, hbefore, hafter⟩ := ih hhead
      split at h
      · next hxy =>
        -- `x` is at most the first of the rest, hence at most all of it
        obtain rfl := Option.some.inj h
        refine ⟨[], _, rfl, by simp, ?_⟩
        intro b hb
        rcases List.mem_append.mp hb with hb | hb
        · have hyb : r y b := (htotal y b).resolve_right (hbefore b hb)
          exact htrans _ _ _ hxy hyb
        · rcases List.mem_cons.mp hb with rfl | hb
          · exact hxy
          · exact htrans _ _ _ hxy (hafter b hb)
      · next hxy =>
        obtain rfl := Option.some.inj h
        refine ⟨x :: l₁, l₂, rfl, ?_, hafter⟩
        intro b hb
        rcases List.mem_cons.mp hb with rfl | hb
        · exact hxy
        · exact hbefore b hb

/-- **The head of a stable sort is the element that comes first.** -/
theorem head?_insertionSort_iff (htotal : ∀ a b, r a b ∨ r b a)
    (htrans : ∀ a b c, r a b → r b c → r a c) {l : List α} {a : α} :
    (l.insertionSort r).head? = some a ↔ FirstUnder r l a := by
  constructor
  · exact firstUnder_of_head? htotal htrans
  · intro h
    cases hhead : (l.insertionSort r).head? with
    | some b => rw [(firstUnder_of_head? htotal htrans hhead).unique h]
    | none =>
      have hmem : a ∈ l.insertionSort r := (List.mem_insertionSort r).mpr h.mem
      rw [List.head?_eq_none_iff.mp hhead] at hmem
      exact absurd hmem (by simp)

/-! ## Places -/

section
variable {κ : Type} [LinearOrder κ] {key : α → κ}

/-- In the order of the keys, and of the positions where the keys are equal. -/
def KeyThenPlace (key : α → κ) (a b : α × Nat) : Prop := toLex (key a.1, a.2) < toLex (key b.1, b.2)

theorem keyThenPlace_iff {a b : α × Nat} :
    KeyThenPlace key a b ↔ key a.1 < key b.1 ∨ key a.1 = key b.1 ∧ a.2 < b.2 :=
  Prod.Lex.toLex_lt_toLex

instance : IsStrictOrder (α × Nat) (KeyThenPlace key) where
  irrefl _ h := lt_irrefl _ h
  trans _ _ _ hab hbc := lt_trans hab hbc

/-- An element whose place is before all others goes in before those of its key. -/
theorem orderedInsert_place {l : List (α × Nat)} {x : α × Nat} (hl : l.Pairwise (KeyThenPlace key))
    (hplace : ∀ b ∈ l, x.2 < b.2) :
    (l.orderedInsert (fun a b => key a.1 ≤ key b.1) x).Pairwise (KeyThenPlace key) := by
  induction l with
  | nil => exact List.pairwise_singleton _ _
  | cons b l ih =>
    obtain ⟨hb, hrest⟩ := List.pairwise_cons.mp hl
    rw [List.orderedInsert_cons]
    split
    · next hle =>
      refine List.pairwise_cons.mpr ⟨?_, hl⟩
      intro c hc
      have hbc : key b.1 ≤ key c.1 := by
        rcases List.mem_cons.mp hc with rfl | hc
        · exact le_rfl
        · exact (keyThenPlace_iff.mp (hb c hc)).elim le_of_lt fun h => h.1.le
      rcases lt_or_eq_of_le (hle.trans hbc) with hlt | heq
      · exact keyThenPlace_iff.mpr (Or.inl hlt)
      · exact keyThenPlace_iff.mpr (Or.inr ⟨heq, hplace c hc⟩)
    · next hnot =>
      refine List.pairwise_cons.mpr ⟨?_, ih hrest fun c hc => hplace c (List.mem_cons_of_mem _ hc)⟩
      intro c hc
      rcases (List.mem_orderedInsert _).mp hc with rfl | hc
      · exact keyThenPlace_iff.mpr (Or.inl (not_le.mp hnot))
      · exact hb c hc

/-- **A stable sort by a key** orders elements by their keys, and those of one key by their places in the input. -/
theorem insertionSort_places (hr : ∀ a b, r a b ↔ key a ≤ key b) (l : List α) :
    ∃ order : List (α × Nat), order.Perm l.zipIdx ∧ order.map Prod.fst = l.insertionSort r ∧
      order.Pairwise (KeyThenPlace key) := by
  refine ⟨l.zipIdx.insertionSort fun a b => key a.1 ≤ key b.1, List.perm_insertionSort _ _, ?_, ?_⟩
  · have hmap := List.map_insertionSort (fun a b : α × Nat => key a.1 ≤ key b.1) r Prod.fst l.zipIdx
      fun a _ b _ => (hr a.1 b.1).symm
    rw [hmap, List.zipIdx_map_fst]
  · -- the places grow along the input
    have hsorted : ∀ (l : List α) (k : Nat),
        ((l.zipIdx k).insertionSort fun a b => key a.1 ≤ key b.1).Pairwise (KeyThenPlace key) := by
      intro l
      induction l with
      | nil => intro k; exact List.Pairwise.nil
      | cons a l ih =>
        intro k
        rw [List.zipIdx_cons, List.insertionSort_cons]
        refine orderedInsert_place (ih (k + 1)) ?_
        intro b hb
        exact List.le_snd_of_mem_zipIdx ((List.mem_insertionSort _).mp hb)
    exact hsorted l 0
end

/-! ## Ties -/

/-- Inserting an element puts it before those it is tied with. -/
theorem filter_orderedInsert_of_tied {P : α → Bool} (hties : ∀ a b, P a = true → P b = true → r a b) (a : α) (l : List α) :
    (l.orderedInsert r a).filter P = (a :: l).filter P := by
  induction l with
  | nil => rfl
  | cons b l ih =>
    rw [List.orderedInsert_cons]
    split
    · rfl
    · next hnot =>
      rw [List.filter_cons, ih, List.filter_cons, List.filter_cons, List.filter_cons]
      by_cases ha : P a = true
      · -- it goes past an element it is not tied with
        have hb : ¬ P b = true := fun hb => hnot (hties a b ha hb)
        simp [ha, hb]
      · simp [ha]

/-- **A stable sort keeps the order of ties.** -/
theorem filter_insertionSort_of_tied {P : α → Bool} (hties : ∀ a b, P a = true → P b = true → r a b) (l : List α) :
    (l.insertionSort r).filter P = l.filter P := by
  induction l with
  | nil => rfl
  | cons a l ih => rw [List.insertionSort_cons, filter_orderedInsert_of_tied hties, List.filter_cons, ih, List.filter_cons]

/-- An element that stands first is sorted before those it is tied with. -/
theorem exists_cons_of_first [DecidableEq α] {P : α → Bool} (hties : ∀ a b, P a = true → P b = true → r a b) {l : List α}
    {a : α} (ha : a ∈ l) (hP : P a = true) :
    ∃ rest, ((l.filter (fun b => b = a) ++ l.filter fun b => !decide (b = a)).insertionSort r).filter P = a :: rest := by
  have hkept : a ∈ (l.filter fun b => b = a).filter P := by simp [ha, hP]
  obtain ⟨x, rest, hcons⟩ := List.exists_cons_of_ne_nil (List.ne_nil_of_mem hkept)
  have hx : x ∈ (l.filter fun b => b = a).filter P := by
    rw [hcons]
    exact List.mem_cons_self
  have hxa : x = a := of_decide_eq_true (List.mem_filter.mp (List.mem_filter.mp hx).1).2
  rw [filter_insertionSort_of_tied hties, List.filter_append, hcons, hxa]
  exact ⟨_, rfl⟩

/-- **The first of an ordered list has a property** iff each element without it comes after one that has it. -/
theorem head?_has_iff {lt : α → α → Prop} [IsStrictOrder α lt] {order : List α} {a : α} (horder : order.Pairwise lt)
    (ha : order.head? = some a) (P : α → Prop) : P a ↔ ∀ x ∈ order, ¬ P x → ∃ b ∈ order, P b ∧ lt b x := by
  obtain ⟨rest, rfl⟩ : ∃ rest, order = a :: rest := by
    cases order with
    | nil => exact absurd ha (by simp)
    | cons x rest => exact ⟨rest, by rw [Option.some.inj ha]⟩
  have hfirst := (List.pairwise_cons.mp horder).1
  constructor
  · intro hP x hx hnot
    rcases List.mem_cons.mp hx with rfl | hx
    · exact absurd hP hnot
    · exact ⟨a, List.mem_cons_self, hP, hfirst x hx⟩
  · intro h
    by_contra hnot
    obtain ⟨b, hb, _, hlt⟩ := h a List.mem_cons_self hnot
    rcases List.mem_cons.mp hb with rfl | hb
    · exact irrefl _ hlt
    · exact asymm hlt (hfirst b hb)

/-! ## Lists in the order of a key -/

section
variable {κ : Type} [LinearOrder κ] {key : α → κ}

/-- Sorting by a key leaves a list in the order of the key. -/
theorem pairwise_insertionSort_of_key (hr : ∀ a b, r a b ↔ key a ≤ key b) (l : List α) :
    (l.insertionSort r).Pairwise fun a b => key a ≤ key b := by
  have htotal : Std.Total r := ⟨fun a b => (le_total (key a) (key b)).imp (hr a b).mpr (hr b a).mpr⟩
  have htrans : IsTrans α r := ⟨fun a b c hab hbc => (hr a c).mpr (((hr a b).mp hab).trans ((hr b c).mp hbc))⟩
  exact (List.pairwise_insertionSort r l).imp fun {a b} hab => (hr a b).mp hab

/-- The first element of a list in the order of a key has the smallest key. -/
theorem key_head_le {a : α} {l : List α} (hl : (a :: l).Pairwise fun a b => key a ≤ key b) :
    ∀ b ∈ a :: l, key a ≤ key b := by
  intro b hb
  rcases List.mem_cons.mp hb with rfl | hb
  · exact le_rfl
  · exact (List.pairwise_cons.mp hl).1 b hb

theorem filter_lt_key_head {a : α} {l : List α} (hl : (a :: l).Pairwise fun a b => key a ≤ key b) :
    (a :: l).filter (fun b => key b < key a) = [] := by
  rw [List.filter_eq_nil_iff]
  intro b hb
  simpa using key_head_le hl b hb

/-- In a list in the order of a key, the elements of one key stand behind those of smaller ones. -/
theorem getElem?_of_fiber {l : List α} (hl : l.Pairwise fun a b => key a ≤ key b) {c : κ} {x : α} {rest : List α}
    (hfiber : l.filter (fun a => key a = c) = x :: rest) : l[(l.filter fun a => key a < c).length]? = some x := by
  induction l with
  | nil => exact absurd hfiber (by simp)
  | cons a l ih =>
    have hrest := (List.pairwise_cons.mp hl).2
    rcases lt_trichotomy (key a) c with hlt | rfl | hgt
    · rw [List.filter_cons_of_neg (by simpa using hlt.ne)] at hfiber
      rw [List.filter_cons_of_pos (by simpa using hlt), List.length_cons, List.getElem?_cons_succ]
      exact ih hrest hfiber
    · rw [List.filter_cons_of_pos (by simp)] at hfiber
      rw [filter_lt_key_head hl, (List.cons.inj hfiber).1]
      rfl
    · have hx : x ∈ (a :: l).filter fun b => key b = c := by
        rw [hfiber]
        exact List.mem_cons_self
      obtain ⟨hmem, hkey⟩ := List.mem_filter.mp hx
      have hkey : key x = c := of_decide_eq_true hkey
      exact absurd hkey (hgt.trans_le (key_head_le hl x hmem)).ne'

/-- **Two orders of one list agree on their first elements** if they agree on the ties under each key, except where enough
    elements have smaller keys. -/
theorem take_eq_of_fibers {l l' : List α} {m : Nat} (hperm : l.Perm l') (hl : l.Pairwise fun a b => key a ≤ key b)
    (hl' : l'.Pairwise fun a b => key a ≤ key b)
    (hfibers : ∀ c, l.filter (fun a => key a = c) = l'.filter (fun a => key a = c) ∨
      m ≤ (l.filter fun a => key a < c).length) : l.take m = l'.take m := by
  induction l generalizing l' m with
  | nil => rw [hperm.nil_eq]
  | cons x l ih =>
    cases m with
    | zero => rfl
    | succ m =>
    cases l' with
    | nil => exact absurd hperm.length_eq (by simp)
    | cons y l' =>
    have hrest := (List.pairwise_cons.mp hl).2
    have hrest' := (List.pairwise_cons.mp hl').2
    -- both heads have the smallest key, and what has that key is in the same order
    have hkey : key y = key x := le_antisymm (key_head_le hl' x (hperm.subset List.mem_cons_self))
      (key_head_le hl y (hperm.symm.subset List.mem_cons_self))
    have hheads := (hfibers (key x)).resolve_right (by rw [filter_lt_key_head hl]; simp)
    rw [List.filter_cons_of_pos (by simp), List.filter_cons_of_pos (by simpa using hkey)] at hheads
    obtain rfl := (List.cons.inj hheads).1
    rw [List.take_succ_cons, List.take_succ_cons, ih (List.perm_cons x |>.mp hperm) hrest hrest']
    intro c
    rcases hfibers c with heq | hmany
    · left
      by_cases hc : key x = c
      · rw [List.filter_cons_of_pos (by simpa using hc), List.filter_cons_of_pos (by simpa using hc)] at heq
        exact (List.cons.inj heq).2
      · rwa [List.filter_cons_of_neg (by simpa using hc), List.filter_cons_of_neg (by simpa using hc)] at heq
    · right
      have hone : ((x :: l).filter fun a => key a < c).length ≤ (l.filter fun a => key a < c).length + 1 := by
        rw [List.filter_cons]
        split
        · exact le_rfl
        · exact Nat.le_succ _
      omega

end

end Lib
