import Mathlib.Algebra.Order.Ring.Nat
import Mathlib.Data.List.Nodup
import Mathlib.Data.List.Shortlex
import Mathlib.Data.Prod.Lex

/-!
# `Lib.Worklist` — first-in first-out worklist loops

The loop `while (!queue.empty()) { a = queue.front(); queue.pop_front(); … queue.push_back(…); }` with an
accumulator and an early exit. A `Worklist` packages the loop body with a weight on queue items under which
the items a body run pushes weigh less, together, than the item it popped; that is what makes `run` total,
whatever the queue. `Rounds` is what the loop does one round after the other: it ends with the result of `run`
(`exists_ended`), after no more rounds than the queue weighs (`Rounds.weight_le`).

A loop that only gathers results is a bounded search: `Gathers.run_eq_take` says that it returns the first results
of the search tree in level order, so that questions about it are about the tree. `levels_nodup` says when the items
of that tree are all distinct, and `Graded.levels_sorted` in which order they stand. Where each item lists its children in
a strict order, so does the tree: shorter keys first, and those of one length as in a dictionary (`Branches.levels_shortlex`).
-/

namespace Lib

/-- A worklist loop: the body, and the weight that its pushes decrease. -/
structure Worklist (α β : Type) where
  /-- The body on the accumulator and the popped item: the items pushed and the new accumulator, or `none`
      to leave the loop. -/
  step : β → α → Option (List α × β)
  weight : α → Nat
  decreasing : ∀ {acc a kids acc'}, step acc a = some (kids, acc') → (kids.map weight).sum < weight a

namespace Worklist

variable {α β : Type}

/-- Run the loop until the queue is empty or the body leaves it. -/
def run (w : Worklist α β) : List α → β → β
  | [],     acc => acc
  | a :: q, acc =>
    match _h : w.step acc a with
    | none              => acc
    | some (kids, acc') => w.run (q ++ kids) acc'
termination_by q => (q.map w.weight).sum
decreasing_by
  have := w.decreasing _h
  simp only [List.map_append, List.sum_append, List.map_cons, List.sum_cons]
  omega

theorem run_nil (w : Worklist α β) (acc : β) : w.run [] acc = acc := by
  rw [run]

theorem run_cons_none {w : Worklist α β} {a : α} {q : List α} {acc : β} (h : w.step acc a = none) :
    w.run (a :: q) acc = acc := by
  rw [run]
  split
  · rfl
  · next heq => rw [h] at heq; exact absurd heq (by simp)

theorem run_cons_some {w : Worklist α β} {a : α} {q kids : List α} {acc acc' : β}
    (h : w.step acc a = some (kids, acc')) : w.run (a :: q) acc = w.run (q ++ kids) acc' := by
  rw [run]
  split
  · next heq => rw [h] at heq; exact absurd heq (by simp)
  · next heq =>
    rw [h] at heq
    obtain ⟨rfl, rfl⟩ := Prod.mk.inj (Option.some.inj heq)
    rfl

/-! ## Rounds -/

section
variable {w : Worklist α β} {s s' : List α × β} {n : Nat}

/-- The loop gets from one queue and accumulator to another in `n` rounds. -/
inductive Rounds (w : Worklist α β) : List α × β → Nat → List α × β → Prop where
  | none {s : List α × β} : Rounds w s 0 s
  | next {a : α} {q kids : List α} {acc acc' : β} {n : Nat} {s' : List α × β} (body : w.step acc a = some (kids, acc'))
      (rest : Rounds w (q ++ kids, acc') n s') : Rounds w (a :: q, acc) (n + 1) s'

/-- There is no further round: the queue is empty, or the body leaves the loop. -/
def Ended (w : Worklist α β) : List α × β → Prop
  | ([], _)       => True
  | (a :: _, acc) => w.step acc a = none

/-- **Every round weighs something**, so there are no more rounds than the queue weighs at the start. -/
theorem Rounds.weight_le (h : w.Rounds s n s') : n + (s'.1.map w.weight).sum ≤ (s.1.map w.weight).sum := by
  induction h with
  | none => exact (Nat.zero_add _).le
  | next body _ ih =>
    have hless := w.decreasing body
    simp only [List.map_append, List.sum_append, List.map_cons, List.sum_cons] at ih ⊢
    omega

/-- **Rule of the queue.** What holds of the queue at the start and passes from an item to what it pushes holds of
    everything that is ever queued. -/
theorem Rounds.queued {Item : α → Prop} (hpush : ∀ {acc a kids acc'}, w.step acc a = some (kids, acc') → Item a →
    ∀ b ∈ kids, Item b) (h : w.Rounds s n s') (hq : ∀ a ∈ s.1, Item a) : ∀ a ∈ s'.1, Item a := by
  induction h with
  | none => exact hq
  | next body _ ih =>
    refine ih fun b hb => ?_
    rcases List.mem_append.mp hb with hb | hb
    · exact hq b (List.mem_cons_of_mem _ hb)
    · exact hpush body (hq _ List.mem_cons_self) b hb

/-- **The loop ends**, with the result of `run`. -/
theorem exists_ended (w : Worklist α β) (q : List α) (acc : β) :
    ∃ n q', w.Rounds (q, acc) n (q', w.run q acc) ∧ w.Ended (q', w.run q acc) := by
  induction hweight : (q.map w.weight).sum using Nat.strongRecOn generalizing q acc with
  | ind weight ih =>
    cases q with
    | nil =>
      rw [run_nil]
      exact ⟨0, [], .none, trivial⟩
    | cons a q =>
      cases hstep : w.step acc a with
      | none =>
        rw [run_cons_none hstep]
        exact ⟨0, a :: q, .none, hstep⟩
      | some pushed =>
        obtain ⟨kids, acc'⟩ := pushed
        have hless : ((q ++ kids).map w.weight).sum < weight := by
          have := w.decreasing hstep
          rw [← hweight]
          simp only [List.map_append, List.sum_append, List.map_cons, List.sum_cons]
          omega
        obtain ⟨n, q', hrounds, hended⟩ := ih _ hless (q ++ kids) acc' rfl
        rw [run_cons_some hstep]
        exact ⟨n + 1, q', .next hstep hrounds, hended⟩

end

/-! ## Bounded searches -/

/-- The items of a search tree, level by level: each level holds the children of the one above it. -/
def levels (kids : α → List α) : Nat → List α → List α
  | 0,     _ => []
  | n + 1, q => q ++ levels kids n (q.flatMap kids)

/-- **Rule of the tree.** What holds of the roots and passes to children holds of every item. -/
theorem levels_invariant {kids : α → List α} {Item : α → Prop} (hkids : ∀ a, Item a → ∀ b ∈ kids a, Item b) :
    ∀ (n : Nat) (q : List α), (∀ a ∈ q, Item a) → ∀ a ∈ levels kids n q, Item a := by
  intro n
  induction n with
  | zero => intro q _ a ha; exact absurd ha List.not_mem_nil
  | succ n ih =>
    intro q hq a ha
    rcases List.mem_append.mp ha with ha | ha
    · exact hq a ha
    · refine ih _ ?_ a ha
      intro b hb
      obtain ⟨c, hc, hb⟩ := List.mem_flatMap.mp hb
      exact hkids c (hq c hc) b hb

/-- More roots, more items. -/
theorem levels_subset {kids : α → List α} (n : Nat) {q q' : List α} (hq : q ⊆ q') : levels kids n q ⊆ levels kids n q' := by
  induction n generalizing q q' with
  | zero => exact List.Subset.refl _
  | succ n ih =>
    have hnext : q.flatMap kids ⊆ q'.flatMap kids := by
      intro b hb
      obtain ⟨a, ha, hb⟩ := List.mem_flatMap.mp hb
      exact List.mem_flatMap.mpr ⟨a, hq ha, hb⟩
    exact List.append_subset.mpr
      ⟨List.subset_append_of_subset_left _ hq, List.subset_append_of_subset_right _ (ih hnext)⟩

/-- Every item is below some root. -/
theorem mem_levels_of_root {kids : α → List α} {a : α} {n : Nat} {q : List α} (ha : a ∈ levels kids n q) :
    ∃ r ∈ q, a ∈ levels kids n [r] := by
  induction n generalizing q with
  | zero => exact absurd ha List.not_mem_nil
  | succ n ih =>
    rcases List.mem_append.mp ha with ha | ha
    · exact ⟨a, ha, List.mem_cons_self⟩
    · obtain ⟨b, hb, hab⟩ := ih ha
      obtain ⟨r, hr, hbr⟩ := List.mem_flatMap.mp hb
      have hkid : [b] ⊆ [r].flatMap kids := by
        rintro _ hc
        obtain rfl := List.mem_singleton.mp hc
        exact List.mem_flatMap.mpr ⟨r, List.mem_singleton_self r, hbr⟩
      exact ⟨r, hr, List.mem_append_right _ (levels_subset n hkid hab)⟩

/-- Enough levels hold the roots. -/
theorem mem_levels_root {kids : α → List α} {n : Nat} (hn : 0 < n) {q : List α} {a : α} (ha : a ∈ q) :
    a ∈ levels kids n q := by
  cases n with
  | zero => exact absurd hn (Nat.lt_irrefl 0)
  | succ n => exact List.mem_append_left _ ha

/-- Levels enough for the ranks of the roots hold the children of every item they hold. -/
theorem mem_levels_kid {kids : α → List α} {rank : α → Nat} (hrank : ∀ a, ∀ b ∈ kids a, rank b < rank a) {a b : α}
    (hb : b ∈ kids a) : ∀ (n : Nat) (q : List α), (∀ r ∈ q, rank r < n) → a ∈ levels kids n q → b ∈ levels kids n q := by
  intro n
  induction n with
  | zero => intro q _ ha; exact absurd ha List.not_mem_nil
  | succ n ih =>
    intro q hq ha
    have hnext : ∀ r ∈ q.flatMap kids, rank r < n := by
      intro r hr
      obtain ⟨c, hc, hr⟩ := List.mem_flatMap.mp hr
      have := hrank c r hr
      have := hq c hc
      omega
    apply List.mem_append_right
    rcases List.mem_append.mp ha with ha | ha
    · have hmem : b ∈ q.flatMap kids := List.mem_flatMap.mpr ⟨a, ha, hb⟩
      exact mem_levels_root (Nat.zero_lt_of_lt (hnext b hmem)) hmem
    · exact ih _ hnext ha

/-! ## Distinct items -/

section
variable {γ : Type} {key : α → List γ}

/-- What items with distinct keys lead to has distinct keys, if each such key adds one entry to that of its item. -/
theorem nodup_keys_flatMap {key' : β → List γ} {next : α → List β} (hstep : ∀ a, ∀ b ∈ next a, ∃ x, key' b = key a ++ [x])
    (heach : ∀ a, ((next a).map key').Nodup) {q : List α} (hq : (q.map key).Nodup) : ((q.flatMap next).map key').Nodup := by
  rw [List.map_flatMap, List.nodup_flatMap]
  refine ⟨fun a _ => heach a, (List.pairwise_map.mp hq).imp ?_⟩
  intro a a' hne k hk hk'
  obtain ⟨b, hb, rfl⟩ := List.mem_map.mp hk
  obtain ⟨b', hb', heq⟩ := List.mem_map.mp hk'
  obtain ⟨x, hx⟩ := hstep a b hb
  obtain ⟨x', hx'⟩ := hstep a' b' hb'
  rw [hx, hx'] at heq
  exact hne (List.append_inj_left' heq rfl).symm

/-- Keys grow along the tree. -/
theorem length_key_levels {kids : α → List α} (hstep : ∀ a, ∀ b ∈ kids a, ∃ x, key b = key a ++ [x]) {m n : Nat} {q : List α}
    (hq : ∀ a ∈ q, m ≤ (key a).length) : ∀ a ∈ levels kids n q, m ≤ (key a).length := by
  have hkids : ∀ a, m ≤ (key a).length → ∀ b ∈ kids a, m ≤ (key b).length := by
    intro a ha b hb
    obtain ⟨x, hx⟩ := hstep a b hb
    rw [hx, List.length_append]
    exact Nat.le_add_right_of_le ha
  exact levels_invariant hkids n q hq

/-- **Rule of keys.** If roots have distinct keys of one length, and the children of an item distinct keys that add one
    entry to that of the item, no two items of the tree have the same key. -/
theorem levels_nodup {kids : α → List α} (hstep : ∀ a, ∀ b ∈ kids a, ∃ x, key b = key a ++ [x])
    (heach : ∀ a, ((kids a).map key).Nodup) :
    ∀ (n m : Nat) (q : List α), (∀ a ∈ q, (key a).length = m) → (q.map key).Nodup → ((levels kids n q).map key).Nodup := by
  intro n
  induction n with
  | zero => intro m q _ _; exact List.nodup_nil
  | succ n ih =>
    intro m q hlen hq
    have hnext : ∀ b ∈ q.flatMap kids, (key b).length = m + 1 := by
      intro b hb
      obtain ⟨a, ha, hb⟩ := List.mem_flatMap.mp hb
      obtain ⟨x, hx⟩ := hstep a b hb
      rw [hx, List.length_append, hlen a ha]
      rfl
    rw [levels, List.map_append, List.nodup_append']
    refine ⟨hq, ih (m + 1) _ hnext (nodup_keys_flatMap hstep heach hq), ?_⟩
    -- the items below the first level have longer keys
    intro k hk hk'
    obtain ⟨a, ha, rfl⟩ := List.mem_map.mp hk
    obtain ⟨b, hb, heq⟩ := List.mem_map.mp hk'
    have hlong := length_key_levels hstep (fun b hb => (hnext b hb).ge) b hb
    rw [heq, hlen a ha] at hlong
    exact absurd hlong (Nat.not_succ_le_self m)

end

/-! ## Items in order -/

/-- What the items of a list lead to is in the order of the list, if it keeps the keys. -/
theorem pairwise_flatMap_of_key {κ : Type} [Preorder κ] {key : α → κ} {key' : β → κ} {next : α → List β} {q : List α}
    (hkey : ∀ a ∈ q, ∀ b ∈ next a, key' b = key a) (hq : q.Pairwise fun a a' => key a ≤ key a') :
    (q.flatMap next).Pairwise fun b b' => key' b ≤ key' b' := by
  rw [List.pairwise_flatMap]
  constructor
  · intro a ha
    apply List.pairwise_of_forall_mem_list
    intro b hb b' hb'
    rw [hkey a ha b hb, hkey a ha b' hb']
  · refine hq.imp_of_mem ?_
    intro a a' ha ha' hle b hb b' hb'
    rwa [hkey a ha b hb, hkey a' ha' b' hb']

/-- Fewer levels are the first ones. -/
theorem levels_prefix {kids : α → List α} {n n' : Nat} (hle : n ≤ n') (q : List α) :
    levels kids n q <+: levels kids n' q := by
  induction n generalizing n' q with
  | zero => exact List.nil_prefix
  | succ n ih =>
    cases n' with
    | zero => exact absurd hle (Nat.not_succ_le_zero n)
    | succ n' => exact (List.prefix_append_right_inj q).mpr (ih (Nat.le_of_succ_le_succ hle) _)

/-- Reordering the roots reorders the tree. -/
theorem levels_perm {kids : α → List α} (n : Nat) {q q' : List α} (hq : q.Perm q') :
    (levels kids n q).Perm (levels kids n q') := by
  induction n generalizing q q' with
  | zero => exact .refl _
  | succ n ih => exact hq.append (ih (hq.flatMap_right kids))

/-- Of what the items of a list lead to, the part under one key comes from the items under that key. -/
theorem filter_flatMap_of_key {κ : Type} [DecidableEq κ] {key : α → κ} {key' : β → κ} {next : α → List β} {q : List α}
    (hkey : ∀ a ∈ q, ∀ b ∈ next a, key' b = key a) (x : κ) :
    (q.flatMap next).filter (fun b => key' b = x) = (q.filter fun a => key a = x).flatMap next := by
  induction q with
  | nil => rfl
  | cons a q ih =>
    have hhead := hkey a List.mem_cons_self
    rw [List.flatMap_cons, List.filter_append, ih fun b hb => hkey b (List.mem_cons_of_mem _ hb)]
    by_cases ha : key a = x
    · have hall : (next a).filter (fun b => key' b = x) = next a := by
        rw [List.filter_eq_self]
        intro b hb
        exact decide_eq_true ((hhead b hb).trans ha)
      rw [hall, List.filter_cons_of_pos (by simpa using ha), List.flatMap_cons]
    · have hnone : (next a).filter (fun b => key' b = x) = [] := by
        rw [List.filter_eq_nil_iff]
        intro b hb
        simpa [hhead b hb] using ha
      rw [hnone, List.filter_cons_of_neg (by simpa using ha), List.nil_append]

/-- Children are of the next rank and have the tag of their parent. -/
structure Graded {τ : Type} (kids : α → List α) (Item : α → Prop) (rank : α → Nat) (tag : α → τ) : Prop where
  item : ∀ {a}, Item a → ∀ b ∈ kids a, Item b
  rank : ∀ {a}, Item a → ∀ b ∈ kids a, rank b = rank a + 1
  tag  : ∀ {a}, Item a → ∀ b ∈ kids a, tag b = tag a

section
variable {τ : Type} {kids : α → List α} {Item : α → Prop} {rank : α → Nat} {tag : α → τ}

/-- The next level, if the current one is of rank `m`. -/
theorem Graded.next_level (h : Graded kids Item rank tag) {m : Nat} {q : List α} (hq : ∀ a ∈ q, Item a ∧ rank a = m) :
    ∀ b ∈ q.flatMap kids, Item b ∧ rank b = m + 1 := by
  intro b hb
  obtain ⟨a, ha, hb⟩ := List.mem_flatMap.mp hb
  obtain ⟨hitem, hrank⟩ := hq a ha
  refine ⟨h.item hitem b hb, ?_⟩
  rw [h.rank hitem b hb, hrank]

/-- Ranks grow along the tree. -/
theorem Graded.rank_levels (h : Graded kids Item rank tag) {m n : Nat} {q : List α} (hq : ∀ a ∈ q, Item a ∧ m ≤ rank a) :
    ∀ a ∈ levels kids n q, Item a ∧ m ≤ rank a := by
  refine levels_invariant ?_ n q hq
  rintro a ⟨hitem, ha⟩ b hb
  refine ⟨h.item hitem b hb, ?_⟩
  rw [h.rank hitem b hb]
  exact Nat.le_succ_of_le ha

/-- **Rule of order.** If the roots of a graded tree are of one rank and in the order of their tags, the tree lists items by
    rank, and those of one rank by tag. -/
theorem Graded.levels_sorted [LinearOrder τ] (h : Graded kids Item rank tag) :
    ∀ (n m : Nat) (q : List α), (∀ a ∈ q, Item a ∧ rank a = m) → (q.Pairwise fun a b => tag a ≤ tag b) →
      (levels kids n q).Pairwise fun a b => toLex (rank a, tag a) ≤ toLex (rank b, tag b) := by
  intro n
  induction n with
  | zero => intro m q _ _; exact List.Pairwise.nil
  | succ n ih =>
    intro m q hone hq
    have hnext := h.next_level hone
    have htags := pairwise_flatMap_of_key (fun a ha => h.tag (hone a ha).1) hq
    rw [levels, List.pairwise_append]
    refine ⟨?_, ih (m + 1) _ hnext htags, ?_⟩
    · refine hq.imp_of_mem ?_
      intro a b ha hb hle
      exact Prod.Lex.toLex_le_toLex.mpr (Or.inr ⟨(hone a ha).2.trans (hone b hb).2.symm, hle⟩)
    · -- what is below the first level has a larger rank
      intro a ha b hb
      have hbelow := (h.rank_levels (fun b hb => ⟨(hnext b hb).1, (hnext b hb).2.ge⟩) b hb).2
      rw [Prod.Lex.toLex_le_toLex, (hone a ha).2]
      exact Or.inl hbelow

/-- The tree is that of any other children relation that agrees on the items that are not on the last level. -/
theorem Graded.levels_congr (h : Graded kids Item rank tag) {kids' : α → List α} :
    ∀ (n m : Nat) (q : List α), (∀ a ∈ q, Item a ∧ rank a = m) →
      (∀ a, Item a → rank a + 1 < m + n → kids' a = kids a) → levels kids' n q = levels kids n q := by
  intro n
  induction n with
  | zero => intro m q _ _; rfl
  | succ n ih =>
    intro m q hone hagree
    cases n with
    | zero => rfl
    | succ n =>
      have hsame : q.flatMap kids' = q.flatMap kids := by
        apply List.flatMap_congr
        intro a ha
        obtain ⟨hitem, hrank⟩ := hone a ha
        exact hagree a hitem (by omega)
      have hbelow : levels kids' (n + 1) (q.flatMap kids) = levels kids (n + 1) (q.flatMap kids) := by
        refine ih (m + 1) _ (h.next_level hone) ?_
        intro a hitem hlow
        exact hagree a hitem (by omega)
      show q ++ levels kids' (n + 1) (q.flatMap kids') = q ++ levels kids (n + 1) (q.flatMap kids)
      rw [hsame, hbelow]

/-- The items under a tag are the tree over the roots under the tag. -/
theorem Graded.levels_filter_tag [DecidableEq τ] (h : Graded kids Item rank tag) (x : τ) :
    ∀ (n m : Nat) (q : List α), (∀ a ∈ q, Item a ∧ rank a = m) →
      (levels kids n q).filter (fun a => tag a = x) = levels kids n (q.filter fun a => tag a = x) := by
  intro n
  induction n with
  | zero => intro m q _; rfl
  | succ n ih =>
    intro m q hone
    have hnext := filter_flatMap_of_key (fun a ha => h.tag (hone a ha).1) x
    rw [levels, levels, List.filter_append, ih (m + 1) _ (h.next_level hone), hnext]

/-- The items of one rank over two lists of roots. -/
theorem Graded.levels_append_rank (h : Graded kids Item rank tag) (k : Nat) :
    ∀ (n m : Nat) (q r : List α), (∀ a ∈ q, Item a ∧ rank a = m) → (∀ a ∈ r, Item a ∧ rank a = m) →
      (levels kids n (q ++ r)).filter (fun a => rank a = k) =
        (levels kids n q).filter (fun a => rank a = k) ++ (levels kids n r).filter fun a => rank a = k := by
  intro n
  induction n with
  | zero => intro m q r _ _; rfl
  | succ n ih =>
    intro m q r hq hr
    have hbelow := ih (m + 1) _ _ (h.next_level hq) (h.next_level hr)
    rw [← List.flatMap_append] at hbelow
    simp only [levels, List.filter_append, hbelow]
    by_cases hk : m = k
    · -- nothing further down is of this rank
      have hdeep : ∀ q : List α, (∀ a ∈ q, Item a ∧ rank a = m) →
          (levels kids n (q.flatMap kids)).filter (fun a => rank a = k) = [] := by
        intro q hq
        rw [List.filter_eq_nil_iff]
        intro a ha
        have hlow := (h.rank_levels (fun b hb => ⟨(h.next_level hq b hb).1, (h.next_level hq b hb).2.ge⟩) a ha).2
        simp only [decide_eq_true_eq]
        omega
      rw [hdeep q hq, hdeep r hr]
      simp
    · have hroot : ∀ q : List α, (∀ a ∈ q, Item a ∧ rank a = m) → q.filter (fun a => rank a = k) = [] := by
        intro q hq
        rw [List.filter_eq_nil_iff]
        intro a ha
        simpa [(hq a ha).2] using hk
      rw [hroot q hq, hroot r hr]
      simp

end

/-- One more entry on each of two keys of one length keeps their order. -/
theorem lex_concat {κ : Type} {r : κ → κ → Prop} {k k' : List κ} (h : List.Lex r k k') (hlen : k.length = k'.length)
    (x x' : κ) : List.Lex r (k ++ [x]) (k' ++ [x']) := by
  induction h with
  | nil => exact absurd hlen (Nat.zero_ne_add_one _)
  | rel hlt => exact List.Lex.rel hlt
  | cons _ ih => exact List.Lex.cons (ih (Nat.succ.inj hlen))

/-- What an item leads to has its key with one more entry, and stands in strict order. -/
structure Branches {κ : Type} [LinearOrder κ] (next : α → List β) (Item : α → Prop) (key : α → List κ) (key' : β → List κ) :
    Prop where
  entry   : ∀ {a}, Item a → ∀ b ∈ next a, ∃ x, key' b = key a ++ [x]
  ordered : ∀ {a}, Item a → (next a).Pairwise fun b b' => List.Shortlex (· < ·) (key' b) (key' b')

section
variable {κ : Type} [LinearOrder κ] {Item : α → Prop} {key : α → List κ}

/-- Keys keep their order as well if they differ in length: the shorter one stays the shorter one. -/
theorem shortlex_concat {k k' : List κ} (h : List.Shortlex (· < ·) k k') (x x' : κ) :
    List.Shortlex (· < ·) (k ++ [x]) (k' ++ [x']) := by
  rcases List.shortlex_def.mp h with hlt | ⟨hlen, hlex⟩
  · apply List.Shortlex.of_length_lt
    rw [List.length_append, List.length_append]
    exact Nat.add_lt_add_right hlt _
  · apply List.Shortlex.of_lex
    · rw [List.length_append, List.length_append, hlen]
      rfl
    · exact lex_concat hlex hlen x x'

/-- **Rule of strict order**: what the items of a list lead to, if these are in strict order. -/
theorem Branches.flatMap_shortlex {next : α → List β} {key' : β → List κ} (h : Branches next Item key key') {q : List α}
    (hitem : ∀ a ∈ q, Item a) (hq : q.Pairwise fun a a' => List.Shortlex (· < ·) (key a) (key a')) :
    (q.flatMap next).Pairwise fun b b' => List.Shortlex (· < ·) (key' b) (key' b') := by
  rw [List.pairwise_flatMap]
  refine ⟨fun a ha => h.ordered (hitem a ha), hq.imp_of_mem ?_⟩
  intro a a' ha ha' hlt b hb b' hb'
  obtain ⟨x, hx⟩ := h.entry (hitem a ha) b hb
  obtain ⟨x', hx'⟩ := h.entry (hitem a' ha') b' hb'
  rw [hx, hx']
  exact shortlex_concat hlt x x'

/-- **And the tree over them**, if they have keys of one length. -/
theorem Branches.levels_shortlex {kids : α → List α} (h : Branches kids Item key key)
    (hkids : ∀ {a}, Item a → ∀ b ∈ kids a, Item b) :
    ∀ (n m : Nat) (q : List α), (∀ a ∈ q, Item a ∧ (key a).length = m) →
      (q.Pairwise fun a a' => List.Shortlex (· < ·) (key a) (key a')) →
      (levels kids n q).Pairwise fun a a' => List.Shortlex (· < ·) (key a) (key a') := by
  have hgraded : Graded kids Item (fun a => (key a).length) fun _ => () := by
    refine ⟨hkids, ?_, fun _ _ _ => rfl⟩
    intro a ha b hb
    obtain ⟨x, hx⟩ := h.entry ha b hb
    rw [hx, List.length_append]
    rfl
  intro n
  induction n with
  | zero => intro m q _ _; exact List.Pairwise.nil
  | succ n ih =>
    intro m q hone hq
    have hnext := hgraded.next_level hone
    rw [levels, List.pairwise_append]
    refine ⟨hq, ih (m + 1) _ hnext (h.flatMap_shortlex (fun a ha => (hone a ha).1) hq), ?_⟩
    -- what is below the first level has longer keys
    intro a ha b hb
    apply List.Shortlex.of_length_lt
    rw [(hone a ha).2]
    exact (hgraded.rank_levels (fun b hb => ⟨(hnext b hb).1, (hnext b hb).2.ge⟩) b hb).2

end

/-- The loop gathers what its items yield, and is left when it has `bound` results: a body run that is not cut
    short pushes the children of its item. -/
structure Gathers (w : Worklist α (List β)) (bound : Nat) (kids : α → List α) (yields : α → List β) : Prop where
  full : ∀ {acc a}, bound ≤ acc.length → w.step acc a = none
  more : ∀ {acc a}, (acc ++ yields a).length < bound → w.step acc a = some (kids a, acc ++ yields a)
  last : ∀ {acc a}, acc.length < bound → bound ≤ (acc ++ yields a).length →
           ∃ pushed, w.step acc a = some (pushed, (acc ++ yields a).take bound)

section
variable {w : Worklist α (List β)} {bound : Nat} {kids : α → List α} {yields : α → List β}

theorem Gathers.run_full (h : w.Gathers bound kids yields) {acc : List β} (hfull : bound ≤ acc.length) (q : List α) :
    w.run q acc = acc := by
  cases q with
  | nil => exact run_nil w acc
  | cons a q => exact run_cons_none (h.full hfull)

/-- The front of the queue is worked off before anything it pushes. -/
theorem Gathers.run_append (h : w.Gathers bound kids yields) (r : List α) :
    ∀ (q : List α) (acc : List β), acc.length ≤ bound →
      w.run (q ++ r) acc =
        if (acc ++ q.flatMap yields).length < bound then w.run (r ++ q.flatMap kids) (acc ++ q.flatMap yields)
        else (acc ++ q.flatMap yields).take bound := by
  intro q
  induction q generalizing r with
  | nil =>
    intro acc hle
    simp only [List.flatMap_nil, List.append_nil, List.nil_append]
    split
    · rfl
    · next hfull => rw [List.take_of_length_le hle, h.run_full (not_lt.mp hfull)]
  | cons a q ih =>
    intro acc hle
    have hsplit : acc ++ (a :: q).flatMap yields = acc ++ yields a ++ q.flatMap yields := by
      rw [List.flatMap_cons, List.append_assoc]
    rw [hsplit, List.flatMap_cons, List.cons_append]
    rcases lt_or_ge (acc ++ yields a).length bound with hmore | hlast
    -- the item is worked off and what it pushed goes behind `r`
    · rw [run_cons_some (h.more hmore), List.append_assoc q, ih _ _ hmore.le, List.append_assoc r]
    · -- the results are full within this item: whatever is still queued adds nothing
      have hfull : (acc ++ yields a ++ q.flatMap yields).take bound = (acc ++ yields a).take bound :=
        List.take_append_of_le_length hlast
      rw [if_neg (by rw [List.length_append]; omega), hfull]
      rcases lt_or_ge acc.length bound with hlt | hge
      · obtain ⟨pushed, hstep⟩ := h.last hlt hlast
        rw [run_cons_some hstep]
        apply h.run_full
        rw [List.length_take]
        omega
      · have hbound : acc.length = bound := le_antisymm hle hge
        rw [h.run_full hge, ← hbound, List.take_left']
        rfl

/-- **Search rule.** A loop that gathers what its items yield returns the first `bound` results of the search tree in
    level order, if ranks decrease from parent to child. -/
theorem Gathers.run_eq_take (h : w.Gathers bound kids yields) {rank : α → Nat}
    (hrank : ∀ a, ∀ b ∈ kids a, rank b < rank a) :
    ∀ (n : Nat) (q : List α) (acc : List β), acc.length ≤ bound → (∀ a ∈ q, rank a < n) →
      w.run q acc = (acc ++ (levels kids n q).flatMap yields).take bound := by
  intro n
  induction n with
  | zero =>
    intro q acc hle hq
    obtain rfl := List.eq_nil_iff_forall_not_mem.mpr fun a ha => absurd (hq a ha) (Nat.not_lt_zero _)
    rw [run_nil, levels, List.flatMap_nil, List.append_nil, List.take_of_length_le hle]
  | succ n ih =>
    intro q acc hle hq
    have hround := h.run_append [] q acc hle
    rw [List.append_nil, List.nil_append] at hround
    rw [hround, levels, List.flatMap_append, ← List.append_assoc]
    split
    · next hmore =>
      refine ih _ _ hmore.le ?_
      intro b hb
      obtain ⟨a, ha, hb⟩ := List.mem_flatMap.mp hb
      have := hrank a b hb
      have := hq a ha
      omega
    · next hfull => exact (List.take_append_of_le_length (not_lt.mp hfull)).symm

end

end Worklist

end Lib
