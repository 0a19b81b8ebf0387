import Mathlib.Data.List.Basic
import Mathlib.Algebra.GroupWithZero.Nat

/-!
# `Lib.Framing` — incremental parsers

An incremental parser keeps what it has not used yet of its input and takes items off the head of that for as long as
it finds any (`drain`). What it finds is a `Head`: an item, something malformed, or too little to tell. The fields of
`Framing` make how the input is cut into chunks immaterial: a verdict does not depend on what comes after it
(`item_append`, `bad_append`), and an item on nothing but its own bytes (`item_used`).

`feedAll_flatten` is the result of that for a caller that keeps all items. A caller that drops the items of the chunk
in which the parser fails (`kept`) does depend on the chunks: `kept_same_iff`.
-/

namespace Lib

/-- What is at the head of a buffer. -/
inductive Head (β α ε : Type) where
  | more
  | bad (e : ε)
  | item (a : α) (rest : List β)

/-- A parser of items of type `α` from elements of type `β`. -/
structure Framing (β α ε : Type) where
  head        : List β → Head β α ε
  head_nil    : head [] = .more
  item_used   : ∀ {buf : List β} {a : α} {rest : List β}, head buf = .item a rest →
    ∃ used, used ≠ [] ∧ buf = used ++ rest ∧ head used = .item a []
  item_append : ∀ {buf : List β} {a : α} {rest : List β} (later : List β), head buf = .item a rest →
    head (buf ++ later) = .item a (rest ++ later)
  bad_append  : ∀ {buf : List β} {e : ε} (later : List β), head buf = .bad e → head (buf ++ later) = .bad e

/-- What a parser keeps between chunks: what it has not used, and why it has given up. -/
structure Buffered (β ε : Type) where
  buf : List β := []
  err : Option ε := none

variable {β α ε : Type}

namespace Framing

variable (F : Framing β α ε)

theorem shorter {buf : List β} {a : α} {rest : List β} (h : F.head buf = .item a rest) : rest.length < buf.length := by
  obtain ⟨used, hne, rfl, _⟩ := F.item_used h
  rw [List.length_append]
  have hpos := List.length_pos_of_ne_nil hne
  omega

/-- Take items off the head of the buffer until there is too little, or something malformed. -/
def drain (buf : List β) : List α × Buffered β ε :=
  match _ : F.head buf with
  | .more        => ([], { buf := buf })
  | .bad e       => ([], { buf := buf, err := some e })
  | .item a rest => (a :: (drain rest).1, (drain rest).2)
termination_by buf.length
decreasing_by all_goals exact F.shorter ‹_›

/-- Feed one chunk; a parser that has given up ignores it. -/
def feed (s : Buffered β ε) (chunk : List β) : List α × Buffered β ε :=
  if s.err.isSome then ([], s) else F.drain (s.buf ++ chunk)

/-- Feed chunks until the parser gives up, and keep all items. -/
def feedAll (s : Buffered β ε) : List (List β) → List α × Buffered β ε
  | []          => ([], s)
  | c :: chunks =>
    if (F.feed s c).2.err.isSome then F.feed s c
    else ((F.feed s c).1 ++ (feedAll (F.feed s c).2 chunks).1, (feedAll (F.feed s c).2 chunks).2)

/-- Feed chunks until the parser gives up, and drop the items of the chunk in which it does. -/
def kept (s : Buffered β ε) : List (List β) → List α
  | []          => []
  | c :: chunks => if (F.feed s c).2.err.isSome then [] else (F.feed s c).1 ++ kept (F.feed s c).2 chunks

variable {F} {buf later : List β} {s : Buffered β ε}

/-! ## Draining -/

theorem drain_more (h : F.head buf = .more) : F.drain buf = ([], { buf := buf }) := by
  unfold drain
  split
  · rfl
  · next e he => exact absurd (h.symm.trans he) (by simp)
  · next a rest hi => exact absurd (h.symm.trans hi) (by simp)

theorem drain_bad {e : ε} (h : F.head buf = .bad e) : F.drain buf = ([], { buf := buf, err := some e }) := by
  unfold drain
  split
  · next hm => exact absurd (h.symm.trans hm) (by simp)
  · next e' he =>
    obtain rfl := Head.bad.inj (h.symm.trans he)
    rfl
  · next a rest hi => exact absurd (h.symm.trans hi) (by simp)

theorem drain_item {a : α} {rest : List β} (h : F.head buf = .item a rest) :
    F.drain buf = (a :: (F.drain rest).1, (F.drain rest).2) := by
  conv_lhs => unfold drain
  split
  · next hm => exact absurd (h.symm.trans hm) (by simp)
  · next e he => exact absurd (h.symm.trans he) (by simp)
  · next a' rest' hi =>
    obtain ⟨rfl, rfl⟩ := Head.item.inj (h.symm.trans hi)
    rfl

/-- **Induction on what is drained.** -/
theorem drain_induction {P : List β → Prop} (more : ∀ buf, F.head buf = .more → P buf)
    (bad : ∀ buf e, F.head buf = .bad e → P buf)
    (item : ∀ buf a rest, F.head buf = .item a rest → P rest → P buf) (buf : List β) : P buf := by
  induction hn : buf.length using Nat.strongRecOn generalizing buf with
  | ind n ih =>
    cases h : F.head buf with
    | more => exact more buf h
    | bad e => exact bad buf e h
    | item a rest => exact item buf a rest h (ih rest.length (hn ▸ F.shorter h) rest rfl)

/-- **The first item** of a buffer is the one at its head. -/
theorem drain_first_iff {a : α} : (F.drain buf).1.head? = some a ↔ ∃ rest, F.head buf = .item a rest := by
  cases h : F.head buf with
  | more =>
    rw [drain_more h]
    exact ⟨fun hnone => absurd hnone (by simp), fun ⟨_, hitem⟩ => absurd hitem (by simp)⟩
  | bad e =>
    rw [drain_bad h]
    exact ⟨fun hnone => absurd hnone (by simp), fun ⟨_, hitem⟩ => absurd hitem (by simp)⟩
  | item b rest =>
    rw [drain_item h, List.head?_cons, Option.some_inj]
    constructor
    · rintro rfl
      exact ⟨rest, rfl⟩
    · rintro ⟨_, hitem⟩
      exact (Head.item.inj hitem).1

/-- What is left has nothing to take off, unless the parser gave up on it. -/
theorem drain_head (buf : List β) :
    ((F.drain buf).2.err = none ∧ F.head (F.drain buf).2.buf = .more) ∨
      ∃ e, (F.drain buf).2.err = some e ∧ F.head (F.drain buf).2.buf = .bad e := by
  induction buf using F.drain_induction with
  | more buf h =>
    rw [drain_more h]
    exact Or.inl ⟨rfl, h⟩
  | bad buf e h =>
    rw [drain_bad h]
    exact Or.inr ⟨e, rfl, h⟩
  | item buf a rest h ih =>
    rw [drain_item h]
    exact ih

/-- **More input** leaves the items found so far, and is read together with what was left. -/
theorem drain_append (later : List β) (h : (F.drain buf).2.err = none) :
    F.drain (buf ++ later) = ((F.drain buf).1 ++ (F.drain ((F.drain buf).2.buf ++ later)).1,
      (F.drain ((F.drain buf).2.buf ++ later)).2) := by
  induction buf using F.drain_induction with
  | more buf hm =>
    rw [drain_more hm]
    rfl
  | bad buf e he =>
    rw [drain_bad he] at h
    exact absurd h (by simp)
  | item buf a rest hi ih =>
    rw [drain_item hi] at h ⊢
    rw [drain_item (F.item_append later hi), ih h]
    rfl

/-- More input does not help a parser that has given up. -/
theorem drain_append_bad {e : ε} (later : List β) (h : (F.drain buf).2.err = some e) :
    F.drain (buf ++ later) = ((F.drain buf).1, { buf := (F.drain buf).2.buf ++ later, err := some e }) := by
  induction buf using F.drain_induction with
  | more buf hm =>
    rw [drain_more hm] at h
    exact absurd h (by simp)
  | bad buf e' he =>
    rw [drain_bad he] at h ⊢
    obtain rfl := Option.some.inj h
    exact drain_bad (F.bad_append later he)
  | item buf a rest hi ih =>
    rw [drain_item hi] at h ⊢
    rw [drain_item (F.item_append later hi), ih h]

/-- Items take up no more than the elements they are read off. -/
theorem drain_size_le {size : α → Nat} (hitem : ∀ {buf a rest}, F.head buf = .item a rest → size a + rest.length ≤ buf.length)
    (buf : List β) : ((F.drain buf).1.map size).sum + (F.drain buf).2.buf.length ≤ buf.length := by
  induction buf using F.drain_induction with
  | more buf h =>
    rw [drain_more h]
    exact Nat.le_of_eq (Nat.zero_add _)
  | bad buf e h =>
    rw [drain_bad h]
    exact Nat.le_of_eq (Nat.zero_add _)
  | item buf a rest h ih =>
    have hless := hitem h
    rw [drain_item h]
    show size a + ((F.drain rest).1.map size).sum + (F.drain rest).2.buf.length ≤ _
    omega

/-! ## Feeding -/

/-- Between chunks: nothing can be taken off, and the parser has not given up. -/
structure Settled (F : Framing β α ε) (s : Buffered β ε) : Prop where
  ok   : s.err = none
  more : F.head s.buf = .more

theorem settled_fresh : F.Settled {} := ⟨rfl, F.head_nil⟩

theorem Settled.feed (h : F.Settled s) (chunk : List β) : F.feed s chunk = F.drain (s.buf ++ chunk) := by
  unfold Framing.feed
  rw [h.ok]
  rfl

theorem Settled.next (h : F.Settled s) {chunk : List β} (hok : (F.feed s chunk).2.err = none) :
    F.Settled (F.feed s chunk).2 := by
  rw [h.feed] at hok ⊢
  rcases F.drain_head (s.buf ++ chunk) with ⟨herr, hmore⟩ | ⟨e, herr, _⟩
  · exact ⟨herr, hmore⟩
  · rw [hok] at herr
    exact absurd herr (by simp)

/-- **Feeding a chunk and then another** is feeding them as one, unless the parser gives up in the first. -/
theorem Settled.feed_append (h : F.Settled s) {c : List β} (later : List β) (hok : (F.feed s c).2.err = none) :
    F.feed s (c ++ later) = ((F.feed s c).1 ++ (F.feed (F.feed s c).2 later).1, (F.feed (F.feed s c).2 later).2) := by
  have hnext := h.next hok
  rw [hnext.feed, h.feed]
  rw [h.feed] at hok
  rw [h.feed, ← List.append_assoc, drain_append later hok]

theorem Settled.feed_append_bad (h : F.Settled s) {c : List β} {e : ε} (later : List β)
    (hbad : (F.feed s c).2.err = some e) :
    F.feed s (c ++ later) = ((F.feed s c).1, { buf := (F.feed s c).2.buf ++ later, err := some e }) := by
  rw [h.feed] at hbad ⊢
  rw [h.feed, ← List.append_assoc, drain_append_bad later hbad]

theorem Settled.feed_nil (h : F.Settled s) : F.feed s [] = ([], s) := by
  rw [h.feed, List.append_nil, drain_more h.more, ← h.ok]

/-- **The chunks are immaterial.** Feeding a list of chunks gives the items and the error of feeding them as one, and
    leaves the same behind if there is no error. -/
theorem Settled.feedAll_flatten (h : F.Settled s) (chunks : List (List β)) :
    (F.feedAll s chunks).1 = (F.feed s chunks.flatten).1 ∧
      (F.feedAll s chunks).2.err = (F.feed s chunks.flatten).2.err ∧
      ((F.feed s chunks.flatten).2.err = none → (F.feedAll s chunks).2 = (F.feed s chunks.flatten).2) := by
  induction chunks generalizing s with
  | nil =>
    rw [List.flatten_nil, h.feed_nil]
    exact ⟨rfl, rfl, fun _ => rfl⟩
  | cons c chunks ih =>
    unfold feedAll
    rw [List.flatten_cons]
    cases herr : (F.feed s c).2.err with
    | none =>
      rw [h.feed_append _ herr, if_neg (by simp)]
      obtain ⟨hitems, herr', hleft⟩ := ih (h.next herr)
      exact ⟨congrArg ((F.feed s c).1 ++ ·) hitems, herr', hleft⟩
    | some e =>
      rw [h.feed_append_bad _ herr, if_pos (by simp)]
      exact ⟨rfl, herr, fun hnone => absurd hnone (by simp)⟩

/-! ## Items and their elements -/

/-- The elements of one item. -/
def Whole (F : Framing β α ε) (part : List β) : Prop := ∃ a, F.head part = .item a []

theorem Whole.ne_nil {part : List β} (h : F.Whole part) : part ≠ [] := by
  rintro rfl
  obtain ⟨a, ha⟩ := h
  exact absurd (F.head_nil.symm.trans ha) (by simp)

/-- **What is drained splits into items** and what is left. -/
theorem drain_parts (buf : List β) : ∃ parts : List (List β), (∀ part ∈ parts, F.Whole part) ∧
    parts.length = (F.drain buf).1.length ∧ buf = parts.flatten ++ (F.drain buf).2.buf := by
  induction buf using F.drain_induction with
  | more buf h =>
    rw [drain_more h]
    exact ⟨[], by simp⟩
  | bad buf e h =>
    rw [drain_bad h]
    exact ⟨[], by simp⟩
  | item buf a rest h ih =>
    obtain ⟨used, _, hbuf, hused⟩ := F.item_used h
    obtain ⟨parts, hwhole, hlen, hrest⟩ := ih
    rw [drain_item h]
    refine ⟨used :: parts, ?_, congrArg Nat.succ hlen, ?_⟩
    · intro part hpart
      rcases List.mem_cons.mp hpart with rfl | hpart
      · exact ⟨a, hused⟩
      · exact hwhole part hpart
    · rw [List.flatten_cons, List.append_assoc, ← hrest, hbuf]

/-- Items are drained one by one. -/
theorem drain_whole {parts : List (List β)} (h : ∀ part ∈ parts, F.Whole part) (rest : List β) :
    ∃ items, items.length = parts.length ∧
      F.drain (parts.flatten ++ rest) = (items ++ (F.drain rest).1, (F.drain rest).2) := by
  induction parts with
  | nil => exact ⟨[], rfl, rfl⟩
  | cons part parts ih =>
    obtain ⟨items, hlen, hdrain⟩ := ih fun part' hpart' => h part' (List.mem_cons_of_mem _ hpart')
    obtain ⟨a, ha⟩ := h part List.mem_cons_self
    refine ⟨a :: items, congrArg Nat.succ hlen, ?_⟩
    rw [List.flatten_cons, List.append_assoc, drain_item (F.item_append _ ha), List.nil_append, hdrain]
    rfl

/-- What has nothing drained is left as it is. -/
theorem drain_buf_of_nil (h : (F.drain buf).1 = []) : (F.drain buf).2.buf = buf := by
  obtain ⟨parts, _, hlen, hbuf⟩ := F.drain_parts buf
  rw [h, List.length_nil, List.length_eq_zero_iff] at hlen
  rw [hlen] at hbuf
  exact hbuf.symm

/-- One item is drained and nothing is left exactly if the input is that item. -/
theorem drain_one_iff {a : α} : F.drain buf = ([a], {}) ↔ F.head buf = .item a [] := by
  constructor
  · intro h
    cases hhead : F.head buf with
    | more =>
      rw [drain_more hhead] at h
      exact absurd (congrArg Prod.fst h) (by simp)
    | bad e =>
      rw [drain_bad hhead] at h
      exact absurd (congrArg Prod.fst h) (by simp)
    | item a' rest =>
      rw [drain_item hhead] at h
      obtain ⟨hitems, hleft⟩ := Prod.mk.inj h
      obtain ⟨rfl, hnone⟩ := List.cons.inj hitems
      have hrest : rest = [] := (drain_buf_of_nil hnone).symm.trans (congrArg Buffered.buf hleft)
      rw [hrest]
  · intro h
    rw [drain_item h, drain_more F.head_nil]

/-- The same for a parser that is fed the input in chunks. -/
theorem feedAll_one_iff {a : α} {chunks : List (List β)} :
    F.feedAll {} chunks = ([a], {}) ↔ F.head chunks.flatten = .item a [] := by
  obtain ⟨hitems, herr, hleft⟩ := (settled_fresh (F := F)).feedAll_flatten chunks
  have hfeed : F.feed {} chunks.flatten = F.drain chunks.flatten := settled_fresh.feed chunks.flatten
  rw [hfeed] at hitems herr hleft
  rw [← drain_one_iff]
  constructor
  · intro h
    rw [h] at hitems herr hleft
    exact Prod.ext hitems.symm (hleft herr.symm).symm
  · intro h
    rw [h] at hitems hleft
    exact Prod.ext hitems (hleft rfl)

/-! ## Dropping the items of the last chunk -/

/-- A run of items is followed by elements of which the first `bound` are malformed. -/
def Exposed (F : Framing β α ε) (bound : Nat) (input : List β) : Prop :=
  ∃ (parts : List (List β)) (rest : List β) (e : ε), parts ≠ [] ∧ (∀ part ∈ parts, F.Whole part) ∧
    input = parts.flatten ++ rest ∧ F.head (rest.take bound) = .bad e

/-- The input, cut into chunks that are not empty and have at most `size` elements. -/
structure Cut (size : Nat) (input : List β) (chunks : List (List β)) : Prop where
  flatten : chunks.flatten = input
  sizes   : ∀ c ∈ chunks, c ≠ [] ∧ c.length ≤ size

/-- **Chunks that are fed without failing** keep their items. -/
theorem Settled.kept_append (h : F.Settled s) {chunks : List (List β)} (later : List (List β))
    (hok : (F.feed s chunks.flatten).2.err = none) :
    F.kept s (chunks ++ later) = (F.feed s chunks.flatten).1 ++ F.kept (F.feed s chunks.flatten).2 later := by
  induction chunks generalizing s with
  | nil =>
    rw [List.flatten_nil, h.feed_nil]
    rfl
  | cons c chunks ih =>
    rw [List.flatten_cons] at hok ⊢
    cases herr : (F.feed s c).2.err with
    | none =>
      rw [h.feed_append _ herr] at hok ⊢
      rw [List.append_assoc, ← ih (h.next herr) hok, List.cons_append]
      show (if (F.feed s c).2.err.isSome then [] else _) = _
      rw [herr, if_neg (by simp)]
    | some e =>
      rw [h.feed_append_bad _ herr] at hok
      exact absurd hok (by simp)

/-- A settled parser has not all of the next item. -/
theorem Settled.short_of_whole (h : F.Settled s) {part rest : List β} (hpart : F.Whole part)
    (hbuf : s.buf ++ later = part ++ rest) : s.buf.length < part.length := by
  by_contra hle
  obtain ⟨a, ha⟩ := hpart
  have hprefix : part <+: s.buf := by
    apply List.prefix_of_prefix_length_le _ (List.prefix_append s.buf later) (Nat.not_lt.mp hle)
    rw [hbuf]
    exact List.prefix_append part rest
  obtain ⟨more, hmore⟩ := hprefix
  have hhead := F.item_append more ha
  rw [hmore, h.more] at hhead
  exact absurd hhead (by simp)

/-- What the failing chunk completes shows the failure within the size of a chunk. -/
theorem Settled.exposed_of_drop (h : F.Settled s) {c : List β} {bound : Nat} {e : ε}
    (hbad : (F.feed s c).2.err = some e) (hsome : (F.feed s c).1 ≠ []) (hsize : c.length ≤ bound + 1)
    (later : List β) : F.Exposed bound (s.buf ++ (c ++ later)) := by
  rw [h.feed] at hbad hsome
  obtain ⟨parts, hwhole, hlen, hbuf⟩ := F.drain_parts (s.buf ++ c)
  rcases F.drain_head (s.buf ++ c) with ⟨hnone, _⟩ | ⟨e', _, hhead⟩
  · rw [hbad] at hnone
    exact absurd hnone (by simp)
  cases parts with
  | nil =>
    rw [List.length_nil] at hlen
    exact absurd (List.length_eq_zero_iff.mp hlen.symm) hsome
  | cons part parts =>
    -- the first item ends in the chunk, so the rest is shorter than the chunk
    have hshort : s.buf.length < part.length := by
      rw [List.flatten_cons, List.append_assoc] at hbuf
      exact h.short_of_whole (hwhole part List.mem_cons_self) hbuf
    have hrest : (F.drain (s.buf ++ c)).2.buf.length ≤ bound := by
      have hlens := congrArg List.length hbuf
      rw [List.flatten_cons] at hlens
      simp only [List.length_append] at hlens
      omega
    refine ⟨part :: parts, (F.drain (s.buf ++ c)).2.buf ++ later, e', List.cons_ne_nil _ _, hwhole, ?_, ?_⟩
    · rw [← List.append_assoc, ← List.append_assoc, ← hbuf]
    · rw [List.take_append, List.take_of_length_le hrest]
      exact F.bad_append _ hhead

/-- **Where nothing is exposed, nothing is dropped.** -/
theorem Settled.kept_eq (h : F.Settled s) {bound : Nat} {chunks : List (List β)}
    (hsizes : ∀ c ∈ chunks, c.length ≤ bound + 1) (hnot : ¬ F.Exposed bound (s.buf ++ chunks.flatten)) :
    F.kept s chunks = (F.feed s chunks.flatten).1 := by
  induction chunks generalizing s with
  | nil =>
    rw [List.flatten_nil, h.feed, List.append_nil, drain_more h.more]
    rfl
  | cons c chunks ih =>
    have hsize := hsizes c List.mem_cons_self
    have hrest : ∀ c' ∈ chunks, c'.length ≤ bound + 1 := fun c' hc' => hsizes c' (List.mem_cons_of_mem _ hc')
    rw [List.flatten_cons] at hnot ⊢
    show (if (F.feed s c).2.err.isSome then [] else _) = _
    cases herr : (F.feed s c).2.err with
    | none =>
      rw [if_neg (by simp), h.feed_append _ herr, ih (h.next herr) hrest]
      -- what is exposed later is exposed now
      rintro ⟨parts', rest, e, hne, hwhole', hinput, hhead⟩
      obtain ⟨parts, hwhole, _, hbuf⟩ := F.drain_parts (s.buf ++ c)
      refine hnot ⟨parts ++ parts', rest, e, ?_, ?_, ?_, hhead⟩
      · exact List.append_ne_nil_of_right_ne_nil _ hne
      · intro part hpart
        rcases List.mem_append.mp hpart with hpart | hpart
        · exact hwhole part hpart
        · exact hwhole' part hpart
      · rw [h.feed] at hinput
        rw [← List.append_assoc, hbuf, List.append_assoc, hinput, List.flatten_append, List.append_assoc]
    | some e =>
      rw [if_pos (by simp), h.feed_append_bad _ herr]
      by_contra hsome
      exact hnot (h.exposed_of_drop herr (fun hnil => hsome hnil.symm) hsize _)

/-- One chunk for each element. -/
def singles (input : List β) : List (List β) := input.map fun b => [b]

@[simp] theorem flatten_singles (input : List β) : (singles input).flatten = input := by
  induction input with
  | nil => rfl
  | cons b input ih => exact congrArg (b :: ·) ih

theorem mem_singles {input c : List β} (h : c ∈ singles input) : c ≠ [] ∧ c.length ≤ 1 := by
  obtain ⟨b, _, rfl⟩ := List.mem_map.mp h
  exact ⟨List.cons_ne_nil _ _, Nat.le_refl _⟩

theorem cut_singles {size : Nat} (hsize : 1 ≤ size) (input : List β) : Cut size input (singles input) :=
  ⟨flatten_singles input, fun _ hc => ⟨(mem_singles hc).1, Nat.le_trans (mem_singles hc).2 hsize⟩⟩

/-- Element by element, every item is kept. -/
theorem kept_singles (input : List β) : F.kept {} (singles input) = (F.drain input).1 := by
  have hnot : ¬ F.Exposed 0 ([] ++ (singles input).flatten) := by
    rintro ⟨_, rest, e, _, _, _, hhead⟩
    rw [List.take_zero, F.head_nil] at hhead
    exact absurd hhead (by simp)
  rw [settled_fresh.kept_eq (fun _ hc => (mem_singles hc).2) hnot, flatten_singles, settled_fresh.feed]
  rfl

/-- The last element of a run of items completes one. -/
theorem drain_init {init : List β} {b : β} {items : List α} (h : F.drain (init ++ [b]) = (items, {})) :
    (F.drain init).2.err = none ∧ (F.drain init).1.length < items.length := by
  cases herr : (F.drain init).2.err with
  | some e =>
    rw [drain_append_bad [b] herr] at h
    exact absurd (congrArg (·.2.err) h) (by simp)
  | none =>
    rw [drain_append [b] herr] at h
    obtain ⟨hitems, hleft⟩ := Prod.mk.inj h
    refine ⟨rfl, ?_⟩
    have hlast : (F.drain ((F.drain init).2.buf ++ [b])).1 ≠ [] := by
      intro hnil
      have hbuf := drain_buf_of_nil hnil
      rw [hleft] at hbuf
      exact absurd hbuf (by simp)
    rw [← hitems, List.length_append]
    have hpos := List.length_pos_of_ne_nil hlast
    omega

/-- **What is exposed can be dropped**: by the chunk that completes the last item and goes on to the failure. -/
theorem Exposed.dropped {bound : Nat} {input : List β} (h : F.Exposed bound input) :
    ∃ chunks, Cut (bound + 1) input chunks ∧ (F.kept {} chunks).length < (F.drain input).1.length := by
  obtain ⟨parts, rest, e, hne, hwhole, rfl, hhead⟩ := h
  have hnil : F.drain [] = ([], {}) := drain_more F.head_nil
  have hparts : parts.flatten ≠ [] := by
    cases parts with
    | nil => exact absurd rfl hne
    | cons part parts =>
      rw [List.flatten_cons]
      exact List.append_ne_nil_of_left_ne_nil (hwhole part List.mem_cons_self).ne_nil _
  obtain ⟨init, b, hinit⟩ := (List.eq_nil_or_concat parts.flatten).resolve_left hparts
  rw [List.concat_eq_append] at hinit
  -- up to the last element of the items, all but the last item has been read
  obtain ⟨items, hlen, hdrain⟩ := drain_whole hwhole []
  rw [hnil, List.append_nil, List.append_nil, hinit] at hdrain
  obtain ⟨hok, hfewer⟩ := drain_init hdrain
  have hfeed : F.feed {} (singles init).flatten = F.drain init := by
    rw [flatten_singles]
    exact settled_fresh.feed init
  have hkept := settled_fresh.kept_append (([b] ++ rest.take bound) :: singles (rest.drop bound))
    (by rw [hfeed]; exact hok)
  -- the next chunk fails
  obtain ⟨items', _, hall⟩ := drain_whole hwhole (rest.take bound)
  rw [drain_bad hhead, hinit, List.append_assoc] at hall
  have hfail : (F.feed (F.drain init).2 ([b] ++ rest.take bound)).2.err = some e := by
    have hboth := settled_fresh.feed_append ([b] ++ rest.take bound) (by rw [settled_fresh.feed]; exact hok)
    rw [settled_fresh.feed, settled_fresh.feed] at hboth
    have hleft := congrArg (·.2.err) (hboth.symm.trans hall)
    exact hleft
  have hdropped : F.kept (F.drain init).2 (([b] ++ rest.take bound) :: singles (rest.drop bound)) = [] := by
    show (if (F.feed (F.drain init).2 ([b] ++ rest.take bound)).2.err.isSome then [] else _) = []
    rw [hfail, if_pos (by simp)]
  rw [hfeed, hdropped, List.append_nil] at hkept
  refine ⟨singles init ++ ([b] ++ rest.take bound) :: singles (rest.drop bound), ⟨?_, ?_⟩, ?_⟩
  · rw [List.flatten_append, List.flatten_cons, flatten_singles, flatten_singles, List.append_assoc,
      List.take_append_drop, ← List.append_assoc, ← hinit]
  · intro c hc
    rcases List.mem_append.mp hc with hc | hc
    · exact ⟨(mem_singles hc).1, Nat.le_trans (mem_singles hc).2 (Nat.succ_pos bound)⟩
    · rcases List.mem_cons.mp hc with rfl | hc
      · refine ⟨List.cons_ne_nil _ _, ?_⟩
        rw [List.length_append, List.length_take, List.length_singleton]
        omega
      · exact ⟨(mem_singles hc).1, Nat.le_trans (mem_singles hc).2 (Nat.succ_pos bound)⟩
  · obtain ⟨items'', hlen'', hwholeInput⟩ := drain_whole hwhole rest
    rw [hkept, hwholeInput, List.length_append]
    omega

/-- **When the chunks are immaterial to a caller that drops items**: when no run of items is followed by a failure that
    shows within the size of a chunk. -/
theorem kept_same_iff {bound : Nat} {input : List β} :
    (∀ chunks chunks', Cut (bound + 1) input chunks → Cut (bound + 1) input chunks' →
      F.kept {} chunks = F.kept {} chunks') ↔ ¬ F.Exposed bound input := by
  constructor
  · intro hsame hexposed
    obtain ⟨chunks, hcut, hfewer⟩ := hexposed.dropped
    rw [hsame chunks (singles input) hcut (cut_singles (Nat.succ_pos bound) input), kept_singles] at hfewer
    exact Nat.lt_irrefl _ hfewer
  · intro hnot chunks chunks' hcut hcut'
    have hall : ∀ chunks, Cut (bound + 1) input chunks → F.kept {} chunks = (F.feed {} input).1 := by
      intro chunks hcut
      rw [← hcut.flatten]
      refine settled_fresh.kept_eq (fun c hc => (hcut.sizes c hc).2) ?_
      rw [hcut.flatten]
      exact hnot
    rw [hall chunks hcut, hall chunks' hcut']

end Framing

end Lib
