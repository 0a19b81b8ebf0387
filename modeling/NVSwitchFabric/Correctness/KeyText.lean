import NVSwitchFabric.Model.Paths

/-!
# `Correctness.KeyText` — what a canonical key says

The text of a key is read from left to right: a number ends where something else than a digit stands (`append_sep_inj`), the
hops are separated by commas, and no hop's text has one. So a key says what the source and the destination are and, of each
hop, its switch and how its ports are printed (`canonicalKey_says`). It says nothing about links.
-/

namespace NVSwitchFabric

/-! ## Numbers -/

/-- The number of some decimal digits. -/
def ofDecimal (digits : Str) : Nat := digits.foldl (fun n b => 10 * n + (b.toNat - 48)) 0

/-- The code of a digit. -/
theorem toNat_digit {c : Char} (h : c.isDigit = true) : 48 ≤ c.toNat ∧ c.toNat ≤ 57 := by
  unfold Char.isDigit at h
  rw [Bool.and_eq_true, decide_eq_true_eq, decide_eq_true_eq] at h
  exact ⟨UInt32.le_iff_toNat_le.mp h.1, UInt32.le_iff_toNat_le.mp h.2⟩

/-- A digit as a byte. -/
theorem toNat_digitByte {c : Char} (h : c.isDigit = true) : c.toNat.toUInt8.toNat = c.toNat := by
  obtain ⟨_, hle⟩ := toNat_digit h
  exact UInt8.toNat_ofNat_of_lt' (lt_of_le_of_lt hle (by decide))

/-- **A printed number reads back.** -/
theorem ofDecimal_decimal (n : Nat) : ofDecimal (decimal n) = n := by
  have hread : ∀ (cs : List Char) (m : Nat), (∀ c ∈ cs, c.isDigit = true) →
      (cs.map fun c => c.toNat.toUInt8).foldl (fun n (b : UInt8) => 10 * n + (b.toNat - 48)) m =
        Nat.ofDigitChars 10 cs m := by
    intro cs
    induction cs with
    | nil => exact fun m _ => Nat.ofDigitChars_nil.symm
    | cons c cs ih =>
      intro m h
      rw [List.map_cons, List.foldl_cons, toNat_digitByte (h c List.mem_cons_self), Nat.ofDigitChars_cons]
      exact ih _ fun d hd => h d (List.mem_cons_of_mem _ hd)
  have hdigits : ∀ c ∈ Nat.toDigits 10 n, c.isDigit = true :=
    fun _ hc => Nat.isDigit_of_mem_toDigits (by decide) (by decide) hc
  exact (hread _ 0 hdigits).trans (Nat.ofDigitChars_toDigits (by decide) (by decide))

theorem decimal_injective : Function.Injective decimal := Function.LeftInverse.injective ofDecimal_decimal

/-- A printed number has digits only. -/
theorem digit_of_mem_decimal {n : Nat} {b : UInt8} (h : b ∈ decimal n) : 48 ≤ b.toNat ∧ b.toNat ≤ 57 := by
  obtain ⟨c, hc, rfl⟩ := List.mem_map.mp h
  have hdigit := Nat.isDigit_of_mem_toDigits (by decide) (by decide) hc
  rw [toNat_digitByte hdigit]
  exact toNat_digit hdigit

theorem id_of_decimal {Tag : Type} {a b : Id Tag} (h : decimal a.value.toNat = decimal b.value.toNat) : a = b :=
  Id.value_injective (UInt64.toNat_inj.mp (decimal_injective h))

/-! ## Separators -/

/-- The text up to the first separator, and the text behind it. -/
theorem append_sep_inj {α : Type} {x : α} {a b s s' : List α} (ha : x ∉ a) (hb : x ∉ b) (h : a ++ x :: s = b ++ x :: s') :
    a = b ∧ s = s' := by
  induction a generalizing b with
  | nil =>
    cases b with
    | nil => exact ⟨rfl, (List.cons.inj h).2⟩
    | cons y b =>
      obtain rfl : x = y := (List.cons.inj h).1
      exact absurd List.mem_cons_self hb
  | cons y a ih =>
    cases b with
    | nil =>
      obtain rfl : y = x := (List.cons.inj h).1
      exact absurd List.mem_cons_self ha
    | cons z b =>
      obtain ⟨rfl, hrest⟩ := List.cons.inj h
      obtain ⟨rfl, hs⟩ := ih (fun hx => ha (List.mem_cons_of_mem _ hx)) (fun hx => hb (List.mem_cons_of_mem _ hx)) hrest
      exact ⟨rfl, hs⟩

/-- The comma, the semicolon and the closing bracket. -/
def IsSeparator (b : UInt8) : Prop := b = 44 ∨ b = 59 ∨ b = 93

theorem not_mem_decimal {x : UInt8} (hx : IsSeparator x) (n : Nat) : x ∉ decimal n := by
  intro hmem
  have hdigit := digit_of_mem_decimal hmem
  rcases hx with rfl | rfl | rfl
  · exact absurd hdigit.1 (by decide)
  · exact absurd hdigit.2 (by decide)
  · exact absurd hdigit.2 (by decide)

/-- A number before a separator is read off the text. -/
theorem decimal_sep_inj {x : UInt8} (hx : IsSeparator x) {n n' : Nat} {s s' : Str}
    (h : decimal n ++ x :: s = decimal n' ++ x :: s') : decimal n = decimal n' ∧ s = s' :=
  append_sep_inj (not_mem_decimal hx n) (not_mem_decimal hx n') h

/-- A port is printed as a number, or as minus one. -/
theorem not_mem_portLabel {x : UInt8} (hx : IsSeparator x) (p : PortId) : x ∉ portLabel p := by
  unfold portLabel
  split
  · rcases hx with rfl | rfl | rfl
    · decide
    · decide
    · decide
  · exact not_mem_decimal hx _

/-! ## Hops -/

/-- What the text of a hop shows of it. -/
def PathHop.shown (h : PathHop) : SwitchId × Str × Str := (h.sw, portLabel h.inPort, portLabel h.outPort)

/-- **The text of a hop says what it shows.** -/
theorem PathHop.label_says {h h' : PathHop} (heq : h.label = h'.label) : h.shown = h'.shown := by
  have hsemi : IsSeparator 59 := Or.inr (Or.inl rfl)
  unfold PathHop.label at heq
  simp only [List.append_assoc] at heq
  obtain ⟨hsw, hin⟩ := decimal_sep_inj hsemi (List.append_cancel_left heq)
  have hin' : portLabel h.inPort ++ 59 :: _ = portLabel h'.inPort ++ 59 :: _ :=
    (List.append_right_inj (ascii "in=")).mp hin
  obtain ⟨hinPort, hout⟩ := append_sep_inj (not_mem_portLabel hsemi _) (not_mem_portLabel hsemi _) hin'
  have hout' : portLabel h.outPort ++ 59 :: _ = portLabel h'.outPort ++ 59 :: _ :=
    (List.append_right_inj (ascii "out=")).mp hout
  obtain ⟨houtPort, -⟩ := append_sep_inj (not_mem_portLabel hsemi _) (not_mem_portLabel hsemi _) hout'
  unfold PathHop.shown
  rw [id_of_decimal hsw, hinPort, houtPort]

/-- The text of a hop has no comma. -/
theorem PathHop.comma_not_mem_label (h : PathHop) : 44 ∉ h.label := by
  have hcomma : IsSeparator 44 := Or.inl rfl
  have hexit : (44 : UInt8) ∉ (if h.exitToDevice then ascii "dev" else if h.exitToSwitch then ascii "sw" else []) := by
    cases h.exitToDevice <;> cases h.exitToSwitch <;> decide
  have hfixed : (44 : UInt8) ∉ ascii "(" ∧ (44 : UInt8) ∉ ascii ";in=" ∧ (44 : UInt8) ∉ ascii ";out=" ∧
      (44 : UInt8) ∉ ascii ";" ∧ (44 : UInt8) ∉ ascii ")" := by decide
  unfold PathHop.label
  simp only [List.mem_append, hfixed, hexit, not_mem_decimal hcomma, not_mem_portLabel hcomma, or_self, not_false_eq_true]

/-! ## Keys -/

/-- Hops separated by commas are read one by one. -/
theorem labels_of_intercalate {hs hs' : List PathHop} (hne : hs ≠ []) (hne' : hs' ≠ [])
    (h : (ascii ",").intercalate (hs.map PathHop.label) = (ascii ",").intercalate (hs'.map PathHop.label)) :
    hs.map PathHop.label = hs'.map PathHop.label := by
  have hread : ∀ hs : List PathHop, hs ≠ [] →
      ((ascii ",").intercalate (hs.map PathHop.label)).splitOn 44 = hs.map PathHop.label := by
    intro hs hne
    refine List.splitOn_intercalate 44 ?_ (mt List.map_eq_nil_iff.mp hne)
    intro l hl
    obtain ⟨hop, -, rfl⟩ := List.mem_map.mp hl
    exact hop.comma_not_mem_label
  rw [← hread hs hne, h, hread hs' hne']

/-- What the labels of hops show. -/
theorem shown_of_labels {hs hs' : List PathHop} (h : hs.map PathHop.label = hs'.map PathHop.label) :
    hs.map PathHop.shown = hs'.map PathHop.shown := by
  rw [← List.forall₂_eq_eq_eq, List.forall₂_map_left_iff, List.forall₂_map_right_iff] at h ⊢
  exact h.imp fun _ _ => PathHop.label_says

/-- **What a canonical key says.** -/
theorem canonicalKey_says {p q : FabricPath} (hp : p.hops ≠ []) (hq : q.hops ≠ []) (h : p.canonicalKey = q.canonicalKey) :
    p.source = q.source ∧ p.destination = q.destination ∧ p.hops.map PathHop.shown = q.hops.map PathHop.shown := by
  unfold FabricPath.canonicalKey at h
  simp only [List.append_assoc] at h
  obtain ⟨hsource, hdst⟩ := decimal_sep_inj (Or.inl rfl) (List.append_cancel_left h)
  have hdst' : decimal p.destination.value.toNat ++ 93 :: _ = decimal q.destination.value.toNat ++ 93 :: _ :=
    (List.append_right_inj (ascii "dst=")).mp hdst
  obtain ⟨hdestination, hhops⟩ := decimal_sep_inj (Or.inr (Or.inr rfl)) hdst'
  have hhops' : (ascii ",").intercalate (p.hops.map PathHop.label) ++ ascii "]\x7d" =
      (ascii ",").intercalate (q.hops.map PathHop.label) ++ ascii "]\x7d" :=
    (List.append_right_inj (ascii "\x7bsw=[")).mp hhops
  have hlabels := labels_of_intercalate hp hq (List.append_cancel_right hhops')
  exact ⟨id_of_decimal hsource, id_of_decimal hdestination, shown_of_labels hlabels⟩

end NVSwitchFabric
