import Mathlib.Logic.Function.Iterate
import Mathlib.Data.List.Basic

/-!
# `Lib.Crc` — reflected cyclic redundancy checks

The remainder of a reflected CRC, over any width and polynomial: `shift` takes one bit out of it, `absorb` a byte in, `run`
a list of bytes. `shift` is linear in exclusive or, and injective if the polynomial has its highest bit set, so a run is
injective in the remainder it starts from. Bytes that fit in the remainder are absorbed as one word (`run_eq`), so it is
injective in these, too; hence what a checksum says about bursts (`Burst.eq_of_run`): two inputs that differ only in a
window no wider than the remainder leave different remainders.

The same remainder comes out if the bits are taken in one at a time, the lowest one of each byte first (`serial_bits`).

An input with its checksum behind it leaves a remainder that does not depend on the input (`run_sealed`), so bursts
across the border between the two are no different from others.
-/

namespace Lib.Crc

variable {w : Nat} (poly : BitVec w)

/-- Take one bit out of the remainder. -/
def shift (c : BitVec w) : BitVec w := if c.getLsbD 0 then poly ^^^ (c >>> 1) else c >>> 1

/-- Take `n` bits out. -/
def shifts (n : Nat) (c : BitVec w) : BitVec w := (shift poly)^[n] c

/-- Take in a byte. -/
def absorb (c : BitVec w) (b : UInt8) : BitVec w := shifts poly 8 (c ^^^ b.toBitVec.setWidth w)

/-- Take in bytes, in order. -/
def run (c : BitVec w) (bytes : List UInt8) : BitVec w := bytes.foldl (absorb poly) c

/-- Take in one bit: it decides together with the one that is taken out. -/
def step (c : BitVec w) (b : Bool) : BitVec w := if b ^^ c.getLsbD 0 then poly ^^^ (c >>> 1) else c >>> 1

/-- Take in bits, in order. -/
def serial (c : BitVec w) (bits : List Bool) : BitVec w := bits.foldl (step poly) c

/-- The bits of a byte, the lowest one first. -/
def bits (b : UInt8) : List Bool := (List.range 8).map b.toBitVec.getLsbD

/-- The word of little-endian bytes. -/
def word : List UInt8 → BitVec w
  | []         => 0#w
  | b :: bytes => b.toBitVec.setWidth w ^^^ (word bytes <<< 8)

variable {poly}

/-! ## Shifts -/

/-- **Shifting is linear.** -/
theorem shift_xor (a b : BitVec w) : shift poly (a ^^^ b) = shift poly a ^^^ shift poly b := by
  unfold shift
  rw [BitVec.getLsbD_xor, BitVec.ushiftRight_xor_distrib]
  cases a.getLsbD 0 <;> cases b.getLsbD 0
  · rfl
  · show poly ^^^ (a >>> 1 ^^^ b >>> 1) = a >>> 1 ^^^ (poly ^^^ b >>> 1)
    ac_rfl
  · show poly ^^^ (a >>> 1 ^^^ b >>> 1) = (poly ^^^ a >>> 1) ^^^ b >>> 1
    ac_rfl
  · show a >>> 1 ^^^ b >>> 1 = (poly ^^^ a >>> 1) ^^^ (poly ^^^ b >>> 1)
    have hregroup : (poly ^^^ a >>> 1) ^^^ (poly ^^^ b >>> 1) = (poly ^^^ poly) ^^^ (a >>> 1 ^^^ b >>> 1) := by ac_rfl
    rw [hregroup, BitVec.xor_self, BitVec.zero_xor]

theorem shifts_xor (n : Nat) (a b : BitVec w) : shifts poly n (a ^^^ b) = shifts poly n a ^^^ shifts poly n b := by
  unfold shifts
  induction n generalizing a b with
  | zero => rfl
  | succ n ih => rw [Function.iterate_succ_apply, Function.iterate_succ_apply, Function.iterate_succ_apply, shift_xor, ih]

theorem shifts_add (m n : Nat) (c : BitVec w) : shifts poly (m + n) c = shifts poly m (shifts poly n c) :=
  Function.iterate_add_apply _ m n c

/-- Bits that are clear are only moved out. -/
theorem shifts_of_low {k : Nat} {c : BitVec w} (h : ∀ i < k, c.getLsbD i = false) : shifts poly k c = c >>> k := by
  induction k generalizing c with
  | zero => exact (BitVec.ushiftRight_zero c).symm
  | succ k ih =>
    have hone : shift poly c = c >>> 1 := by
      unfold shift
      rw [h 0 (Nat.succ_pos k)]
      rfl
    have hrest : ∀ i < k, (c >>> 1).getLsbD i = false := by
      intro i hi
      rw [BitVec.getLsbD_ushiftRight]
      exact h (1 + i) (by omega)
    show (shift poly)^[k + 1] c = _
    rw [Function.iterate_succ_apply, hone]
    show shifts poly k (c >>> 1) = _
    rw [ih hrest, ← BitVec.shiftRight_add, Nat.add_comm]

/-- **Shifting is injective** if the polynomial has its highest bit set. -/
theorem shift_injective (hpoly : poly.getLsbD (w - 1) = true) : Function.Injective (shift poly) := by
  have hkernel : ∀ c, shift poly c = 0#w → c = 0#w := by
    intro c hc
    have hbits : ∀ i, (shift poly c).getLsbD i = false := by
      intro i
      rw [hc]
      exact BitVec.getLsbD_zero
    unfold shift at hbits
    cases hlow : c.getLsbD 0 with
    | true =>
      -- the highest bit of the polynomial is left
      have htop := hbits (w - 1)
      rw [hlow, if_pos rfl, BitVec.getLsbD_xor, hpoly, BitVec.getLsbD_ushiftRight,
        BitVec.getLsbD_of_ge c (1 + (w - 1)) (by omega)] at htop
      exact absurd htop (by simp)
    | false =>
      rw [hlow] at hbits
      apply BitVec.eq_of_getLsbD_eq
      intro i _
      rw [BitVec.getLsbD_zero]
      cases i with
      | zero => exact hlow
      | succ i =>
        have hi := hbits i
        rw [if_neg (by simp), BitVec.getLsbD_ushiftRight, Nat.add_comm] at hi
        exact hi
  intro a b hab
  have hzero : shift poly (a ^^^ b) = 0#w := by
    rw [shift_xor, hab]
    exact BitVec.xor_self
  have hxor := hkernel _ hzero
  rwa [BitVec.xor_eq_zero_iff] at hxor

theorem shifts_injective (hpoly : poly.getLsbD (w - 1) = true) (n : Nat) : Function.Injective (shifts poly n) :=
  (shift_injective hpoly).iterate n

/-- **A table suffices.** The low bits decide what is added to the rest. -/
theorem shifts_split (k : Nat) (c : BitVec w) :
    shifts poly k c = shifts poly k ((c.setWidth k).setWidth w) ^^^ (c >>> k) := by
  have hsplit : c = (c.setWidth k).setWidth w ^^^ ((c >>> k) <<< k) := by
    apply BitVec.eq_of_getLsbD_eq
    intro i hi
    rw [BitVec.getLsbD_xor, BitVec.getLsbD_setWidth, BitVec.getLsbD_setWidth, BitVec.getLsbD_shiftLeft,
      BitVec.getLsbD_ushiftRight]
    by_cases hlow : i < k
    · simp [hi, hlow]
    · simp [hi, hlow, Nat.add_sub_cancel' (Nat.le_of_not_lt hlow)]
  have hhigh : shifts poly k ((c >>> k) <<< k) = c >>> k := by
    rw [shifts_of_low fun i hi => by simp [hi]]
    apply BitVec.eq_of_getLsbD_eq
    intro i hi
    rw [BitVec.getLsbD_ushiftRight, BitVec.getLsbD_shiftLeft, BitVec.getLsbD_ushiftRight, Nat.add_sub_cancel_left]
    by_cases hk : k + i < w
    · simp [hk]
    · simp [hk, BitVec.getLsbD_of_ge c (k + i) (by omega)]
  conv_lhs => rw [hsplit, shifts_xor, hhigh]

/-! ## Bit by bit -/

/-- A bit is taken in at the lowest place. -/
theorem step_xor_of_low {c m : BitVec w} {b : Bool} (hlow : m.getLsbD 0 = b) :
    step poly (c ^^^ m) b = shift poly c ^^^ (m >>> 1) := by
  have hout : (b ^^ (c ^^^ m).getLsbD 0) = c.getLsbD 0 := by
    rw [BitVec.getLsbD_xor, hlow]
    cases b <;> simp
  unfold step shift
  rw [hout, BitVec.ushiftRight_xor_distrib]
  split
  · exact (BitVec.xor_assoc _ _ _).symm
  · rfl

/-- **Bits taken in one at a time** are taken in as the word `m` they are the lowest ones of, but for the rest of it. -/
theorem serial_low (m : BitVec w) (n : Nat) (c : BitVec w) :
    serial poly c ((List.range n).map m.getLsbD) = shifts poly n (c ^^^ m) ^^^ (m >>> n) := by
  induction n with
  | zero =>
    show c = (c ^^^ m) ^^^ (m >>> 0)
    rw [BitVec.ushiftRight_zero, BitVec.xor_assoc, BitVec.xor_self, BitVec.xor_zero]
  | succ n ih =>
    have hlow : (m >>> n).getLsbD 0 = m.getLsbD n := BitVec.getLsbD_ushiftRight _ _ _
    have hnext : shifts poly (n + 1) (c ^^^ m) = shift poly (shifts poly n (c ^^^ m)) := Function.iterate_succ_apply' _ _ _
    rw [List.range_succ, List.map_append, hnext, BitVec.shiftRight_add]
    show (List.foldl (step poly) c _) = _
    rw [List.foldl_append]
    show step poly (serial poly c ((List.range n).map m.getLsbD)) (m.getLsbD n) = _
    rw [ih]
    exact step_xor_of_low hlow

/-- The bits of a byte are taken in as the byte. -/
theorem serial_byte (h : 8 ≤ w) (c : BitVec w) (b : UInt8) : serial poly c (bits b) = absorb poly c b := by
  have hbits : bits b = (List.range 8).map (b.toBitVec.setWidth w).getLsbD := by
    apply List.map_congr_left
    intro i hi
    have hi : i < w := Nat.lt_of_lt_of_le (List.mem_range.mp hi) h
    rw [BitVec.getLsbD_setWidth, decide_eq_true hi, Bool.true_and]
  have hrest : b.toBitVec.setWidth w >>> 8 = 0#w := by
    apply BitVec.eq_of_getLsbD_eq
    intro i _
    rw [BitVec.getLsbD_ushiftRight, BitVec.getLsbD_setWidth, BitVec.getLsbD_of_ge b.toBitVec _ (by omega)]
    simp
  rw [hbits, serial_low, hrest, BitVec.xor_zero]
  rfl

/-- **Bit by bit and byte by byte are the same.** -/
theorem serial_bits (h : 8 ≤ w) (c : BitVec w) (bytes : List UInt8) :
    serial poly c (bytes.flatMap bits) = run poly c bytes := by
  induction bytes generalizing c with
  | nil => rfl
  | cons b bytes ih =>
    rw [List.flatMap_cons, serial, List.foldl_append]
    show serial poly (serial poly c (bits b)) (bytes.flatMap bits) = run poly (absorb poly c b) bytes
    rw [serial_byte h, ih]

/-! ## Runs -/

theorem absorb_injective (hpoly : poly.getLsbD (w - 1) = true) (b : UInt8) :
    Function.Injective fun c => absorb poly c b := by
  intro c d h
  exact (BitVec.xor_left_inj _).mp (shifts_injective hpoly 8 h)

theorem run_append (c : BitVec w) (xs ys : List UInt8) : run poly c (xs ++ ys) = run poly (run poly c xs) ys :=
  List.foldl_append

/-- **A run is injective in the remainder it starts from.** -/
theorem run_injective (hpoly : poly.getLsbD (w - 1) = true) (bytes : List UInt8) :
    Function.Injective fun c => run poly c bytes := by
  induction bytes with
  | nil => exact fun _ _ h => h
  | cons b bytes ih =>
    intro c d h
    exact absorb_injective hpoly b (ih h)

/-- The bits of a word above its bytes are clear. -/
theorem word_high {bytes : List UInt8} {i : Nat} (h : 8 * bytes.length ≤ i) :
    (word bytes : BitVec w).getLsbD i = false := by
  induction bytes generalizing i with
  | nil => exact BitVec.getLsbD_zero
  | cons b bytes ih =>
    rw [List.length_cons] at h
    show (b.toBitVec.setWidth w ^^^ (word bytes <<< 8)).getLsbD i = false
    rw [BitVec.getLsbD_xor, BitVec.getLsbD_setWidth, BitVec.getLsbD_shiftLeft, ih (by omega),
      BitVec.getLsbD_of_ge b.toBitVec i (by omega)]
    simp

theorem word_shift {bytes : List UInt8} (h : 8 * bytes.length + 8 ≤ w) :
    (word bytes <<< 8) >>> 8 = (word bytes : BitVec w) := by
  apply BitVec.eq_of_getLsbD_eq
  intro i hi
  rw [BitVec.getLsbD_ushiftRight, BitVec.getLsbD_shiftLeft, Nat.add_sub_cancel_left]
  by_cases hlow : 8 + i < w
  · simp [hlow]
  · rw [word_high (by omega)]
    simp

/-- **Bytes that fit are absorbed as one word.** -/
theorem run_eq {bytes : List UInt8} (h : 8 * bytes.length ≤ w) (c : BitVec w) :
    run poly c bytes = shifts poly (8 * bytes.length) (c ^^^ word bytes) := by
  induction bytes generalizing c with
  | nil => exact (BitVec.xor_zero).symm
  | cons b bytes ih =>
    rw [List.length_cons] at h
    have hlate : shifts poly 8 (word bytes <<< 8) = word bytes := by
      rw [shifts_of_low fun i hi => by simp [hi], word_shift (by omega)]
    show run poly (absorb poly c b) bytes = _
    rw [ih (by omega), List.length_cons, Nat.mul_succ, shifts_add]
    show _ = shifts poly (8 * bytes.length) (shifts poly 8 (c ^^^ (b.toBitVec.setWidth w ^^^ (word bytes <<< 8))))
    rw [← BitVec.xor_assoc, shifts_xor 8, hlate]
    rfl

/-- A word has the bytes it is made of. -/
theorem word_injective {xs ys : List UInt8} (hlen : xs.length = ys.length) (hfit : 8 * xs.length ≤ w)
    (h : (word xs : BitVec w) = word ys) : xs = ys := by
  induction xs generalizing ys with
  | nil => exact (List.length_eq_zero_iff.mp hlen.symm).symm
  | cons x xs ih =>
    cases ys with
    | nil => exact absurd hlen (by simp)
    | cons y ys =>
      rw [List.length_cons, List.length_cons] at hlen
      rw [List.length_cons] at hfit
      have hfirst : x = y := by
        apply UInt8.toBitVec_inj.mp
        apply BitVec.eq_of_getLsbD_eq
        intro i hi
        have hbit := congrArg (fun v => v.getLsbD i) h
        simpa [word, hi, show i < w by omega] using hbit
      subst hfirst
      have hrest : word xs <<< 8 = (word ys <<< 8 : BitVec w) := (BitVec.xor_right_inj _).mp h
      have hword : (word xs <<< 8) >>> 8 = ((word ys <<< 8) >>> 8 : BitVec w) := by rw [hrest]
      rw [word_shift (by omega), word_shift (by omega)] at hword
      rw [ih (by omega) (by omega) hword]

/-- **A window is decided by the remainder.** -/
theorem run_window (hpoly : poly.getLsbD (w - 1) = true) {c : BitVec w} {front xs ys back : List UInt8}
    (hlen : xs.length = ys.length) (hfit : 8 * xs.length ≤ w)
    (h : run poly c (front ++ (xs ++ back)) = run poly c (front ++ (ys ++ back))) : xs = ys := by
  rw [run_append, run_append, run_append, run_append] at h
  have hwindow := run_injective hpoly back h
  have hfit' : 8 * ys.length ≤ w := by omega
  rw [@run_eq _ _ xs hfit, @run_eq _ _ ys hfit', ← hlen] at hwindow
  exact word_injective hlen hfit ((BitVec.xor_right_inj _).mp (shifts_injective hpoly _ hwindow))

/-- **Behind its checksum an input leaves no trace.** -/
theorem run_sealed {c out : BitVec w} {bytes check : List UInt8} (hcheck : 8 * check.length = w)
    (h : word check = run poly c bytes ^^^ out) : run poly c (bytes ++ check) = shifts poly w out := by
  have hout : run poly c bytes ^^^ (run poly c bytes ^^^ out) = out := by
    rw [← BitVec.xor_assoc, BitVec.xor_self, BitVec.zero_xor]
  rw [run_append, run_eq (Nat.le_of_eq hcheck), h, hout, hcheck]

/-! ## Bursts -/

/-- The lists have the same length and differ at most inside one window of `k` places. -/
def Burst {α : Type} (k : Nat) (xs ys : List α) : Prop :=
  ys.length = xs.length ∧ ∃ start, ∀ i, i < start ∨ start + k ≤ i → ys[i]? = xs[i]?

namespace Burst

variable {α : Type} {k : Nat} {xs ys : List α}

/-- One element changed. -/
theorem set (xs : List α) (i : Nat) (a : α) (hk : 0 < k) : Burst k xs (xs.set i a) := by
  refine ⟨List.length_set, i, ?_⟩
  intro j hj
  exact List.getElem?_set_ne (by omega)

theorem take (h : Burst k xs ys) (n : Nat) : Burst k (xs.take n) (ys.take n) := by
  obtain ⟨hlen, start, hsame⟩ := h
  refine ⟨by rw [List.length_take, List.length_take, hlen], start, ?_⟩
  intro i hi
  rw [List.getElem?_take, List.getElem?_take, hsame i hi]

theorem drop (h : Burst k xs ys) (n : Nat) : Burst k (xs.drop n) (ys.drop n) := by
  obtain ⟨hlen, start, hsame⟩ := h
  by_cases hn : n ≤ start
  · refine ⟨by rw [List.length_drop, List.length_drop, hlen], start - n, ?_⟩
    intro i hi
    rw [List.getElem?_drop, List.getElem?_drop]
    exact hsame (n + i) (by omega)
  · -- the window begins before what is left, which keeps its end only
    refine ⟨by rw [List.length_drop, List.length_drop, hlen], 0, ?_⟩
    intro i hi
    rw [List.getElem?_drop, List.getElem?_drop]
    exact hsame (n + i) (by omega)

/-- The window and what is around it. -/
theorem split (h : Burst k xs ys) : ∃ front before after back : List α, before.length = after.length ∧
    before.length ≤ k ∧ xs = front ++ (before ++ back) ∧ ys = front ++ (after ++ back) := by
  obtain ⟨hlen, start, hsame⟩ := h
  have hfront : ys.take start = xs.take start := by
    apply List.ext_getElem?
    intro i
    rw [List.getElem?_take, List.getElem?_take]
    by_cases hi : i < start
    · rw [if_pos hi, if_pos hi, hsame i (Or.inl hi)]
    · rw [if_neg hi, if_neg hi]
  have hback : (ys.drop start).drop k = (xs.drop start).drop k := by
    apply List.ext_getElem?
    intro i
    rw [List.drop_drop, List.drop_drop, List.getElem?_drop, List.getElem?_drop]
    exact hsame _ (Or.inr (Nat.le_add_right _ i))
  refine ⟨xs.take start, (xs.drop start).take k, (ys.drop start).take k, (xs.drop start).drop k, ?_, ?_, ?_, ?_⟩
  · rw [List.length_take, List.length_take, List.length_drop, List.length_drop, hlen]
  · rw [List.length_take]
    exact Nat.min_le_left _ _
  · rw [List.take_append_drop, List.take_append_drop]
  · rw [← hback, ← hfront, List.take_append_drop, List.take_append_drop]

/-- **Bursts no wider than the remainder show.** -/
theorem eq_of_run (hpoly : poly.getLsbD (w - 1) = true) {c : BitVec w} {bytes other : List UInt8}
    (hburst : Burst k bytes other) (hfit : 8 * k ≤ w) (h : run poly c bytes = run poly c other) : bytes = other := by
  obtain ⟨front, before, after, back, hlen, hk, rfl, rfl⟩ := hburst.split
  rw [run_window hpoly hlen (by omega) h]

end Burst

end Lib.Crc
