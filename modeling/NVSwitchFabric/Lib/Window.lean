import Mathlib.Data.List.DropRight

/-!
# `Lib.Window` — a bounded history is the end of the unbounded one

A queue that keeps at most `n` elements and drops the oldest holds `xs.rtake n`, where `xs` is everything that was ever
put in. Both ways to write such a queue, dropping after the new element is in or before, compute the window of the history
with the new element (`trim_after`, `trim_before`), and windows may be taken early (`rtake_append_rtake`) or late
(`rtake_map`).
-/

namespace Lib

variable {α β : Type}

/-- A short history is kept whole. -/
theorem rtake_of_length_le {xs : List α} {n : Nat} (h : xs.length ≤ n) : xs.rtake n = xs := by
  unfold List.rtake
  rw [Nat.sub_eq_zero_of_le h, List.drop_zero]

theorem length_rtake_le (xs : List α) (n : Nat) : (xs.rtake n).length ≤ n := by
  unfold List.rtake
  rw [List.length_drop]
  omega

/-- What is changed of every element may be changed in the window. -/
theorem rtake_map (f : α → β) (xs : List α) (n : Nat) : (xs.map f).rtake n = (xs.rtake n).map f := by
  unfold List.rtake
  rw [List.length_map, List.map_drop]

/-- The window of a window with more is the window of the whole. -/
theorem rtake_append_rtake (xs ys : List α) (n : Nat) : (xs.rtake n ++ ys).rtake n = (xs ++ ys).rtake n := by
  unfold List.rtake
  rw [List.length_append, List.length_append, List.length_drop, List.drop_append, List.drop_append, List.drop_drop,
    List.length_drop]
  congr 2 <;> omega

/-- Put the new element in, and drop the oldest if there are too many. -/
theorem trim_after {xs : List α} {n : Nat} (h : xs.length ≤ n) (x : α) :
    (if n < (xs ++ [x]).length then (xs ++ [x]).tail else xs ++ [x]) = (xs ++ [x]).rtake n := by
  have hlen : (xs ++ [x]).length = xs.length + 1 := List.length_append
  split
  · next hmany =>
    have hone : (xs ++ [x]).length - n = 1 := by omega
    unfold List.rtake
    rw [hone, List.drop_one]
  · next hfew => exact (rtake_of_length_le (not_lt.mp hfew)).symm

/-- Drop the oldest if there is no room, and put the new element in. -/
theorem trim_before {xs : List α} {n : Nat} (h : xs.length ≤ n) (hn : 0 < n) (x : α) :
    (if n ≤ xs.length then xs.tail else xs) ++ [x] = (xs ++ [x]).rtake n := by
  obtain ⟨m, rfl⟩ : ∃ m, n = m + 1 := ⟨n - 1, by omega⟩
  rw [List.rtake_concat_succ]
  congr 1
  split
  · next hfull =>
    have hone : xs.length - m = 1 := by omega
    unfold List.rtake
    rw [hone, List.drop_one]
  · next hroom => exact (rtake_of_length_le (by omega)).symm

end Lib
