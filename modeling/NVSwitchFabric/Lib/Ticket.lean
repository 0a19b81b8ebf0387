import Mathlib.Data.UInt
import Mathlib.Logic.Function.Basic

/-!
# `Lib.Ticket` — tickets from a counter that wraps

Clients draw tickets from a 64-bit counter, hold them for a while and hand them in. As long as fewer than `2 ^ 64` have
been drawn, no ticket is held by two clients, none that was handed in is held again, and none is handed in twice
(`Drawn`).
-/

namespace Lib

variable {κ : Type}

/-- `n` tickets have been drawn from `start` on: `next` is the one after them, `held` are the tickets that clients hold, and
    `used` those that were handed in. -/
structure Drawn (start : UInt64) (n : Nat) (next : UInt64) (held : κ → Option UInt64) (used : List UInt64) : Prop where
  next   : next = start + UInt64.ofNat n
  holds  : ∀ k i, held k = some i → ∃ m < n, i = start + UInt64.ofNat m
  uses   : ∀ i ∈ used, ∃ m < n, i = start + UInt64.ofNat m
  apart  : ∀ k k' i, held k = some i → held k' = some i → k = k'
  unused : ∀ k i, held k = some i → i ∉ used
  once   : used.Nodup

theorem drawn_none (start : UInt64) : Drawn start 0 start (fun _ : κ => none) [] where
  next := (UInt64.add_zero start).symm
  holds _ _ h := nomatch h
  uses _ h := nomatch h
  apart _ _ _ h := nomatch h
  unused _ _ h := nomatch h
  once := List.nodup_nil

/-- The counter does not come back to a ticket before it wraps. -/
theorem ticket_ne {start : UInt64} {m n : Nat} (hlt : m < n) (hn : n < 2 ^ 64) :
    start + UInt64.ofNat m ≠ start + UInt64.ofNat n := by
  intro heq
  have hsame : UInt64.ofNat m = UInt64.ofNat n := by
    have hsub := congrArg (fun i => i - start) heq
    simpa [UInt64.add_comm start] using hsub
  have hnat := congrArg UInt64.toNat hsame
  rw [UInt64.toNat_ofNat', UInt64.toNat_ofNat', Nat.mod_eq_of_lt (hlt.trans hn), Nat.mod_eq_of_lt hn] at hnat
  omega

section
variable [DecidableEq κ] {start next : UInt64} {n : Nat} {held : κ → Option UInt64} {used : List UInt64}

/-- **Drawing a ticket.** -/
theorem Drawn.draw (h : Drawn start n next held used) (hn : n < 2 ^ 64) (k : κ) :
    Drawn start (n + 1) (next + 1) (Function.update held k (some next)) used := by
  have hearlier : ∀ i, (∃ m < n, i = start + UInt64.ofNat m) → i ≠ next := by
    rintro _ ⟨m, hm, rfl⟩
    rw [h.next]
    exact ticket_ne hm hn
  refine ⟨?_, ?_, ?_, ?_, ?_, h.once⟩
  · rw [h.next, UInt64.ofNat_add, UInt64.add_assoc]
    rfl
  · intro k' i hi
    by_cases hk : k' = k
    · subst hk
      rw [Function.update_self] at hi
      obtain rfl := Option.some.inj hi
      exact ⟨n, Nat.lt_succ_self n, h.next⟩
    · rw [Function.update_of_ne hk] at hi
      obtain ⟨m, hm, heq⟩ := h.holds k' i hi
      exact ⟨m, Nat.lt_succ_of_lt hm, heq⟩
  · intro i hi
    obtain ⟨m, hm, heq⟩ := h.uses i hi
    exact ⟨m, Nat.lt_succ_of_lt hm, heq⟩
  · intro k₁ k₂ i h₁ h₂
    by_cases hk₁ : k₁ = k
    · by_cases hk₂ : k₂ = k
      · rw [hk₁, hk₂]
      · rw [hk₁, Function.update_self] at h₁
        rw [Function.update_of_ne hk₂] at h₂
        exact absurd (Option.some.inj h₁).symm (hearlier i (h.holds _ _ h₂))
    · rw [Function.update_of_ne hk₁] at h₁
      by_cases hk₂ : k₂ = k
      · rw [hk₂, Function.update_self] at h₂
        exact absurd (Option.some.inj h₂).symm (hearlier i (h.holds _ _ h₁))
      · rw [Function.update_of_ne hk₂] at h₂
        exact h.apart k₁ k₂ i h₁ h₂
  · intro k' i hi hused
    by_cases hk : k' = k
    · subst hk
      rw [Function.update_self] at hi
      exact hearlier i (h.uses i hused) (Option.some.inj hi).symm
    · rw [Function.update_of_ne hk] at hi
      exact h.unused k' i hi hused

/-- **Handing a ticket in.** -/
theorem Drawn.use (h : Drawn start n next held used) {k : κ} {i : UInt64} (hk : held k = some i) :
    Drawn start n next (Function.update held k none) (used ++ [i]) := by
  have hother : ∀ k' i', Function.update held k none k' = some i' → k' ≠ k ∧ held k' = some i' := by
    intro k' i' hi
    by_cases heq : k' = k
    · rw [heq, Function.update_self] at hi
      nomatch hi
    · rw [Function.update_of_ne heq] at hi
      exact ⟨heq, hi⟩
  refine ⟨h.next, fun k' i' hi => h.holds k' i' (hother k' i' hi).2, ?_, ?_, ?_, ?_⟩
  · intro i' hi
    rcases List.mem_append.mp hi with hold | hnew
    · exact h.uses i' hold
    · rw [List.mem_singleton.mp hnew]
      exact h.holds k i hk
  · intro k₁ k₂ i' h₁ h₂
    exact h.apart k₁ k₂ i' (hother _ _ h₁).2 (hother _ _ h₂).2
  · intro k' i' hi hused
    obtain ⟨hne, hheld⟩ := hother k' i' hi
    rcases List.mem_append.mp hused with hold | hnew
    · exact h.unused k' i' hheld hold
    · rw [List.mem_singleton.mp hnew] at hheld
      exact hne (h.apart k' k i hheld hk)
  · exact List.nodup_append.mpr ⟨h.once, List.nodup_singleton i, fun a ha b hb heq => by
      rw [heq, List.mem_singleton.mp hb] at ha
      exact h.unused k i hk ha⟩

end

end Lib
