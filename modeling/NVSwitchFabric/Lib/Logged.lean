import Mathlib.Control.Monad.Writer

/-!
# `Lib.Logged` — computations that keep a log of what they do

A logged computation is one of the `Writer` monad over lists of events. `Upholds P t a` is its specification: it returns
`a`, and every event in its log satisfies `P`. It composes along `>>=`, so a property of the log of a program is shown
where the program logs, together with what the program returns.
-/

namespace Lib

/-- Computations with a log of events of type `ω`. -/
abbrev Logged (ω : Type) : Type → Type := Writer (List ω)

namespace Logged

variable {ω ω' α β : Type}

/-- What the computation returns. -/
def value (t : Logged ω α) : α := (WriterT.run t).1

/-- What it has logged, first event first. -/
def log (t : Logged ω α) : List ω := (WriterT.run t).2

/-- Rewrite the events of a log. -/
def relog (f : ω → ω') (t : Logged ω α) : Logged ω' α := WriterT.adapt (List.map f) t

/-- The computation returns `a`, and everything it logs satisfies `P`. -/
structure Upholds (P : ω → Prop) (t : Logged ω α) (a : α) : Prop where
  value : Logged.value t = a
  log   : ∀ e ∈ Logged.log t, P e

variable {P : ω → Prop} {t : Logged ω α} {f : α → Logged ω β} {a : α} {b : β}

theorem Upholds.pure (a : α) : Upholds P (pure a) a := by
  refine ⟨rfl, ?_⟩
  intro e he
  exact absurd he List.not_mem_nil

theorem Upholds.tell {e : ω} (h : P e) : Upholds P (tell [e] : Logged ω PUnit) PUnit.unit := by
  refine ⟨rfl, ?_⟩
  intro e' he
  obtain rfl := List.mem_singleton.mp he
  exact h

/-- **What is logged one after the other satisfies `P` if each part does.** -/
theorem Upholds.bind (ht : Upholds P t a) (hf : Upholds P (f a) b) : Upholds P (t >>= f) b := by
  obtain ⟨rfl, hlog⟩ := ht
  refine ⟨hf.value, ?_⟩
  intro e he
  rcases List.mem_append.mp he with hfirst | hsecond
  · exact hlog e hfirst
  · exact hf.log e hsecond

/-- What satisfies `P` satisfies what is weaker. -/
theorem Upholds.mono {Q : ω → Prop} (ht : Upholds P t a) (h : ∀ e, P e → Q e) : Upholds Q t a :=
  ⟨ht.value, fun e he => h e (ht.log e he)⟩

/-- Mapping what is returned. -/
theorem Upholds.map (g : α → β) (ht : Upholds P t a) : Upholds P (do return g (← t)) (g a) :=
  ht.bind (Upholds.pure (g a))

/-- Branches that are taken together. -/
theorem Upholds.ite {c d : Prop} [Decidable c] [Decidable d] {t u : Logged ω α} {a b : α} (hiff : c ↔ d)
    (ht : d → Upholds P t a) (hu : ¬ d → Upholds P u b) : Upholds P (if c then t else u) (if d then a else b) := by
  by_cases hd : d
  · rw [if_pos (hiff.mpr hd), if_pos hd]
    exact ht hd
  · rw [if_neg fun hc => hd (hiff.mp hc), if_neg hd]
    exact hu hd

/-- A log may be rewritten if the events that come of it are as they should be. -/
theorem Upholds.relog {Q : ω' → Prop} {g : ω → ω'} (ht : Upholds P t a) (h : ∀ e, P e → Q (g e)) :
    Upholds Q (relog g t) a := by
  refine ⟨ht.value, ?_⟩
  intro e he
  obtain ⟨e', he', rfl⟩ := List.mem_map.mp he
  exact h e' (ht.log e' he')

end Logged

end Lib
