import NVSwitchFabric.Lib.Framing

/-!
# `Lib.Channel` — a byte stream between a writer and an incremental parser

What has been written and not received is on the wire; the receiver takes it off in pieces of any size and feeds them to
its parser. A channel `Carries` the items that have been written and not been parsed: they are what the buffer of the
parser and the wire drain to. Writing an item puts it at the end, a piece received takes some off the front, and when the
wire is empty nothing is carried: no item is lost, repeated or overtaken, whatever the pieces.
-/

namespace Lib

variable {α β ε : Type}

/-- The elements under way, and the parser they go to. -/
structure Channel (β ε : Type) where
  wire   : List β := []
  parser : Buffered β ε := {}

namespace Channel

/-- Write at the end of the wire. -/
def send (elems : List β) (ch : Channel β ε) : Channel β ε := { ch with wire := ch.wire ++ elems }

/-- Take up to `n` elements off the wire and feed them to the parser. -/
def receive (F : Framing β α ε) (n : Nat) (ch : Channel β ε) : List α × Channel β ε :=
  let fed := F.feed ch.parser (ch.wire.take n)
  (fed.1, { wire := ch.wire.drop n, parser := fed.2 })

/-- The parser waits for more, and what it has together with what is under way is `items` and nothing else. -/
structure Carries (F : Framing β α ε) (ch : Channel β ε) (items : List α) : Prop where
  settled : F.Settled ch.parser
  drains  : F.drain (ch.parser.buf ++ ch.wire) = (items, {})

section
variable {F : Framing β α ε} {ch : Channel β ε} {items : List α}

theorem carries_fresh (F : Framing β α ε) : Carries F {} [] :=
  ⟨F.settled_fresh, Framing.drain_more F.head_nil⟩

/-- **An item that is written** comes after those under way. -/
theorem Carries.send (h : Carries F ch items) {elems : List β} {a : α} (hone : F.head elems = .item a []) :
    Carries F (ch.send elems) (items ++ [a]) := by
  refine ⟨h.settled, ?_⟩
  have hok : (F.drain (ch.parser.buf ++ ch.wire)).2.err = none := by rw [h.drains]
  have hlast : F.drain elems = ([a], {}) := Framing.drain_one_iff.mpr hone
  show F.drain (ch.parser.buf ++ (ch.wire ++ elems)) = _
  rw [← List.append_assoc, Framing.drain_append elems hok, h.drains, List.nil_append, hlast]

/-- **What is received** is the front of what was under way, and the parser does not give up. -/
theorem Carries.receive (h : Carries F ch items) (n : Nat) :
    (ch.receive F n).2.parser.err = none ∧
      ∃ later, items = (ch.receive F n).1 ++ later ∧ Carries F (ch.receive F n).2 later := by
  have hwhole : ch.parser.buf ++ ch.wire = (ch.parser.buf ++ ch.wire.take n) ++ ch.wire.drop n := by
    rw [List.append_assoc, List.take_append_drop]
  have hall : F.drain ((ch.parser.buf ++ ch.wire.take n) ++ ch.wire.drop n) = (items, {}) := hwhole ▸ h.drains
  have hfed : F.feed ch.parser (ch.wire.take n) = F.drain (ch.parser.buf ++ ch.wire.take n) := h.settled.feed _
  cases herr : (F.drain (ch.parser.buf ++ ch.wire.take n)).2.err with
  | some e =>
    -- a parser that gives up here would have given up on the whole
    rw [Framing.drain_append_bad _ herr] at hall
    exact absurd (congrArg (fun d => d.2.err) hall) (by simp)
  | none =>
    have hok : (F.feed ch.parser (ch.wire.take n)).2.err = none := by rw [hfed, herr]
    rw [Framing.drain_append _ herr, ← hfed] at hall
    obtain ⟨hitems, hrest⟩ := Prod.mk.inj hall
    exact ⟨hok, _, hitems.symm, h.settled.next hok, Prod.ext rfl hrest⟩

/-- With nothing on the wire, nothing is under way. -/
theorem Carries.eq_nil (h : Carries F ch items) (hwire : ch.wire = []) : items = [] := by
  have hdrain := h.drains
  rw [hwire, List.append_nil, Framing.drain_more h.settled.more] at hdrain
  exact (congrArg Prod.fst hdrain).symm

end

end Channel

end Lib
