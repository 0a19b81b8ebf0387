import NVSwitchFabric.Model.Programs

/-!
# `Correctness.PrefixFree` — accepted payloads are prefix-free

A reader that reads something reads the same before more bytes, and stops at the same place (`Stable`). That holds of
whatever is written with the functions of `ByteReader` (`Program.stable`), and so of the payload. The decoder wants
nothing left over, so of two byte strings one of which begins the other it accepts at most one
(`decodeTopology_prefixFree`).
-/

namespace NVSwitchFabric

namespace Read

variable {α β : Type}

/-- What `p` reads, it reads within the buffer, and also if more bytes come after. -/
def Stable (p : Read α) : Prop :=
  ∀ (r : ByteReader) (a : α) (r' : ByteReader), r.pos ≤ r.buf.length → p r = (some a, r') →
    r'.buf = r.buf ∧ r'.pos ≤ r.buf.length ∧
      ∀ later, p { r with buf := r.buf ++ later } = (some a, { r' with buf := r.buf ++ later })

theorem Stable.pure (a : α) : Stable (pure a) := by
  intro r b r' hpos heq
  obtain ⟨rfl, rfl⟩ := pure_some heq
  exact ⟨rfl, hpos, fun _ => rfl⟩

theorem Stable.reject : Stable (reject : Read α) := fun _ _ _ _ heq => absurd heq reject_some

/-- **Stability composes.** The second part begins where the first one stopped, in either buffer. -/
theorem Stable.bind {p : Read α} {f : α → Read β} (hp : Stable p) (hf : ∀ a, Stable (f a)) : Stable (p >>= f) := by
  intro r b r' hpos heq
  obtain ⟨a, mid, hread, hrest⟩ := bind_some heq
  obtain ⟨hbuf, hmid, hmore⟩ := hp r a mid hpos hread
  obtain ⟨hbuf', hend, hmore'⟩ := hf a mid b r' (by rw [hbuf]; exact hmid) hrest
  rw [hbuf] at hbuf' hend hmore'
  refine ⟨hbuf', hend, ?_⟩
  intro later
  rw [bind_apply, hmore later]
  exact hmore' later

theorem Stable.take (n : Nat) (msg : String) : Stable (take n msg) := by
  intro r bs r' _ heq
  obtain ⟨rfl, rfl, hlen⟩ := take_some heq
  refine ⟨rfl, hlen, ?_⟩
  intro later
  have hlen' : ¬ (r.buf ++ later).length < r.pos + n := by
    rw [List.length_append]
    omega
  have hsame : ((r.buf ++ later).drop r.pos).take n = (r.buf.drop r.pos).take n := by
    rw [List.drop_append_of_le_length (by omega), List.take_append_of_le_length (by rw [List.length_drop]; omega)]
  unfold Read.take
  dsimp only
  rw [if_neg hlen', hsame]

/-- A string may be refused for its length, which is not a matter of what comes after. -/
theorem Stable.strBody (len : Nat) : Stable (strBody len) := by
  intro r s r' hpos heq
  obtain ⟨hmax, hrem, htake⟩ := strBody_some heq
  obtain ⟨hbuf, hend, hmore⟩ := Stable.take _ _ r s r' hpos htake
  refine ⟨hbuf, hend, ?_⟩
  intro later
  have hrem' : ¬ ByteReader.remaining { r with buf := r.buf ++ later } < len := by
    unfold ByteReader.remaining at hrem ⊢
    dsimp only
    rw [List.length_append]
    omega
  unfold Read.strBody
  rw [if_neg hrem', if_neg (not_lt.mpr hmax)]
  exact hmore later

/-- **Every program of `ByteReader`'s functions reads the same before more bytes.** -/
theorem Program.stable {p : Read α} (c : Program p) : Stable p := by
  induction c with
  | pure a => exact Stable.pure a
  | bind _ _ ihc ihk => exact ihc.bind ihk
  | ite b _ _ ihc ihd =>
    by_cases hb : b
    · rwa [if_pos hb]
    · rwa [if_neg hb]
  | reject => exact Stable.reject
  | word n msg => exact Stable.take n msg
  | bytes n => exact Stable.take n _
  | skip n => exact (Stable.take n _).bind fun _ => Stable.pure ()
  | strBody len => exact Stable.strBody len

end Read

/-! ## The payload -/

/-- **Something left over is refused.** -/
theorem decodeTopology_append {blob extra : List UInt8} {t : FabricTopology} (h : decodeTopology blob = .ok t)
    (hextra : extra ≠ []) : ∃ e, decodeTopology (blob ++ extra) = .error e := by
  obtain ⟨r, hread, -⟩ := decodeTopology_ok h
  obtain ⟨-, hend, hmore⟩ := Read.Program.topologyPayload.stable _ _ _ (Nat.zero_le _) hread
  have hlen : 0 < extra.length := List.length_pos_of_ne_nil hextra
  have heof : ByteReader.eof { r with buf := blob ++ extra } = false := by
    unfold ByteReader.eof
    apply decide_eq_false
    rw [List.length_append]
    dsimp only at hend ⊢
    omega
  refine ⟨integrityErr, ?_⟩
  unfold decodeTopology
  rw [hmore extra]
  dsimp only
  rw [heof]
  split <;> rfl

/-- **Accepted payloads are prefix-free.** No proper prefix of one is accepted, and nothing that goes on after one. -/
theorem decodeTopology_prefixFree {blob : List UInt8} {t : FabricTopology} (h : decodeTopology blob = .ok t) :
    (∀ front, front <+: blob → front ≠ blob → ∃ e, decodeTopology front = .error e) ∧
      ∀ extra, extra ≠ [] → ∃ e, decodeTopology (blob ++ extra) = .error e := by
  constructor
  · intro front hfront hne
    obtain ⟨rest, rfl⟩ := hfront
    cases hread : decodeTopology front with
    | error e => exact ⟨e, rfl⟩
    | ok t' =>
      -- then the whole would be a payload with something left over
      have hrest : rest ≠ [] := by
        rintro rfl
        exact hne (List.append_nil front).symm
      obtain ⟨e, hwhole⟩ := decodeTopology_append hread hrest
      exact absurd (h.symm.trans hwhole) (by simp)
  · intro extra hextra
    exact decodeTopology_append h hextra

/-- The payload of the empty topology, cut and continued. -/
theorem decodeTopology_prefixFree_empty :
    (∀ front, front <+: encodeTopology {} → front ≠ encodeTopology {} → ∃ e, decodeTopology front = .error e) ∧
      ∀ extra, extra ≠ [] → ∃ e, decodeTopology (encodeTopology {} ++ extra) = .error e := by
  have henc : ({} : FabricTopology).Encodable := FabricTopology.encodable_of_empty rfl rfl rfl rfl rfl (by decide)
  have hint : ({} : FabricTopology).Integral := FabricTopology.checkIntegrity_eq_nil_iff.mp rfl
  exact decodeTopology_prefixFree (decodeTopology_encodeTopology henc hint)

end NVSwitchFabric
