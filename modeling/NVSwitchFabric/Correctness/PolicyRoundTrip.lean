import NVSwitchFabric.Runtime.Worker

/-!
# `Correctness.PolicyRoundTrip` — a policy on the wire

The worker's encoder of a policy and the coordinator's write the same bytes (`encodePolicy_eq_encodePolicyLite`), and
the coordinator's decoder reads them back field for field, or stops at the number of factors. The length of an id is
written in 32 bits, so the decoder is at the right place in what follows only if the id is shorter than that.
-/

namespace NVSwitchFabric

open Read (Reads Rejects)

/-! ## Factors -/

theorem RouteFactor.ofByte_toByte (f : RouteFactor) : RouteFactor.ofByte f.toByte = f := by
  cases f with
  | undeclared c h =>
    unfold RouteFactor.ofByte RouteFactor.toByte
    rw [dif_neg h]
  | _ => rfl

theorem Read.Reads.double (d : Double) : Reads Read.double (ByteWriter.u64 d.bits) d :=
  (Reads.u64 d.bits).map Double.mk

theorem Read.Reads.factor (f : RouteFactor × Double) :
    Reads readFactor (ByteWriter.u8 f.1.toByte ++ ByteWriter.u64 f.2.bits) f := by
  have h : Reads readFactor (ByteWriter.u8 f.1.toByte ++ ByteWriter.u64 f.2.bits)
      (RouteFactor.ofByte f.1.toByte, f.2) :=
    (Reads.u8 f.1.toByte).bind <| (Reads.double f.2).map fun wt => (RouteFactor.ofByte f.1.toByte, wt)
  rwa [RouteFactor.ofByte_toByte] at h

/-! ## Policies -/

variable {p : RoutePolicy}

/-- **The two encoders write the same bytes.** -/
theorem encodePolicy_eq_encodePolicyLite (p : RoutePolicy) : encodePolicy p = encodePolicyLite p := rfl

/-- A policy with an id and a list of factors that the decoder accepts. -/
structure RoutePolicy.Encodable (p : RoutePolicy) : Prop where
  id      : p.id.value.length ≤ Read.maxStr
  factors : p.factors.length ≤ 24

/-- **Such a policy reads back.** -/
theorem Read.Reads.policy (h : p.Encodable) : Reads decodePolicy (encodePolicyLite p) p := by
  have hfactors : Reads (do
        let factors ← Read.many readFactor (UInt32.ofNat p.factors.length).toNat
        return { p with factors })
      ((p.factors.flatMap fun f => ByteWriter.u8 f.1.toByte ++ ByteWriter.u64 f.2.bits) ++ []) p := by
    have hfew := h.factors
    rw [Read.toNat_ofNat_of_lt (by omega), List.append_nil]
    exact (Reads.many p.factors fun f _ => Reads.factor f).map fun factors => { p with factors }
  have hcount : ¬ 24 < (UInt32.ofNat p.factors.length).toNat := by
    have hfew := h.factors
    rw [Read.toNat_ofNat_of_lt (by omega)]
    omega
  refine ((Reads.str _ h.id).map StringId.mk).bind <| (Reads.flag _).bind <| (Reads.flag _).bind <|
    (Reads.flag _).bind <| (Reads.flag _).bind <| (Reads.u64 _).bind <| (Reads.u64 _).bind <|
    (Reads.double _).bind <| (Reads.flag _).bind <| (Reads.flag _).bind <| (Reads.u64 _).bind <|
    (Reads.u32 _).bind ?_
  rw [if_neg hcount]
  exact hfactors

/-- **A policy with too many factors is rejected**, at its id or at their number. -/
theorem Read.Rejects.policy (hid : p.id.value.length < 2 ^ 32) (hmany : 25 ≤ p.factors.length)
    (hfactors : p.factors.length < 2 ^ 32) : Rejects decodePolicy (encodePolicyLite p) := by
  rcases Nat.lt_or_ge Read.maxStr p.id.value.length with hlong | hshort
  · have hstr : Rejects (Read.strId : Read PolicyId) (ByteWriter.strId p.id) := (Rejects.str hlong hid).bind _
    exact (hstr.bind _).append _
  · have hcount : 24 < (UInt32.ofNat p.factors.length).toNat := by
      rw [Read.toNat_ofNat_of_lt hfactors]
      omega
    refine ((Reads.str _ hshort).map StringId.mk).bind_rejects <| (Reads.flag _).bind_rejects <|
      (Reads.flag _).bind_rejects <| (Reads.flag _).bind_rejects <| (Reads.flag _).bind_rejects <|
      (Reads.u64 _).bind_rejects <| (Reads.u64 _).bind_rejects <| (Reads.double _).bind_rejects <|
      (Reads.flag _).bind_rejects <| (Reads.flag _).bind_rejects <| (Reads.u64 _).bind_rejects <|
      (Reads.u32 _).bind_rejects ?_
    rw [if_pos hcount]
    intro r rest _ _
    rfl

theorem Read.Rejects.run? {α : Type} {q : Read α} {bs : List UInt8} (h : Rejects q bs) : q.run? bs = none :=
  h { buf := bs } [] (by simp) (Nat.zero_le _)

/-- **A policy survives the wire**: both encoders write the same bytes, which read back if the id and the factors are
    accepted, and are rejected if the factors are too many. -/
theorem RoutePolicy.wire_round_trip (p : RoutePolicy) :
    (p.factors.length ≤ 24 ∧ p.id.value.length ≤ 64 * 1024 * 1024 →
      decodePolicy.run? (encodePolicyLite p) = some p ∧ encodePolicy p = encodePolicyLite p) ∧
    (25 ≤ p.factors.length ∧ p.factors.length < 2 ^ 32 ∧ p.id.value.length < 2 ^ 32 →
      decodePolicy.run? (encodePolicyLite p) = none) := by
  constructor
  · rintro ⟨hfactors, hid⟩
    exact ⟨(Reads.policy ⟨hid, hfactors⟩).run?, encodePolicy_eq_encodePolicyLite p⟩
  · rintro ⟨hmany, hfactors, hid⟩
    exact (Rejects.policy hid hmany hfactors).run?

theorem RoutePolicy.wire_round_trip_default :
    decodePolicy.run? (encodePolicyLite {}) = some {} ∧
      decodePolicy.run? (encodePolicyLite { factors := List.replicate 25 (.directness, .one) }) = none :=
  ⟨((RoutePolicy.wire_round_trip {}).1 (by decide)).1,
    (RoutePolicy.wire_round_trip { factors := List.replicate 25 (.directness, .one) }).2 (by decide)⟩

/-! ## An id whose length is truncated -/

/-- A policy with too many factors and an id of `n` zero bytes. -/
def longIdPolicy (n : Nat) : RoutePolicy where
  id := ⟨List.replicate n 0⟩
  factors := List.replicate 25 (.directness, .one)

/-- The policy that is written as zero bytes. -/
def zeroPolicy : RoutePolicy where
  requireSufficientsSwitches := false
  requireSufficientsPorts := false
  insidePartition := false
  maxAllowedSwitches := 0
  maxAllowedHops := 0
  requireFreshEvidence := false
  factors := []

/-- A length of zero is followed by the zero bytes of the id, which are read as the fields and as no factors. -/
theorem decodePolicy_longIdPolicy {n : Nat} (hn : 42 ≤ n) (hzero : UInt32.ofNat n = 0) :
    decodePolicy.run? (encodePolicyLite (longIdPolicy n)) = some zeroPolicy := by
  obtain ⟨k, rfl⟩ := Nat.exists_eq_add_of_le hn
  have hread : Reads decodePolicy (encodePolicyLite zeroPolicy) zeroPolicy :=
    Reads.policy ⟨Nat.zero_le _, Nat.zero_le _⟩
  have hzeros : encodePolicyLite zeroPolicy = ByteWriter.u32 0 ++ List.replicate 42 0 := by decide
  have hstr : ByteWriter.str (List.replicate (42 + k) 0) =
      ByteWriter.u32 0 ++ (List.replicate 42 0 ++ List.replicate k 0) := by
    rw [ByteWriter.str, List.length_replicate, hzero, List.replicate_append_replicate]
  obtain ⟨later, hlater⟩ : ∃ later, encodePolicyLite (longIdPolicy (42 + k)) =
      ByteWriter.str (List.replicate (42 + k) 0) ++ later := ⟨_, rfl⟩
  unfold Read.run?
  rw [hread { buf := encodePolicyLite (longIdPolicy (42 + k)) } (List.replicate k 0 ++ later)
    (by rw [List.drop_zero, hlater, hstr, hzeros]; simp only [List.append_assoc]) (Nat.zero_le _)]

/-- With an id of `2 ^ 32` bytes, a policy with too many factors is not rejected. -/
theorem RoutePolicy.long_id_accepted :
    ¬ ∀ p : RoutePolicy, 25 ≤ p.factors.length → p.factors.length ≤ 2 ^ 32 - 1 →
      decodePolicy.run? (encodePolicyLite p) = none := by
  intro h
  have hmany : (longIdPolicy (2 ^ 32)).factors.length = 25 := List.length_replicate
  have hrejected := h (longIdPolicy (2 ^ 32)) (by rw [hmany]) (by rw [hmany]; decide)
  have haccepted := decodePolicy_longIdPolicy (n := 2 ^ 32) (by decide) (by decide)
  rw [hrejected] at haccepted
  exact absurd haccepted (by simp)

end NVSwitchFabric
