import Mathlib.Algebra.Order.Ring.Nat
import Mathlib.Data.List.Lex
import Mathlib.Data.Prod.Lex

/-!
# `Model.Identity` — strongly typed identities and generations

The identity and generation types of the fabric, as in `identity.h` and `generation.h`. Identities and
generations are one generic type each, tagged by a phantom parameter, so that a switch id cannot stand where
a device id is meant. Every identity is linearly ordered (it keys an ordered map), strings as byte strings.

Generations are 64-bit and `Gen.next` wraps around, so "the next generation is larger" has one exception;
`Gen.lt_next` states it once.
-/

namespace NVSwitchFabric

/-! ## Machine words and strings -/

instance linearOrderUInt8 : LinearOrder UInt8 where
  le_refl _ := UInt8.le_refl _
  le_trans _ _ _ := UInt8.le_trans
  le_antisymm _ _ := UInt8.le_antisymm
  le_total := UInt8.le_total
  lt_iff_le_not_ge a b := by
    rw [UInt8.not_le]; exact ⟨fun h => ⟨UInt8.le_of_lt h, h⟩, And.right⟩
  toDecidableLE := inferInstance
  toDecidableEq := inferInstance
  toDecidableLT := inferInstance

instance linearOrderUInt32 : LinearOrder UInt32 where
  le_refl _ := UInt32.le_refl _
  le_trans _ _ _ := UInt32.le_trans
  le_antisymm _ _ := UInt32.le_antisymm
  le_total := UInt32.le_total
  lt_iff_le_not_ge a b := by
    rw [UInt32.not_le]; exact ⟨fun h => ⟨UInt32.le_of_lt h, h⟩, And.right⟩
  toDecidableLE := inferInstance
  toDecidableEq := inferInstance
  toDecidableLT := inferInstance

instance linearOrderUInt64 : LinearOrder UInt64 where
  le_refl _ := UInt64.le_refl _
  le_trans _ _ _ := UInt64.le_trans
  le_antisymm _ _ := UInt64.le_antisymm
  le_total := UInt64.le_total
  lt_iff_le_not_ge a b := by
    rw [UInt64.not_le]; exact ⟨fun h => ⟨UInt64.le_of_lt h, h⟩, And.right⟩
  toDecidableLE := inferInstance
  toDecidableEq := inferInstance
  toDecidableLT := inferInstance

/-- A `std::string`: its bytes, compared lexicographically as unsigned characters. -/
abbrev Str := List UInt8

/-- The bytes of an ASCII literal. -/
def ascii (s : String) : Str := s.toList.map fun c => c.toNat.toUInt8

/-- `std::to_string` of an unsigned number. -/
def decimal (n : Nat) : Str := (Nat.toDigits 10 n).map fun c => c.toNat.toUInt8

/-! ## Identities -/

/-- An integer-backed identity; `Tag` keeps the identities of different concepts apart. -/
structure Id (Tag : Type) where
  value : UInt64

/-- A string-backed identity. -/
structure StringId (Tag : Type) where
  value : Str

theorem Id.value_injective {Tag : Type} : Function.Injective (fun i : Id Tag => i.value) :=
  fun ⟨_⟩ ⟨_⟩ h => congrArg Id.mk h

theorem StringId.value_injective {Tag : Type} : Function.Injective (fun i : StringId Tag => i.value) :=
  fun ⟨_⟩ ⟨_⟩ h => congrArg StringId.mk h

instance {Tag : Type} : LinearOrder (Id Tag) := LinearOrder.lift' (fun i => i.value) Id.value_injective

instance {Tag : Type} : LinearOrder (StringId Tag) :=
  LinearOrder.lift' (fun i => i.value) StringId.value_injective

/-- Tags of the domain concepts. -/
inductive DevTag
inductive SwTag
inductive FabTag
inductive PartTag
inductive SnapTag
inductive LinkTag
inductive PathTag
inductive WorkerTag
inductive RouteTag
inductive ObsTag
inductive MeasTag
inductive PolicyTag

abbrev DeviceId := Id DevTag
abbrev SwitchId := Id SwTag
abbrev FabricId := StringId FabTag
abbrev PartitionId := StringId PartTag
abbrev TopologySnapshotId := StringId SnapTag
abbrev LinkId := Id LinkTag
abbrev PathId := Id PathTag
abbrev WorkerId := StringId WorkerTag
abbrev RouteDecisionId := Id RouteTag
abbrev ObservationId := Id ObsTag
abbrev MeasurementId := Id MeasTag
abbrev PolicyId := StringId PolicyTag

/-- Process incarnation and authority counters. -/
abbrev CoordinatorEpoch := UInt64
abbrev WorkerBootId := UInt64

/-- A port belongs to a switch (composite identity). -/
structure PortId where
  sw    : SwitchId
  index : UInt32

namespace PortId

/-- The lexicographic key `operator<=>` compares. -/
def key (p : PortId) : Lex (SwitchId × UInt32) := toLex (p.sw, p.index)

theorem key_injective : Function.Injective key := by
  rintro ⟨s, i⟩ ⟨s', i'⟩ h
  have h' : (s, i) = (s', i') := toLex.injective h
  obtain ⟨rfl, rfl⟩ := Prod.mk.inj h'
  rfl

instance : LinearOrder PortId := LinearOrder.lift' key key_injective

/-- Sentinel port, used when the far-side port of an inter-switch half is not separately described. -/
def unknown : PortId := ⟨⟨0xFFFFFFFFFFFFFFFF⟩, 0xFFFFFFFF⟩

def isUnknown (p : PortId) : Bool := p.index == 0xFFFFFFFF && p.sw.value == 0xFFFFFFFFFFFFFFFF

end PortId

/-! ## Generations -/

/-- A typed 64-bit generation. -/
structure Gen (Tag : Type) where
  value : UInt64

theorem Gen.value_injective {Tag : Type} : Function.Injective (fun g : Gen Tag => g.value) :=
  fun ⟨_⟩ ⟨_⟩ h => congrArg Gen.mk h

instance {Tag : Type} : LinearOrder (Gen Tag) := LinearOrder.lift' (fun g => g.value) Gen.value_injective

inductive FabGenTag
inductive TopoGenTag
inductive SwGenTag
inductive PortGenTag
inductive PartGenTag
inductive LinkGenTag
inductive RouteGenTag

abbrev FabricGeneration := Gen FabGenTag
abbrev TopologyGeneration := Gen TopoGenTag
abbrev SwitchGeneration := Gen SwGenTag
abbrev PortGeneration := Gen PortGenTag
abbrev PartitionGeneration := Gen PartGenTag
abbrev LinkGeneration := Gen LinkGenTag
abbrev RouteGeneration := Gen RouteGenTag

namespace Gen

variable {Tag : Type}

/-- The successor generation, wrapping at `2^64`. -/
def next (g : Gen Tag) : Gen Tag := ⟨g.value + 1⟩

/-- The largest generation, `UINT64_MAX`. -/
def last : Gen Tag := ⟨0xFFFFFFFFFFFFFFFF⟩

theorem lt_def {g h : Gen Tag} : g < h ↔ g.value.toNat < h.value.toNat := UInt64.lt_iff_toNat_lt

theorem next_toNat (g : Gen Tag) : g.next.value.toNat = (g.value.toNat + 1) % 2 ^ 64 := by
  simp [next]

theorem ne_last_iff {g : Gen Tag} : g ≠ last ↔ g.value.toNat + 1 < 2 ^ 64 := by
  have hlt := g.value.toNat_lt
  have hlast : (last : Gen Tag).value.toNat = 2 ^ 64 - 1 := rfl
  constructor
  · intro hne
    have : g.value.toNat ≠ (last : Gen Tag).value.toNat :=
      fun heq => hne (value_injective (UInt64.toNat_inj.mp heq))
    omega
  · rintro h rfl
    omega

/-- **The next generation is strictly larger, except at the last one.** -/
theorem lt_next {g : Gen Tag} : g < g.next ↔ g ≠ last := by
  rw [lt_def, next_toNat, ne_last_iff]
  have := g.value.toNat_lt
  omega

/-- At the last generation `next` wraps to a smaller one; elsewhere it does not decrease. -/
theorem not_next_lt {g : Gen Tag} : ¬ g.next < g ↔ g ≠ last := by
  rw [lt_def, next_toNat, ne_last_iff]
  have := g.value.toNat_lt
  omega

end Gen

end NVSwitchFabric
