import NVSwitchFabric.Correctness.RecordInvariant

/-!
# `Correctness.Restorable` — what is written can be read back

The domain of the codec is exact on both sides: an integral topology in it reads back field for field, and whatever
is read from any bytes lies in it (`codec_round_trip`). The registry stays inside that domain on every count but one.
Nothing bounds the member and switch lists of a partition it is given, while the decoder refuses lists longer than the
numbers of devices and switches there may be (`restores_iff_listsFit`), so a run stays restorable exactly as long as it
stores no longer ones (`always_restores_iff`).
-/

namespace NVSwitchFabric

open Lib

/-! ## The codec -/

/-- **Codec round trip.** The integral topologies of the domain read back, every decoded topology is one of them, and so
    decoding, encoding and decoding again gives the same topology. -/
theorem codec_round_trip :
    (∀ t : FabricTopology, t.Encodable → t.checkIntegrity = [] → decodeTopology (encodeTopology t) = .ok t) ∧
    (∀ (blob : List UInt8) (t : FabricTopology), decodeTopology blob = .ok t →
      t.Encodable ∧ t.checkIntegrity = [] ∧ decodeTopology (encodeTopology t) = .ok t) := by
  have hread : ∀ t : FabricTopology, t.Encodable → t.checkIntegrity = [] → decodeTopology (encodeTopology t) = .ok t :=
    fun t henc hint => decodeTopology_encodeTopology henc (FabricTopology.checkIntegrity_eq_nil_iff.mp hint)
  refine ⟨hread, ?_⟩
  intro blob t hblob
  obtain ⟨henc, hint⟩ := decodeTopology_encodable hblob
  have hnil := FabricTopology.checkIntegrity_eq_nil_iff.mpr hint
  exact ⟨henc, hnil, hread t henc hnil⟩

/-! ## Strings and lists of records -/

/-- The strings of a partition record are short enough to be read back. -/
structure FabricPartition.ShortStrings (r : FabricPartition) : Prop where
  id     : r.id.value.length ≤ Read.maxStr
  fabric : r.fabric.value.length ≤ Read.maxStr
  origin : r.toOrigin.Encodable

/-- The lists of a partition record are short enough to be read back. -/
def FabricPartition.ListsFit (r : FabricPartition) : Prop :=
  r.members.length ≤ Limits.kMaxDevices ∧ r.switches.length ≤ Limits.kMaxSwitches

/-- The strings of a record are short enough to be read back. -/
def shortStrings : RecordInvariant where
  device := DeviceRecord.Encodable
  switch := SwitchRecord.Encodable
  port r := r.toOrigin.Encodable
  link r := r.toOrigin.Encodable
  partition := FabricPartition.ShortStrings
  device_update _ h := { h with }
  switch_update _ _ _ h := { h with }
  port_update _ _ h := h
  link_update _ _ _ h := h
  partition_update _ _ h := { h with }

/-- The lists of a partition are short enough to be read back. -/
def listsFit : RecordInvariant where
  device _ := True
  switch _ := True
  port _ := True
  link _ := True
  partition := FabricPartition.ListsFit
  device_update _ h := h
  switch_update _ _ _ h := h
  port_update _ _ h := h
  link_update _ _ _ h := h
  partition_update _ _ h := h

/-- No string of the snapshot is too long to be read back. -/
structure FabricTopology.ShortStrings (t : FabricTopology) : Prop where
  label   : t.label.length ≤ Read.maxStr
  records : shortStrings.Holds t

/-- **What keeps a well-formed snapshot out of the codec's domain**: a long string, or a long list. -/
theorem encodable_iff {t : FabricTopology} (hwf : t.WellFormed) :
    t.Encodable ↔ t.ShortStrings ∧ t.partitions.All FabricPartition.ListsFit := by
  constructor
  · intro h
    refine ⟨⟨h.label, ⟨h.devices, h.switches, h.ports, h.links, ?_⟩⟩, ?_⟩
    · intro k v hv
      have hpart := h.partitions k v hv
      exact ⟨hpart.id, hpart.fabric, hpart.origin⟩
    · intro k v hv
      have hpart := h.partitions k v hv
      exact ⟨hpart.members, hpart.switches⟩
  · rintro ⟨⟨hlabel, hshort⟩, hfit⟩
    refine ⟨hwf.keyed, hwf.limits, hlabel, hshort.devices, hshort.switches, hshort.ports, hshort.links, ?_⟩
    intro k v hv
    have hs := hshort.partitions hv
    have hl := hfit hv
    exact ⟨hs.id, hs.fabric, hl.1, hl.2, hs.origin⟩

namespace FabricRegistry

/-! ## Restoring a state -/

/-- The serialized registry is read back with its snapshot. -/
def Restores (r : FabricRegistry) : Prop :=
  ∃ r', deserialize (serialize r) = .ok r' ∧ r'.current = r.current

/-- A registry is restored exactly if its snapshot is in the domain of the codec. -/
theorem restores_iff_encodable {r : FabricRegistry} (hwf : r.current.WellFormed) :
    r.Restores ↔ r.current.Encodable := by
  constructor
  · rintro ⟨r', hread, hsame⟩
    obtain ⟨topo, henc, _, rfl⟩ := deserialize_encodable hread
    have htopo : topo = r.current := hsame
    rwa [← htopo]
  · intro henc
    exact ⟨_, deserialize_serialize henc hwf.integral, rfl⟩

/-- What is known of every state of a run whose records have short strings. -/
structure Short (r : FabricRegistry) : Prop where
  wellFormed : r.current.WellFormed
  strings    : r.current.ShortStrings

theorem short_new : new.Short :=
  ⟨wellFormed_new, by decide, .empty, .empty, .empty, .empty, .empty⟩

/-- No edit changes the label. -/
theorem exec_label (r : FabricRegistry) (op : RegistryOp) : (r.exec op).current.label = r.current.label := by
  rcases exec_edited r op with heq | ⟨cand, hed, heq, _⟩
  · rw [heq]
  · rw [heq]
    show cand.label = r.current.label
    cases hed <;> rfl

theorem Short.exec {r : FabricRegistry} {op : RegistryOp} (h : r.Short) (hop : shortStrings.Supplied op) :
    (r.exec op).Short where
  wellFormed := exec_wellFormed op h.wellFormed
  strings := ⟨(congrArg List.length (exec_label r op)).trans_le h.strings.label,
    exec_holds h.strings.records fun _ => hop⟩

theorem Short.restores_iff {r : FabricRegistry} (h : r.Short) :
    r.Restores ↔ r.current.partitions.All FabricPartition.ListsFit := by
  rw [restores_iff_encodable h.wellFormed, encodable_iff h.wellFormed]
  exact and_iff_right h.strings

/-! ## Runs -/

/-- What the operation stores has lists short enough to be read back, or the operation is rejected. -/
def StoresFitting (r : FabricRegistry) (op : RegistryOp) : Prop :=
  r.Accepts op → ∀ id part, op.newPartition? id = some part → part.ListsFit

end FabricRegistry

/-- A partition that the operation supplies is stored, with its lists. -/
theorem Edited.partition_supplied {t cand : FabricTopology} {op : RegistryOp} {id : PartitionId}
    {part : FabricPartition} (h : Edited t op cand) (hnew : op.newPartition? id = some part) :
    ∃ stored, cand.partitions.find? id = some stored ∧ (stored.ListsFit ↔ part.ListsFit) := by
  cases h with
  | @publishPartition p =>
    have hgiven : (if id = p.id then some (Edit.partitionToStore none p) else none) = some part := hnew
    split at hgiven
    · next heq =>
      subst heq
      obtain rfl := Option.some.inj hgiven
      refine ⟨_, SortedMap.find?_insert_self _ _ _, ?_⟩
      unfold Edit.partitionToStore
      split <;> exact Iff.rfl
    · exact absurd hgiven (by simp)
  | @applyBulk e =>
    refine ⟨part, ?_, Iff.rfl⟩
    have hlast : e.partitions.reverse.find? (fun r => r.id = id) = some part := hnew
    rw [SortedMap.find?_insertAll, hlast, Option.some_or]
  | _ => exact absurd hnew (by simp [RegistryOp.newPartition?])

namespace FabricRegistry

theorem exec_restores_iff {r : FabricRegistry} {op : RegistryOp} (hop : shortStrings.Supplied op) (h : r.Short)
    (hr : r.Restores) : (r.exec op).Restores ↔ StoresFitting r op := by
  have hfit := h.restores_iff.mp hr
  rw [(h.exec hop).restores_iff]
  constructor
  · rintro hall ⟨cand, hed, hadm⟩ id part hnew
    obtain ⟨stored, hstored, hiff⟩ := hed.partition_supplied hnew
    have hcur : (r.exec op).current.partitions.find? id = some stored := by
      rw [hed.exec_current hadm]
      exact hstored
    exact hiff.mp (hall hcur)
  · intro hstores
    have hbefore : listsFit.Holds r.current :=
      ⟨fun _ _ _ => trivial, fun _ _ _ => trivial, fun _ _ _ => trivial, fun _ _ _ => trivial, hfit⟩
    have hsupplied : r.Accepts op → listsFit.Supplied op := fun hacc =>
      ⟨fun _ _ _ => trivial, fun _ _ _ => trivial, fun _ _ _ => trivial, fun _ _ _ => trivial, hstores hacc⟩
    exact (exec_holds hbefore hsupplied).partitions

/-- **Every state of a run can be restored** exactly if no operation that goes through stores a partition with more
    members than there may be devices, or more switches than there may be switches. -/
theorem always_restores_iff (ops : List RegistryOp) (hops : ∀ op ∈ ops, shortStrings.Given op) :
    Always exec Restores new ops ↔ Obeys exec StoresFitting new ops := by
  have hshort : ∀ (r : FabricRegistry) op, shortStrings.Given op → r.Short → (r.exec op).Short :=
    fun r op hop h => h.exec hop.supplied
  have hstep : ∀ (r : FabricRegistry) op, shortStrings.Given op → r.Short → r.Restores →
      ((r.exec op).Restores ↔ StoresFitting r op) := fun r op hop h hr => exec_restores_iff hop.supplied h hr
  have hnew : new.Restores := short_new.restores_iff.mpr SortedMap.All.empty
  exact always_iff_obeys_on hshort hstep short_new hnew ops hops

/-- A device, and a partition that lists it `n` times. -/
def listedTimes (n : Nat) : List RegistryOp :=
  [.addDevice { id := ⟨1⟩ }, .publishPartition { id := ⟨ascii "p"⟩, members := List.replicate n ⟨1⟩ }]

theorem shortStrings_listedTimes (n : Nat) : ∀ op ∈ listedTimes n, shortStrings.Given op := by
  intro op hop
  rcases List.mem_pair.mp hop with rfl | rfl
  · show DeviceRecord.Encodable _
    decide
  · have hname : (ascii "p").length ≤ Read.maxStr := by decide
    have hempty : ([] : Str).length ≤ Read.maxStr := by decide
    show FabricPartition.ShortStrings _
    exact ⟨hname, hempty, hempty⟩

theorem always_restores_listed_twice : Always exec Restores new (listedTimes 2) := by
  have hfit : Obeys exec StoresFitting new (listedTimes 2) := by
    refine ⟨?_, ?_, trivial⟩
    · intro _ id part h
      exact absurd h (by simp [RegistryOp.newPartition?])
    · intro _ id part h
      exact RecordInvariant.of_ite_eq_some (P := FabricPartition.ListsFit) ⟨by decide, by decide⟩ h
  exact (always_restores_iff (listedTimes 2) (shortStrings_listedTimes 2)).mpr hfit

/-- A partition that lists one device 1025 times is stored, and the file is then refused. -/
theorem long_partition_not_restored :
    ¬ ∀ ops : List RegistryOp, (∀ op ∈ ops, shortStrings.Given op) → (after ops).Restores := by
  intro h
  have hrestores := h (listedTimes 1025) (shortStrings_listedTimes 1025)
  have hwf : (after (listedTimes 1025)).current.WellFormed := (reachable_after _).wellFormed
  have henc := (restores_iff_encodable hwf).mp hrestores
  have hstored : ((after (listedTimes 1025)).current.partitions.find? ⟨ascii "p"⟩).map (·.members.length) =
      some 1025 := by decide +kernel
  obtain ⟨part, hpart, hlen⟩ := Option.map_eq_some_iff.mp hstored
  have hfit := (henc.partitions _ _ hpart).members
  rw [hlen] at hfit
  exact absurd hfit (by decide)

end FabricRegistry

end NVSwitchFabric
