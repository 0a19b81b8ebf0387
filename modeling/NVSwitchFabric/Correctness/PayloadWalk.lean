import NVSwitchFabric.Model.Codec

/-!
# `Correctness.PayloadWalk` — what the bytes of a payload say of its enumerations

A `Walk` goes over bytes by widths, lengths and counts alone, and tests the bytes at the places of enumerations. A reader
`Follows` the walk that goes over the same bytes and whose tests pass exactly if something holds of what was read; this
composes along `>>=` (`Follows.bind`). For the payload of a topology that is `follows_topologyPayload`: a property of the
enumerations of the records that are decoded is a property of the bytes (`meets_iff`).
-/

namespace NVSwitchFabric

open Lib

/-! ## Tests -/

/-- A test for each type of enumeration, and one for the provenance of the snapshot itself. -/
structure EnumTests where
  snapshot   : Provenance → Bool := fun _ => true
  entity     : EntityState → Bool := fun _ => true
  partition  : PartitionState → Bool := fun _ => true
  provenance : Provenance → Bool := fun _ => true
  source     : EvidenceSource → Bool := fun _ => true
  kind       : EndKind → Bool := fun _ => true

/-- A test for the byte of each. -/
structure ByteTests where
  snapshot   : UInt8 → Bool := fun _ => true
  entity     : UInt8 → Bool := fun _ => true
  partition  : UInt8 → Bool := fun _ => true
  provenance : UInt8 → Bool := fun _ => true
  source     : UInt8 → Bool := fun _ => true
  kind       : UInt8 → Bool := fun _ => true

/-- A byte passes if what it is cast to does. -/
structure ByteTests.Decide (b : ByteTests) (v : EnumTests) : Prop where
  snapshot   : ∀ c, v.snapshot (.ofByte c) = b.snapshot c
  entity     : ∀ c, v.entity (.ofByte c) = b.entity c
  partition  : ∀ c, v.partition (.ofByte c) = b.partition c
  provenance : ∀ c, v.provenance (.ofByte c) = b.provenance c
  source     : ∀ c, v.source (.ofByte c) = b.source c
  kind       : ∀ c, v.kind (.ofByte c) = b.kind c

section
variable (v : EnumTests)

/-- The enumerations every record ends in pass. -/
structure Origin.Meets (o : Origin) : Prop where
  provenance : v.provenance o.provenance = true
  source     : v.source o.source = true

structure DeviceRecord.Meets (r : DeviceRecord) : Prop where
  state  : v.entity r.state = true
  origin : r.toOrigin.Meets v

structure SwitchRecord.Meets (r : SwitchRecord) : Prop where
  state  : v.entity r.state = true
  origin : r.toOrigin.Meets v

structure SwitchPortRecord.Meets (r : SwitchPortRecord) : Prop where
  attached : v.kind r.attached.kind = true
  state    : v.entity r.state = true
  origin   : r.toOrigin.Meets v

structure LinkRecord.Meets (r : LinkRecord) : Prop where
  otherEnd : v.kind r.otherEnd.kind = true
  state    : v.entity r.state = true
  origin   : r.toOrigin.Meets v

structure FabricPartition.Meets (r : FabricPartition) : Prop where
  state  : v.partition r.state = true
  origin : r.toOrigin.Meets v

/-- Every enumeration of the topology and of its records passes. -/
structure FabricTopology.Meets (t : FabricTopology) : Prop where
  provenance : v.snapshot t.provenance = true
  devices    : t.devices.All (DeviceRecord.Meets v)
  switches   : t.switches.All (SwitchRecord.Meets v)
  ports      : t.ports.All (SwitchPortRecord.Meets v)
  links      : t.links.All (LinkRecord.Meets v)
  partitions : t.partitions.All (FabricPartition.Meets v)

end

/-! ## Walks -/

/-- A walk over bytes: whether the bytes of enumerations it came by pass, and what is left. -/
abbrev Walk : Type := List UInt8 → Bool × List UInt8

namespace Walk

/-- `n` bytes that are not of an enumeration. -/
def raw (n : Nat) : Walk := fun bytes => (true, bytes.drop n)

/-- The byte of an enumeration. -/
def enum (test : UInt8 → Bool) : Walk := fun bytes => (test (bytes.headD 0), bytes.drop 1)

/-- A 32-bit number, and what goes on for it. -/
def sized (w : Nat → Walk) : Walk := fun bytes => w (UInt32.ofNat (leValue (bytes.take 4))).toNat (bytes.drop 4)

/-- A string. -/
def text : Walk := sized raw

/-- One walk after the other. -/
def both (w w' : Walk) : Walk := fun bytes => ((w bytes).1 && (w' (w bytes).2).1, (w' (w bytes).2).2)

def inOrder (walks : List Walk) : Walk := walks.foldr both fun bytes => (true, bytes)

/-- A count, and as many walks. -/
def counted (w : Walk) : Walk := sized fun n => inOrder (List.replicate n w)

/-! ### The payload -/

section
variable (b : ByteTests)

def origin : Walk := inOrder [text, raw 1, raw 8, enum b.provenance, enum b.source, raw 8]

def linkEnd : Walk := inOrder [enum b.kind, raw 8, raw 8]

def portId : Walk := inOrder [raw 8, raw 4]

def device : Walk :=
  inOrder [raw 8, text, raw 1, raw 1, text, text, text, enum b.entity, text, raw 8, raw 1, origin b]

def switch : Walk :=
  inOrder [raw 8, raw 8, text, raw 1, text, text, text, raw 4, enum b.entity, text, raw 1, text, raw 1, origin b]

def port : Walk :=
  inOrder [portId, raw 8, linkEnd b, raw 1, enum b.entity, raw 4, raw 1, raw 8, raw 1, origin b]

def link : Walk := inOrder [raw 8, raw 8, raw 8, portId, linkEnd b, raw 1, enum b.entity, raw 1, origin b]

def partition : Walk :=
  inOrder [text, raw 8, text, counted (raw 8), counted (raw 8), enum b.partition, origin b]

def payload : Walk :=
  inOrder [raw 8, raw 8, raw 8, raw 8, enum b.snapshot, text, raw 1, counted (device b), counted (switch b),
    counted (port b), counted (link b), counted (partition b)]

end

end Walk

/-- The bytes of a payload at the places of enumerations pass the tests. -/
def ByteTests.pass (b : ByteTests) (blob : List UInt8) : Bool := (Walk.payload b blob).1

/-! ## Readers follow walks -/

namespace Read

variable {α β κ Tag : Type} {acc : Prop} {w : Walk} {ws : List Walk} {P : α → Prop}

/-- `p` goes over the bytes that `w` goes over, and what it returns satisfies `P` if, beside `acc`, the bytes of
    enumerations on the way pass. -/
def Follows (acc : Prop) (p : Read α) (w : Walk) (P : α → Prop) : Prop :=
  ∀ (r : ByteReader) (a : α) (r' : ByteReader), p r = (some a, r') → r'.buf = r.buf ∧
    (w (r.buf.drop r.pos)).2 = r'.buf.drop r'.pos ∧ (P a ↔ acc ∧ (w (r.buf.drop r.pos)).1 = true)

theorem Follows.reject : Follows acc (reject : Read α) w P := fun _ _ _ heq => absurd heq reject_some

theorem Follows.pure {a : α} (h : P a ↔ acc) : Follows acc (pure a) (Walk.inOrder []) P := by
  intro r b r' heq
  obtain ⟨rfl, rfl⟩ := pure_some heq
  refine ⟨rfl, rfl, ?_⟩
  show P b ↔ acc ∧ true = true
  rw [h, eq_self_iff_true, and_true]

/-- **Following composes**, and collects what is known of the parts. -/
theorem Follows.bind {p : Read α} {f : α → Read β} {Q : β → Prop} (hp : Follows True p w P)
    (hf : ∀ a, Follows (acc ∧ P a) (f a) (Walk.inOrder ws) Q) : Follows acc (p >>= f) (Walk.inOrder (w :: ws)) Q := by
  intro r b r' heq
  obtain ⟨a, mid, hread, hnext⟩ := bind_some heq
  obtain ⟨hbuf, hrest, ha⟩ := hp r a mid hread
  obtain ⟨hbuf', hrest', hb⟩ := hf a mid b r' hnext
  rw [← hrest] at hrest' hb
  refine ⟨hbuf'.trans hbuf, hrest', ?_⟩
  show Q b ↔ acc ∧ ((w (r.buf.drop r.pos)).1 && (Walk.inOrder ws (w (r.buf.drop r.pos)).2).1) = true
  rw [hb, ha, true_and, Bool.and_eq_true, and_assoc]

/-- A part without enumerations. -/
theorem Follows.skip {p : Read α} {f : α → Read β} {Q : β → Prop} (hp : Follows True p w fun _ => True)
    (hf : ∀ a, Follows acc (f a) (Walk.inOrder ws) Q) : Follows acc (p >>= f) (Walk.inOrder (w :: ws)) Q := by
  refine hp.bind fun a => ?_
  rw [and_true]
  exact hf a

theorem Follows.map {p : Read α} {f : α → β} {Q : β → Prop} (hp : Follows True p w P) (hf : ∀ a, Q (f a) ↔ P a) :
    Follows True (do return f (← p)) w Q := by
  intro r b r' heq
  have hstop : ∀ a, Follows (True ∧ P a) (Pure.pure (f a)) (Walk.inOrder []) Q := by
    intro a
    apply Follows.pure
    rw [hf, true_and]
  obtain ⟨hbuf, hrest, hb⟩ := (hp.bind hstop) r b r' heq
  refine ⟨hbuf, hrest, ?_⟩
  rw [hb]
  show True ∧ ((w (r.buf.drop r.pos)).1 && true) = true ↔ _
  rw [Bool.and_true]

/-! ### Parts -/

theorem Follows.take (n : Nat) (msg : String) : Follows True (take n msg) (Walk.raw n) fun _ => True := by
  intro r bytes r' heq
  obtain ⟨-, rfl, -⟩ := take_some heq
  refine ⟨rfl, ?_, ?_⟩
  · show (r.buf.drop r.pos).drop n = r.buf.drop (r.pos + n)
    rw [List.drop_drop]
  · show True ↔ True ∧ true = true
    simp

theorem Follows.flag : Follows True flag (Walk.raw 1) fun _ => True :=
  ((Follows.take 1 _).map fun _ => Iff.rfl).map fun _ => Iff.rfl

theorem Follows.u32 : Follows True u32 (Walk.raw 4) fun _ => True := (Follows.take 4 _).map fun _ => Iff.rfl

theorem Follows.u64 : Follows True u64 (Walk.raw 8) fun _ => True := (Follows.take 8 _).map fun _ => Iff.rfl

theorem Follows.ident : Follows True (ident : Read (Id Tag)) (Walk.raw 8) fun _ => True := Follows.u64.map fun _ => Iff.rfl

theorem Follows.gen : Follows True (gen : Read (Gen Tag)) (Walk.raw 8) fun _ => True := Follows.u64.map fun _ => Iff.rfl

/-- **The cast of a byte.** -/
theorem Follows.enum {ofByte : UInt8 → α} {test : α → Bool} {byteTest : UInt8 → Bool}
    (h : ∀ c, test (ofByte c) = byteTest c) :
    Follows True (do return ofByte (← Read.u8)) (Walk.enum byteTest) fun a => test a = true := by
  intro r a r' heq
  obtain ⟨c, mid, hread, hcast⟩ := bind_some heq
  obtain ⟨rfl, rfl, hlen⟩ := value_some hread
  obtain ⟨rfl, rfl⟩ := pure_some hcast
  cases hahead : r.buf.drop r.pos with
  | nil =>
    have hnone := congrArg List.length hahead
    rw [List.length_drop, List.length_nil] at hnone
    omega
  | cons b rest =>
    have hb : UInt8.ofNat (leValue [b]) = b := by simp [leValue]
    refine ⟨rfl, ?_, ?_⟩
    · show rest = r.buf.drop (r.pos + 1)
      rw [← List.drop_drop, hahead]
      rfl
    · show test (ofByte (UInt8.ofNat (leValue [b]))) = true ↔ True ∧ byteTest b = true
      rw [hb, h, true_and]

/-- What is read for a number that was read. -/
theorem Follows.sized {f : UInt32 → Read α} {w : Nat → Walk} (hf : ∀ n, Follows True (f n) (w n.toNat) P) :
    Follows True (Read.u32 >>= f) (Walk.sized w) P := by
  intro r a r' heq
  obtain ⟨n, mid, hread, hnext⟩ := bind_some heq
  obtain ⟨rfl, rfl, -⟩ := value_some hread
  obtain ⟨hbuf, hrest, ha⟩ := hf _ _ a r' hnext
  dsimp only at hbuf hrest ha
  rw [← List.drop_drop] at hrest ha
  exact ⟨hbuf, hrest, ha⟩

theorem Follows.str : Follows True str Walk.text fun _ => True := by
  apply Follows.sized
  intro len r s r' heq
  obtain ⟨-, -, htake⟩ := strBody_some heq
  exact Follows.take _ _ r s r' htake

theorem Follows.strId : Follows True (strId : Read (StringId Tag)) Walk.text fun _ => True :=
  Follows.str.map fun _ => Iff.rfl

theorem Follows.many {p : Read α} (hp : Follows True p w fun _ => True) (n : Nat) :
    Follows True (many p n) (Walk.inOrder (List.replicate n w)) fun _ => True := by
  induction n with
  | zero => exact Follows.pure Iff.rfl
  | succ n ih => exact hp.skip fun a => ih.map fun _ => Iff.rfl

theorem Follows.counted {limit : Nat} {p : Read α} (hp : Follows True p w fun _ => True) :
    Follows True (counted limit p) (Walk.counted w) fun _ => True := by
  apply Follows.sized
  intro n
  split
  · exact Follows.reject
  · exact hp.many n.toNat

variable [LinearOrder κ] {key : α → κ} {p : Read α}

/-- Records are put under keys that are not there yet, so each of them counts. -/
theorem Follows.entries (hp : Follows True p w P) (n : Nat) {m : SortedMap κ α} (hm : m.All P ↔ acc) :
    Follows acc (entries key p n m) (Walk.inOrder (List.replicate n w)) (SortedMap.All P) := by
  induction n generalizing m acc with
  | zero => exact Follows.pure hm
  | succ n ih =>
    refine hp.bind fun rec => ?_
    split
    · exact Follows.reject
    · next hfresh =>
      apply ih
      rw [SortedMap.All.insert_iff (SortedMap.find?_eq_none_of_contains hfresh), hm]

theorem Follows.keyedMap {limit : Nat} (hp : Follows True p w P) :
    Follows True (keyedMap limit key p) (Walk.counted w) (SortedMap.All P) := by
  apply Follows.sized
  intro n
  split
  · exact Follows.reject
  · exact hp.entries n.toNat (iff_of_true SortedMap.All.empty trivial)

end Read

open Read

/-! ## Records -/

theorem Follows.portId : Follows True decodePortId Walk.portId fun _ => True :=
  Follows.ident.skip fun _ => Follows.u32.skip fun _ => Follows.pure Iff.rfl

section
variable {b : ByteTests} {v : EnumTests} (h : b.Decide v)
include h

theorem follows_origin : Follows True decodeOrigin (Walk.origin b) (Origin.Meets v) :=
  Follows.strId.skip fun _ => Follows.flag.skip fun _ => Follows.u64.skip fun _ => (Follows.enum h.provenance).bind fun _ =>
    (Follows.enum h.source).bind fun _ => Follows.gen.skip fun _ =>
    Follows.pure ⟨fun hm => ⟨⟨trivial, hm.provenance⟩, hm.source⟩, fun hm => ⟨hm.1.2, hm.2⟩⟩

theorem follows_linkEnd : Follows True decodeEnd (Walk.linkEnd b) fun e => v.kind e.kind = true :=
  (Follows.enum h.kind).bind fun _ => Follows.ident.skip fun _ => Follows.ident.skip fun _ =>
    Follows.pure (iff_of_eq (true_and _)).symm

theorem follows_device : Follows True decodeDevice (Walk.device b) (DeviceRecord.Meets v) :=
  Follows.ident.skip fun _ => Follows.str.skip fun _ => Follows.flag.skip fun _ => Follows.flag.skip fun _ =>
    Follows.str.skip fun _ => Follows.str.skip fun _ => Follows.str.skip fun _ => (Follows.enum h.entity).bind fun _ =>
    Follows.strId.skip fun _ => Follows.ident.skip fun _ => Follows.flag.skip fun _ => (follows_origin h).bind fun _ =>
    Follows.pure ⟨fun hm => ⟨⟨trivial, hm.state⟩, hm.origin⟩, fun hm => ⟨hm.1.2, hm.2⟩⟩

theorem follows_switch : Follows True decodeSwitch (Walk.switch b) (SwitchRecord.Meets v) :=
  Follows.ident.skip fun _ => Follows.gen.skip fun _ => Follows.str.skip fun _ => Follows.flag.skip fun _ =>
    Follows.str.skip fun _ => Follows.str.skip fun _ => Follows.str.skip fun _ => Follows.u32.skip fun _ =>
    (Follows.enum h.entity).bind fun _ => Follows.strId.skip fun _ => Follows.flag.skip fun _ =>
    Follows.strId.skip fun _ => Follows.flag.skip fun _ => (follows_origin h).bind fun _ =>
    Follows.pure ⟨fun hm => ⟨⟨trivial, hm.state⟩, hm.origin⟩, fun hm => ⟨hm.1.2, hm.2⟩⟩

theorem follows_port : Follows True decodePort (Walk.port b) (SwitchPortRecord.Meets v) :=
  Follows.portId.skip fun _ => Follows.gen.skip fun _ => (follows_linkEnd h).bind fun _ => Follows.flag.skip fun _ =>
    (Follows.enum h.entity).bind fun _ => Follows.u32.skip fun _ => Follows.flag.skip fun _ => Follows.u64.skip fun _ =>
    Follows.flag.skip fun _ => (follows_origin h).bind fun _ =>
    Follows.pure ⟨fun hm => ⟨⟨⟨trivial, hm.attached⟩, hm.state⟩, hm.origin⟩, fun hm => ⟨hm.1.1.2, hm.1.2, hm.2⟩⟩

theorem follows_link : Follows True decodeLink (Walk.link b) (LinkRecord.Meets v) :=
  Follows.ident.skip fun _ => Follows.gen.skip fun _ => Follows.ident.skip fun _ => Follows.portId.skip fun _ =>
    (follows_linkEnd h).bind fun _ => Follows.flag.skip fun _ => (Follows.enum h.entity).bind fun _ =>
    Follows.flag.skip fun _ => (follows_origin h).bind fun _ =>
    Follows.pure ⟨fun hm => ⟨⟨⟨trivial, hm.otherEnd⟩, hm.state⟩, hm.origin⟩, fun hm => ⟨hm.1.1.2, hm.1.2, hm.2⟩⟩

theorem follows_partition : Follows True decodePartition (Walk.partition b) (FabricPartition.Meets v) :=
  Follows.strId.skip fun _ => Follows.gen.skip fun _ => Follows.strId.skip fun _ => Follows.ident.counted.skip fun _ =>
    Follows.ident.counted.skip fun _ => (Follows.enum h.partition).bind fun _ => (follows_origin h).bind fun _ =>
    Follows.pure ⟨fun hm => ⟨⟨trivial, hm.state⟩, hm.origin⟩, fun hm => ⟨hm.1.2, hm.2⟩⟩

/-! ## The payload -/

theorem follows_topologyPayload : Follows True decodeTopologyPayload (Walk.payload b) (FabricTopology.Meets v) :=
  Follows.u64.skip fun _ => Follows.gen.skip fun _ => Follows.gen.skip fun _ => Follows.u64.skip fun _ =>
    (Follows.enum h.snapshot).bind fun _ => Follows.str.skip fun _ => Follows.flag.skip fun _ =>
    (follows_device h).keyedMap.bind fun _ => (follows_switch h).keyedMap.bind fun _ => (follows_port h).keyedMap.bind fun _ =>
    (follows_link h).keyedMap.bind fun _ => (follows_partition h).keyedMap.bind fun _ =>
    Follows.pure ⟨fun hm => ⟨⟨⟨⟨⟨⟨trivial, hm.provenance⟩, hm.devices⟩, hm.switches⟩, hm.ports⟩, hm.links⟩, hm.partitions⟩,
      fun hm => ⟨hm.1.1.1.1.1.2, hm.1.1.1.1.2, hm.1.1.1.2, hm.1.1.2, hm.1.2, hm.2⟩⟩

/-- **What is decoded meets tests exactly if its bytes pass them.** -/
theorem meets_iff {blob : List UInt8} {t : FabricTopology} (hread : decodeTopology blob = .ok t) :
    t.Meets v ↔ b.pass blob = true := by
  obtain ⟨r, hpayload, -⟩ := decodeTopology_ok hread
  obtain ⟨-, -, hiff⟩ := follows_topologyPayload h _ _ _ hpayload
  exact hiff.trans (iff_of_eq (true_and _))

end

end NVSwitchFabric
