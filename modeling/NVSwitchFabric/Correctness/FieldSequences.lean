import NVSwitchFabric.Model.Programs

/-!
# `Correctness.FieldSequences` — sequences of typed fields

Whatever is written with the functions of `ByteWriter` is read back by those of `ByteReader` in the same order, and not from
less than all of it. Both compose along a sequence: a part that is all there reads (`Reads`), and one that is cut off fails
and leaves the reader so (`Cuts`).
-/

namespace NVSwitchFabric

namespace Read

variable {α β : Type}

/-! ## Shifts and bytes -/

/-- The bytes that the writer's loop shifts out. -/
theorem leBytes_eq_shifts (n v : Nat) :
    leBytes n v = (List.range n).map fun i => UInt8.ofNat ((v >>> (8 * i)) &&& 0xFF) := by
  induction n generalizing v with
  | zero => rfl
  | succ n ih =>
    have hmask : ∀ m : Nat, UInt8.ofNat (m &&& 0xFF) = UInt8.ofNat m := by
      intro m
      apply UInt8.toNat_inj.mp
      have hand : m &&& 0xFF = m % 2 ^ 8 := Nat.and_two_pow_sub_one_eq_mod m 8
      rw [hand, UInt8.toNat_ofNat', UInt8.toNat_ofNat', Nat.mod_mod]
    rw [leBytes, ih, List.range_succ_eq_map, List.map_cons, List.map_map, Nat.mul_zero, Nat.shiftRight_zero, hmask]
    congr 1
    apply List.map_congr_left
    intro i _
    have hbyte : v / 256 = v >>> 8 := (Nat.shiftRight_eq_div_pow v 8).symm
    have hshift : (v / 256) >>> (8 * i) = v >>> (8 * (i + 1)) := by
      rw [hbyte, ← Nat.shiftRight_add, Nat.mul_succ, Nat.add_comm]
    exact congrArg (fun m => UInt8.ofNat (m &&& 0xFF)) hshift

/-- The number that the reader's loop puts together. -/
theorem leValue_cons_eq_or (b : UInt8) (bs : List UInt8) : leValue (b :: bs) = b.toNat ||| (leValue bs <<< 8) := by
  have hb : b.toNat < 2 ^ 8 := b.toNat_lt
  rw [leValue, Nat.or_comm, ← Nat.shiftLeft_add_eq_or_of_lt hb, Nat.shiftLeft_eq, Nat.mul_comm, Nat.add_comm]

/-! ## Reads that are cut off -/

/-- With only a part of `bs` left in the buffer, `p` fails and leaves the reader so. -/
def Cuts (p : Read α) (bs : List UInt8) : Prop :=
  ∀ r : ByteReader, r.pos ≤ r.buf.length → r.buf.drop r.pos <+: bs → r.buf.drop r.pos ≠ bs →
    (p r).1 = none ∧ (p r).2.ok = false

/-- A part of two is a part of the first, or the first and a part of the second. -/
theorem prefix_append_cases {front bs bs' : List UInt8} (h : front <+: bs ++ bs') (hne : front ≠ bs ++ bs') :
    (front <+: bs ∧ front ≠ bs) ∨ ∃ front', front = bs ++ front' ∧ front' <+: bs' ∧ front' ≠ bs' := by
  by_cases hfirst : front <+: bs ∧ front ≠ bs
  · exact Or.inl hfirst
  · right
    have hbs : bs <+: front := by
      rcases List.prefix_or_prefix_of_prefix h (List.prefix_append bs bs') with hf | hb
      · have heq : front = bs := by
          by_contra hdiff
          exact hfirst ⟨hf, hdiff⟩
        exact heq ▸ List.prefix_refl _
      · exact hb
    obtain ⟨front', rfl⟩ := hbs
    refine ⟨front', rfl, (List.prefix_append_right_inj bs).mp h, ?_⟩
    rintro rfl
    exact hne rfl

theorem Cuts.nil {p : Read α} : Cuts p [] := fun _ _ hpre hne => absurd (List.prefix_nil.mp hpre) hne

/-- Of two reads the first has failed, or the second does. -/
theorem bind_failed {p : Read α} (f : α → Read β) {r : ByteReader} (hp : (p r).2.ok = false)
    (hf : ∀ a, (p r).1 = some a → (f a (p r).2).2.ok = false) : ((p >>= f) r).2.ok = false := by
  rw [bind_apply]
  split
  · next a r' heq =>
    rw [heq] at hf
    exact hf a rfl
  · next r' heq =>
    rw [heq] at hp
    exact hp

/-- **Being cut off composes**: the cut is in the first part, or the first part reads and the cut is in the second. -/
theorem Cuts.bind {p : Read α} {f : α → Read β} {bs bs' : List UInt8} {a : α} (hread : Reads p bs a) (hp : Cuts p bs)
    (hf : Cuts (f a) bs') : Cuts (p >>= f) (bs ++ bs') := by
  intro r hpos hpre hne
  rcases prefix_append_cases hpre hne with ⟨hpre, hne⟩ | ⟨front', hfront, hpre', hne'⟩
  · obtain ⟨hnone, hfailed⟩ := hp r hpos hpre hne
    refine ⟨bind_none f hnone, bind_failed f hfailed ?_⟩
    intro a' ha'
    rw [hnone] at ha'
    exact absurd ha' (by simp)
  · have hdrop : r.buf.drop r.pos = bs ++ front' ++ [] := hfront.trans (List.append_nil _).symm
    obtain ⟨hstep, hnext, hle⟩ := hread.next f hdrop hpos
    rw [List.append_nil] at hnext
    rw [hstep]
    exact hf { r with pos := r.pos + bs.length } hle (hnext ▸ hpre') (hnext ▸ hne')

theorem Cuts.map {p : Read α} {bs : List UInt8} {a : α} (f : α → β) (hread : Reads p bs a) (hp : Cuts p bs) :
    Cuts (do return f (← p)) bs := by
  have h : Cuts (p >>= fun x => Pure.pure (f x)) (bs ++ []) := Cuts.bind hread hp Cuts.nil
  rwa [List.append_nil] at h

/-- Fewer bytes than are asked for. -/
theorem Cuts.take (bs : List UInt8) (msg : String) : Cuts (take bs.length msg) bs := by
  intro r hpos hpre hne
  have hshort : (r.buf.drop r.pos).length < bs.length :=
    lt_of_le_of_ne hpre.length_le fun hlen => hne (hpre.eq_of_length hlen)
  rw [List.length_drop] at hshort
  unfold Read.take
  rw [if_pos (by omega)]
  exact ⟨rfl, rfl⟩

/-- A number of `n` bytes. -/
theorem Cuts.word {n : Nat} {bs : List UInt8} (hlen : bs.length = n) (msg : String) (f : List UInt8 → α) :
    Cuts (do return f (← Read.take n msg)) bs := by
  subst hlen
  exact Cuts.map f (Reads.take bs msg) (Cuts.take bs msg)

theorem Reads.u16 (v : UInt16) : Reads u16 (ByteWriter.u16 v) v := by
  have h := (Reads.take (ByteWriter.u16 v) "overrun reading u16").map fun bs => UInt16.ofNat (leValue bs)
  have hlt := v.toNat_lt
  have hv : UInt16.ofNat (leValue (ByteWriter.u16 v)) = v := by
    rw [ByteWriter.u16, leValue_leBytes, Nat.mod_eq_of_lt (by omega), UInt16.ofNat_toNat]
  have hl : (ByteWriter.u16 v).length = 2 := length_leBytes 2 v.toNat
  rwa [hv, hl] at h

/-- The sign is in the bits. -/
theorem Reads.i64 (v : Int64) : Reads i64 (ByteWriter.i64 v) v := by
  have h := (Reads.u64 v.toUInt64).map UInt64.toInt64
  rwa [Int64.toInt64_toUInt64] at h

/-- A string of accepted length: the cut is in the length, or in the bytes. -/
theorem Cuts.str {s : Str} (hs : s.length ≤ maxStr) : Cuts str (ByteWriter.str s) := by
  have hlen : (UInt32.ofNat s.length).toNat = s.length := by
    have hlt : s.length < 2 ^ 32 := by unfold maxStr at hs; omega
    rw [UInt32.toNat_ofNat', Nat.mod_eq_of_lt hlt]
  refine Cuts.bind (Reads.u32 _) (Cuts.word (length_u32 _) _ _) ?_
  intro r hpos hpre hne
  rw [hlen]
  have hshort : (r.buf.drop r.pos).length < s.length :=
    lt_of_le_of_ne hpre.length_le fun hl => hne (hpre.eq_of_length hl)
  rw [List.length_drop] at hshort
  have hrem : r.remaining < s.length := hshort
  unfold strBody
  rw [if_pos hrem]
  exact ⟨rfl, rfl⟩

/-- **A reader that has failed stays so**, whatever is read. -/
theorem Program.failed {p : Read α} (c : Program p) {r : ByteReader} (h : r.ok = false) : (p r).2.ok = false := by
  have htake : ∀ (n : Nat) (msg : String) (r : ByteReader), r.ok = false → (Read.take n msg r).2.ok = false := by
    intro n msg r h
    unfold Read.take
    split
    · rfl
    · exact h
  induction c generalizing r with
  | pure a => exact h
  | bind _ _ ihc ihk =>
    have hfirst := ihc h
    exact bind_failed _ hfirst fun a _ => ihk a hfirst
  | ite b _ _ ihc ihd =>
    by_cases hb : b
    · rw [if_pos hb]
      exact ihc h
    · rw [if_neg hb]
      exact ihd h
  | reject => exact h
  | word n msg => exact htake n msg r h
  | bytes n => exact htake n _ r h
  | skip n =>
    have hskip := htake n "skip exceeds remaining" r h
    exact bind_failed _ hskip fun _ _ => hskip
  | strBody len =>
    unfold Read.strBody
    split
    · rfl
    · split
      · rfl
      · exact htake _ _ r h

end Read

open Read (Reads Cuts Program)

/-! ## Fields -/

/-- The type of a field; a raw block is read by its length. -/
inductive FieldType where
  | u8 | u16 | u32 | u64 | i64 | str
  | raw (n : Nat)
  deriving Repr, DecidableEq

/-- A field with its value. -/
inductive Field where
  | u8 (v : UInt8)
  | u16 (v : UInt16)
  | u32 (v : UInt32)
  | u64 (v : UInt64)
  | i64 (v : Int64)
  | str (s : Str)
  | raw (block : List UInt8)
  deriving DecidableEq

namespace Field

def type : Field → FieldType
  | u8 _      => .u8
  | u16 _     => .u16
  | u32 _     => .u32
  | u64 _     => .u64
  | i64 _     => .i64
  | str _     => .str
  | raw block => .raw block.length

/-- The call of `ByteWriter` that writes the field. -/
def write : Field → List UInt8
  | u8 v      => ByteWriter.u8 v
  | u16 v     => ByteWriter.u16 v
  | u32 v     => ByteWriter.u32 v
  | u64 v     => ByteWriter.u64 v
  | i64 v     => ByteWriter.i64 v
  | str s     => ByteWriter.str s
  | raw block => ByteWriter.bytes block

/-- The reader takes strings up to a length. -/
def Fits : Field → Prop
  | str s => s.length ≤ Read.maxStr
  | _     => True

end Field

namespace FieldType

/-- The call of `ByteReader` that reads a field of the type. -/
def read : FieldType → Read Field
  | u8    => do return .u8 (← Read.u8)
  | u16   => do return .u16 (← Read.u16)
  | u32   => do return .u32 (← Read.u32)
  | u64   => do return .u64 (← Read.u64)
  | i64   => do return .i64 (← Read.i64)
  | str   => do return .str (← Read.str)
  | raw n => do return .raw (← Read.bytes n)

def program : ∀ t : FieldType, Program t.read
  | u8    => .map _ .u8
  | u16   => .map _ (.map _ (.word 2 _))
  | u32   => .map _ .u32
  | u64   => .map _ .u64
  | i64   => .map _ (.map _ .u64)
  | str   => .map _ .str
  | raw n => .map _ (.bytes n)

end FieldType

namespace Field

/-- **A field reads back.** -/
theorem reads {v : Field} (h : v.Fits) : Reads v.type.read v.write v := by
  cases v with
  | u8 v => exact (Reads.u8 v).map Field.u8
  | u16 v => exact (Reads.u16 v).map Field.u16
  | u32 v => exact (Reads.u32 v).map Field.u32
  | u64 v => exact (Reads.u64 v).map Field.u64
  | i64 v => exact (Reads.i64 v).map Field.i64
  | str s => exact (Reads.str s h).map Field.str
  | raw block => exact (Reads.bytes block).map Field.raw

/-- **A part of a field does not read.** -/
theorem cuts {v : Field} (h : v.Fits) : Cuts v.type.read v.write := by
  cases v with
  | u8 v => exact Cuts.map _ (Reads.u8 v) (Cuts.word rfl _ _)
  | u16 v => exact Cuts.map _ (Reads.u16 v) (Cuts.word (length_leBytes 2 _) _ _)
  | u32 v => exact Cuts.map _ (Reads.u32 v) (Cuts.word (length_u32 v) _ _)
  | u64 v => exact Cuts.map _ (Reads.u64 v) (Cuts.word (length_leBytes 8 _) _ _)
  | i64 v =>
    have hword : Cuts Read.u64 (ByteWriter.i64 v) := Cuts.word (length_leBytes 8 _) _ _
    exact Cuts.map _ (Reads.i64 v) (Cuts.map _ (Reads.u64 v.toUInt64) hword)
  | str s => exact Cuts.map _ (Reads.str s h) (Cuts.str h)
  | raw block => exact Cuts.map _ (Reads.bytes block) (Cuts.take block _)

end Field

/-! ## Sequences -/

/-- Write fields in order. -/
def writeFields (vs : List Field) : List UInt8 := vs.flatMap Field.write

/-- Read fields in order, up to the first read that fails. -/
def readFields : List FieldType → Read (List Field)
  | []      => pure []
  | t :: ts => do
    let v ← t.read
    let vs ← readFields ts
    return v :: vs

/-- Read fields in order, and go on after a read that fails. -/
def readEach : List FieldType → ByteReader → List (Option Field) × ByteReader
  | [], r      => ([], r)
  | t :: ts, r =>
    let (v, r') := t.read r
    let (vs, r'') := readEach ts r'
    (v :: vs, r'')

/-- Fields are read back in order. -/
theorem readFields_reads {vs : List Field} (h : ∀ v ∈ vs, v.Fits) :
    Reads (readFields (vs.map Field.type)) (writeFields vs) vs := by
  induction vs with
  | nil => exact Reads.pure []
  | cons v vs ih =>
    have hrest := ih fun x hx => h x (List.mem_cons_of_mem _ hx)
    exact (Field.reads (h v List.mem_cons_self)).bind (hrest.map fun vs => v :: vs)

/-- A part of them is not. -/
theorem readFields_cuts {vs : List Field} (h : ∀ v ∈ vs, v.Fits) :
    Cuts (readFields (vs.map Field.type)) (writeFields vs) := by
  induction vs with
  | nil => exact Cuts.nil
  | cons v vs ih =>
    have hv := h v List.mem_cons_self
    have hvs : ∀ x ∈ vs, x.Fits := fun x hx => h x (List.mem_cons_of_mem _ hx)
    exact Cuts.bind (Field.reads hv) (Field.cuts hv) (Cuts.map (fun vs => v :: vs) (readFields_reads hvs) (ih hvs))

theorem readEach_failed (ts : List FieldType) {r : ByteReader} (h : r.ok = false) : (readEach ts r).2.ok = false := by
  induction ts generalizing r with
  | nil => exact h
  | cons t ts ih => exact ih (t.program.failed h)

/-- Who goes on after a failure has failed as well, at a read that the other one failed at. -/
theorem readEach_of_readFields {ts : List FieldType} {r : ByteReader} (hnone : (readFields ts r).1 = none)
    (hfailed : (readFields ts r).2.ok = false) : none ∈ (readEach ts r).1 ∧ (readEach ts r).2.ok = false := by
  induction ts generalizing r with
  | nil => exact absurd hnone (by simp [readFields, pure])
  | cons t ts ih =>
    have hstep : readFields (t :: ts) r = (t.read >>= fun v => readFields ts >>= fun vs => pure (v :: vs)) r := rfl
    rw [hstep, Read.bind_apply] at hnone hfailed
    cases hread : t.read r with
    | mk first r' =>
      have heach : readEach (t :: ts) r = (first :: (readEach ts r').1, (readEach ts r').2) := by
        show ((t.read r).1 :: (readEach ts (t.read r).2).1, (readEach ts (t.read r).2).2) = _
        rw [hread]
      rw [heach]
      rw [hread] at hnone hfailed
      cases first with
      | none => exact ⟨List.mem_cons_self, readEach_failed ts hfailed⟩
      | some v =>
        -- the rest fails
        dsimp only at hnone hfailed
        rw [Read.bind_apply] at hnone hfailed
        have hrest : (readFields ts r').1 = none ∧ (readFields ts r').2.ok = false := by
          cases hvs : readFields ts r' with
          | mk vs r'' =>
            rw [hvs] at hnone hfailed
            cases vs with
            | none => exact ⟨rfl, hfailed⟩
            | some vs => exact absurd hnone (by simp [pure])
        obtain ⟨hmem, hok⟩ := ih hrest.1 hrest.2
        exact ⟨List.mem_cons_of_mem _ hmem, hok⟩

/-- **Typed field sequences round-trip.** Fields that are written in order are read back in order, which ends at the end of
    the buffer without a failure; and from less than all bytes some read fails and leaves the reader so, whether one goes on
    after it or not. -/
theorem fields_roundtrip {vs : List Field} (h : ∀ v ∈ vs, v.Fits) :
    (∃ r, readFields (vs.map Field.type) { buf := writeFields vs } = (some vs, r) ∧ r.eof = true ∧ r.ok = true) ∧
      ∀ front, front <+: writeFields vs → front ≠ writeFields vs →
        ((readFields (vs.map Field.type) { buf := front }).1 = none ∧
          (readFields (vs.map Field.type) { buf := front }).2.ok = false) ∧
        none ∈ (readEach (vs.map Field.type) { buf := front }).1 ∧
          (readEach (vs.map Field.type) { buf := front }).2.ok = false := by
  constructor
  · have hread := readFields_reads h { buf := writeFields vs } [] (List.append_nil _).symm (Nat.zero_le _)
    refine ⟨_, hread, ?_, rfl⟩
    unfold ByteReader.eof
    exact decide_eq_true (Nat.zero_add _)
  · intro front hpre hne
    obtain ⟨hnone, hfailed⟩ := readFields_cuts h { buf := front } (Nat.zero_le _) hpre hne
    exact ⟨⟨hnone, hfailed⟩, readEach_of_readFields hnone hfailed⟩

/-- A negative number, a string and a raw block. -/
def mixedFields : List Field := [.i64 (-1), .str (ascii "ab"), .raw [1, 2]]

/-- They read back, and not from less. -/
theorem fields_roundtrip_mixed :
    (∃ r, readFields (mixedFields.map Field.type) { buf := writeFields mixedFields } = (some mixedFields, r) ∧
        r.eof = true ∧ r.ok = true) ∧
      ∀ front, front <+: writeFields mixedFields → front ≠ writeFields mixedFields →
        ((readFields (mixedFields.map Field.type) { buf := front }).1 = none ∧
          (readFields (mixedFields.map Field.type) { buf := front }).2.ok = false) ∧
        none ∈ (readEach (mixedFields.map Field.type) { buf := front }).1 ∧
          (readEach (mixedFields.map Field.type) { buf := front }).2.ok = false := by
  have hfits : ∀ v ∈ mixedFields, v.Fits := by
    intro v hv
    rcases List.mem_cons.mp hv with rfl | hv
    · trivial
    rcases List.mem_cons.mp hv with rfl | hv
    · show (ascii "ab").length ≤ Read.maxStr
      decide
    · obtain rfl := List.mem_singleton.mp hv
      trivial
  exact fields_roundtrip hfits

end NVSwitchFabric
