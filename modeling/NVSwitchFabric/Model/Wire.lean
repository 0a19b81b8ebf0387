import NVSwitchFabric.Model.Identity
import Mathlib.Logic.Function.Iterate

/-!
# `Model.Wire` — the little-endian binary codec

`wire.h` and `wire.cpp`: the CRC-32, the byte writer and the bounded byte reader. A writer is the list of bytes
it has appended, so a writing function returns bytes and an encoder concatenates them. A reader is a state with
the position and the error the source keeps; a reading function is a `Read`, which threads that state and stops
at the first read that fails.

`Reads p bs v` is the specification of a reading function against the bytes that were written: standing before
`bs`, `p` consumes exactly them and returns `v`. It composes along `>>=` as writing composes along `++`, and every
codec's round trip is assembled from it.
-/

namespace NVSwitchFabric

/-! ## CRC-32 -/

/-- One step of the table's inner loop. -/
def crcBit (c : UInt32) : UInt32 := if c &&& 1 ≠ 0 then (0xEDB88320 : UInt32) ^^^ (c >>> 1) else c >>> 1

/-- `table[i]`. -/
def crcTable (i : UInt8) : UInt32 := Nat.iterate crcBit 8 i.toUInt32

/-- One byte of the checksum loop. -/
def crcByte (crc : UInt32) (b : UInt8) : UInt32 :=
  crcTable ((crc ^^^ b.toUInt32) &&& 0xFF).toUInt8 ^^^ (crc >>> 8)

/-- `crc32` (IEEE). -/
def crc32 (data : List UInt8) : UInt32 := (data.foldl crcByte 0xFFFFFFFF) ^^^ (0xFFFFFFFF : UInt32)

/-! ## Writing -/

/-- The `n` low bytes of `v`, little-endian. -/
def leBytes : Nat → Nat → List UInt8
  | 0, _     => []
  | n + 1, v => UInt8.ofNat v :: leBytes n (v / 256)

/-- The value of little-endian bytes. -/
def leValue : List UInt8 → Nat
  | []      => 0
  | b :: bs => b.toNat + 256 * leValue bs

@[simp] theorem length_leBytes (n v : Nat) : (leBytes n v).length = n := by
  induction n generalizing v with
  | zero => rfl
  | succ n ih => simp [leBytes, ih]

/-- Reading back what was written gives the value modulo the width. -/
theorem leValue_leBytes (n v : Nat) : leValue (leBytes n v) = v % 256 ^ n := by
  induction n generalizing v with
  | zero => simp [leBytes, leValue, Nat.mod_one]
  | succ n ih =>
    rw [leBytes, leValue, ih, UInt8.toNat_ofNat']
    show v % 256 + 256 * (v / 256 % 256 ^ n) = v % 256 ^ (n + 1)
    rw [Nat.pow_succ', Nat.mod_mul]

namespace ByteWriter

def u8 (v : UInt8) : List UInt8 := [v]
def u16 (v : UInt16) : List UInt8 := leBytes 2 v.toNat
def u32 (v : UInt32) : List UInt8 := leBytes 4 v.toNat
def u64 (v : UInt64) : List UInt8 := leBytes 8 v.toNat
def i64 (v : Int64) : List UInt8 := u64 v.toUInt64

/-- A 32-bit length, cast from `size_t`, and the bytes. -/
def str (s : Str) : List UInt8 := u32 (UInt32.ofNat s.length) ++ s

def bytes (p : List UInt8) : List UInt8 := p

/-- A flag, as the record encoders write it: `v ? 1 : 0`. -/
def flag (v : Bool) : List UInt8 := u8 (if v then 1 else 0)

end ByteWriter

@[simp] theorem length_u32 (v : UInt32) : (ByteWriter.u32 v).length = 4 := length_leBytes 4 v.toNat

/-- A word that was written has its value. -/
theorem leValue_u32 (v : UInt32) : UInt32.ofNat (leValue (ByteWriter.u32 v)) = v := by
  have hlt := v.toNat_lt
  rw [ByteWriter.u32, leValue_leBytes, Nat.mod_eq_of_lt (by omega), UInt32.ofNat_toNat]

/-! ## Reading -/

/-- A reader over a buffer; `ok` and `err` record the first read that failed. -/
structure ByteReader where
  buf : List UInt8
  pos : Nat := 0
  ok  : Bool := true
  err : String := ""

namespace ByteReader

def remaining (r : ByteReader) : Nat := r.buf.length - r.pos
def eof (r : ByteReader) : Bool := r.pos = r.buf.length

end ByteReader

/-- A read: `none` is the source's `false`, after which the caller gives up. -/
def Read (α : Type) : Type := ByteReader → Option α × ByteReader

namespace Read

variable {α β : Type}

instance : Monad Read where
  pure a := fun r => (some a, r)
  bind p f := fun r =>
    match p r with
    | (some a, r') => f a r'
    | (none, r')   => (none, r')

/-- Fail and record why. -/
def fail (msg : String) : Read α := fun r => (none, { r with ok := false, err := msg })

/-- Give up without a read having failed. -/
def reject : Read α := fun r => (none, r)

/-- Consume `n` bytes, or fail with `msg` when fewer remain. -/
def take (n : Nat) (msg : String) : Read (List UInt8) := fun r =>
  if r.buf.length < r.pos + n then fail msg r
  else (some ((r.buf.drop r.pos).take n), { r with pos := r.pos + n })

def u8 : Read UInt8 := do return UInt8.ofNat (leValue (← take 1 "overrun reading u8"))
def u16 : Read UInt16 := do return UInt16.ofNat (leValue (← take 2 "overrun reading u16"))
def u32 : Read UInt32 := do return UInt32.ofNat (leValue (← take 4 "overrun reading u32"))
def u64 : Read UInt64 := do return UInt64.ofNat (leValue (← take 8 "overrun reading u64"))
def i64 : Read Int64 := do return (← u64).toInt64

def bytes (n : Nat) : Read (List UInt8) := take n "bytes length exceeds remaining"

def skip (n : Nat) : Read Unit := do let _ ← take n "skip exceeds remaining"

/-- The length of a string that is accepted. -/
def maxStr : Nat := 64 * 1024 * 1024

/-- The bytes of a string of the announced length. -/
def strBody (len : Nat) : Read Str := fun r =>
  if r.remaining < len then fail "string length exceeds remaining" r
  else if maxStr < len then fail "string length absurd" r
  else take len "string length exceeds remaining" r

def str : Read Str := do
  let len ← u32
  strBody len.toNat

/-- A byte read as a flag: anything but zero is true. -/
def flag : Read Bool := do return (← u8) ≠ 0

/-- Read `n` items. -/
def many (p : Read α) : Nat → Read (List α)
  | 0     => pure []
  | n + 1 => do
    let a ← p
    let as ← many p n
    return a :: as

/-! ## Specification -/

theorem bind_apply (p : Read α) (f : α → Read β) (r : ByteReader) :
    (p >>= f) r = match p r with
      | (some a, r') => f a r'
      | (none, r')   => (none, r') := rfl

/-- A read that gives up ends what it is a part of. -/
theorem bind_none {p : Read α} (f : α → Read β) {r : ByteReader} (h : (p r).1 = none) : ((p >>= f) r).1 = none := by
  rw [bind_apply]
  split
  · next a r' heq =>
    rw [heq] at h
    exact absurd h (by simp)
  · rfl

theorem take_of_le {n : Nat} {msg : String} {r : ByteReader} (h : r.pos + n ≤ r.buf.length) :
    take n msg r = (some ((r.buf.drop r.pos).take n), { r with pos := r.pos + n }) := if_neg (by omega)

/-- Standing before `bs`, `p` consumes exactly `bs` and returns `v`. -/
def Reads (p : Read α) (bs : List UInt8) (v : α) : Prop :=
  ∀ (r : ByteReader) (rest : List UInt8), r.buf.drop r.pos = bs ++ rest → r.pos ≤ r.buf.length →
    p r = (some v, { r with pos := r.pos + bs.length })

/-- What lies ahead of a reader that stands before `bs`. -/
theorem length_ahead {r : ByteReader} {bs rest : List UInt8} (hdrop : r.buf.drop r.pos = bs ++ rest)
    (hpos : r.pos ≤ r.buf.length) : r.pos + bs.length + rest.length = r.buf.length := by
  have hlen := congrArg List.length hdrop
  rw [List.length_drop, List.length_append] at hlen
  omega

/-- After reading `bs` it stands before what follows. -/
theorem drop_ahead {r : ByteReader} {bs bs' rest : List UInt8} (hdrop : r.buf.drop r.pos = bs ++ bs' ++ rest) :
    r.buf.drop (r.pos + bs.length) = bs' ++ rest := by
  rw [← List.drop_drop, hdrop, List.append_assoc, List.drop_left]

theorem Reads.pure (a : α) : Reads (pure a) [] a := by
  intro r rest _ _
  rfl

/-- What goes on for a read goes on from where it stopped. -/
theorem Reads.next {p : Read α} {bs bs' rest : List UInt8} {a : α} {r : ByteReader} (hp : Reads p bs a) (f : α → Read β)
    (hdrop : r.buf.drop r.pos = bs ++ bs' ++ rest) (hpos : r.pos ≤ r.buf.length) :
    (p >>= f) r = f a { r with pos := r.pos + bs.length } ∧ r.buf.drop (r.pos + bs.length) = bs' ++ rest ∧
      r.pos + bs.length ≤ r.buf.length := by
  have hnext := drop_ahead hdrop
  rw [List.append_assoc] at hdrop
  have hlen := length_ahead hdrop hpos
  refine ⟨?_, hnext, by omega⟩
  rw [bind_apply, hp r (bs' ++ rest) hdrop hpos]

/-- **Reading composes as writing does.** -/
theorem Reads.bind {p : Read α} {f : α → Read β} {bs bs' : List UInt8} {a : α} {b : β}
    (hp : Reads p bs a) (hf : Reads (f a) bs' b) : Reads (p >>= f) (bs ++ bs') b := by
  intro r rest hdrop hpos
  obtain ⟨hread, hnext, hle⟩ := hp.next f hdrop hpos
  rw [hread, hf { r with pos := r.pos + bs.length } rest hnext hle, List.length_append]
  dsimp only
  rw [Nat.add_assoc]

/-- Mapping the value a read returns. -/
theorem Reads.map {p : Read α} {bs : List UInt8} {a : α} (f : α → β) (hp : Reads p bs a) :
    Reads (do return f (← p)) bs (f a) := by
  have h : Reads (p >>= fun x => Pure.pure (f x)) (bs ++ []) (f a) := hp.bind (Reads.pure (f a))
  rwa [List.append_nil] at h

theorem Reads.take (bs : List UInt8) (msg : String) : Reads (take bs.length msg) bs bs := by
  intro r rest hdrop hpos
  have hlen := length_ahead hdrop hpos
  rw [take_of_le (by omega), hdrop, List.take_left]

theorem Reads.bytes (bs : List UInt8) : Reads (bytes bs.length) bs bs := Reads.take bs _

theorem Reads.u8 (v : UInt8) : Reads u8 (ByteWriter.u8 v) v := by
  have h := (Reads.take (ByteWriter.u8 v) "overrun reading u8").map fun bs => UInt8.ofNat (leValue bs)
  have hv : UInt8.ofNat (leValue (ByteWriter.u8 v)) = v := by simp [ByteWriter.u8, leValue]
  rwa [hv] at h

theorem Reads.u32 (v : UInt32) : Reads u32 (ByteWriter.u32 v) v := by
  have h := (Reads.take (ByteWriter.u32 v) "overrun reading u32").map
    fun bs => UInt32.ofNat (leValue bs)
  rwa [leValue_u32, length_u32] at h

theorem Reads.u64 (v : UInt64) : Reads u64 (ByteWriter.u64 v) v := by
  have h := (Reads.take (ByteWriter.u64 v) "overrun reading u64").map
    fun bs => UInt64.ofNat (leValue bs)
  have hlt := v.toNat_lt
  have hv : UInt64.ofNat (leValue (ByteWriter.u64 v)) = v := by
    rw [ByteWriter.u64, leValue_leBytes, Nat.mod_eq_of_lt (by omega), UInt64.ofNat_toNat]
  have hl : (ByteWriter.u64 v).length = 8 := length_leBytes 8 v.toNat
  rwa [hv, hl] at h

theorem Reads.flag (v : Bool) : Reads flag (ByteWriter.flag v) v := by
  have h := (Reads.u8 (if v then 1 else 0)).map fun b : UInt8 => decide (b ≠ 0)
  have hv : decide ((if v then 1 else 0 : UInt8) ≠ 0) = v := by cases v <;> decide
  rwa [hv] at h

/-- **A string of accepted length reads back.** -/
theorem Reads.str (s : Str) (hs : s.length ≤ maxStr) : Reads str (ByteWriter.str s) s := by
  have hlen : (UInt32.ofNat s.length).toNat = s.length := by
    have hlt : s.length < 2 ^ 32 := by unfold maxStr at hs; omega
    rw [UInt32.toNat_ofNat', Nat.mod_eq_of_lt hlt]
  refine (Reads.u32 (UInt32.ofNat s.length)).bind ?_
  intro r rest hdrop hpos
  have hahead := length_ahead hdrop hpos
  have hrem : s.length ≤ r.remaining := by
    unfold ByteReader.remaining
    omega
  rw [hlen]
  unfold strBody
  rw [if_neg (not_lt.mpr hrem), if_neg (not_lt.mpr hs)]
  exact Reads.take s _ r rest hdrop hpos

/-- Items written one after the other read back one after the other. -/
theorem Reads.many {p : Read α} {w : α → List UInt8} :
    ∀ (as : List α), (∀ a ∈ as, Reads p (w a) a) → Reads (many p as.length) (as.flatMap w) as := by
  intro as
  induction as with
  | nil => intro _; exact Reads.pure []
  | cons a as ih =>
    intro h
    have hrest := ih fun x hx => h x (List.mem_cons_of_mem _ hx)
    exact (h a List.mem_cons_self).bind (hrest.map fun as => a :: as)

/-! ### Reading and refusing -/

/-- Standing before `bs`, `p` gives up, whatever follows, in a buffer whose length a 32-bit count can hold. -/
def Refuses (p : Read α) (bs : List UInt8) : Prop :=
  ∀ (r : ByteReader) (rest : List UInt8), r.buf.drop r.pos = bs ++ rest → r.pos ≤ r.buf.length →
    r.buf.length < 2 ^ 32 → (p r).1 = none

/-- Standing before `bs`, `p` reads `v` if `P` holds and refuses otherwise. -/
structure Decides (p : Read α) (bs : List UInt8) (v : α) (P : Prop) : Prop where
  reads   : P → Reads p bs v
  refuses : ¬ P → Refuses p bs

theorem Reads.decides {p : Read α} {bs : List UInt8} {v : α} (h : Reads p bs v) : Decides p bs v True :=
  ⟨fun _ => h, fun hno => absurd trivial hno⟩

theorem Decides.congr {p : Read α} {bs : List UInt8} {v : α} {P Q : Prop} (h : Decides p bs v P) (hiff : P ↔ Q) :
    Decides p bs v Q :=
  ⟨fun hq => h.reads (hiff.mpr hq), fun hno => h.refuses fun hp => hno (hiff.mp hp)⟩

/-- **Deciding composes**: the second part is reached if the first one reads. -/
theorem Decides.bind {p : Read α} {f : α → Read β} {bs bs' : List UInt8} {a : α} {b : β} {P Q : Prop}
    (hp : Decides p bs a P) (hf : Decides (f a) bs' b Q) : Decides (p >>= f) (bs ++ bs') b (P ∧ Q) := by
  refine ⟨fun hboth => (hp.reads hboth.1).bind (hf.reads hboth.2), ?_⟩
  intro hno r rest hdrop hpos hsmall
  by_cases hP : P
  · have hQ : ¬ Q := fun hQ => hno ⟨hP, hQ⟩
    obtain ⟨hread, hnext, hle⟩ := (hp.reads hP).next f hdrop hpos
    rw [hread]
    exact hf.refuses hQ { r with pos := r.pos + bs.length } rest hnext hle hsmall
  · rw [List.append_assoc] at hdrop
    have hnone := hp.refuses hP r (bs' ++ rest) hdrop hpos hsmall
    exact bind_none f hnone

/-- A part that always reads decides nothing. -/
theorem Reads.bind_decides {p : Read α} {f : α → Read β} {bs bs' : List UInt8} {a : α} {b : β} {Q : Prop}
    (hp : Reads p bs a) (hf : Decides (f a) bs' b Q) : Decides (p >>= f) (bs ++ bs') b Q :=
  (hp.decides.bind hf).congr (and_iff_right trivial)

theorem Decides.map {p : Read α} {bs : List UInt8} {a : α} {P : Prop} (f : α → β) (hp : Decides p bs a P) :
    Decides (do return f (← p)) bs (f a) P := by
  have h : Decides (p >>= fun x => Pure.pure (f x)) (bs ++ []) (f a) (P ∧ True) :=
    hp.bind (Reads.pure (f a)).decides
  rw [List.append_nil] at h
  exact h.congr (and_iff_left trivial)

/-- Standing before `bs`, `p` gives up, whatever follows and however long the buffer is. -/
def Rejects (p : Read α) (bs : List UInt8) : Prop :=
  ∀ (r : ByteReader) (rest : List UInt8), r.buf.drop r.pos = bs ++ rest → r.pos ≤ r.buf.length → (p r).1 = none

/-- A part that gives up ends the whole. -/
theorem Rejects.bind {p : Read α} (f : α → Read β) {bs : List UInt8} (hp : Rejects p bs) : Rejects (p >>= f) bs := by
  intro r rest hdrop hpos
  exact bind_none f (hp r rest hdrop hpos)

/-- What gives up before some bytes gives up before more of them. -/
theorem Rejects.append {p : Read α} {bs : List UInt8} (hp : Rejects p bs) (bs' : List UInt8) :
    Rejects p (bs ++ bs') := by
  intro r rest hdrop hpos
  rw [List.append_assoc] at hdrop
  exact hp r (bs' ++ rest) hdrop hpos

/-- The second part is reached when the first one reads. -/
theorem Reads.bind_rejects {p : Read α} {f : α → Read β} {bs bs' : List UInt8} {a : α}
    (hp : Reads p bs a) (hf : Rejects (f a) bs') : Rejects (p >>= f) (bs ++ bs') := by
  intro r rest hdrop hpos
  obtain ⟨hread, hnext, hle⟩ := hp.next f hdrop hpos
  rw [hread]
  exact hf { r with pos := r.pos + bs.length } rest hnext hle

/-- A string that is too long, but whose length is not truncated, is rejected. -/
theorem Rejects.str {s : Str} (hlong : maxStr < s.length) (hs : s.length < 2 ^ 32) :
    Rejects str (ByteWriter.str s) := by
  have hlen : (UInt32.ofNat s.length).toNat = s.length := by
    rw [UInt32.toNat_ofNat', Nat.mod_eq_of_lt hs]
  refine (Reads.u32 (UInt32.ofNat s.length)).bind_rejects ?_
  intro r rest _ _
  rw [hlen]
  unfold strBody
  rw [if_pos hlong]
  split
  · rfl
  · rfl

/-- **A string is read exactly if its length is accepted.** -/
theorem Decides.str (s : Str) : Decides str (ByteWriter.str s) s (s.length ≤ maxStr) := by
  refine ⟨Reads.str s, ?_⟩
  intro hlong r rest hdrop hpos hsmall
  -- the string is in the buffer, so its length has not been truncated
  have hahead := length_ahead hdrop hpos
  have hs : s.length < 2 ^ 32 := by
    rw [ByteWriter.str, List.length_append] at hahead
    omega
  exact Rejects.str (not_le.mp hlong) hs r rest hdrop hpos

/-! ### Inversion

What is known once a read has succeeded. -/

/-- Both parts have been read, the second one from where the first one stopped. -/
theorem bind_some {p : Read α} {f : α → Read β} {r r' : ByteReader} {b : β} (h : (p >>= f) r = (some b, r')) :
    ∃ a mid, p r = (some a, mid) ∧ f a mid = (some b, r') := by
  rw [bind_apply] at h
  split at h
  · next a mid hread => exact ⟨a, mid, hread, h⟩
  · exact absurd (congrArg Prod.fst h) (by simp)

theorem pure_some {a b : α} {r r' : ByteReader} (h : (pure a : Read α) r = (some b, r')) : b = a ∧ r' = r := by
  obtain ⟨hb, hr⟩ := Prod.mk.inj h
  exact ⟨(Option.some.inj hb).symm, hr.symm⟩

theorem reject_some {a : α} {r r' : ByteReader} : ¬ (reject : Read α) r = (some a, r') := by
  intro h
  exact absurd (congrArg Prod.fst h) (by simp [reject])

theorem fail_some {msg : String} {a : α} {r r' : ByteReader} : ¬ (fail msg : Read α) r = (some a, r') := by
  intro h
  exact absurd (congrArg Prod.fst h) (by simp [fail])

/-- What a read of `n` bytes gives. -/
theorem take_some {n : Nat} {msg : String} {r r' : ByteReader} {bytes : List UInt8}
    (h : take n msg r = (some bytes, r')) :
    bytes = (r.buf.drop r.pos).take n ∧ r' = { r with pos := r.pos + n } ∧ r.pos + n ≤ r.buf.length := by
  unfold Read.take at h
  split at h
  · exact absurd h fail_some
  next hlen =>
  obtain ⟨hbytes, rfl⟩ := Prod.mk.inj h
  exact ⟨(Option.some.inj hbytes).symm, rfl, Nat.le_of_not_lt hlen⟩

/-- What a read of `n` bytes as a value gives. -/
theorem value_some {n : Nat} {msg : String} {f : List UInt8 → α} {r r' : ByteReader} {a : α}
    (h : (do return f (← take n msg) : Read α) r = (some a, r')) :
    a = f ((r.buf.drop r.pos).take n) ∧ r' = { r with pos := r.pos + n } ∧ r.pos + n ≤ r.buf.length := by
  obtain ⟨bytes, mid, htake, hpure⟩ := bind_some h
  obtain ⟨rfl, rfl, hlen⟩ := take_some htake
  obtain ⟨rfl, rfl⟩ := pure_some hpure
  exact ⟨rfl, rfl, hlen⟩

/-- A string that is read is short, and there. -/
theorem strBody_some {len : Nat} {s : Str} {r r' : ByteReader} (h : strBody len r = (some s, r')) :
    len ≤ maxStr ∧ len ≤ r.remaining ∧ take len "string length exceeds remaining" r = (some s, r') := by
  unfold strBody at h
  split at h
  · exact absurd h fail_some
  next hrem =>
  split at h
  · exact absurd h fail_some
  next hmax => exact ⟨Nat.le_of_not_lt hmax, Nat.le_of_not_lt hrem, h⟩

end Read

end NVSwitchFabric
