import NVSwitchFabric.Model.Codec

/-!
# `Model.Programs` — how the readers are written

A `Read` is a function, which does not say how it came about. A `Program p` says how the read `p` is written with the
member functions of `ByteReader`; the programs here are those of the record codecs and of the topology payload. A fact
about all reads of the codec is shown once, by induction on programs.
-/

namespace NVSwitchFabric

open Lib

namespace Read

variable {α β κ : Type}

/-- How a read is written with the functions of `ByteReader`. -/
inductive Program : {α : Type} → Read α → Type 1 where
  | pure {α : Type} (a : α) : Program (Pure.pure a)
  | bind {α β : Type} {p : Read α} {f : α → Read β} : Program p → (∀ a, Program (f a)) → Program (p >>= f)
  | ite {α : Type} {p q : Read α} (c : Prop) [Decidable c] : Program p → Program q → Program (if c then p else q)
  /-- The caller gives up. -/
  | reject {α : Type} : Program (Read.reject : Read α)
  /-- `u8`, `u16`, `u32` and `u64`, which differ in their width and message. -/
  | word (n : Nat) (msg : String) : Program (take n msg)
  | bytes (n : Nat) : Program (Read.bytes n)
  | skip (n : Nat) : Program (Read.skip n)
  /-- What `str` does once it has the length. -/
  | strBody (len : Nat) : Program (Read.strBody len)

namespace Program

/-! ## Fields -/

def map {p : Read α} (f : α → β) (c : Program p) : Program (do return f (← p)) := .bind c fun a => .pure (f a)

def u8 : Program Read.u8 := map _ (.word 1 _)
def u32 : Program Read.u32 := map _ (.word 4 _)
def u64 : Program Read.u64 := map _ (.word 8 _)
def str : Program Read.str := .bind u32 fun len => .strBody len.toNat
def flag : Program Read.flag := map _ u8

def ident {Tag : Type} : Program (Read.ident : Read (Id Tag)) := map _ u64
def gen {Tag : Type} : Program (Read.gen : Read (Gen Tag)) := map _ u64
def strId {Tag : Type} : Program (Read.strId : Read (StringId Tag)) := map _ str
def entityState : Program Read.entityState := map _ u8
def partitionState : Program Read.partitionState := map _ u8
def provenance : Program Read.provenance := map _ u8
def evidenceSource : Program Read.evidenceSource := map _ u8
def endKind : Program Read.endKind := map _ u8

/-! ## Counted items -/

def many {p : Read α} (c : Program p) : ∀ n, Program (Read.many p n)
  | 0     => .pure []
  | n + 1 => .bind c fun _ => map _ (many c n)

def counted {p : Read α} (limit : Nat) (c : Program p) : Program (Read.counted limit p) :=
  .bind u32 fun n => .ite _ .reject (many c n.toNat)

variable [LinearOrder κ]

def entries {p : Read α} (key : α → κ) (c : Program p) : ∀ n m, Program (Read.entries key p n m)
  | 0, m     => .pure m
  | n + 1, m => .bind c fun rec => .ite _ .reject (entries key c n (m.insert (key rec) rec))

def keyedMap {p : Read α} (limit : Nat) (key : α → κ) (c : Program p) : Program (Read.keyedMap limit key p) :=
  .bind u32 fun n => .ite _ .reject (entries key c n.toNat .empty)

/-! ## Records -/

def origin : Program decodeOrigin :=
  .bind strId fun _ => .bind flag fun _ => .bind u64 fun _ => .bind provenance fun _ => .bind evidenceSource fun _ =>
    map _ gen

def linkEnd : Program decodeEnd := .bind endKind fun _ => .bind ident fun _ => map _ ident

def portId : Program decodePortId := .bind ident fun _ => map _ u32

def device : Program decodeDevice :=
  .bind ident fun _ => .bind str fun _ => .bind flag fun _ => .bind flag fun _ => .bind str fun _ => .bind str fun _ =>
    .bind str fun _ => .bind entityState fun _ => .bind strId fun _ => .bind ident fun _ => .bind flag fun _ =>
    map _ origin

def switch : Program decodeSwitch :=
  .bind ident fun _ => .bind gen fun _ => .bind str fun _ => .bind flag fun _ => .bind str fun _ => .bind str fun _ =>
    .bind str fun _ => .bind u32 fun _ => .bind entityState fun _ => .bind strId fun _ => .bind flag fun _ =>
    .bind strId fun _ => .bind flag fun _ => map _ origin

def port : Program decodePort :=
  .bind portId fun _ => .bind gen fun _ => .bind linkEnd fun _ => .bind flag fun _ => .bind entityState fun _ =>
    .bind u32 fun _ => .bind flag fun _ => .bind u64 fun _ => .bind flag fun _ => map _ origin

def link : Program decodeLink :=
  .bind ident fun _ => .bind gen fun _ => .bind ident fun _ => .bind portId fun _ => .bind linkEnd fun _ =>
    .bind flag fun _ => .bind entityState fun _ => .bind flag fun _ => map _ origin

def partition : Program decodePartition :=
  .bind strId fun _ => .bind gen fun _ => .bind strId fun _ => .bind (counted _ ident) fun _ =>
    .bind (counted _ ident) fun _ => .bind partitionState fun _ => map _ origin

/-! ## The payload -/

def topologyPayload : Program decodeTopologyPayload :=
  .bind u64 fun _ => .bind gen fun _ => .bind gen fun _ => .bind u64 fun _ => .bind provenance fun _ => .bind str fun _ =>
    .bind flag fun _ => .bind (keyedMap _ _ device) fun _ => .bind (keyedMap _ _ switch) fun _ =>
    .bind (keyedMap _ _ port) fun _ => .bind (keyedMap _ _ link) fun _ => map _ (keyedMap _ _ partition)

end Program

end Read

end NVSwitchFabric
