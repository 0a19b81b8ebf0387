import NVSwitchFabric.Lib.Logged
import NVSwitchFabric.Model.Persistence
import NVSwitchFabric.Model.Programs
import NVSwitchFabric.Runtime.Transport

/-!
# `Runtime.Access` — which bytes the parsers touch

The parsers as computations that log every access to a buffer and every position of a reader. Nothing here checks an
access: the guards are those of the source, and a use of bytes that are not there is logged as any other.

A parser that goes through `ByteReader` is given by its `Program`, and `Program.run` is `ByteReader` as wire.cpp has it.
`deserialize`, `decodeFrame` and `FrameStream::feed` have offsets of their own and are written out.

A difference of two `size_t` wraps (`sizeSub`). Their sums are those of numbers: what is added to an offset is below
`2 ^ 33`, and no object has a size of `2 ^ 63`.
-/

namespace NVSwitchFabric

open Lib

/-! ## Accesses -/

/-- What is done to a buffer of `size` bytes. -/
inductive Access where
  /-- The `count` bytes from index `start` on are used. -/
  | bytes (start count size : Nat)
  /-- A reader of it stands at `pos`. -/
  | position (pos size : Nat)
deriving DecidableEq

/-- Every index is below the size, and a position is at most the size. -/
def Access.InBounds : Access → Prop
  | bytes start count size => start + count ≤ size
  | position pos size      => pos ≤ size

/-- The access as one to a buffer of `size` bytes, of which its own is the part from `offset` on. A position remains one
    in the part. -/
def Access.inside (offset size : Nat) : Access → Access
  | bytes start count _ => bytes (offset + start) count size
  | position pos size   => position pos size

/-- `a - b` in `size_t`. -/
def sizeSub (a b : Nat) : Nat := if b ≤ a then a - b else 2 ^ 64 - (b - a)

/-- Computations on buffers. -/
abbrev Traced : Type → Type := Logged Access

namespace Traced

/-- The `count` bytes from `start` on. -/
def range (data : List UInt8) (start count : Nat) : Traced (List UInt8) := do
  tell [.bytes start count data.length]
  return (data.drop start).take count

def byte (data : List UInt8) (i : Nat) : Traced UInt8 := do
  tell [.bytes i 1 data.length]
  return data.getD i 0

/-- The loop over four bytes that puts a word together. -/
def word (data : List UInt8) (i : Nat) : Traced UInt32 := do return UInt32.ofNat (leValue (← range data i 4))

/-- `crc32(data + start, count)`. -/
def checksum (data : List UInt8) (start count : Nat) : Traced UInt32 := do return crc32 (← range data start count)

end Traced

/-! ## ByteReader -/

namespace ByteReader

/-- `fail`. -/
def fail {α : Type} (msg : String) (r : ByteReader) : Traced (Option α × ByteReader) := do
  tell [.position r.pos r.buf.length]
  return (none, { r with ok := false, err := msg })

/-- Use the next `n` bytes and go past them. -/
def advance (n : Nat) (r : ByteReader) : Traced (Option (List UInt8) × ByteReader) := do
  let bytes ← Traced.range r.buf r.pos n
  tell [.position (r.pos + n) r.buf.length]
  return (some bytes, { r with pos := r.pos + n })

/-- Go past the next `n` bytes. -/
def pass (n : Nat) (r : ByteReader) : Traced (Option Unit × ByteReader) := do
  tell [.position (r.pos + n) r.buf.length]
  return (some (), { r with pos := r.pos + n })

end ByteReader

namespace Read.Program

/-- The functions of `ByteReader`, with their guards. -/
def run : {α : Type} → {p : Read α} → Program p → ByteReader → Traced (Option α × ByteReader)
  | _, _, .pure a, r            => return (some a, r)
  | _, _, .bind c k, r          => do
    match ← run c r with
    | (some a, r') => run (k a) r'
    | (none, r')   => return (none, r')
  | _, _, @ite _ _ _ b _ c d, r => if b then run c r else run d r
  | _, _, .reject, r            => return (none, r)
  | _, _, .word n msg, r        => if r.buf.length < r.pos + n then r.fail msg else r.advance n
  | _, _, .bytes n, r           =>
    if sizeSub r.buf.length r.pos < n then r.fail "bytes length exceeds remaining" else r.advance n
  | _, _, .skip n, r            =>
    if sizeSub r.buf.length r.pos < n then r.fail "skip exceeds remaining" else r.pass n
  | _, _, .strBody len, r       =>
    if sizeSub r.buf.length r.pos < len then r.fail "string length exceeds remaining"
    else if maxStr < len then r.fail "string length absurd"
    else r.advance len

/-! ### Policies -/

def double : Program Read.double := map _ u64

def factor : Program readFactor := .bind u8 fun _ => map _ double

def policy : Program decodePolicy :=
  .bind strId fun _ => .bind flag fun _ => .bind flag fun _ => .bind flag fun _ => .bind flag fun _ => .bind u64 fun _ =>
    .bind u64 fun _ => .bind double fun _ => .bind flag fun _ => .bind flag fun _ => .bind u64 fun _ =>
    .bind u32 fun fc => .ite _ .reject (map _ (many factor fc.toNat))

end Read.Program

/-! ## The parsers -/

namespace Traced

/-- `Persistence::decodeTopology`. -/
def decodeTopology (blob : List UInt8) : Traced (Result FabricTopology) := do
  match ← Read.Program.topologyPayload.run { buf := blob } with
  | (none, _)   => return .error integrityErr
  | (some t, r) =>
    if !r.ok then return .error integrityErr
    else if !r.eof then return .error integrityErr
    else match t.checkIntegrity with
      | []     => return .ok t
      | v :: _ => return .error ⟨.integrityFailure, v⟩

/-- The part of `deserialize` from where its reader has gone past the header. -/
def readPayload (data : List UInt8) (headPos : Nat) : Traced (Result FabricRegistry) :=
  let payloadLen := sizeSub (sizeSub data.length headPos) 4
  if payloadLen = 0 then return .error integrityErr
  else do
    let payloadCrc ← checksum data headPos payloadLen
    let storedCrc ← word data (headPos + payloadLen)
    if storedCrc ≠ payloadCrc then return .error integrityErr
    else
      match ← Logged.relog (.inside headPos data.length) (decodeTopology ((data.drop headPos).take payloadLen)) with
      | .error e => return .error e
      | .ok topo => return .ok (restored topo)

/-- `Persistence::deserialize`. -/
def deserialize (data : List UInt8) : Traced (Result FabricRegistry) :=
  if data.length < 8 + 4 + 4 + 4 then return .error integrityErr
  else do
    match ← (Read.Program.bytes 8).run { buf := data } with
    | (none, _)     => return .error integrityErr
    | (some mag, r) =>
      if mag ≠ kMagic then return .error integrityErr
      else
        match ← Read.Program.u32.run r with
        | (none, _)     => return .error integrityErr
        | (some ver, r) =>
          if ver ≠ kFormatVersion then
            if kFormatVersion < ver then return .error unsupportedFuture else return .error integrityErr
          else
            match ← Read.Program.u32.run r with
            | (none, _)        => return .error integrityErr
            | (some hdrCrc, r) =>
              let crc ← checksum data 0 12
              if crc ≠ hdrCrc then return .error integrityErr else readPayload data r.pos

/-- The type, the payload length and the header CRC of a frame, if its header fields are acceptable. -/
def frameFields (data : List UInt8) : Traced (Result (MsgType × Nat × UInt32)) := do
  let magic ← word data 0
  let ver ← byte data 4
  let type ← byte data 5
  let length ← word data 8
  let hdrCrc ← word data 12
  if magic ≠ kFrameMagic then return .error ⟨.protocolError, "bad frame magic"⟩
  else if ver ≠ kFrameVersion then return .error ⟨.protocolError, "unsupported frame version"⟩
  else if !validMsgType type then return .error ⟨.protocolError, "invalid frame type"⟩
  else if Limits.kMaxFrameBytes < length.toNat then return .error ⟨.resourceLimit, "frame length absurd"⟩
  else return .ok (.ofByte type, length.toNat, hdrCrc)

/-- `decodeFrame`. -/
def decodeFrame (data : List UInt8) : Traced (Result Frame) :=
  if data.length < kHeader then return .error ⟨.protocolError, "frame too short"⟩
  else do
    match ← frameFields data with
    | .error e                    => return .error e
    | .ok (type, length, hdrCrc) =>
      let crc ← checksum data 0 12
      if crc ≠ hdrCrc then return .error ⟨.integrityFailure, "frame header crc"⟩
      else if data.length < kHeader + length + 4 then return .error ⟨.protocolError, "truncated frame"⟩
      else
        let payCrc ← word data (kHeader + length)
        let crc ← checksum data kHeader length
        if crc ≠ payCrc then return .error ⟨.integrityFailure, "frame payload crc"⟩
        else
          let payload ← range data kHeader length
          return .ok { type := type, payload := payload }

/-- One round of the loop of `FrameStream::feed`. -/
def frameHead (buf : List UInt8) : Traced (Head UInt8 Frame Error) :=
  if buf.length < kHeader then return .more
  else do
    match ← frameFields buf with
    | .error e                    => return .bad e
    | .ok (type, length, hdrCrc) =>
      let total := kHeader + length + 4
      if buf.length < total then return .more
      else
        let crc ← checksum buf 0 12
        if crc ≠ hdrCrc then return .bad ⟨.integrityFailure, "frame header crc"⟩
        else
          let payCrc ← word buf (kHeader + length)
          let crc ← checksum buf kHeader length
          if crc ≠ payCrc then return .bad ⟨.integrityFailure, "frame payload crc"⟩
          else
            let payload ← range buf kHeader length
            -- the bytes of the frame are erased
            tell [.bytes 0 total buf.length]
            return .item { type := type, payload := payload } (buf.drop total)

/-- The loop, for at most `rounds` rounds. -/
def drain : Nat → List UInt8 → Traced (List Frame × FrameStream)
  | 0, buf          => return ([], { buf := buf })
  | rounds + 1, buf => do
    match ← frameHead buf with
    | .more        => return ([], { buf := buf })
    | .bad e       => return ([], { buf := buf, err := some e })
    | .item f rest =>
      let drained ← drain rounds rest
      return (f :: drained.1, drained.2)

/-- `FrameStream::feed`. -/
def feed (stream : FrameStream) (data : List UInt8) : Traced (List Frame × FrameStream) :=
  if stream.err.isSome then return ([], stream)
  else do
    let chunk ← range data 0 data.length
    let buf := stream.buf ++ chunk
    drain (buf.length + 1) buf

/-- `decodePolicy`. -/
def decodePolicy (payload : List UInt8) : Traced (Option RoutePolicy) := do
  return (← Read.Program.policy.run { buf := payload }).1

end Traced

end NVSwitchFabric
