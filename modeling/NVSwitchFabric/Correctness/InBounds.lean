import NVSwitchFabric.Runtime.Access

/-!
# `Correctness.InBounds` — the parsers stay inside their buffers

Whatever the bytes are, `deserialize`, `decodeTopology`, `decodeFrame`, `FrameStream::feed` and `decodePolicy` use only
bytes that are there, and no reader goes past the end of its buffer (`parsers_in_bounds`). For what goes through
`ByteReader` this is a fact about `ByteReader`: each of its functions leaves the position within the buffer if it finds
it there, so every `Program` does (`Program.run_within`). The guards that subtract the position from the size rest on
that too, as the difference would wrap.
-/

namespace NVSwitchFabric

open Lib
open Lib.Logged (Upholds)

/-- An access inside a buffer of `n` bytes. -/
def Access.Within (n : Nat) : Access → Prop
  | bytes start count size => size = n ∧ start + count ≤ n
  | position pos size      => size = n ∧ pos ≤ n

theorem Access.Within.inBounds {n : Nat} {a : Access} (h : a.Within n) : a.InBounds := by
  cases a with
  | bytes start count size =>
    obtain ⟨rfl, hle⟩ := h
    exact hle
  | position pos size =>
    obtain ⟨rfl, hle⟩ := h
    exact hle

/-- What stays inside one buffer is in bounds. -/
theorem within_inBounds {α : Type} {n : Nat} {t : Traced α} {a : α} (h : Upholds (Access.Within n) t a) :
    Upholds Access.InBounds t a := h.mono fun _ => Access.Within.inBounds

/-- An access inside a part of a buffer is one inside the buffer. -/
theorem Access.Within.inside {offset part size : Nat} (hpart : offset + part ≤ size) {a : Access}
    (h : a.Within part) : (a.inside offset size).InBounds := by
  cases a with
  | bytes start count n =>
    obtain ⟨_, hle⟩ := h
    show offset + start + count ≤ size
    omega
  | position pos n => exact h.inBounds

theorem sizeSub_of_le {a b : Nat} (h : b ≤ a) : sizeSub a b = a - b := if_pos h

namespace Traced

variable {data : List UInt8}

theorem range_within {start count : Nat} (h : start + count ≤ data.length) :
    Upholds (Access.Within data.length) (range data start count) ((data.drop start).take count) :=
  Upholds.bind (Upholds.tell ⟨rfl, h⟩) (Upholds.pure _)

theorem byte_within {i : Nat} (h : i < data.length) :
    Upholds (Access.Within data.length) (byte data i) (data.getD i 0) :=
  Upholds.bind (Upholds.tell ⟨rfl, h⟩) (Upholds.pure _)

theorem word_within {i : Nat} (h : i + 4 ≤ data.length) :
    Upholds (Access.Within data.length) (word data i) (wordAt data i) := (range_within h).map _

theorem checksum_within {start count : Nat} (h : start + count ≤ data.length) :
    Upholds (Access.Within data.length) (checksum data start count) (crc32 ((data.drop start).take count)) :=
  (range_within h).map _

end Traced

/-! ## ByteReader -/

namespace ByteReader

variable {α : Type} {r : ByteReader}

/-- Telling a position inside the buffer. -/
theorem position_within {pos : Nat} (h : pos ≤ r.buf.length) :
    Upholds (Access.Within r.buf.length) (tell [.position pos r.buf.length] : Traced PUnit) PUnit.unit :=
  Upholds.tell ⟨rfl, h⟩

theorem fail_within (msg : String) (h : r.pos ≤ r.buf.length) :
    Upholds (Access.Within r.buf.length) (r.fail msg) (Read.fail msg r : Option α × ByteReader) :=
  (position_within h).bind (Upholds.pure _)

theorem advance_within {n : Nat} (h : r.pos + n ≤ r.buf.length) :
    Upholds (Access.Within r.buf.length) (r.advance n)
      (some ((r.buf.drop r.pos).take n), { r with pos := r.pos + n }) :=
  (Traced.range_within h).bind <| (position_within h).bind (Upholds.pure _)

theorem pass_within {n : Nat} (h : r.pos + n ≤ r.buf.length) :
    Upholds (Access.Within r.buf.length) (r.pass n) (some (), { r with pos := r.pos + n }) :=
  (position_within h).bind (Upholds.pure _)

end ByteReader

namespace Read

variable {α : Type} {r : ByteReader}

/-- What `run` does with a reader that stands inside its buffer: it returns what the read does, it stays inside, and
    the reader that is returned stands inside the same buffer. -/
structure Program.RunsWithin {p : Read α} (c : Program p) (r : ByteReader) : Prop where
  upholds : Upholds (Access.Within r.buf.length) (c.run r) (p r)
  pos_le  : (p r).2.pos ≤ (p r).2.buf.length
  buf     : (p r).2.buf = r.buf

theorem u32_of_le (h : r.pos + 4 ≤ r.buf.length) :
    u32 r = (some (wordAt r.buf r.pos), { r with pos := r.pos + 4 }) := by
  unfold u32
  rw [bind_apply, take_of_le h]
  rfl

section
variable {β : Type} {p q : Read α} {f : α → Read β} {c : Program p}

theorem Program.RunsWithin.bind {k : ∀ a, Program (f a)} (hc : c.RunsWithin r)
    (hk : ∀ a r', r'.pos ≤ r'.buf.length → (k a).RunsWithin r') : (Program.bind c k).RunsWithin r := by
  obtain ⟨hup, hpos, hbuf⟩ := hc
  rcases hres : p r with ⟨_ | a, r'⟩
  · have hread : (p >>= f) r = (none, r') := by rw [bind_apply, hres]
    rw [hres] at hup hpos hbuf
    have hrun : Upholds (Access.Within r.buf.length) ((Program.bind c k).run r) (none, r') := by
      rw [Program.run]
      exact hup.bind (Upholds.pure _)
    exact ⟨hread ▸ hrun, hread ▸ hpos, hread ▸ hbuf⟩
  · have hread : (p >>= f) r = f a r' := by rw [bind_apply, hres]
    rw [hres] at hup hpos hbuf
    obtain ⟨hup', hpos', hbuf'⟩ := hk a r' hpos
    have hsame : r'.buf = r.buf := hbuf
    rw [hsame] at hup' hbuf'
    have hrun : Upholds (Access.Within r.buf.length) ((Program.bind c k).run r) (f a r') := by
      rw [Program.run]
      exact hup.bind hup'
    exact ⟨hread ▸ hrun, hread ▸ hpos', hread ▸ hbuf'⟩

theorem Program.RunsWithin.ite {b : Prop} [Decidable b] {d : Program q} (hc : c.RunsWithin r) (hd : d.RunsWithin r) :
    (Program.ite b c d).RunsWithin r := by
  by_cases hb : b
  · have hread : (if b then p else q) r = p r := by rw [if_pos hb]
    have hrun : (Program.ite b c d).run r = c.run r := if_pos hb
    exact ⟨hread ▸ hrun ▸ hc.upholds, hread ▸ hc.pos_le, hread ▸ hc.buf⟩
  · have hread : (if b then p else q) r = q r := by rw [if_neg hb]
    have hrun : (Program.ite b c d).run r = d.run r := if_neg hb
    exact ⟨hread ▸ hrun ▸ hd.upholds, hread ▸ hd.pos_le, hread ▸ hd.buf⟩

/-- A function of `ByteReader` that fails leaves the position. -/
theorem Program.RunsWithin.of_fail {msg : String} (hr : r.pos ≤ r.buf.length) (hrun : c.run r = r.fail msg)
    (hread : p r = Read.fail msg r) : c.RunsWithin r := by
  refine ⟨?_, ?_, ?_⟩
  · rw [hrun, hread]
    exact ByteReader.fail_within msg hr
  · rw [hread]
    exact hr
  · rw [hread]
    rfl

/-- One that reads bytes which are there goes past them. -/
theorem Program.RunsWithin.of_advance {p : Read (List UInt8)} {c : Program p} {n : Nat} {msg : String}
    (hle : r.pos + n ≤ r.buf.length) (hrun : c.run r = r.advance n) (hread : p r = take n msg r) :
    c.RunsWithin r := by
  rw [take_of_le hle] at hread
  refine ⟨?_, ?_, ?_⟩
  · rw [hrun, hread]
    exact ByteReader.advance_within hle
  · rw [hread]
    exact hle
  · rw [hread]

theorem Program.RunsWithin.skip {n : Nat} (hr : r.pos ≤ r.buf.length) : (Program.skip n).RunsWithin r := by
  by_cases hlen : sizeSub r.buf.length r.pos < n
  · refine .of_fail hr (if_pos hlen) ?_
    rw [sizeSub_of_le hr] at hlen
    have htake : take n "skip exceeds remaining" r = Read.fail "skip exceeds remaining" r := if_pos (by omega)
    unfold Read.skip
    rw [bind_apply, htake]
    rfl
  · have hrun : (Program.skip n).run r = r.pass n := if_neg hlen
    rw [sizeSub_of_le hr] at hlen
    have hle : r.pos + n ≤ r.buf.length := by omega
    have hread : Read.skip n r = (some (), { r with pos := r.pos + n }) := by
      unfold Read.skip
      rw [bind_apply, take_of_le hle]
      rfl
    refine ⟨?_, ?_, ?_⟩
    · rw [hrun, hread]
      exact ByteReader.pass_within hle
    · rw [hread]
      exact hle
    · rw [hread]

end

/-- **Every program of `ByteReader`'s functions stays inside the buffer.** -/
theorem Program.run_within {p : Read α} (c : Program p) (hr : r.pos ≤ r.buf.length) : c.RunsWithin r := by
  induction c generalizing r with
  | pure a => exact ⟨Upholds.pure _, hr, rfl⟩
  | bind c k ihc ihk => exact (ihc hr).bind fun a r' hr' => ihk a hr'
  | ite b c d ihc ihd => exact (ihc hr).ite (ihd hr)
  | reject => exact ⟨Upholds.pure _, hr, rfl⟩
  | word n msg =>
    by_cases hlen : r.buf.length < r.pos + n
    · exact .of_fail hr (if_pos hlen) (if_pos hlen)
    · exact .of_advance (Nat.le_of_not_lt hlen) (if_neg hlen) rfl
  | bytes n =>
    by_cases hlen : sizeSub r.buf.length r.pos < n
    · refine .of_fail hr (if_pos hlen) (if_pos ?_)
      rw [sizeSub_of_le hr] at hlen
      omega
    · refine .of_advance ?_ (if_neg hlen) rfl
      rw [sizeSub_of_le hr] at hlen
      omega
  | skip n => exact .skip hr
  | strBody len =>
    by_cases hlen : sizeSub r.buf.length r.pos < len
    · refine .of_fail hr (if_pos hlen) (if_pos ?_)
      rw [sizeSub_of_le hr] at hlen
      exact hlen
    have hrem : ¬ r.remaining < len := by
      rw [sizeSub_of_le hr] at hlen
      exact hlen
    by_cases hmax : maxStr < len
    · exact .of_fail hr ((if_neg hlen).trans (if_pos hmax)) ((if_neg hrem).trans (if_pos hmax))
    · refine .of_advance ?_ ((if_neg hlen).trans (if_neg hmax)) ((if_neg hrem).trans (if_neg hmax))
      rw [sizeSub_of_le hr] at hlen
      omega

end Read

/-! ## The parsers -/

namespace Traced

theorem decodePolicy_within (payload : List UInt8) :
    Upholds (Access.Within payload.length) (decodePolicy payload) (NVSwitchFabric.decodePolicy.run? payload) :=
  (Read.Program.policy.run_within (r := { buf := payload }) (Nat.zero_le _)).upholds.map Prod.fst

theorem decodeTopology_within (blob : List UInt8) :
    Upholds (Access.Within blob.length) (decodeTopology blob) (NVSwitchFabric.decodeTopology blob) := by
  have hrun := (Read.Program.topologyPayload.run_within (r := { buf := blob }) (Nat.zero_le _)).upholds
  unfold decodeTopology NVSwitchFabric.decodeTopology
  rcases hres : decodeTopologyPayload { buf := blob } with ⟨_ | t, r⟩
  · rw [hres] at hrun
    exact hrun.bind (Upholds.pure _)
  · rw [hres] at hrun
    refine hrun.bind <| Upholds.ite Iff.rfl (fun _ => Upholds.pure _) fun _ =>
      Upholds.ite Iff.rfl (fun _ => Upholds.pure _) fun _ => ?_
    cases t.checkIntegrity with
    | nil => exact Upholds.pure _
    | cons v vs => exact Upholds.pure _

section
variable {data : List UInt8}

theorem frameFields_within (h : kHeader ≤ data.length) :
    Upholds (Access.Within data.length) (frameFields data)
      ((NVSwitchFabric.frameFields data).map fun fields => (fields.1, fields.2, wordAt data 12)) := by
  have hlen : 16 ≤ data.length := h
  unfold NVSwitchFabric.frameFields
  simp only [apply_ite (Except.map _)]
  exact (word_within (by omega)).bind <| (byte_within (by omega)).bind <| (byte_within (by omega)).bind <|
    (word_within (by omega)).bind <| (word_within (by omega)).bind <|
    Upholds.ite Iff.rfl (fun _ => Upholds.pure _) fun _ => Upholds.ite Iff.rfl (fun _ => Upholds.pure _) fun _ =>
    Upholds.ite Iff.rfl (fun _ => Upholds.pure _) fun _ => Upholds.ite Iff.rfl (fun _ => Upholds.pure _) fun _ =>
    Upholds.pure _

theorem headerCrc_ne_iff : crc32 ((data.drop 0).take 12) ≠ wordAt data 12 ↔ (!headerCrcOk data) = true := by
  unfold headerCrcOk
  rw [List.drop_zero]
  simp

theorem payloadCrc_ne_iff {length : Nat} :
    crc32 ((data.drop kHeader).take length) ≠ wordAt data (kHeader + length) ↔ (!payloadCrcOk data length) = true := by
  unfold payloadCrcOk framePayload
  simp

theorem decodeFrame_within (data : List UInt8) :
    Upholds (Access.Within data.length) (decodeFrame data) (NVSwitchFabric.decodeFrame data) := by
  refine Upholds.ite Iff.rfl (fun _ => Upholds.pure _) fun hshort => ?_
  have hheader : kHeader ≤ data.length := Nat.le_of_not_lt hshort
  have hfields := frameFields_within hheader
  have hlen : 16 ≤ data.length := hheader
  rcases hres : NVSwitchFabric.frameFields data with e | ⟨type, length⟩
  · rw [hres] at hfields
    exact hfields.bind (Upholds.pure _)
  · rw [hres] at hfields
    refine hfields.bind <| (checksum_within (by omega)).bind <|
      Upholds.ite headerCrc_ne_iff (fun _ => Upholds.pure _) fun _ =>
      Upholds.ite Iff.rfl (fun _ => Upholds.pure _) fun hlong => ?_
    exact (word_within (by omega)).bind <| (checksum_within (by omega)).bind <|
      Upholds.ite payloadCrc_ne_iff (fun _ => Upholds.pure _) fun _ =>
      (range_within (by omega)).bind (Upholds.pure _)

theorem frameHead_within (buf : List UInt8) :
    Upholds (Access.Within buf.length) (frameHead buf) (NVSwitchFabric.frameHead buf) := by
  refine Upholds.ite Iff.rfl (fun _ => Upholds.pure _) fun hshort => ?_
  have hheader : kHeader ≤ buf.length := Nat.le_of_not_lt hshort
  have hfields := frameFields_within hheader
  have hlen : 16 ≤ buf.length := hheader
  rcases hres : NVSwitchFabric.frameFields buf with e | ⟨type, length⟩
  · rw [hres] at hfields
    exact hfields.bind (Upholds.pure _)
  · rw [hres] at hfields
    refine hfields.bind <| Upholds.ite Iff.rfl (fun _ => Upholds.pure _) fun hlong =>
      (checksum_within (by omega)).bind <| Upholds.ite headerCrc_ne_iff (fun _ => Upholds.pure _) fun _ => ?_
    exact (word_within (by omega)).bind <| (checksum_within (by omega)).bind <|
      Upholds.ite payloadCrc_ne_iff (fun _ => Upholds.pure _) fun _ =>
      (range_within (by omega)).bind <| Upholds.bind (Upholds.tell ⟨rfl, by omega⟩) (Upholds.pure _)

end

/-- **The loop stays inside what is left of its buffer in each round**, and does not run out of rounds. -/
theorem drain_in_bounds {rounds : Nat} {buf : List UInt8} (h : buf.length < rounds) :
    Upholds Access.InBounds (drain rounds buf) (framing.drain buf) := by
  induction rounds generalizing buf with
  | zero => exact absurd h (Nat.not_lt_zero _)
  | succ rounds ih =>
    have hhead := within_inBounds (frameHead_within buf)
    rcases hres : NVSwitchFabric.frameHead buf with _ | e | ⟨f, rest⟩
    · rw [hres] at hhead
      rw [Framing.drain_more (F := framing) hres]
      exact hhead.bind (Upholds.pure _)
    · rw [hres] at hhead
      rw [Framing.drain_bad (F := framing) hres]
      exact hhead.bind (Upholds.pure _)
    · rw [hres] at hhead
      rw [Framing.drain_item (F := framing) hres]
      have hshorter := framing.shorter hres
      exact hhead.bind <| (ih (by omega)).bind (Upholds.pure _)

theorem feed_in_bounds (stream : FrameStream) (data : List UInt8) :
    Upholds Access.InBounds (feed stream data) (stream.feed data) := by
  refine Upholds.ite Iff.rfl (fun _ => Upholds.pure _) fun _ => ?_
  have hchunk := within_inBounds (range_within (show 0 + data.length ≤ data.length by omega))
  rw [List.drop_zero, List.take_length] at hchunk
  exact hchunk.bind (drain_in_bounds (Nat.lt_succ_self _))

/-- The payload of a file is what lies between the sixteen bytes before it and the four after it. -/
theorem readPayload_in_bounds {data : List UInt8} {headPos : Nat} (h : headPos + 4 ≤ data.length) :
    Upholds Access.InBounds (readPayload data headPos)
      (if data.length - headPos - 4 = 0 then .error integrityErr
      else if wordAt data (headPos + (data.length - headPos - 4)) ≠
          crc32 ((data.drop headPos).take (data.length - headPos - 4)) then .error integrityErr
      else (NVSwitchFabric.decodeTopology ((data.drop headPos).take (data.length - headPos - 4))).map restored) := by
  have hlen : sizeSub (sizeSub data.length headPos) 4 = data.length - headPos - 4 := by
    rw [sizeSub_of_le (by omega : headPos ≤ data.length), sizeSub_of_le (by omega)]
  have hpart : ((data.drop headPos).take (data.length - headPos - 4)).length = data.length - headPos - 4 := by
    rw [List.length_take, List.length_drop]
    omega
  have hinner := (decodeTopology_within ((data.drop headPos).take (data.length - headPos - 4))).relog
    (g := Access.inside headPos data.length) fun _ => Access.Within.inside (by rw [hpart]; omega)
  unfold readPayload
  rw [hlen]
  refine Upholds.ite Iff.rfl (fun _ => Upholds.pure _) fun _ => ?_
  refine (within_inBounds (checksum_within (by omega))).bind <| (within_inBounds (word_within (by omega))).bind <|
    Upholds.ite Iff.rfl (fun _ => Upholds.pure _) fun _ => hinner.bind ?_
  cases NVSwitchFabric.decodeTopology ((data.drop headPos).take (data.length - headPos - 4)) with
  | error e => exact Upholds.pure _
  | ok topo => exact Upholds.pure _

theorem deserialize_in_bounds (data : List UInt8) :
    Upholds Access.InBounds (deserialize data) (NVSwitchFabric.deserialize data) := by
  refine Upholds.ite Iff.rfl (fun _ => Upholds.pure _) fun hshort => ?_
  have hlong : 20 ≤ data.length := Nat.le_of_not_lt hshort
  -- the length test makes sure that the three header fields are there
  have hmag : Read.bytes 8 { buf := data } = (some (data.take 8), { buf := data, pos := 8 }) :=
    Read.take_of_le (show 0 + 8 ≤ data.length by omega)
  have hver : Read.u32 { buf := data, pos := 8 } = (some (wordAt data 8), { buf := data, pos := 12 }) :=
    Read.u32_of_le (show 8 + 4 ≤ data.length by omega)
  have hcrc : Read.u32 { buf := data, pos := 12 } = (some (wordAt data 12), { buf := data, pos := 16 }) :=
    Read.u32_of_le (show 12 + 4 ≤ data.length by omega)
  have hheader : readHeader { buf := data } =
      (some (data.take 8, wordAt data 8, wordAt data 12), { buf := data, pos := 16 }) := by
    unfold readHeader
    rw [Read.bind_apply, hmag]
    dsimp only
    rw [Read.bind_apply, hver]
    dsimp only
    rw [Read.bind_apply, hcrc]
    rfl
  have hrunMag := ((Read.Program.bytes 8).run_within (r := { buf := data }) (Nat.zero_le _)).upholds
  have hrunVer := (Read.Program.u32.run_within (r := { buf := data, pos := 8 })
    (show 8 ≤ data.length by omega)).upholds
  have hrunCrc := (Read.Program.u32.run_within (r := { buf := data, pos := 12 })
    (show 12 ≤ data.length by omega)).upholds
  rw [hmag] at hrunMag
  rw [hver] at hrunVer
  rw [hcrc] at hrunCrc
  rw [hheader]
  refine (within_inBounds hrunMag).bind <| Upholds.ite Iff.rfl (fun _ => Upholds.pure _) fun _ => ?_
  refine (within_inBounds hrunVer).bind <| Upholds.ite Iff.rfl (fun _ => ?_) fun _ => ?_
  · exact Upholds.ite Iff.rfl (fun _ => Upholds.pure _) fun _ => Upholds.pure _
  · refine (within_inBounds hrunCrc).bind <| (within_inBounds (checksum_within (by omega))).bind <|
      Upholds.ite Iff.rfl (fun _ => Upholds.pure _) fun _ => ?_
    have hpayload := readPayload_in_bounds (show 16 + 4 ≤ data.length by omega)
    dsimp only
    cases hdec : NVSwitchFabric.decodeTopology ((data.drop 16).take (data.length - 16 - 4)) with
    | error e =>
      rw [hdec] at hpayload
      exact hpayload
    | ok topo =>
      rw [hdec] at hpayload
      exact hpayload

end Traced

/-- **The parsers stay inside their buffers**, whatever the bytes are. Each returns what the untraced one does; every index
    that it uses is below the size of the buffer it uses it on, checksums included, and every position of a reader is at
    most the size of the reader's buffer. -/
theorem parsers_in_bounds :
    (∀ data, Upholds Access.InBounds (Traced.deserialize data) (deserialize data)) ∧
    (∀ blob, Upholds Access.InBounds (Traced.decodeTopology blob) (decodeTopology blob)) ∧
    (∀ data, Upholds Access.InBounds (Traced.decodeFrame data) (decodeFrame data)) ∧
    (∀ stream data, Upholds Access.InBounds (Traced.feed stream data) (stream.feed data)) ∧
    (∀ payload, Upholds Access.InBounds (Traced.decodePolicy payload) (decodePolicy.run? payload)) :=
  ⟨Traced.deserialize_in_bounds, fun blob => within_inBounds (Traced.decodeTopology_within blob),
    fun data => within_inBounds (Traced.decodeFrame_within data), Traced.feed_in_bounds,
    fun payload => within_inBounds (Traced.decodePolicy_within payload)⟩

end NVSwitchFabric
