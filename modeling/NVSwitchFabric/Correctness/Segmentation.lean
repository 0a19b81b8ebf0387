import NVSwitchFabric.Correctness.FrameRoundTrip
import NVSwitchFabric.Runtime.Coordinator

/-!
# `Correctness.Segmentation` — what depends on how a connection is cut into receives

`handleConnection` handles the frames of a receive after the stream has taken all of it, and not at all if the stream
fails on it. So the frames it handles are the ones that an incremental parser keeps when it drops those of the failing
chunk (`receiveLoop_eq`), and `segmentation_iff` says on which byte streams that is the same for all receives: those in
which no run of frames is followed by a malformed one that shows within a receive.
-/

namespace NVSwitchFabric

open Lib

/-- The frames that `handleConnection` handles. -/
def handledFrames (stream : FrameStream) (chunks : List (List UInt8)) : List Frame := framing.kept stream chunks

/-- A cut of a byte stream into receives. -/
abbrev Receives (input : List UInt8) (chunks : List (List UInt8)) : Prop :=
  Framing.Cut Coordinator.kReceiveBuffer input chunks

/-- A run of frames is followed by a malformed one, which shows in one byte less than a receive can deliver. -/
def FaultAfterFrames (input : List UInt8) : Prop :=
  ∃ (parts : List (List UInt8)) (rest : List UInt8) (e : Error), parts ≠ [] ∧
    (∀ part ∈ parts, ∃ f, frameHead part = .item f []) ∧ input = parts.flatten ++ rest ∧
    frameHead (rest.take (Coordinator.kReceiveBuffer - 1)) = .bad e

namespace Coordinator

theorem handleFrames_append (c : Coordinator) (id : Nat) (clock : Nat → UInt64) (n : Nat) (frames later : List Frame) :
    c.handleFrames id clock n (frames ++ later) =
      (c.handleFrames id clock n frames).handleFrames id clock (n + frames.length) later := by
  induction frames generalizing c n with
  | nil => rfl
  | cons f frames ih =>
    show (c.step _).handleFrames id clock (n + 1) (frames ++ later) = _
    rw [ih, List.length_cons, Nat.add_right_comm, Nat.add_assoc]
    rfl

/-- **The loop handles the frames that are kept**, in order. -/
theorem receiveLoop_eq (c : Coordinator) (id : Nat) (clock : Nat → UInt64) (n : Nat) (stream : FrameStream)
    (chunks : List (List UInt8)) :
    c.receiveLoop id clock n stream chunks = c.handleFrames id clock n (handledFrames stream chunks) := by
  induction chunks generalizing c n stream with
  | nil => rfl
  | cons chunk chunks ih =>
    have hok : (!(stream.feed chunk).2.ok) = (stream.feed chunk).2.err.isSome := by
      unfold FrameStream.ok
      cases (stream.feed chunk).2.err <;> rfl
    show (if (!(stream.feed chunk).2.ok) = true then c else _) =
      c.handleFrames id clock n (if (stream.feed chunk).2.err.isSome = true then [] else _)
    rw [hok]
    split
    · rfl
    · rw [ih, handleFrames_append]
      rfl

/-- **When segmentation is immaterial.** All ways to receive a byte stream make `handleConnection` handle the same frames,
    and so bring a coordinator to the same state before and after the close, exactly if no run of frames is followed by a
    malformed one that shows within a receive. -/
theorem segmentation_iff (input : List UInt8) :
    (∀ chunks chunks', Receives input chunks → Receives input chunks' →
      handledFrames {} chunks = handledFrames {} chunks' ∧
      ∀ (c : Coordinator) (id : Nat) (clock : Nat → UInt64),
        c.receiveLoop id clock 0 {} chunks = c.receiveLoop id clock 0 {} chunks' ∧
        c.handleConnection id clock chunks = c.handleConnection id clock chunks') ↔ ¬ FaultAfterFrames input := by
  have hiff := @Framing.kept_same_iff UInt8 Frame Error framing (kReceiveBuffer - 1) input
  constructor
  · intro hsame
    exact hiff.mp fun chunks chunks' hcut hcut' => (hsame chunks chunks' hcut hcut').1
  · intro hnot chunks chunks' hcut hcut'
    have hframes : handledFrames {} chunks = handledFrames {} chunks' := hiff.mpr hnot chunks chunks' hcut hcut'
    refine ⟨hframes, fun c id clock => ?_⟩
    have hloop : c.receiveLoop id clock 0 {} chunks = c.receiveLoop id clock 0 {} chunks' := by
      rw [receiveLoop_eq, receiveLoop_eq, hframes]
    exact ⟨hloop, congrArg (·.step (.close id)) hloop⟩

/-! ## A frame that is dropped -/

/-- A header's length of zeros, which no frame begins with. -/
def garbage : List UInt8 := List.replicate 16 0

theorem garbage_bad : ∃ e, frameHead garbage = .bad e := ⟨_, rfl⟩

/-- A frame and garbage: received apart, the frame is handled; received together, it is not. -/
theorem handledFrames_garbage {f : Frame} (h : f.payload.length ≤ Limits.kMaxFrameBytes) :
    handledFrames {} [encodeFrame f, garbage] = [f] ∧ handledFrames {} [encodeFrame f ++ garbage] = [] := by
  obtain ⟨e, he⟩ : ∃ e, framing.head garbage = .bad e := garbage_bad
  have hframe : framing.feed {} (encodeFrame f) = ([f], {}) := by
    have hone := FrameStream.drain_encoded [f] (by simpa using h)
    rw [List.flatMap_singleton] at hone
    exact (FrameStream.feed_fresh _).trans hone
  have hgarbage : (framing.feed {} garbage).2.err = some e := by
    rw [Framing.settled_fresh.feed]
    exact congrArg (·.2.err) (Framing.drain_bad he)
  have hboth : (framing.feed {} (encodeFrame f ++ garbage)).2.err = some e := by
    rw [Framing.settled_fresh.feed_append garbage (by rw [hframe]), hframe]
    exact hgarbage
  constructor
  · show (if (framing.feed {} (encodeFrame f)).2.err.isSome then [] else
      (framing.feed {} (encodeFrame f)).1 ++ framing.kept (framing.feed {} (encodeFrame f)).2 [garbage]) = [f]
    rw [hframe]
    show [f] ++ (if (framing.feed {} garbage).2.err.isSome then [] else _) = [f]
    rw [hgarbage]
    rfl
  · show (if (framing.feed {} (encodeFrame f ++ garbage)).2.err.isSome then [] else _) = []
    rw [hboth]
    rfl

/-- A short frame and garbage, received apart and together. -/
theorem receives_garbage {f : Frame} (h : f.payload.length ≤ 4000) :
    Receives (encodeFrame f ++ garbage) [encodeFrame f, garbage] ∧
      Receives (encodeFrame f ++ garbage) [encodeFrame f ++ garbage] := by
  have hlen : (encodeFrame f).length = 16 + f.payload.length + 4 := length_encodeFrame f
  have hgarbage : garbage.length = 16 := List.length_replicate
  have hne : ∀ {bytes : List UInt8}, 0 < bytes.length → bytes ≠ [] := fun hpos => List.ne_nil_of_length_pos hpos
  refine ⟨⟨?_, ?_⟩, ⟨List.flatten_singleton, ?_⟩⟩
  · rw [List.flatten_cons, List.flatten_singleton]
  · intro c hc
    rcases List.mem_cons.mp hc with rfl | hc
    · exact ⟨hne (by omega), by rw [hlen, kReceiveBuffer]; omega⟩
    · obtain rfl := List.mem_singleton.mp hc
      exact ⟨hne (by omega), by rw [hgarbage, kReceiveBuffer]; omega⟩
  · intro c hc
    obtain rfl := List.mem_singleton.mp hc
    exact ⟨hne (by rw [List.length_append]; omega), by rw [List.length_append, kReceiveBuffer]; omega⟩

/-- The registration of a worker followed by garbage: whether its boot is recorded depends on the receives. -/
theorem register_dropped :
    let f : Frame := { type := .register, payload := encodeRegister 1 ⟨ascii "w"⟩ 7 }
    let c := (fresh 1 [] .empty).step .accept
    let apart := [encodeFrame f, garbage]
    let together := [encodeFrame f ++ garbage]
    (Receives (encodeFrame f ++ garbage) apart ∧ Receives (encodeFrame f ++ garbage) together) ∧
      handledFrames {} apart = [f] ∧ handledFrames {} together = [] ∧
      (c.handleConnection 0 (fun _ => 0) apart).maxBoot.find? ⟨ascii "w"⟩ = some 7 ∧
      (c.handleConnection 0 (fun _ => 0) together).maxBoot.find? ⟨ascii "w"⟩ = none := by
  intro f c apart together
  have hpayload : f.payload.length = 22 := by decide
  have hlimit : f.payload.length ≤ Limits.kMaxFrameBytes := by rw [hpayload, Limits.kMaxFrameBytes]; omega
  obtain ⟨happart, htogether⟩ := handledFrames_garbage hlimit
  refine ⟨receives_garbage (by omega), happart, htogether, ?_, ?_⟩
  · show ((c.receiveLoop 0 (fun _ => 0) 0 {} [encodeFrame f, garbage]).step (.close 0)).maxBoot.find? _ = some 7
    rw [receiveLoop_eq, happart]
    decide +kernel
  · show ((c.receiveLoop 0 (fun _ => 0) 0 {} [encodeFrame f ++ garbage]).step (.close 0)).maxBoot.find? _ = none
    rw [receiveLoop_eq, htogether]
    decide +kernel

end Coordinator

end NVSwitchFabric
