import NVSwitchFabric.Correctness.Segmentation
import NVSwitchFabric.Correctness.UsablePaths
import NVSwitchFabric.Runtime.Worker

/-!
# `Correctness.RouteAnswer` — what a worker learns of a decision

A decision is written with its epoch and its generations at the end. `decodeDecision` reads all of it
(`decodeDecision_encodeDecision`); the worker's decoder stops before them, so they are at their defaults in what
`queryRoute` returns. `decision_round_trip_iff` says that nothing else is lost, for every decision the registry makes and
however its frame is cut into receives: such a decision is short (`length_encodeDecision_le`), so its frame is accepted.
-/

namespace NVSwitchFabric

open Lib

/-! ## Decoding what was written -/

namespace Decode

variable {α β : Type}

/-- Standing before `bs`, the decoder consumes exactly them and gives `v`. -/
def Gives (q : Decode α) (bs : List UInt8) (v : α) : Prop :=
  ∀ (r : ByteReader) (rest : List UInt8), r.buf.drop r.pos = bs ++ rest → r.pos ≤ r.buf.length →
    q r = .ok (v, { r with pos := r.pos + bs.length })

theorem Gives.field {p : Read α} {bs : List UInt8} {v : α} (what : String) (h : Read.Reads p bs v) :
    Gives (field what p) bs v := by
  intro r rest hdrop hpos
  unfold Decode.field
  rw [h r rest hdrop hpos]

theorem Gives.pure (v : α) : Gives (Pure.pure v) [] v := by
  intro r rest _ _
  rfl

/-- **Decoding composes as writing does.** -/
theorem Gives.bind {q : Decode α} {f : α → Decode β} {bs bs' : List UInt8} {a : α} {b : β} (hq : Gives q bs a)
    (hf : Gives (f a) bs' b) : Gives (q >>= f) (bs ++ bs') b := by
  intro r rest hdrop hpos
  have hnext := Read.drop_ahead hdrop
  rw [List.append_assoc] at hdrop
  have hlen := Read.length_ahead hdrop hpos
  show (q r >>= fun res => f res.1 res.2) = _
  rw [hq r (bs' ++ rest) hdrop hpos]
  show f a { r with pos := r.pos + bs.length } = _
  rw [hf { r with pos := r.pos + bs.length } rest hnext (by dsimp only; omega), List.length_append, Nat.add_assoc]

/-- What follows in the payload is ignored. -/
theorem Gives.of {q : Decode α} {bs : List UInt8} {v : α} (h : Gives q bs v) (later : List UInt8) :
    q.of (bs ++ later) = .ok v := by
  unfold Decode.of
  rw [h { buf := bs ++ later } later rfl (Nat.zero_le _)]

end Decode

/-- The key of the selected path, as it is written. -/
def RouteDecision.selectedKey (d : RouteDecision) : Str :=
  match d.selected with
  | some p => p.canonicalKey
  | none   => []

/-- The part of an encoded decision that both decoders read. -/
def decisionHead (d : RouteDecision) (later : List UInt8) : List UInt8 :=
  ByteWriter.u8 d.outcome.toByte ++ (ByteWriter.str d.outcomeReason ++ (ByteWriter.str d.selectedKey ++
    (ByteWriter.u32 (UInt32.ofNat d.candidatePaths.length) ++ (ByteWriter.flag d.authoritative ++ later))))

/-- The part that the worker leaves unread. -/
def decisionTail (d : RouteDecision) : List UInt8 :=
  ByteWriter.u64 d.epoch ++ (ByteWriter.gen d.topologyGen ++ (ByteWriter.gen d.partitionGen ++ []))

theorem encodeDecision_eq (d : RouteDecision) : encodeDecision d = decisionHead d [] ++ decisionTail d := by
  unfold decisionHead decisionTail
  simp only [List.append_assoc, List.nil_append]
  rfl

section
open Decode (Gives)
open Read (Reads)

variable {d : RouteDecision}

/-- **The worker's decoder** returns what precedes the epoch, and the defaults for the rest. -/
theorem decodeRouteResult_encodeDecision (hreason : d.outcomeReason.length ≤ Read.maxStr)
    (hkey : d.selectedKey.length ≤ Read.maxStr) (src dst : DeviceId) :
    (decodeRouteResult src dst).of (encodeDecision d) = .ok {
      outcome := d.outcome.toByte
      outcomeReason := d.outcomeReason
      authoritative := d.authoritative
      source := src
      destination := dst
      selected := selectedOf d.selectedKey src dst } := by
  have hgives : Gives (decodeRouteResult src dst) (decisionHead d []) {
      outcome := d.outcome.toByte
      outcomeReason := d.outcomeReason
      authoritative := d.authoritative
      source := src
      destination := dst
      selected := selectedOf d.selectedKey src dst } :=
    (Gives.field _ (Reads.u8 _)).bind <| (Gives.field _ (Reads.str _ hreason)).bind <|
      (Gives.field _ (Reads.str _ hkey)).bind <| (Gives.field _ (Reads.u32 _)).bind <|
      (Gives.field _ (Reads.flag _)).bind <| Gives.pure _
  rw [encodeDecision_eq]
  exact hgives.of (decisionTail d)

/-- **The coordinator's decoder** returns all of it. -/
theorem decodeDecision_encodeDecision (hreason : d.outcomeReason.length ≤ Read.maxStr)
    (hkey : d.selectedKey.length ≤ Read.maxStr) :
    decodeDecision.of (encodeDecision d) = .ok {
      outcome := d.outcome.toByte
      outcomeReason := d.outcomeReason
      authoritative := d.authoritative
      selected := selectedOf d.selectedKey ⟨0⟩ ⟨0⟩
      epoch := d.epoch
      topologyGen := d.topologyGen
      partitionGen := d.partitionGen } := by
  have hgives : Gives decodeDecision (decisionHead d (decisionTail d)) {
      outcome := d.outcome.toByte
      outcomeReason := d.outcomeReason
      authoritative := d.authoritative
      selected := selectedOf d.selectedKey ⟨0⟩ ⟨0⟩
      epoch := d.epoch
      topologyGen := d.topologyGen
      partitionGen := d.partitionGen } :=
    (Gives.field _ (Reads.u8 _)).bind <| (Gives.field _ (Reads.str _ hreason)).bind <|
      (Gives.field _ (Reads.str _ hkey)).bind <| (Gives.field _ (Reads.u32 _)).bind <|
      (Gives.field _ (Reads.flag _)).bind <| (Gives.field _ (Reads.u64 _)).bind <|
      (Gives.field _ (Reads.gen _)).bind <| (Gives.field _ (Reads.gen _)).bind <| Gives.pure _
  have hbytes : encodeDecision d = decisionHead d (decisionTail d) ++ [] := by
    rw [List.append_nil]
    rfl
  rw [hbytes]
  exact hgives.of []

end

/-! ## Receiving an answer -/

namespace Worker

/-- What the worker receives is the first frame of the stream, however it is cut. -/
theorem recvFrame_of_feedAll {w : Worker} {chunks : List (List UInt8)} {f : Frame} {frames : List Frame}
    {s : FrameStream} (hne : ∀ chunk ∈ chunks, chunk ≠ [])
    (h : FrameStream.feedAll w.stream chunks = (f :: frames, s)) (hok : s.err = none) :
    (w.recvFrame chunks).1 = .ok f := by
  induction chunks generalizing w with
  | nil => exact absurd (congrArg Prod.fst h) (by simp [FrameStream.feedAll, Framing.feedAll])
  | cons chunk chunks ih =>
    have hchunk : chunk.isEmpty = false := by
      simpa using hne chunk List.mem_cons_self
    replace h : (if (w.stream.feed chunk).2.err.isSome then w.stream.feed chunk else
        ((w.stream.feed chunk).1 ++ (FrameStream.feedAll (w.stream.feed chunk).2 chunks).1,
          (FrameStream.feedAll (w.stream.feed chunk).2 chunks).2)) = (f :: frames, s) := h
    unfold recvFrame
    rw [hchunk, if_neg (by simp)]
    dsimp only
    cases herr : (w.stream.feed chunk).2.err with
    | some e =>
      rw [if_pos (by rw [herr]; rfl)] at h
      rw [h, hok] at herr
      exact absurd herr (by simp)
    | none =>
      rw [if_neg (by rw [herr]; simp)] at h
      obtain ⟨hframes, hrest⟩ := Prod.mk.inj h
      dsimp only
      cases hfed : (w.stream.feed chunk).1 with
      | nil =>
        rw [hfed, List.nil_append] at hframes
        exact ih (w := { w with stream := (w.stream.feed chunk).2 })
          (fun c hc => hne c (List.mem_cons_of_mem _ hc)) (Prod.ext hframes hrest)
      | cons f' more =>
        rw [hfed, List.cons_append] at hframes
        exact congrArg Except.ok (List.cons.inj hframes).1

/-- A frame of acceptable length is received. -/
theorem recvFrame_encodeFrame {w : Worker} (hw : w.stream = {}) {f : Frame} {chunks : List (List UInt8)}
    (hsize : f.payload.length ≤ Limits.kMaxFrameBytes) (hcut : Receives (encodeFrame f) chunks) :
    (w.recvFrame chunks).1 = .ok f := by
  have hfed : FrameStream.feedAll {} chunks = ([f], {}) := by
    refine Framing.feedAll_one_iff.mpr ?_
    have hhead := frameHead_encodeFrame hsize []
    rwa [List.append_nil, ← hcut.flatten] at hhead
  rw [← hw] at hfed
  exact recvFrame_of_feedAll (fun chunk hchunk => (hcut.sizes chunk hchunk).1) hfed (congrArg Buffered.err hw)

end Worker

/-! ## Decisions are short -/

theorem length_decimal_le {n k : Nat} (hk : 0 < k) (h : n < 10 ^ k) : (decimal n).length ≤ k := by
  unfold decimal
  rw [List.length_map]
  exact (Nat.length_toDigits_le_iff (by decide) hk).mpr h

theorem length_decimal_id {Tag : Type} (i : Id Tag) : (decimal i.value.toNat).length ≤ 20 :=
  length_decimal_le (by decide) (i.value.toNat_lt.trans (by decide))

theorem length_portLabel_le (p : PortId) : (portLabel p).length ≤ 10 := by
  unfold portLabel
  split
  · decide
  · exact length_decimal_le (by decide) (p.index.toNat_lt.trans (by decide))

theorem length_label_le (h : PathHop) : h.label.length ≤ 56 := by
  have hsw := length_decimal_id h.sw
  have hin := length_portLabel_le h.inPort
  have hout := length_portLabel_le h.outPort
  have hexit : (if h.exitToDevice then ascii "dev" else if h.exitToSwitch then ascii "sw" else []).length ≤ 3 := by
    split
    · decide
    · split <;> decide
  have h₁ : (ascii "(").length = 1 := by decide
  have h₂ : (ascii ";in=").length = 4 := by decide
  have h₃ : (ascii ";out=").length = 5 := by decide
  have h₄ : (ascii ";").length = 1 := by decide
  have h₅ : (ascii ")").length = 1 := by decide
  unfold PathHop.label
  simp only [List.length_append]
  omega

theorem length_intercalate_le {α : Type} (sep : List α) {n : Nat} {l : List (List α)} (h : ∀ x ∈ l, x.length ≤ n) :
    (sep.intercalate l).length ≤ l.length * (n + sep.length) := by
  induction l with
  | nil => exact Nat.zero_le _
  | cons x l ih =>
    have hx : x.length ≤ n := h x List.mem_cons_self
    have hrest := ih fun y hy => h y (List.mem_cons_of_mem _ hy)
    cases l with
    | nil =>
      rw [List.intercalate_singleton, List.length_singleton]
      omega
    | cons y l =>
      rw [List.intercalate_cons_cons, List.length_append, List.length_append, List.length_cons, Nat.succ_mul]
      omega

theorem length_canonicalKey_le {p : FabricPath} {n : Nat} (h : p.hops.length ≤ n) :
    p.canonicalKey.length ≤ n * 57 + 62 := by
  have hsrc := length_decimal_id p.source
  have hdst := length_decimal_id p.destination
  have hhops : ((ascii ",").intercalate (p.hops.map PathHop.label)).length ≤ p.hops.length * 57 := by
    have hlabels : ∀ x ∈ p.hops.map PathHop.label, x.length ≤ 56 := by
      intro x hx
      obtain ⟨hop, _, rfl⟩ := List.mem_map.mp hx
      exact length_label_le hop
    have hle := length_intercalate_le (ascii ",") hlabels
    rwa [List.length_map] at hle
  have h₁ : (ascii "path[src=").length = 9 := by decide
  have h₂ : (ascii ",dst=").length = 5 := by decide
  have h₃ : (ascii "]").length = 1 := by decide
  have h₄ : (ascii "\x7bsw=[").length = 5 := by decide
  have h₅ : (ascii "]\x7d").length = 2 := by decide
  unfold FabricPath.canonicalKey
  simp only [List.length_append]
  omega

/-- A key is never empty. -/
theorem canonicalKey_ne_nil (p : FabricPath) : p.canonicalKey ≠ [] := by
  unfold FabricPath.canonicalKey
  simp [ascii]

section
variable {topo : FabricTopology} {src dst : DeviceId} {policy : RoutePolicy} {measurements : List Measurement}

theorem admitEndpoints_reason {o : RouteOutcome} {reason : String} (h : admitEndpoints topo src dst = some (o, reason)) :
    (ascii reason).length ≤ 64 := by
  unfold admitEndpoints at h
  split at h
  · split_ifs at h <;>
      (obtain ⟨rfl, rfl⟩ := Prod.mk.inj (Option.some.inj h); decide)
  · obtain ⟨rfl, rfl⟩ := Prod.mk.inj (Option.some.inj h)
    decide

theorem noPathOutcome_reason (r : Reachability) : (ascii (noPathOutcome r).2).length ≤ 64 := by
  cases r <;> decide

theorem withPartition_outcomeReason (d : RouteDecision) (part : Option FabricPartition) :
    (d.withPartition part).outcomeReason = d.outcomeReason := by
  cases part <;> rfl

/-- The reason is one of the texts of the source, or empty. -/
theorem computeRoute_reason (id : RouteDecisionId) (gen : RouteGeneration) (snapshotId : TopologySnapshotId)
    (now : UInt64) (epoch : CoordinatorEpoch) :
    (computeRoute topo src dst policy measurements id gen snapshotId now epoch).outcomeReason.length ≤ 64 := by
  unfold computeRoute
  cases hadm : admitEndpoints topo src dst with
  | some refusal => exact admitEndpoints_reason hadm
  | none =>
    dsimp only
    split
    · show (ascii "no active partition contains both endpoints").length ≤ 64
      decide
    split
    · exact noPathOutcome_reason _
    split
    · show (ascii "no eligible path").length ≤ 64
      decide
    · show (RouteDecision.withPartition _ _).outcomeReason.length ≤ 64
      rw [withPartition_outcomeReason]
      exact Nat.zero_le _

/-- A granted path is no deeper than a path may be. -/
theorem Granted.hops_le {best : FabricPath} (h : Granted topo src dst policy measurements best) :
    best.hops.length ≤ Limits.kMaxPathDepth := by
  obtain ⟨p, hp, _, rfl⟩ := mem_rankedPaths.mp (List.mem_of_mem_head? h.first)
  have hfound := FabricTopology.enumeratePaths_found hp
  obtain ⟨_, hdepth⟩ := FabricTopology.joinable_of_enumerated hp
  have hswitches := congrArg List.length hfound.shaped.1.hopSwitches
  rw [List.length_map] at hswitches
  have hdeep := (hfound.simple hdepth).2
  rw [traversal_maxDepth] at hdeep
  show p.hops.length ≤ _
  omega

end

namespace FabricRegistry

variable (r : FabricRegistry) (src dst : DeviceId) (policy : RoutePolicy) (now : UInt64)

theorem route_reason : (r.route src dst policy now).1.outcomeReason.length ≤ 64 := computeRoute_reason _ _ _ _ _

theorem route_selectedKey : (r.route src dst policy now).1.selectedKey.length ≤ 974 := by
  have hselected : ∀ best, (r.route src dst policy now).1.selected = some best →
      best.hops.length ≤ Limits.kMaxPathDepth := by
    intro best hbest
    by_cases hgranted : ∃ best, Granted r.current src dst policy r.measurements best
    · obtain ⟨best', h⟩ := hgranted
      have hsel : (r.route src dst policy now).1.selected = some best' := congrArg RouteDecision.selected (computeRoute_of_granted h)
      rw [Option.some.inj (hbest.symm.trans hsel)]
      exact h.hops_le
    · have hnone : (r.route src dst policy now).1.selected = none :=
        (computeRoute_refused _ _ _ _ _ fun best h => hgranted ⟨best, h⟩).selected
      exact absurd (hbest.symm.trans hnone) (by simp)
  unfold RouteDecision.selectedKey
  split
  · next best hbest => exact length_canonicalKey_le (hselected best hbest)
  · exact Nat.zero_le _

/-- **The frame of a decision is short.** -/
theorem length_encodeDecision_le : (encodeDecision (r.route src dst policy now).1).length ≤ 1076 := by
  have hreason := r.route_reason src dst policy now
  have hkey := r.route_selectedKey src dst policy now
  have hu64 : ∀ v : UInt64, (ByteWriter.u64 v).length = 8 := fun v => length_leBytes 8 v.toNat
  rw [encodeDecision_eq]
  unfold decisionHead decisionTail ByteWriter.str ByteWriter.u8 ByteWriter.flag ByteWriter.gen ByteWriter.u8
  simp only [List.length_append, List.length_singleton, List.length_nil, length_u32, hu64]
  omega

end FabricRegistry

/-! ## Round trip -/

/-- The received decision agrees with the one that was sent: in its outcome and the reason for it, in whether it is
    authoritative, in the epoch and the generations it was made under, and in whether a path was selected. -/
structure ReceivedDecision.Agrees (a : ReceivedDecision) (d : RouteDecision) : Prop where
  outcome       : a.outcome = d.outcome.toByte
  outcomeReason : a.outcomeReason = d.outcomeReason
  authoritative : a.authoritative = d.authoritative
  epoch         : a.epoch = d.epoch
  topologyGen   : a.topologyGen = d.topologyGen
  partitionGen  : a.partitionGen = d.partitionGen
  selected      : a.selected.isSome = d.selected.isSome

theorem selectedOf_isSome (d : RouteDecision) (src dst : DeviceId) :
    (selectedOf d.selectedKey src dst).isSome = d.selected.isSome := by
  unfold RouteDecision.selectedKey selectedOf
  cases d.selected with
  | none => rfl
  | some p =>
    dsimp only
    rw [if_neg (by simpa using canonicalKey_ne_nil p)]
    rfl

/-- However its frame is received, the answer that `queryRoute` returns agrees with the decision. -/
def RouteDecision.Arrives (d : RouteDecision) (src dst : DeviceId) : Prop :=
  ∀ w : Worker, w.stream = {} → ∀ chunks,
    Receives (encodeFrame { type := .routeResult, payload := encodeDecision d }) chunks →
      ∃ a, (w.queryRoute src dst chunks).1 = .ok a ∧ a.Agrees d

/-- A decision that is short enough is answered, with the defaults for its epoch and generations. -/
theorem Worker.queryRoute_answer {d : RouteDecision} (hreason : d.outcomeReason.length ≤ Read.maxStr)
    (hkey : d.selectedKey.length ≤ Read.maxStr) (hsize : (encodeDecision d).length ≤ Limits.kMaxFrameBytes)
    {w : Worker} (hw : w.stream = {}) {chunks : List (List UInt8)}
    (hcut : Receives (encodeFrame { type := .routeResult, payload := encodeDecision d }) chunks) (src dst : DeviceId) :
    (w.queryRoute src dst chunks).1 = .ok {
      outcome := d.outcome.toByte
      outcomeReason := d.outcomeReason
      authoritative := d.authoritative
      source := src
      destination := dst
      selected := selectedOf d.selectedKey src dst } := by
  unfold queryRoute
  dsimp only
  rw [recvFrame_encodeFrame hw hsize hcut]
  dsimp only
  rw [if_neg (by simp), decodeRouteResult_encodeDecision hreason hkey]

/-- **Decision round trip.** What `queryRoute` makes of a decision of the registry agrees with it exactly if the epoch and
    the generations it was made under are all zero. -/
theorem decision_round_trip_iff (r : FabricRegistry) (src dst : DeviceId) (policy : RoutePolicy) (now : UInt64) :
    (r.route src dst policy now).1.Arrives src dst ↔
      (r.route src dst policy now).1.epoch = 0 ∧ (r.route src dst policy now).1.topologyGen = ⟨0⟩ ∧
        (r.route src dst policy now).1.partitionGen = ⟨0⟩ := by
  have hreason : (r.route src dst policy now).1.outcomeReason.length ≤ Read.maxStr :=
    (r.route_reason src dst policy now).trans (by decide)
  have hkey : (r.route src dst policy now).1.selectedKey.length ≤ Read.maxStr :=
    (r.route_selectedKey src dst policy now).trans (by decide)
  have hsize : (encodeDecision (r.route src dst policy now).1).length ≤ Limits.kMaxFrameBytes :=
    (r.length_encodeDecision_le src dst policy now).trans (by decide)
  constructor
  · intro h
    obtain ⟨a, ha, hagrees⟩ := h {} rfl _ (Framing.cut_singles (by decide) _)
    rw [Worker.queryRoute_answer hreason hkey hsize rfl (Framing.cut_singles (by decide) _)] at ha
    obtain rfl := Except.ok.inj ha
    exact ⟨hagrees.epoch.symm, hagrees.topologyGen.symm, hagrees.partitionGen.symm⟩
  · rintro ⟨hepoch, htopo, hpart⟩ w hw chunks hcut
    refine ⟨_, Worker.queryRoute_answer hreason hkey hsize hw hcut src dst, ?_⟩
    exact ⟨rfl, rfl, rfl, hepoch.symm, htopo.symm, hpart.symm, selectedOf_isSome _ src dst⟩

/-- A registry under epoch 1, with nothing in it. -/
def underEpochOne : FabricRegistry := FabricRegistry.new.setEpoch 1

/-- The worker is told that its answer is of epoch 0. -/
theorem decision_epoch_lost : ¬ (underEpochOne.route ⟨1⟩ ⟨2⟩ {} 0).1.Arrives ⟨1⟩ ⟨2⟩ := by
  intro h
  have hreceives := @Framing.cut_singles _ Coordinator.kReceiveBuffer (by decide)
    (encodeFrame { type := .routeResult, payload := encodeDecision (underEpochOne.route ⟨1⟩ ⟨2⟩ {} 0).1 })
  obtain ⟨a, ha, hagrees⟩ := h {} rfl _ hreceives
  rw [Worker.queryRoute_answer (by decide +kernel) (by decide +kernel) (by decide +kernel) rfl hreceives] at ha
  obtain rfl := Except.ok.inj ha
  exact absurd hagrees.epoch (by decide +kernel)

end NVSwitchFabric
