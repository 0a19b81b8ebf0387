import NVSwitchFabric.Model.Registry
import NVSwitchFabric.Lib.Run

/-!
# `Runtime.Shared` — one registry, many threads

The coordinator has a thread for each connection and all of them call one `FabricRegistry`, which locks a mutex. Every
call but `route` holds the lock from its start to its end. `route` (fabric_registry.cpp) takes it three times: to copy the
snapshot and the measurements, to draw its two ids, and to append to the decision log; the decision is computed between
the second and the third, on the copies, with no lock held and the epoch as it is then. Other threads get their turns in
between.

A run is a list of turns in the order in which they are taken, so a property of every run is one of every interleaving.
-/

namespace NVSwitchFabric

open Lib

/-- `route`, the one call that does not hold the lock throughout. -/
def RegistryOp.isRoute : RegistryOp → Bool
  | .route .. => true
  | _         => false

/-- The arguments of a call of `route`, and what it has copied under the lock. -/
structure RouteCall where
  src      : DeviceId
  dst      : DeviceId
  policy   : RoutePolicy
  snap     : FabricTopology
  measCopy : List Measurement

/-- How far a call has come. -/
inductive Progress where
  | copied (call : RouteCall)
  | numbered (call : RouteCall) (did obs : UInt64)
  | computed (d : RouteDecision)

/-- The id a call has drawn. -/
def Progress.id? : Progress → Option UInt64
  | .copied _         => none
  | .numbered _ did _ => some did
  | .computed d       => some d.id.value

/-- The registry, and the threads that are inside `route`. -/
structure SharedRegistry where
  registry : FabricRegistry
  calls    : SortedMap Nat Progress := .empty

/-- What thread `t` does without another thread coming between. -/
inductive Turn where
  | whole (op : RegistryOp) (h : op.isRoute = false)
  | copy (t : Nat) (src dst : DeviceId) (policy : RoutePolicy)
  | number (t : Nat)
  | compute (t : Nat) (now : UInt64)
  | log (t : Nat)

/-- The decision of a call that has its ids. -/
def RouteCall.decision (call : RouteCall) (did obs now : UInt64) (epoch : CoordinatorEpoch) : RouteDecision :=
  let computed := computeRoute call.snap call.src call.dst call.policy call.measCopy ⟨did⟩ ⟨0⟩
    ⟨ascii "snap" ++ decimal call.snap.id.toNat⟩ now epoch
  { computed with observation := ⟨obs⟩, observationKnown := true }

namespace SharedRegistry

/-- One turn. A thread that is not where the turn belongs does nothing. -/
def step (s : SharedRegistry) : Turn → SharedRegistry
  | .whole op _ => { s with registry := s.registry.exec op }
  | .copy t src dst policy =>
    match s.calls.find? t with
    | some _ => s
    | none   =>
      let call := { src, dst, policy, snap := s.registry.current, measCopy := s.registry.measurements }
      { s with calls := s.calls.insert t (.copied call) }
  | .number t =>
    match s.calls.find? t with
    | some (.copied call) =>
      { registry := { s.registry with
          nextDecisionId := s.registry.nextDecisionId + 1
          nextObservationId := s.registry.nextObservationId + 1 }
        calls := s.calls.insert t (.numbered call s.registry.nextDecisionId s.registry.nextObservationId) }
    | _ => s
  | .compute t now =>
    match s.calls.find? t with
    | some (.numbered call did obs) =>
      { s with calls := s.calls.insert t (.computed (call.decision did obs now s.registry.epoch)) }
    | _ => s
  | .log t =>
    match s.calls.find? t with
    | some (.computed d) => { registry := s.registry.logDecision d, calls := s.calls.erase t }
    | _ => s

/-- The decision that a turn returns to the thread that called `route`. -/
def answer? (s : SharedRegistry) : Turn → Option (Nat × RouteDecision)
  | .log t =>
    match s.calls.find? t with
    | some (.computed d) => some (t, d)
    | _ => none
  | _ => none

/-- The decisions that a run returns, in order. -/
def answers (s : SharedRegistry) : List Turn → List (Nat × RouteDecision)
  | []          => []
  | a :: turns => (s.answer? a).toList ++ answers (s.step a) turns

end SharedRegistry

/-- The calls of a run that hold the lock throughout. -/
def Turn.ops (turns : List Turn) : List RegistryOp :=
  turns.filterMap fun
    | .whole op _ => some op
    | _           => none

/-- The turns of a call that nothing comes between. -/
def Turn.alone (t : Nat) (src dst : DeviceId) (policy : RoutePolicy) (now : UInt64) : List Turn :=
  [.copy t src dst policy, .number t, .compute t now, .log t]

end NVSwitchFabric
