import NVSwitchFabric.Model.Scenario

/-!
# `Model.Backend` — backends, and the registry that polls one

The two backends (synthetic_backend.cpp, nvidia_backend.cpp) behind the interface of backend.h, and the calls of
`FabricRegistry` that bind one and scan it. NVML is a library of its own: what it answers is an argument of each call,
`none` where the backend is compiled without it, and it may answer differently each time.

Left out: the health and congestion observations and the error text of a scan, which neither backend sets and
`applyBackendScan` ignores, and `BackendCapabilities::details`.
-/

namespace NVSwitchFabric

/-! ## NVML -/

/-- What NVML answers about a device; `none` where a call fails. -/
structure NvmlDevice where
  name              : Option Str := none
  uuid              : Option Str := none
  computeCapability : Option (Int × Int) := none

/-- The answers of NVML to the calls of the backend. -/
structure Nvml where
  nvmlInit : Except String Unit
  count    : Option UInt32
  handle   : Nat → Option NvmlDevice

/-- `std::to_string` of a signed number. -/
def signedDecimal (n : Int) : Str := (if n < 0 then ascii "-" else []) ++ decimal n.natAbs

/-! ## The backends -/

structure BackendCapabilities where
  deviceDiscovery    : Bool := false
  switchDiscovery    : Bool := false
  portDiscovery      : Bool := false
  partitionDiscovery : Bool := false
  linkDiscovery      : Bool := false
  switchManagement   : Bool := false
  telemetry          : Bool := false
  congestionCounters : Bool := false
  nvSwitchPresent    : Bool := false
  provenance         : Provenance := .unsupported
  name               : Str := []

/-- `SyntheticBackend`. What it scans is empty until it is initialized, and then its scenario. -/
structure SyntheticBackend where
  type   : ScenarioType := .singleSwitchTwoGpu
  scan   : Scan := {}
  loaded : scan = {} ∨ scan = buildSyntheticScan type := by exact Or.inl rfl

namespace SyntheticBackend

/-- `initialize`. -/
def init (b : SyntheticBackend) : Result Unit × SyntheticBackend :=
  (.ok (), { b with scan := buildSyntheticScan b.type, loaded := Or.inr rfl })

def capabilities : BackendCapabilities where
  name := ascii "synthetic"
  deviceDiscovery := true
  switchDiscovery := true
  portDiscovery := true
  linkDiscovery := true
  partitionDiscovery := true
  switchManagement := true
  telemetry := true
  congestionCounters := true
  nvSwitchPresent := false
  provenance := .synthetic

end SyntheticBackend

structure NvidiaBackend where
  inited      : Bool := false
  deviceCount : Int := 0

namespace NvidiaBackend

/-- `initialize`. The count is unsigned, and kept as a signed number of the same width. -/
def init (nvml : Option Nvml) (b : NvidiaBackend) : Result Unit × NvidiaBackend :=
  match nvml with
  | none => (.error ⟨.backendUnavailable, "NVML not available"⟩, b)
  | some nvml => match nvml.nvmlInit with
    | .error why => (.error ⟨.backendUnavailable, "nvmlInit failed: " ++ why⟩, b)
    | .ok _ => match nvml.count with
      | none       => (.error ⟨.backendError, "nvmlDeviceGetCount failed"⟩, b)
      | some count => (.ok (), { b with deviceCount := Int.bmod count.toNat (2 ^ 32), inited := true })

def shutdown (compiled : Bool) (b : NvidiaBackend) : NvidiaBackend :=
  if compiled && b.inited then { b with inited := false } else b

/-- Without NVML nothing is supported; with it, only devices are discovered. -/
def capabilities (compiled : Bool) : BackendCapabilities where
  name := ascii "nvidia-nvml"
  deviceDiscovery := compiled
  provenance := if compiled then .real else .unsupported

/-- The record of the `i`-th device. No switch is ever said to be attached. -/
def record (i : Nat) (dev : NvmlDevice) : DeviceRecord where
  id := ⟨UInt64.ofNat (i + 1)⟩
  present := true
  vendor := ascii "NVIDIA"
  product := dev.name.getD []
  backendId := dev.uuid.getD []
  generation := match dev.computeCapability with
    | some (major, minor) =>
      { name := ascii "compute_" ++ signedDecimal major ++ ascii "." ++ signedDecimal minor, observed := true }
    | none => {}
  state := .present
  provenance := .real
  source := .nvml
  attachedSwitchKnown := false

/-- The loop over the devices, which ends at the first that has no handle. -/
def scan (nvml : Option Nvml) (b : NvidiaBackend) : Result Scan :=
  match nvml with
  | none => .error ⟨.backendUnavailable, "NVML not compiled"⟩
  | some nvml =>
    if !b.inited then .error ⟨.backendUnavailable, "not initialized"⟩
    else do
      let devices ← (List.range b.deviceCount.toNat).mapM fun i => match nvml.handle i with
        | none     => .error ⟨.backendError, "nvmlDeviceGetHandleByIndex"⟩
        | some dev => .ok (record i dev)
      return { devices }

end NvidiaBackend

/-- `Backend`. -/
inductive Backend where
  | synthetic (b : SyntheticBackend)
  | nvidia (b : NvidiaBackend)

namespace Backend

def init (nvml : Option Nvml) : Backend → Result Unit × Backend
  | synthetic b => (b.init.1, synthetic b.init.2)
  | nvidia b    => ((b.init nvml).1, nvidia (b.init nvml).2)

def shutdown (compiled : Bool) : Backend → Backend
  | synthetic b => synthetic b
  | nvidia b    => nvidia (b.shutdown compiled)

def capabilities (compiled : Bool) : Backend → BackendCapabilities
  | synthetic _ => SyntheticBackend.capabilities
  | nvidia _    => NvidiaBackend.capabilities compiled

def scan (nvml : Option Nvml) : Backend → Result Scan
  | synthetic b => .ok b.scan
  | nvidia b    => b.scan nvml

end Backend

/-! ## The registry and its backend -/

/-- `applyBackendScan`. -/
def FabricRegistry.applyBackendScan (scan : Scan) (r : FabricRegistry) : Result FabricTopology × FabricRegistry :=
  r.applyBulk { devices := scan.devices, switches := scan.switches, ports := scan.ports, links := scan.links,
                partitions := scan.partitions }

/-- The registry with the backend it is bound to. -/
structure BoundRegistry where
  registry : FabricRegistry := .new
  backend  : Option Backend := none

namespace BoundRegistry

/-- `bindBackend`. -/
def bindBackend (backend : Option Backend) (b : BoundRegistry) : Result Unit × BoundRegistry :=
  match backend with
  | none         => (.error ⟨.invalidArgument, "null backend"⟩, b)
  | some backend => (.ok (), { b with backend := some backend })

/-- `backendCapabilities`. -/
def backendCapabilities (compiled : Bool) (b : BoundRegistry) : Result BackendCapabilities :=
  match b.backend with
  | none         => .error ⟨.backendUnavailable, "no backend bound"⟩
  | some backend => .ok (backend.capabilities compiled)

/-- `scanBackend`. -/
def scanBackend (nvml : Option Nvml) (b : BoundRegistry) : Result Unit × BoundRegistry :=
  match b.backend with
  | none => (.error ⟨.backendUnavailable, "no backend bound"⟩, b)
  | some backend =>
    -- nothing to scan
    if (backend.capabilities nvml.isSome).provenance = .unsupported then (.ok (), b)
    else match backend.scan nvml with
      | .error e => (.error e, b)
      | .ok scan => match b.registry.applyBackendScan scan with
        | (.error e, registry) => (.error e, { b with registry })
        | (.ok _, registry)    => (.ok (), { b with registry })

/-- What may be done to a registry and its backend, in any order. Whoever bound the backend holds it too. -/
inductive Act where
  | bind (backend : Option Backend)
  | init (nvml : Option Nvml)
  | shutdown (compiled : Bool)
  | scan (nvml : Option Nvml)
  | exec (op : RegistryOp)

def step (b : BoundRegistry) : Act → BoundRegistry
  | .bind backend      => (b.bindBackend backend).2
  | .init nvml         => { b with backend := b.backend.map fun backend => (backend.init nvml).2 }
  | .shutdown compiled => { b with backend := b.backend.map fun backend => backend.shutdown compiled }
  | .scan nvml         => (b.scanBackend nvml).2
  | .exec op           => { b with registry := b.registry.exec op }

end BoundRegistry

end NVSwitchFabric
