import NVSwitchFabric.Model.Backend
import NVSwitchFabric.Model.Persistence

/-!
# `Model.Inspect` — the inspection tool

The registry that nvswitch_fabric_inspect.cpp builds before it prints anything: from what NVML answers, from a persisted
file, or from a synthetic scenario. Left out: the command line, the proof of CUDA and the printing.
-/

namespace NVSwitchFabric

/-- `--nvidia`, `--persisted`, `--scenario`. -/
inductive InspectSource where
  | nvidia (nvml : Option Nvml)
  | persisted (path : Str)
  | scenario (type : ScenarioType)

namespace InspectSource

/-- The registry of `main`, or why there is none. What a backend cannot do leaves the registry empty, and the results of
    bulk edits are discarded. -/
def registry (disk : Disk) : InspectSource → Result FabricRegistry
  | .nvidia nvml =>
    let nb := ({} : NvidiaBackend).init nvml
    match nb.1 with
    | .error _ => .ok .new
    | .ok _    => match nb.2.scan nvml with
      | .error _ => .ok .new
      | .ok scan => .ok (FabricRegistry.new.applyBulk { devices := scan.devices }).2
  | .persisted path => match FabricRegistry.restoreFrom path disk with
    | .error e => .error e
    | .ok r    => .ok (FabricRegistry.new.applyBulk (.ofTopology r.snapshot)).2
  | .scenario type => .ok (applyScenarioToRegistry type .new).2

end InspectSource

end NVSwitchFabric
