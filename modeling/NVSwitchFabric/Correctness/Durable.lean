import NVSwitchFabric.Correctness.CrashSafe
import NVSwitchFabric.Correctness.Restorable
import NVSwitchFabric.Correctness.RestoreReport

/-!
# `Correctness.Durable` — what a coordinator leaves behind

The coordinator saves its registry after each publication. At any moment of any run the file is that of the registry it
saved last (`find?_run`), and a process that stops in the middle of a save leaves the one before or the new one, unless it
stops between the removal and the rename (`crash_recovery`).

A registry that is filled through connections can always be read back (`Durable`): whatever frames bring has been decoded, so
its strings and lists are short enough to be encoded again. Every record of it is owned by a worker, so after a restart
everything awaits revalidation, and nothing is routed before that.
-/

namespace NVSwitchFabric

open Lib

open Read (Yields)

/-! ## Records that frames bring -/

/-- A record that has been decoded, and then attributed to a worker. -/
def fromWorkers : RecordInvariant where
  device r := r.Encodable ∧ r.workerKnown = true
  switch r := r.Encodable ∧ r.workerKnown = true
  port r := r.toOrigin.Encodable ∧ r.workerKnown = true
  link r := r.toOrigin.Encodable ∧ r.workerKnown = true
  partition r := r.Encodable ∧ r.workerKnown = true
  device_update _ h := ⟨{ h.1 with }, h.2⟩
  switch_update _ _ _ h := ⟨{ h.1 with }, h.2⟩
  port_update _ _ h := h
  link_update _ _ _ h := h
  partition_update _ _ h := ⟨{ h.1 with }, h.2⟩

/-- A bulk of stamped records supplies such records. -/
theorem fromWorkers_stamped {topo : FabricTopology} {w : WorkerId} (b : WorkerBootId) (htopo : topo.Encodable)
    (hw : w.value.length ≤ Read.maxStr) : fromWorkers.Given (.applyBulk (Coordinator.stampedBulk topo w b)) := by
  have horigin : ∀ o : Origin, (o.stamp w b).Encodable := fun _ => hw
  refine ⟨?_, ?_, ?_, ?_, ?_⟩
  · intro r hr
    obtain ⟨e, he, rfl⟩ := List.mem_map.mp hr
    exact ⟨{ htopo.devices e.1 e.2 (SortedMap.find?_eq_some_iff.mpr he) with origin := horigin _ }, rfl⟩
  · intro r hr
    obtain ⟨e, he, rfl⟩ := List.mem_map.mp hr
    exact ⟨{ htopo.switches e.1 e.2 (SortedMap.find?_eq_some_iff.mpr he) with origin := horigin _ }, rfl⟩
  · intro r hr
    obtain ⟨e, _, rfl⟩ := List.mem_map.mp hr
    exact ⟨horigin _, rfl⟩
  · intro r hr
    obtain ⟨e, _, rfl⟩ := List.mem_map.mp hr
    exact ⟨horigin _, rfl⟩
  · intro r hr
    obtain ⟨e, he, rfl⟩ := List.mem_map.mp hr
    exact ⟨{ htopo.partitions e.1 e.2 (SortedMap.find?_eq_some_iff.mpr he) with origin := horigin _ }, rfl⟩

namespace Coordinator

variable {c : Coordinator} {e : Event}

/-- The worker of an admitted registration has a short name. -/
theorem length_of_admits {f : Frame} {w : WorkerId} {b : WorkerBootId} (h : c.admits f = some (w, b)) :
    w.value.length ≤ Read.maxStr := by
  have hshort : Yields readRegister fun p => p.2.1.value.length ≤ Read.maxStr :=
    (Yields.any _).bind fun _ _ => (Yields.any _).bind fun _ _ => Yields.str.bind fun _ hw =>
      (Yields.any _).bind fun _ _ => Yields.pure hw
  unfold admits at h
  split at h
  · exact absurd h (by simp)
  split at h
  · exact absurd h (by simp)
  next ep w' b' hread =>
  have hw : w'.value.length ≤ Read.maxStr := hshort _ _ _ (Prod.ext hread rfl)
  split at h
  · exact absurd h (by simp)
  split at h
  · exact absurd h (by simp)
  split at h
  · exact absurd h (by simp)
  obtain ⟨rfl, -⟩ := Prod.mk.inj (Option.some.inj h)
  exact hw

/-- What holds of a coordinator whose registry is filled through its connections. -/
structure Durable (c : Coordinator) : Prop where
  reachable : c.registry.Reachable
  label     : c.registry.current.label.length ≤ Read.maxStr
  records   : fromWorkers.Holds c.registry.current
  names     : ∀ id w b, c.identity id = some (w, b) → w.value.length ≤ Read.maxStr

/-- Its registry is in the domain of the codec. -/
theorem Durable.encodable (h : c.Durable) : c.registry.current.Encodable where
  keyed := h.reachable.wellFormed.keyed
  limits := h.reachable.wellFormed.limits
  label := h.label
  devices _ _ hr := (h.records.devices hr).1
  switches _ _ hr := (h.records.switches hr).1
  ports _ _ hr := (h.records.ports hr).1
  links _ _ hr := (h.records.links hr).1
  partitions _ _ hr := (h.records.partitions hr).1

theorem durable_fresh (epoch : CoordinatorEpoch) (persistPath : Str) (disk : Disk) :
    (fresh epoch persistPath disk).Durable where
  reachable := fresh_reachable epoch persistPath disk
  label := by
    show (ascii "initial").length ≤ Read.maxStr
    decide
  records := ⟨.empty, .empty, .empty, .empty, .empty⟩
  names id w b h := by
    have hnone : (fresh epoch persistPath disk).identity id = none := rfl
    exact absurd (hnone.symm.trans h) (by simp)

theorem Durable.step (h : c.Durable) (e : Event) : (c.step e).Durable := by
  have hsame : ∀ c' : Coordinator, c'.registry.current = c.registry.current → c'.registry.Reachable →
      (∀ id w b, c'.identity id = some (w, b) → w.value.length ≤ Read.maxStr) → c'.Durable := by
    intro c' hcur hreach hnames
    exact ⟨hreach, hcur ▸ h.label, hcur ▸ h.records, hnames⟩
  have hnames : ∀ id w b, (c.step e).identity id = some (w, b) → w.value.length ≤ Read.maxStr := by
    intro id w b hid
    rcases step_identity_cases hid with hold | ⟨f, now, rfl, hadm⟩
    · exact h.names id w b hold
    · exact length_of_admits hadm
  have hexec : ∀ op, (c.step e).registry = c.registry.exec op → fromWorkers.Given op → (c.step e).Durable := by
    intro op heq hop
    refine ⟨step_reachable e h.reachable, ?_, ?_, hnames⟩
    · rw [heq, FabricRegistry.exec_label]
      exact h.label
    · rw [heq]
      exact FabricRegistry.exec_holds h.records fun _ => hop.supplied
  cases e with
  | accept => exact hsame _ (congrArg _ step_accept_registry) (step_reachable _ h.reachable) hnames
  | frame id f now =>
    cases hpub : c.publication id f with
    | none => exact hsame _ (step_of_no_publication hpub now) (step_reachable _ h.reachable) hnames
    | some p =>
      obtain ⟨w, b, topo⟩ := p
      obtain ⟨_, hid, blob, _, hdec⟩ := publication_eq_some_iff.mp hpub
      exact hexec _ (step_of_publication hpub now)
        (fromWorkers_stamped b (decodeTopology_encodable hdec).1 (h.names id w b hid))
  | close id =>
    cases hid : c.identity id with
    | none =>
      have hregistry : (c.step (.close id)).registry = c.registry := by
        rw [step_close_registry, hid]
        rfl
      exact hsame _ (congrArg _ hregistry) (step_reachable _ h.reachable) hnames
    | some who =>
      refine hexec (.invalidateForWorker who.1 who.2) ?_ trivial
      rw [step_close_registry, hid]
      rfl

theorem Durable.run (h : c.Durable) (events : List Event) : (runAll Coordinator.step c events).Durable := by
  induction events generalizing c with
  | nil => exact h
  | cons e events ih => exact ih (h.step e)

/-! ## Saves -/

/-- The registry that an event saves: the one it has published, when a path is set and the file is within the limit. -/
def saves (c : Coordinator) : Event → Option FabricRegistry
  | .frame id f now =>
    if c.persistPath.isEmpty || (c.publication id f).isNone then none
    else
      let saved := (c.step (.frame id f now)).registry
      if Limits.kMaxPersistenceBytes < (serialize saved).length then none else some saved
  | _               => none

theorem saves_frame (c : Coordinator) (id : Nat) (f : Frame) (now : UInt64) : c.saves (.frame id f now) =
    if c.persistPath.isEmpty || (c.publication id f).isNone then none
    else
      if Limits.kMaxPersistenceBytes < (serialize (c.step (.frame id f now)).registry).length then none
      else some (c.step (.frame id f now)).registry := rfl

/-- The registry that was saved last in a run. -/
def lastSaved (c : Coordinator) : List Event → Option FabricRegistry
  | []          => none
  | e :: events => (lastSaved (c.step e) events).or (c.saves e)

theorem lastSaved_append (c : Coordinator) (events later : List Event) :
    c.lastSaved (events ++ later) = ((runAll step c events).lastSaved later).or (c.lastSaved events) := by
  induction events generalizing c with
  | nil => exact (Option.or_none).symm
  | cons e events ih =>
    show (lastSaved (c.step e) (events ++ later)).or (c.saves e) = _
    rw [ih, Option.or_assoc]
    rfl

/-- What is saved fits a file. -/
theorem saves_fits {saved : FabricRegistry} (h : c.saves e = some saved) :
    saved = (c.step e).registry ∧ saved.FitsFile := by
  unfold saves at h
  split at h
  · split at h
    · exact absurd h (by simp)
    dsimp only at h
    split at h
    · exact absurd h (by simp)
    · next hfits =>
      obtain rfl := Option.some.inj h
      exact ⟨rfl, not_lt.mp hfits⟩
  · exact absurd h (by simp)

/-- A registry that does not fit is not written. -/
theorem serializeToFile_big (reg : FabricRegistry) (path : Str) (disk : Disk) : (serializeToFile reg path disk).2 =
    match (if Limits.kMaxPersistenceBytes < (serialize reg).length then none else some reg) with
      | some saved => (serializeToFile saved path disk).2
      | none       => disk := by
  by_cases hbig : Limits.kMaxPersistenceBytes < (serialize reg).length
  · rw [if_pos hbig]
    unfold serializeToFile
    rw [if_pos hbig]
  · rw [if_neg hbig]

/-- Persisting writes the disk only. -/
theorem autoPersist_fields (c : Coordinator) : c.autoPersist.registry = c.registry ∧
    c.autoPersist.persistPath = c.persistPath ∧ c.autoPersist.disk =
      if c.persistPath.isEmpty then c.disk else (serializeToFile c.registry c.persistPath c.disk).2 := by
  unfold autoPersist
  split <;> exact ⟨rfl, rfl, rfl⟩

/-- A publication is applied, and the registry persisted. -/
theorem step_eq_of_publication {id : Nat} {f : Frame} {w : WorkerId} {b : WorkerBootId} {topo : FabricTopology}
    (h : c.publication id f = some (w, b, topo)) (now : UInt64) :
    c.step (.frame id f now) = (c.applyWorkerTopology topo w b).autoPersist := by
  obtain ⟨htype, hid, blob, hread, hdec⟩ := publication_eq_some_iff.mp h
  obtain ⟨conn, hconn⟩ := isOpen_of_identity hid
  rw [identity_of_find? hconn] at hid
  unfold Connection.identity at hid
  split at hid
  next hreg =>
    obtain ⟨rfl, rfl⟩ := Prod.mk.inj (Option.some.inj hid)
    unfold step
    dsimp only
    rw [hconn]
    dsimp only
    unfold handleFrame
    rw [htype]
    dsimp only
    rw [if_pos hreg]
    unfold handlePublishTopology
    rw [hread]
    dsimp only
    rw [hdec]
  next => exact absurd hid (by simp)

/-- Any other frame leaves the files alone. -/
theorem step_disk_of_no_publication {id : Nat} {f : Frame} (h : c.publication id f = none) (now : UInt64) :
    (c.step (.frame id f now)).persistPath = c.persistPath ∧ (c.step (.frame id f now)).disk = c.disk := by
  unfold step
  dsimp only
  cases hconn : c.conns.find? id with
  | none => exact ⟨rfl, rfl⟩
  | some conn =>
    dsimp only
    unfold handleFrame
    split
    · split <;> exact ⟨rfl, rfl⟩
    · next htype =>
      split
      · next hreg =>
        unfold handlePublishTopology
        split
        · exact ⟨rfl, rfl⟩
        next blob hread =>
        split
        · exact ⟨rfl, rfl⟩
        next topo hdec =>
        have hid : c.identity id = some (conn.worker, conn.boot) := by
          rw [identity_of_find? hconn, identity_of_registered hreg]
        have hpub := publication_eq_some_iff.mpr ⟨htype, hid, blob, hread, hdec⟩
        exact absurd (h.symm.trans hpub) (by simp)
      · exact ⟨rfl, rfl⟩
    · split
      · unfold handlePublishMeasurement
        split <;> exact ⟨rfl, rfl⟩
      · exact ⟨rfl, rfl⟩
    · split
      · unfold handleQueryRoute
        split
        · exact ⟨rfl, rfl⟩
        split <;> exact ⟨rfl, rfl⟩
      · exact ⟨rfl, rfl⟩
    · exact ⟨rfl, rfl⟩
    · exact ⟨rfl, rfl⟩

/-- **An event writes what it saves**, and nothing else. -/
theorem step_disk (c : Coordinator) (e : Event) : (c.step e).persistPath = c.persistPath ∧
    (c.step e).disk = match c.saves e with
      | some saved => (serializeToFile saved c.persistPath c.disk).2
      | none       => c.disk := by
  cases e with
  | accept =>
    unfold step
    dsimp only
    split <;> exact ⟨rfl, rfl⟩
  | frame id f now =>
    cases hpub : c.publication id f with
    | none =>
      have hsaves : c.saves (.frame id f now) = none := by
        rw [saves_frame, hpub, Option.isNone_none, Bool.or_true, if_pos rfl]
      rw [hsaves]
      exact step_disk_of_no_publication hpub now
    | some p =>
      obtain ⟨w, b, topo⟩ := p
      obtain ⟨hregistry, hpath, hdisk⟩ := (c.applyWorkerTopology topo w b).autoPersist_fields
      have hpath' : (c.applyWorkerTopology topo w b).persistPath = c.persistPath := rfl
      have hdisk' : (c.applyWorkerTopology topo w b).disk = c.disk := rfl
      rw [saves_frame, hpub, Option.isNone_some, Bool.or_false, step_eq_of_publication hpub, hregistry, hpath, hdisk, hpath',
        hdisk']
      refine ⟨rfl, ?_⟩
      split
      · rfl
      · exact serializeToFile_big _ _ _
  | close id =>
    unfold step
    dsimp only
    split
    · unfold handleClose
      dsimp only
      split <;> exact ⟨rfl, rfl⟩
    · exact ⟨rfl, rfl⟩

theorem saves_storable {saved : FabricRegistry} (h : c.Durable) (hsaves : c.saves e = some saved) :
    saved.Storable ∧ saved.current.WellFormed ∧ fromWorkers.Holds saved.current := by
  obtain ⟨rfl, hfits⟩ := saves_fits hsaves
  have hnext := h.step e
  exact ⟨⟨hfits, hnext.encodable⟩, hnext.reachable.wellFormed, hnext.records⟩

/-- So is what was saved last. -/
theorem lastSaved_storable {saved : FabricRegistry} (h : c.Durable) {events : List Event}
    (hlast : c.lastSaved events = some saved) :
    saved.Storable ∧ saved.current.WellFormed ∧ fromWorkers.Holds saved.current := by
  induction events generalizing c with
  | nil => exact absurd hlast (by simp [lastSaved])
  | cons e events ih =>
    have hor : (lastSaved (c.step e) events).or (c.saves e) = some saved := hlast
    rcases Option.or_eq_some_iff.mp hor with hlater | ⟨_, hnow⟩
    · exact ih (h.step e) hlater
    · exact saves_storable h hnow

/-- **At any moment the file is that of the registry saved last.** -/
theorem find?_run (c : Coordinator) (events : List Event) : (runAll step c events).persistPath = c.persistPath ∧
    (runAll step c events).disk.find? c.persistPath =
      ((c.lastSaved events).map serialize).or (c.disk.find? c.persistPath) := by
  induction events generalizing c with
  | nil => exact ⟨rfl, rfl⟩
  | cons e events ih =>
    obtain ⟨hpath, hdisk⟩ := c.step_disk e
    obtain ⟨hpath', hfind⟩ := ih (c.step e)
    refine ⟨hpath'.trans hpath, ?_⟩
    show (runAll step (c.step e) events).disk.find? c.persistPath =
      (((lastSaved (c.step e) events).or (c.saves e)).map serialize).or (c.disk.find? c.persistPath)
    rw [← hpath, hfind, Option.map_or, Option.or_assoc, hpath, hdisk]
    congr 1
    cases hsaves : c.saves e with
    | none => rfl
    | some saved =>
      obtain ⟨_, hfits⟩ := saves_fits hsaves
      show (serializeToFile saved c.persistPath c.disk).2.find? c.persistPath = some (serialize saved)
      rw [← stoppedAfter_all (k := 4) le_rfl]
      exact find?_stoppedAfter_after hfits le_rfl

/-! ## Restarts -/

/-- Nothing is routed between devices that await revalidation. -/
theorem not_allowed_of_awaiting {r : FabricRegistry} (h : r.current.devices.All fun rec => rec.state = .revalidationRequired)
    (src dst : DeviceId) (policy : RoutePolicy) (now : UInt64) :
    (r.route src dst policy now).1.outcome.isAllowed = false := by
  rw [Bool.eq_false_iff]
  intro hallowed
  obtain ⟨best, hgrant⟩ := (FabricRegistry.route_allowed_iff r src dst policy now).mp hallowed
  have hadm := hgrant.admitted
  unfold admitEndpoints FabricTopology.lookupDevice at hadm
  split at hadm
  · next s d hs _ =>
    have hstate : currentState s.state = false := by
      rw [h hs]
      rfl
    split at hadm
    · exact absurd hadm (by simp)
    split at hadm
    · exact absurd hadm (by simp)
    rw [hstate] at hadm
    exact absurd hadm (by simp)
  · exact absurd hadm (by simp)

/-- A process started again on this disk finds the records of `saved`, expired, and routes nothing until they are
    revalidated. -/
def Recovers (saved : FabricRegistry) (path : Str) (disk : Disk) : Prop :=
  ∀ epoch : CoordinatorEpoch,
    let restarted := (fresh epoch path disk).restoreFromAndRevalidate path
    restarted.1 = .ok () ∧ (FabricRegistry.expired saved.current).SameRecords restarted.2.registry.current ∧
      ∀ src dst policy now, (restarted.2.registry.route src dst policy now).1.outcome.isAllowed = false

theorem recovers_of_file {saved : FabricRegistry} {path : Str} {disk : Disk} (hstorable : saved.Storable)
    (hwf : saved.current.WellFormed) (hrecords : fromWorkers.Holds saved.current)
    (hfile : disk.find? path = some (serialize saved)) : Recovers saved path disk := by
  intro epoch restarted
  have hread : FabricRegistry.restoreFrom path disk = .ok (restored saved.current) :=
    (deserializeFromFile_iff hwf hfile).mpr ⟨hstorable, rfl⟩
  obtain ⟨hok, hregistry⟩ := restore_fresh hread epoch path
  let applied := (FabricRegistry.new.setEpoch epoch).exec (.applyBulk (.ofTopology saved.current))
  have hsettled : applied.Settled epoch 1 := (FabricRegistry.settled_new epoch).exec (by simp)
  have hgen : applied.current.topologyGen ≠ .last := by
    refine Gen.ne_last_iff.mpr ?_
    have hle := hsettled.topologyGen
    omega
  have hnew : FabricTopology.SameRecords {} (FabricRegistry.new.setEpoch epoch).current := ⟨rfl, rfl, rfl, rfl, rfl⟩
  have hroom : (FabricRegistry.new.setEpoch epoch).current.topologyGen ≠ .last := by
    show (⟨0⟩ : TopologyGeneration) ≠ .last
    decide
  obtain ⟨hsame, _⟩ := FabricRegistry.applyBulk_ofTopology hnew hroom hwf
  have hexpired : (FabricRegistry.expired saved.current).SameRecords restarted.2.registry.current := by
    have hcurrent : restarted.2.registry.current = applied.committed (FabricRegistry.expired applied.current) :=
      (congrArg FabricRegistry.current hregistry).trans
        (FabricRegistry.exec_expire_current hsettled.reachable.wellFormed hgen)
    rw [hcurrent]
    exact {
      devices := congrArg (SortedMap.mapVals DeviceRecord.expire) hsame.devices
      switches := congrArg (SortedMap.mapVals SwitchRecord.expire) hsame.switches
      ports := congrArg (SortedMap.mapVals SwitchPortRecord.expire) hsame.ports
      links := congrArg (SortedMap.mapVals LinkRecord.expire) hsame.links
      partitions := congrArg (SortedMap.mapVals FabricPartition.expire) hsame.partitions }
  refine ⟨hok, hexpired, not_allowed_of_awaiting ?_⟩
  intro k rec hrec
  rw [hexpired.devices] at hrec
  obtain ⟨old, hold, rfl⟩ := SortedMap.find?_mapVals_eq_some.mp hrec
  -- a record from a worker is dynamic
  have hdynamic : old.toOrigin.isDynamic = true := by
    unfold Origin.isDynamic
    rw [(hrecords.devices hold).2]
    rfl
  unfold DeviceRecord.expire
  rw [if_pos hdynamic]

/-! ## Crashes -/

/-- The disk when the process has stopped while it handled an event, after `k` steps of the save if there was one. -/
def crashedDisk (c : Coordinator) (e : Event) (k : Nat) : Disk :=
  match c.saves e with
  | some saved => stoppedAfter k saved c.persistPath c.disk
  | none       => c.disk

/-- **Crash recovery.** Run a coordinator from its construction, over any events on any connections, and stop it while it
    handles one more, at any point of the save that this may involve. If it stops between the removal and the rename of a
    save, there is no file. Anywhere else the file is that of the registry saved last, the new one if the rename has
    happened, and the process that is started again recovers it, whatever epoch it is given; and before the first save,
    the file is what it was. -/
theorem crash_recovery (epoch : CoordinatorEpoch) (path : Str) (disk : Disk) (events : List Event) (e : Event) (k : Nat) :
    let c := runAll step (fresh epoch path disk) events
    let last := if 4 ≤ k then (fresh epoch path disk).lastSaved (events ++ [e]) else (fresh epoch path disk).lastSaved events
    ((c.saves e).isSome = true ∧ k = 3 → (c.crashedDisk e k).find? path = none) ∧
      (¬ ((c.saves e).isSome = true ∧ k = 3) →
        (∀ saved, last = some saved → Recovers saved path (c.crashedDisk e k)) ∧
          (last = none → (c.crashedDisk e k).find? path = disk.find? path)) := by
  intro c last
  have hdurable := durable_fresh epoch path disk
  have hpath : c.persistPath = path := (find?_run (fresh epoch path disk) events).1
  have hfile : c.disk.find? path = (((fresh epoch path disk).lastSaved events).map serialize).or (disk.find? path) :=
    (find?_run (fresh epoch path disk) events).2
  have hlast : last = if 4 ≤ k then (c.saves e).or ((fresh epoch path disk).lastSaved events)
      else (fresh epoch path disk).lastSaved events := by
    show (if 4 ≤ k then _ else _) = _
    rw [lastSaved_append]
    rfl
  -- where the path is untouched, it is the save before this event that counts
  have hbefore : ∀ disk' : Disk, disk'.find? path = c.disk.find? path →
      (∀ saved, (fresh epoch path disk).lastSaved events = some saved → Recovers saved path disk') ∧
        ((fresh epoch path disk).lastSaved events = none → disk'.find? path = disk.find? path) := by
    intro disk' heq
    constructor
    · intro saved hsaved
      obtain ⟨hstorable, hwf, hrecords⟩ := lastSaved_storable hdurable hsaved
      refine recovers_of_file hstorable hwf hrecords ?_
      rw [heq, hfile, hsaved]
      rfl
    · intro hnone
      rw [heq, hfile, hnone]
      rfl
  rw [hlast]
  unfold crashedDisk
  cases hsaves : c.saves e with
  | none =>
    refine ⟨fun h => absurd h.1 (by simp), fun _ => ?_⟩
    rw [Option.none_or, ite_self]
    exact hbefore c.disk rfl
  | some saved =>
    obtain ⟨_, hfits⟩ := saves_fits hsaves
    dsimp only
    rw [hpath]
    refine ⟨fun h => h.2 ▸ find?_stoppedAfter_between hfits, fun hno => ?_⟩
    by_cases hk : 4 ≤ k
    · rw [if_pos hk, Option.some_or]
      refine ⟨?_, fun h => absurd h (by simp)⟩
      rintro _ ⟨⟩
      obtain ⟨hstorable, hwf, hrecords⟩ := saves_storable (hdurable.run events) hsaves
      exact recovers_of_file hstorable hwf hrecords (find?_stoppedAfter_after hfits hk)
    · rw [if_neg hk]
      refine hbefore _ (find?_stoppedAfter_before ?_)
      rintro ⟨_, hge⟩
      exact hno ⟨rfl, by omega⟩

/-- A worker without devices publishes. -/
def publishEmpty : Event :=
  .frame 0 { type := .publishTopology, payload := encodePublishTopology 1 ⟨ascii "w"⟩ 1 {} } 2

/-- It has registered before. -/
def firstSave : List Event :=
  [.accept, .frame 0 { type := .register, payload := encodeRegister 1 ⟨ascii "w"⟩ 1 } 1, publishEmpty]

/-- The process stops when the temporary file of the second save has been written. -/
theorem crash_recovery_firstSave :
    let c := runAll step (fresh 1 (ascii "f") .empty) firstSave
    (c.saves publishEmpty).isSome = true ∧ ∃ saved, (fresh 1 (ascii "f") .empty).lastSaved firstSave = some saved ∧
      Recovers saved (ascii "f") (c.crashedDisk publishEmpty 2) := by
  intro c
  have hsaves : (c.saves publishEmpty).isSome = true := by decide +kernel
  have hlast : ((fresh 1 (ascii "f") .empty).lastSaved firstSave).isSome = true := by decide +kernel
  obtain ⟨saved, hsaved⟩ := Option.isSome_iff_exists.mp hlast
  exact ⟨hsaves, saved, hsaved,
    ((crash_recovery 1 (ascii "f") .empty firstSave publishEmpty 2).2 (by simp)).1 saved hsaved⟩

end Coordinator

end NVSwitchFabric
