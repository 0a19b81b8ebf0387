import NVSwitchFabric.Correctness.WellFormed

/-!
# `Correctness.CrashSafe` — stopping in the middle of a save

`writeFileAtomic` writes a temporary file, removes the target, and renames the temporary file to it. Between the last
two steps the path names no file, so a process that stops there loses both states. `crash_safe_iff` says that this
is the only stopping point that does so, as long as the state whose bytes the path holds can be read back.
-/

namespace NVSwitchFabric

open Lib

/-! ## The disk after some of the steps -/

/-- The file of the registry is within the size limit. -/
def FabricRegistry.FitsFile (reg : FabricRegistry) : Prop :=
  (serialize reg).length ≤ Limits.kMaxPersistenceBytes

/-- The disk when the process has stopped after `k` steps of `serializeToFile`. -/
def stoppedAfter (k : Nat) (reg : FabricRegistry) (path : Str) (disk : Disk) : Disk :=
  if Limits.kMaxPersistenceBytes < (serialize reg).length then disk
  else ((writeFileSteps path (serialize reg)).take k).foldl (fun disk step => step disk) disk

variable {reg : FabricRegistry} {path : Str} {disk : Disk} {k : Nat}

theorem stoppedAfter_of_fits (h : reg.FitsFile) :
    stoppedAfter k reg path disk =
      ((writeFileSteps path (serialize reg)).take k).foldl (fun disk step => step disk) disk :=
  if_neg (not_lt.mpr h)

/-- A process that gets through all steps has saved. -/
theorem stoppedAfter_all (hk : 4 ≤ k) : stoppedAfter k reg path disk = (serializeToFile reg path disk).2 := by
  have hall : (writeFileSteps path (serialize reg)).take k = writeFileSteps path (serialize reg) :=
    List.take_of_length_le hk
  unfold stoppedAfter serializeToFile
  rw [hall]
  by_cases hbig : Limits.kMaxPersistenceBytes < (serialize reg).length
  · rw [if_pos hbig, if_pos hbig]
  · rw [if_neg hbig, if_neg hbig]
    rfl

/-- The temporary file is another one. -/
theorem path_ne_tmp (path : Str) : path ≠ path ++ ascii ".tmp" := by
  intro heq
  have hlen := congrArg List.length heq
  rw [List.length_append] at hlen
  exact absurd hlen (by simp [ascii])

/-- Before the removal the path holds what it held. -/
theorem find?_stoppedAfter_before (h : ¬ (reg.FitsFile ∧ 3 ≤ k)) :
    (stoppedAfter k reg path disk).find? path = disk.find? path := by
  by_cases hfits : reg.FitsFile
  · have hk : k < 3 := by
      by_contra hge
      exact h ⟨hfits, not_lt.mp hge⟩
    have hne := path_ne_tmp path
    rw [stoppedAfter_of_fits hfits]
    obtain rfl | rfl | rfl : k = 0 ∨ k = 1 ∨ k = 2 := by omega
    · rfl
    · show (SortedMap.insert disk (path ++ ascii ".tmp") []).find? path = _
      rw [SortedMap.find?_insert_ne _ _ hne]
    · show (SortedMap.insert (SortedMap.insert disk (path ++ ascii ".tmp") []) (path ++ ascii ".tmp")
        (serialize reg)).find? path = _
      rw [SortedMap.find?_insert_ne _ _ hne, SortedMap.find?_insert_ne _ _ hne]
  · unfold stoppedAfter
    rw [if_pos (not_le.mp hfits)]

/-- Between the removal and the rename it holds nothing. -/
theorem find?_stoppedAfter_between (h : reg.FitsFile) : (stoppedAfter 3 reg path disk).find? path = none := by
  rw [stoppedAfter_of_fits h]
  show (SortedMap.erase (SortedMap.insert (SortedMap.insert disk (path ++ ascii ".tmp") [])
    (path ++ ascii ".tmp") (serialize reg)) path).find? path = none
  rw [SortedMap.find?_erase, if_pos rfl]

/-- After the rename it holds the new state. -/
theorem find?_stoppedAfter_after (h : reg.FitsFile) (hk : 4 ≤ k) :
    (stoppedAfter k reg path disk).find? path = some (serialize reg) := by
  rw [stoppedAfter_all hk]
  unfold serializeToFile
  rw [if_neg (not_lt.mpr h)]
  exact find?_writeFileAtomic path (serialize reg) disk

/-! ## Which bytes are read back -/

/-- A file of the registry can be read back: it is within the size limit and in the domain of the codec. -/
def FabricRegistry.Storable (reg : FabricRegistry) : Prop := reg.FitsFile ∧ reg.current.Encodable

/-- **A file that holds a written registry** gives it back if the registry is storable, and nothing otherwise. -/
theorem deserializeFromFile_iff (hwf : reg.current.WellFormed) (hfile : disk.find? path = some (serialize reg))
    {reg' : FabricRegistry} :
    deserializeFromFile path disk = .ok reg' ↔ reg.Storable ∧ reg' = restored reg.current := by
  unfold deserializeFromFile
  rw [hfile]
  dsimp only
  by_cases hfits : reg.FitsFile
  · rw [if_neg (not_lt.mpr hfits)]
    have hsmall : (serialize reg).length < 2 ^ 32 := by
      have hle : (serialize reg).length ≤ 256 * 1024 * 1024 := hfits
      omega
    constructor
    · intro hread
      have henc := encodable_of_deserialized hwf hsmall hread
      rw [deserialize_serialize henc hwf.integral] at hread
      exact ⟨⟨hfits, henc⟩, (Except.ok.inj hread).symm⟩
    · rintro ⟨⟨_, henc⟩, rfl⟩
      exact deserialize_serialize henc hwf.integral
  · rw [if_pos (not_le.mp hfits)]
    exact iff_of_false (by simp) fun h => hfits h.1.1

/-- The path reads as the old state or as the new one. -/
def OldOrNew (old new : FabricRegistry) (path : Str) (disk : Disk) : Prop :=
  ∃ reg', deserializeFromFile path disk = .ok reg' ∧ (reg'.current = old.current ∨ reg'.current = new.current)

theorem oldOrNew_iff_of_old {old new : FabricRegistry} (hwf : old.current.WellFormed)
    (hfile : disk.find? path = some (serialize old)) : OldOrNew old new path disk ↔ old.Storable := by
  constructor
  · rintro ⟨reg', hread, _⟩
    exact ((deserializeFromFile_iff hwf hfile).mp hread).1
  · intro h
    exact ⟨_, (deserializeFromFile_iff hwf hfile).mpr ⟨h, rfl⟩, Or.inl rfl⟩

theorem oldOrNew_iff_of_new {old new : FabricRegistry} (hwf : new.current.WellFormed)
    (hfile : disk.find? path = some (serialize new)) : OldOrNew old new path disk ↔ new.Storable := by
  constructor
  · rintro ⟨reg', hread, _⟩
    exact ((deserializeFromFile_iff hwf hfile).mp hread).1
  · intro h
    exact ⟨_, (deserializeFromFile_iff hwf hfile).mpr ⟨h, rfl⟩, Or.inr rfl⟩

theorem not_oldOrNew_of_none {old new : FabricRegistry} (hfile : disk.find? path = none) :
    ¬ OldOrNew old new path disk := by
  rintro ⟨reg', hread, _⟩
  unfold deserializeFromFile at hread
  rw [hfile] at hread
  exact absurd hread (by simp)

/-- **When a save survives a stop.** The path holds the file of one registry while another is saved to it, and the
    process stops after `k` steps. It then reads as one of the two exactly if the process has not stopped between the
    removal and the rename, and the one whose bytes are there can be read back. -/
theorem crash_safe_iff {old new : FabricRegistry} (hold : old.Reachable) (hnew : new.Reachable)
    (hfile : disk.find? path = some (serialize old)) (k : Nat) :
    OldOrNew old new path (stoppedAfter k new path disk) ↔
      ¬ (new.FitsFile ∧ k = 3) ∧ (new.FitsFile ∧ 4 ≤ k → new.Storable) ∧
        (¬ (new.FitsFile ∧ 3 ≤ k) → old.Storable) := by
  by_cases hbefore : new.FitsFile ∧ 3 ≤ k
  · obtain ⟨hfits, hk⟩ := hbefore
    rcases hk.eq_or_lt with rfl | hlt
    · -- nothing is there
      refine iff_of_false (not_oldOrNew_of_none (find?_stoppedAfter_between hfits)) ?_
      rintro ⟨hno, _, _⟩
      exact hno ⟨hfits, rfl⟩
    · rw [oldOrNew_iff_of_new hnew.wellFormed (find?_stoppedAfter_after hfits hlt)]
      constructor
      · intro hstorable
        exact ⟨fun h => by omega, fun _ => hstorable, fun h => absurd ⟨hfits, hk⟩ h⟩
      · rintro ⟨_, hafter, _⟩
        exact hafter ⟨hfits, hlt⟩
  · rw [oldOrNew_iff_of_old hold.wellFormed ((find?_stoppedAfter_before hbefore).trans hfile)]
    constructor
    · intro hstorable
      exact ⟨fun h => hbefore ⟨h.1, by omega⟩, fun h => absurd ⟨h.1, by omega⟩ hbefore, fun _ => hstorable⟩
    · rintro ⟨_, _, hstorable⟩
      exact hstorable hbefore

/-! ## Stopping between the removal and the rename -/

/-- The file of a fresh registry. -/
def freshOnDisk : Disk := SortedMap.empty.insert (ascii "f") (serialize .new)

theorem fitsFile_new : FabricRegistry.new.FitsFile := by
  unfold FabricRegistry.FitsFile
  decide +kernel

theorem storable_new : FabricRegistry.new.Storable :=
  ⟨fitsFile_new, FabricTopology.encodable_of_empty rfl rfl rfl rfl rfl (by decide)⟩

/-- Stopped after the temporary file is written, the old state is there. -/
theorem crash_safe_written : OldOrNew .new .new (ascii "f") (stoppedAfter 2 .new (ascii "f") freshOnDisk) := by
  have hnew : FabricRegistry.new.Reachable := ⟨_, Or.inl rfl, .refl⟩
  have hfile : freshOnDisk.find? (ascii "f") = some (serialize .new) := SortedMap.find?_insert_self _ _ _
  exact (crash_safe_iff hnew hnew hfile 2).mpr ⟨by simp, by simp, fun _ => storable_new⟩

/-- A fresh registry is saved over the file of a fresh registry; stopped after three steps, there is no file. -/
theorem stopped_between_loses_both :
    ¬ ∀ (old new : FabricRegistry) (path : Str) (disk : Disk) (k : Nat), old.Reachable → new.Reachable →
      disk.find? path = some (serialize old) → OldOrNew old new path (stoppedAfter k new path disk) := by
  intro h
  have hnew : FabricRegistry.new.Reachable := ⟨_, Or.inl rfl, .refl⟩
  exact not_oldOrNew_of_none (find?_stoppedAfter_between fitsFile_new)
    (h .new .new (ascii "f") freshOnDisk 3 hnew hnew (SortedMap.find?_insert_self _ _ _))

end NVSwitchFabric
