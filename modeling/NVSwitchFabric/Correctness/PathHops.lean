import NVSwitchFabric.Correctness.PathSound
import NVSwitchFabric.Correctness.WellFormed
import NVSwitchFabric.Model.Scenario

/-!
# `Correctness.PathHops` — the hops of a returned path

A path is left through usable edges and entered, at its first switch, through a usable edge of the source. Later
switches are entered on whatever port the reverse half of the link has (`reversePorts`), which nothing checks.
`Partial.Shaped` says so for the paths the search holds, `FabricPath.Shaped` for those it returns. On an integral
topology all of it resolves by lookup (`Found.resolves`), and so it does on every snapshot a registry ever holds.
-/

namespace NVSwitchFabric

open Lib

/-! ## Rewriting the last hop -/

theorem modifyBack_cons {α : Type} (f : α → α) (x : α) {l : List α} (h : l ≠ []) :
    modifyBack f (x :: l) = x :: modifyBack f l := by
  cases l with
  | nil => exact absurd rfl h
  | cons _ _ => rfl

theorem modifyBack_concat {α : Type} (f : α → α) (l : List α) (x : α) : modifyBack f (l ++ [x]) = l ++ [f x] := by
  induction l with
  | nil => rfl
  | cons y l ih =>
    have hne : l ++ [x] ≠ [] := List.append_ne_nil_of_right_ne_nil _ (List.cons_ne_nil _ _)
    rw [List.cons_append, modifyBack_cons f y hne, ih, List.cons_append]

/-- Rewriting the last element keeps every component the rewriting keeps. -/
theorem map_modifyBack {α β : Type} {f : α → α} {g : α → β} (hg : ∀ x, g (f x) = g x) (l : List α) :
    (modifyBack f l).map g = l.map g := by
  induction l with
  | nil => rfl
  | cons x l ih =>
    cases l with
    | nil => exact congrArg (· :: []) (hg x)
    | cons y l => exact congrArg (g x :: ·) ih

theorem length_modifyBack {α : Type} (f : α → α) (l : List α) : (modifyBack f l).length = l.length := by
  have hmap := congrArg List.length (map_modifyBack (f := f) (g := fun _ => ()) (fun _ => rfl) l)
  rwa [List.length_map, List.length_map] at hmap

/-- The ports on which a path that crosses the switches in turn enters all but the first. -/
def reversePorts (adj : SortedMap SwitchId (List Edge)) : List SwitchId → List PortId
  | a :: b :: sws => reversePort adj a b :: reversePorts adj (b :: sws)
  | _             => []

theorem reversePorts_concat (adj : SortedMap SwitchId (List Edge)) (sws : List SwitchId) (a b : SwitchId) :
    reversePorts adj (sws ++ [a] ++ [b]) = reversePorts adj (sws ++ [a]) ++ [reversePort adj a b] := by
  induction sws with
  | nil => rfl
  | cons c sws ih =>
    cases sws with
    | nil => rfl
    | cons d sws => exact congrArg (reversePort adj c d :: ·) ih

namespace FabricTopology

variable {t : FabricTopology} {src dst : DeviceId} {cfg : TraversalConfig}

/-! ## Shape -/

/-- The switches of the path and the ports on which it enters them: a usable edge of a device leads to the first. -/
structure Entered (t : FabricTopology) (switches : List SwitchId) (hops : List PathHop) : Prop where
  hopSwitches : hops.map (·.sw) = switches
  inPorts     : ∃ e ∈ t.deviceEdges, edgeUsable e = true ∧
                  hops.map (·.inPort) = e.port :: reversePorts t.swEdges switches

/-- A partial path stands at the last of its switches and has left all others through usable ports. -/
structure Shaped (t : FabricTopology) (p : Partial) : Prop where
  standsAt : ∃ sws, p.switches = sws ++ [p.cur]
  entered  : t.Entered p.switches p.hops
  left     : ∃ init last, p.hops = init ++ [last] ∧ ∀ h ∈ init, t.PortUsable h.outPort

/-- **Explored paths are shaped.** -/
theorem Explored.shaped {p : Partial} (h : Explored t src cfg p) : t.Shaped p := by
  induction h with
  | @seed e edge _ usable =>
    refine ⟨⟨[], rfl⟩, ⟨rfl, e, edge, usable, rfl⟩, [], _, rfl, ?_⟩
    intro h hmem
    exact absurd hmem (by simp)
  | @extend p es e _ here edge usable _ _ _ _ ih =>
    obtain ⟨⟨sws, hsws⟩, ⟨hhops, e₀, he₀, husable₀, hin⟩, init, last, hlast, hleft⟩ := ih
    have hport := (edgeAt_of_mem_swEdges here edge).portUsable usable
    refine ⟨⟨p.switches, rfl⟩, ⟨?_, e₀, he₀, husable₀, ?_⟩, ?_⟩
    · show (modifyBack _ p.hops ++ [_]).map _ = p.switches ++ [e.other.sw]
      rw [List.map_append, map_modifyBack, hhops]
      · rfl
      · intro h
        rfl
    · show (modifyBack _ p.hops ++ [_]).map _ = e₀.port :: reversePorts t.swEdges (p.switches ++ [e.other.sw])
      rw [List.map_append, map_modifyBack, hin, hsws, reversePorts_concat]
      · rfl
      · intro h
        rfl
    · -- the hop that was open is left through `e`, and a new open one follows
      refine ⟨init ++ [{ last with outPort := e.port, exitToSwitch := true }],
        { sw := e.other.sw, inPort := reversePort t.swEdges p.cur e.other.sw }, ?_, ?_⟩
      · show modifyBack _ p.hops ++ [_] = _
        rw [hlast, modifyBack_concat]
      · exact List.forall_mem_append.mpr ⟨hleft, List.forall_mem_singleton.mpr hport⟩

/-- **Returned paths** leave every switch through a usable port. -/
theorem Found.shaped {q : FabricPath} (h : Found t src dst cfg q) :
    t.Entered q.switchSequence q.hops ∧ ∀ h ∈ q.hops, t.PortUsable h.outPort := by
  cases h with
  | @finish p es e known here edge usable _ _ =>
    obtain ⟨_, ⟨hhops, e₀, he₀, husable₀, hin⟩, init, last, hlast, hleft⟩ := known.shaped
    have hport := (edgeAt_of_mem_swEdges here edge).portUsable usable
    refine ⟨⟨?_, e₀, he₀, husable₀, ?_⟩, ?_⟩
    · show (modifyBack _ p.hops).map _ = p.switches
      rw [map_modifyBack, hhops]
      intro h
      rfl
    · show (modifyBack _ p.hops).map _ = _
      rw [map_modifyBack, hin]
      · rfl
      · intro h
        rfl
    · show ∀ h ∈ modifyBack _ p.hops, _
      rw [hlast, modifyBack_concat]
      exact List.forall_mem_append.mpr ⟨hleft, List.forall_mem_singleton.mpr hport⟩

/-- The in-ports of a path: that of its first hop is usable, the others are reverse ports. -/
theorem Entered.inPort {switches : List SwitchId} {hops : List PathHop} (h : t.Entered switches hops)
    {hop : PathHop} (hmem : hop ∈ hops) :
    t.PortUsable hop.inPort ∨ hop.inPort ∈ reversePorts t.swEdges switches := by
  obtain ⟨e, he, husable, hin⟩ := h.inPorts
  have hport : hop.inPort ∈ hops.map (·.inPort) := List.mem_map_of_mem hmem
  rw [hin] at hport
  rcases List.mem_cons.mp hport with heq | hport
  · obtain ⟨sw, hat⟩ := (edgeAt_of_mem_deviceEdges he).1
    rw [heq]
    exact Or.inl (hat.portUsable husable)
  · exact Or.inr hport

/-! ## Lookup -/

section
variable (hint : t.Integral)
include hint

/-- A reverse port is unknown, or it is the port of a link and so has a record. -/
theorem reversePort_resolves (a b : SwitchId) :
    (reversePort t.swEdges a b).isUnknown = true ∨ t.ports.contains (reversePort t.swEdges a b) = true := by
  unfold reversePort
  split
  · next re hre =>
    have hmem := List.mem_of_find?_eq_some hre
    cases hes : t.swEdges.find? b with
    | none => rw [hes] at hmem; exact absurd hmem (by simp)
    | some es =>
      rw [hes] at hmem
      obtain ⟨id, rec, hrec, _, rfl⟩ := edgeAt_of_mem_swEdges hes hmem
      exact Or.inr (hint.linkPort hrec)
  · exact Or.inl rfl

theorem reversePorts_resolve (sws : List SwitchId) :
    ∀ pid ∈ reversePorts t.swEdges sws, pid.isUnknown = true ∨ t.ports.contains pid = true := by
  induction sws with
  | nil => simp [reversePorts]
  | cons a sws ih =>
    cases sws with
    | nil => simp [reversePorts]
    | cons b sws =>
      intro pid hpid
      rcases List.mem_cons.mp hpid with rfl | hpid
      · exact reversePort_resolves hint a b
      · exact ih pid hpid

/-- Every switch an explored path has entered has a record. -/
theorem Explored.switches_resolve {p : Partial} (h : Explored t src cfg p) :
    ∀ s ∈ p.switches, t.switches.contains s = true := by
  induction h with
  | seed edge _ usable =>
    intro s hs
    obtain rfl := List.mem_singleton.mp hs
    obtain ⟨sw, hat⟩ := (edgeAt_of_mem_deviceEdges edge).1
    obtain ⟨pr, hpr, _⟩ := hat.portUsable usable
    exact hint.portSwitch hpr
  | extend _ here edge _ toSwitch _ _ _ ih =>
    intro s hs
    rcases List.mem_append.mp hs with hs | hs
    · exact ih s hs
    · obtain rfl := List.mem_singleton.mp hs
      obtain ⟨id, rec, hrec, _, rfl⟩ := edgeAt_of_mem_swEdges here edge
      have hend := hint.linkEnd hrec
      have hkind : rec.otherEnd.kind = .switch := of_decide_eq_true toSwitch
      unfold EndExists at hend
      rwa [if_neg (by rw [hkind]; simp)] at hend

end

/-- Everything the path names has a record. -/
structure Resolves (t : FabricTopology) (q : FabricPath) : Prop where
  switches : ∀ s ∈ q.switchSequence, (t.lookupSwitch s).isSome = true
  hops     : ∀ h ∈ q.hops, (t.lookupSwitch h.sw).isSome = true
  links    : ∀ l ∈ q.links, (t.lookupLink l).isSome = true
  ports    : ∀ p ∈ q.knownPorts, (t.lookupPort p).isSome = true

/-- **On a topology that is integral and keyed by record ids, a returned path resolves.** -/
theorem Found.resolves {q : FabricPath} (h : Found t src dst cfg q) (hint : t.Integral) (hkeyed : t.Keyed) :
    t.Resolves q := by
  obtain ⟨hentered, hleft⟩ := h.shaped
  have hswitches : ∀ s ∈ q.switchSequence, t.switches.contains s = true := by
    cases h with
    | finish known => exact known.switches_resolve hint
  have hports : ∀ p ∈ q.knownPorts, t.ports.contains p = true := by
    intro pid hpid
    obtain ⟨hop, hhop, hpid⟩ := List.mem_flatMap.mp hpid
    have hin : hop.inPort.isUnknown = true ∨ t.ports.contains hop.inPort = true := by
      rcases hentered.inPort hhop with ⟨rec, hrec, _⟩ | hrev
      · exact Or.inr (SortedMap.contains_iff.mpr ⟨rec, hrec⟩)
      · exact reversePorts_resolve hint _ _ hrev
    rcases List.mem_append.mp hpid with hpid | hpid
    · split at hpid
      · exact absurd hpid (by simp)
      · next hknown =>
        obtain rfl := List.mem_singleton.mp hpid
        exact hin.resolve_left hknown
    · obtain rfl := List.mem_singleton.mp hpid
      obtain ⟨rec, hrec, _⟩ := hleft hop hhop
      exact SortedMap.contains_iff.mpr ⟨rec, hrec⟩
  refine ⟨hswitches, ?_, ?_, hports⟩
  · intro hop hhop
    have hmem : hop.sw ∈ q.hops.map (·.sw) := List.mem_map_of_mem hhop
    rw [hentered.hopSwitches] at hmem
    exact hswitches _ hmem
  · intro l hl
    obtain ⟨rec, hrec, _⟩ := h.links_usable hkeyed l hl
    exact SortedMap.contains_iff.mpr ⟨rec, hrec⟩

end FabricTopology

namespace FabricRegistry

/-- **The snapshot of a reachable registry is well formed, and every path enumerated on it resolves.** -/
theorem reachable_resolves {r : FabricRegistry} (h : r.Reachable) :
    r.current.WellFormed ∧
      ∀ (src dst : DeviceId) (cfg : TraversalConfig), ∀ q ∈ r.paths src dst cfg, r.current.Resolves q := by
  have hwf := h.wellFormed
  refine ⟨hwf, ?_⟩
  intro src dst cfg q hq
  exact (FabricTopology.enumeratePaths_found hq).resolves hwf.integral hwf.keyed

/-- With two switches between the devices there is a path, entered on a reverse port. -/
theorem reachable_resolves_twoSwitchLinear :
    let r := after [.applyBulk (buildSyntheticScan .twoSwitchLinear)]
    r.paths ⟨1⟩ ⟨2⟩ {} ≠ [] ∧ r.current.WellFormed ∧
      ∀ (src dst : DeviceId) (cfg : TraversalConfig), ∀ q ∈ r.paths src dst cfg, r.current.Resolves q :=
  ⟨by decide +kernel, reachable_resolves (reachable_after _)⟩

end FabricRegistry

end NVSwitchFabric
