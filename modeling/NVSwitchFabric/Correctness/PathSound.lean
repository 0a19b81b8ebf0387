import NVSwitchFabric.Model.Paths

/-!
# `Correctness.PathSound` — what path enumeration returns

The frontier loop gathers paths from a tree: the seeds are its roots, and a partial path has the one-switch
extensions of itself as children (`Partial.extensions`). `enumeratePaths_eq` says that enumeration returns the first
`maxPaths` paths of that tree in level order, so shorter paths come first.

`Explored` generates the partial paths of the tree, one constructor for each way the loop pushes one, and `Found` is a
partial path closed by an edge to the destination. The tree holds exactly these (`mem_pathsInOrder_iff`); every
structural fact about returned paths is then an induction on `Explored`, in which the queue, the accumulator and the
number of paths no longer occur.
-/

namespace NVSwitchFabric

open Lib

variable {t : FabricTopology} {src dst : DeviceId} {cfg : TraversalConfig}

namespace FabricTopology

/-! ## Edges -/

/-- `e` is the edge of a link rooted at `sw`. -/
def EdgeAt (t : FabricTopology) (sw : SwitchId) (e : Edge) : Prop :=
  ∃ id rec, t.links.find? id = some rec ∧ rec.rootSwitch = sw ∧ t.edgeOf rec = e

theorem mem_getD_iff {m : SortedMap SwitchId (List Edge)} {sw : SwitchId} {e : Edge} :
    e ∈ (m.find? sw).getD [] ↔ ∃ es, m.find? sw = some es ∧ e ∈ es := by
  cases m.find? sw with
  | none => simp
  | some es => simp

/-- The index built from some links lists the edge of each, in their order, under its root. -/
theorem find?_foldl_insert_edge (t : FabricTopology) (sw : SwitchId) :
    ∀ (ls : List (LinkId × LinkRecord)) (m : SortedMap SwitchId (List Edge)),
      ((ls.foldl (fun m l =>
        m.insert l.2.rootSwitch ((m.find? l.2.rootSwitch).getD [] ++ [t.edgeOf l.2])) m).find? sw).getD [] =
        (m.find? sw).getD [] ++ (ls.filter fun l => l.2.rootSwitch = sw).map fun l => t.edgeOf l.2 := by
  intro ls
  induction ls with
  | nil => intro m; simp
  | cons l ls ih =>
    intro m
    rw [List.foldl_cons, ih, SortedMap.find?_insert]
    by_cases hroot : l.2.rootSwitch = sw
    · -- the edge of `l` joins those listed under its root so far
      subst hroot
      simp
    · rw [if_neg (Ne.symm hroot), List.filter_cons_of_neg (by simpa using hroot)]

/-- Under each switch stand the edges of the links rooted at it, in link order. -/
theorem rawSwitchEdges_eq (t : FabricTopology) (sw : SwitchId) :
    (t.rawSwitchEdges.find? sw).getD [] =
      (t.links.entries.filter fun l => l.2.rootSwitch = sw).map fun l => t.edgeOf l.2 :=
  t.find?_foldl_insert_edge sw t.links.entries .empty

/-- Sorting keeps them. -/
theorem swEdges_perm (t : FabricTopology) (sw : SwitchId) :
    ((t.swEdges.find? sw).getD []).Perm ((t.rawSwitchEdges.find? sw).getD []) := by
  unfold swEdges
  rw [SortedMap.find?_mapVals]
  cases t.rawSwitchEdges.find? sw with
  | none => exact .refl _
  | some es => exact List.perm_insertionSort _ es

/-- **The index lists, under each switch, the edges of the links rooted at it.** -/
theorem mem_swEdges_iff {sw : SwitchId} {e : Edge} : e ∈ (t.swEdges.find? sw).getD [] ↔ t.EdgeAt sw e := by
  rw [(t.swEdges_perm sw).mem_iff, rawSwitchEdges_eq, List.mem_map]
  constructor
  · rintro ⟨⟨id, rec⟩, hl, hedge⟩
    obtain ⟨hl, hroot⟩ := List.mem_filter.mp hl
    exact ⟨id, rec, SortedMap.find?_eq_some_iff.mpr hl, of_decide_eq_true hroot, hedge⟩
  · rintro ⟨id, rec, hrec, hroot, hedge⟩
    exact ⟨(id, rec), List.mem_filter.mpr ⟨SortedMap.find?_eq_some_iff.mp hrec, decide_eq_true hroot⟩, hedge⟩

theorem edgeAt_of_mem_swEdges {sw : SwitchId} {es : List Edge} {e : Edge}
    (hes : t.swEdges.find? sw = some es) (he : e ∈ es) : t.EdgeAt sw e :=
  mem_swEdges_iff.mp (mem_getD_iff.mpr ⟨es, hes, he⟩)

/-- The device edges are the edges whose far end is a device. -/
theorem mem_deviceEdges_iff {e : Edge} :
    e ∈ t.deviceEdges ↔ (∃ sw, t.EdgeAt sw e) ∧ isDeviceEnd e.other = true := by
  unfold deviceEdges
  rw [List.mem_insertionSort, List.mem_filter, List.mem_flatMap]
  refine and_congr_left fun _ => ?_
  constructor
  · rintro ⟨⟨sw, es⟩, hmem, hes⟩
    exact ⟨sw, edgeAt_of_mem_swEdges (SortedMap.find?_eq_some_iff.mpr hmem) hes⟩
  · rintro ⟨sw, hat⟩
    obtain ⟨es, hes, he⟩ := mem_getD_iff.mp (mem_swEdges_iff.mpr hat)
    exact ⟨(sw, es), SortedMap.find?_eq_some_iff.mp hes, he⟩

theorem edgeAt_of_mem_deviceEdges {e : Edge} (he : e ∈ t.deviceEdges) :
    (∃ sw, t.EdgeAt sw e) ∧ isDeviceEnd e.other = true :=
  mem_deviceEdges_iff.mp he

/-- The link exists and is up or degraded. -/
def LinkUsable (t : FabricTopology) (id : LinkId) : Prop :=
  ∃ rec, t.links.find? id = some rec ∧ usableState rec.state = true

/-- The port exists and is up or degraded. -/
def PortUsable (t : FabricTopology) (id : PortId) : Prop :=
  ∃ rec, t.ports.find? id = some rec ∧ usableState rec.state = true

/-- The switch exists and is up or degraded. -/
def SwitchUsable (t : FabricTopology) (id : SwitchId) : Prop :=
  ∃ rec, t.switches.find? id = some rec ∧ usableState rec.state = true

instance (t : FabricTopology) (id : SwitchId) : Decidable (t.SwitchUsable id) :=
  decidable_of_iff ((t.switches.find? id).any (fun rec => usableState rec.state) = true) (Option.any_eq_true _ _)

instance (t : FabricTopology) (id : PortId) : Decidable (t.PortUsable id) :=
  decidable_of_iff ((t.ports.find? id).any (fun rec => usableState rec.state) = true) (Option.any_eq_true _ _)

instance (t : FabricTopology) (id : LinkId) : Decidable (t.LinkUsable id) :=
  decidable_of_iff ((t.links.find? id).any (fun rec => usableState rec.state) = true) (Option.any_eq_true _ _)

/-- A usable edge leaves its switch by a usable port. -/
theorem EdgeAt.portUsable {sw : SwitchId} {e : Edge} (h : t.EdgeAt sw e) (husable : edgeUsable e = true) :
    t.PortUsable e.port := by
  obtain ⟨id, rec, _, _, rfl⟩ := h
  have hport : usableState (t.edgeOf rec).portState = true := (Bool.and_eq_true_iff.mp husable).2
  unfold edgeOf lookupPort at hport
  dsimp only at hport
  cases hp : t.ports.find? rec.port with
  | none => rw [hp] at hport; exact absurd hport (by decide)
  | some pr => rw [hp] at hport; exact ⟨pr, hp, hport⟩

/-- It stands for a usable link. -/
theorem EdgeAt.usable {sw : SwitchId} {e : Edge} (h : t.EdgeAt sw e) (hkeyed : t.Keyed)
    (husable : edgeUsable e = true) : t.LinkUsable e.link ∧ t.PortUsable e.port := by
  have hport := h.portUsable husable
  obtain ⟨id, rec, hrec, _, rfl⟩ := h
  have hid : rec.id = id := hkeyed.links hrec
  have hlink : usableState (t.edgeOf rec).linkState = true := (Bool.and_eq_true_iff.mp husable).1
  refine ⟨⟨rec, ?_, hlink⟩, hport⟩
  show t.links.find? rec.id = some rec
  rw [hid]
  exact hrec

/-! ## The search tree -/

end FabricTopology

/-- The search goes on through the edge: to a switch not visited yet, if the path may still grow. -/
def Partial.goesOn (cfg : TraversalConfig) (p : Partial) (e : Edge) : Bool :=
  isSwitchEnd e.other && cfg.allowSwitchSwitching && !p.visited.contains e.other.sw &&
    p.switches.length < cfg.maxDepth.toNat

/-- The extensions of a partial path through some of the edges out of its switch. -/
def Partial.through (cfg : TraversalConfig) (adj : SortedMap SwitchId (List Edge)) (p : Partial) (es : List Edge) :
    List Partial :=
  (es.filter fun e => edgeUsable e && p.goesOn cfg e).map (p.extend adj)

/-- The children of a partial path in the search tree. -/
def Partial.extensions (cfg : TraversalConfig) (adj : SortedMap SwitchId (List Edge)) (p : Partial) : List Partial :=
  p.through cfg adj ((adj.find? p.cur).getD [])

namespace FabricTopology

/-- The paths that some of the edges out of its switch finish. -/
def finishes (t : FabricTopology) (src dst : DeviceId) (p : Partial) (es : List Edge) : List FabricPath :=
  (es.filter fun e => edgeUsable e && (isDeviceEnd e.other && e.other.device = dst)).map (t.finish src dst p)

/-- What the search tree yields at a partial path. -/
def arrivals (t : FabricTopology) (src dst : DeviceId) (p : Partial) : List FabricPath :=
  t.finishes src dst p ((t.swEdges.find? p.cur).getD [])

/-- The partial paths from the source, shorter ones first. -/
def searchTree (t : FabricTopology) (src : DeviceId) (cfg : TraversalConfig) : List Partial :=
  Worklist.levels (Partial.extensions cfg t.swEdges) cfg.maxDepth.toNat
    ((t.deviceEdges.filter fun e => e.other.device = src && edgeUsable e).map Partial.seed)

/-- The paths of the search tree over some device edges, in breadth-first order. -/
def pathsFrom (t : FabricTopology) (src dst : DeviceId) (cfg : TraversalConfig) (devEdges : List Edge) :
    List FabricPath :=
  (Worklist.levels (Partial.extensions cfg t.swEdges) cfg.maxDepth.toNat
    ((devEdges.filter fun e => e.other.device = src && edgeUsable e).map Partial.seed)).flatMap (t.arrivals src dst)

/-- All paths from source to destination over usable links and out-ports, in breadth-first order. -/
def pathsInOrder (t : FabricTopology) (src dst : DeviceId) (cfg : TraversalConfig) : List FabricPath :=
  (t.searchTree src cfg).flatMap (t.arrivals src dst)

end FabricTopology

theorem isDeviceEnd_of_isSwitchEnd {e : LinkEnd} (h : isSwitchEnd e = true) : isDeviceEnd e = false := by
  have hkind : e.kind = .switch := of_decide_eq_true h
  unfold isDeviceEnd
  rw [hkind]
  rfl

theorem Partial.goesOn_iff {p : Partial} {e : Edge} :
    p.goesOn cfg e = true ↔ isSwitchEnd e.other = true ∧ cfg.allowSwitchSwitching = true ∧
      e.other.sw ∉ p.visited ∧ p.switches.length < cfg.maxDepth.toNat := by
  unfold goesOn
  simp only [Bool.and_eq_true, Bool.not_eq_true', List.contains_eq_mem, decide_eq_false_iff_not, decide_eq_true_eq,
    and_assoc]

namespace FabricTopology

section
variable {adj : SortedMap SwitchId (List Edge)} {p : Partial} {e : Edge} {kids : List Partial}
  {result : List FabricPath}

/-- One edge of the inner loop, while there is room for results. -/
theorem expandEdges_cons (hroom : result.length < cfg.maxPaths.toNat) (es : List Edge) :
    t.expandEdges src dst cfg adj p (e :: es) (kids, result) =
      t.expandEdges src dst cfg adj p es (kids ++ p.through cfg adj [e], result ++ t.finishes src dst p [e]) := by
  have hthrough : p.through cfg adj [e] = if edgeUsable e && p.goesOn cfg e then [p.extend adj e] else [] := by
    unfold Partial.through
    rw [List.filter_singleton]
    cases edgeUsable e && p.goesOn cfg e <;> rfl
  have hfinishes : t.finishes src dst p [e] =
      if edgeUsable e && (isDeviceEnd e.other && e.other.device = dst) then [t.finish src dst p e] else [] := by
    unfold finishes
    rw [List.filter_singleton]
    cases edgeUsable e && (isDeviceEnd e.other && e.other.device = dst) <;> rfl
  rw [hthrough, hfinishes, expandEdges]
  cases husable : edgeUsable e with
  | false => simp
  | true =>
    simp only [Bool.not_true, Bool.false_eq_true, if_false, if_neg (not_le.mpr hroom), Bool.true_and]
    cases hdev : isDeviceEnd e.other with
    | true =>
      have hsw : p.goesOn cfg e = false := by
        rw [Bool.eq_false_iff]
        intro hgo
        rw [isDeviceEnd_of_isSwitchEnd (Partial.goesOn_iff.mp hgo).1] at hdev
        exact absurd hdev (by simp)
      by_cases hdst : e.other.device = dst
      · simp [hsw, hdst]
      · simp [hsw, hdst]
    | false =>
      cases hgo : p.goesOn cfg e with
      | true =>
        obtain ⟨hsw, hallow, hfresh, hdepth⟩ := Partial.goesOn_iff.mp hgo
        simp [hsw, hallow, hfresh, not_le.mpr hdepth]
      | false =>
        -- one of the four tests skips the edge
        simp only [Bool.false_eq_true, if_false, Bool.false_and, List.append_nil]
        split
        · next hsw =>
          split
          · rfl
          next hallow =>
          split
          · rfl
          next hfresh =>
          split
          · rfl
          next hdepth =>
          rw [Bool.not_eq_true', Bool.not_eq_false] at hallow
          rw [Partial.goesOn_iff.mpr ⟨hsw, hallow, hfresh, not_le.mp hdepth⟩] at hgo
          exact absurd hgo (by simp)
        · rfl

/-- With no room left, the inner loop changes nothing. -/
theorem expandEdges_full (hfull : cfg.maxPaths.toNat ≤ result.length) (es : List Edge) :
    t.expandEdges src dst cfg adj p es (kids, result) = (kids, result) := by
  induction es with
  | nil => rfl
  | cons e es ih =>
    rw [expandEdges]
    split
    · exact ih
    · rfl

theorem through_cons (e : Edge) (es : List Edge) :
    p.through cfg adj (e :: es) = p.through cfg adj [e] ++ p.through cfg adj es := by
  unfold Partial.through
  rw [← List.map_append, ← List.filter_append]
  rfl

theorem finishes_cons (e : Edge) (es : List Edge) :
    t.finishes src dst p (e :: es) = t.finishes src dst p [e] ++ t.finishes src dst p es := by
  unfold finishes
  rw [← List.map_append, ← List.filter_append]
  rfl

/-- **The inner loop** pushes every extension and adds every finished path, unless the result fills up. -/
theorem expandEdges_eq (es : List Edge) :
    ∀ (kids : List Partial) (result : List FabricPath),
      (result ++ t.finishes src dst p es).length < cfg.maxPaths.toNat →
        t.expandEdges src dst cfg adj p es (kids, result) =
          (kids ++ p.through cfg adj es, result ++ t.finishes src dst p es) := by
  induction es with
  | nil =>
    intro kids result _
    simp [expandEdges, Partial.through, finishes]
  | cons e es ih =>
    intro kids result hroom
    rw [finishes_cons, ← List.append_assoc] at hroom ⊢
    have hhead : result.length < cfg.maxPaths.toNat := by
      rw [List.length_append, List.length_append] at hroom
      omega
    rw [expandEdges_cons hhead, ih _ _ hroom, through_cons e es, List.append_assoc kids]

/-- Its result is cut off where it fills up. -/
theorem expandEdges_result (es : List Edge) :
    ∀ (kids : List Partial) (result : List FabricPath), result.length ≤ cfg.maxPaths.toNat →
      (t.expandEdges src dst cfg adj p es (kids, result)).2 =
        (result ++ t.finishes src dst p es).take cfg.maxPaths.toNat := by
  induction es with
  | nil =>
    intro kids result hle
    rw [finishes, List.filter_nil, List.map_nil, List.append_nil, List.take_of_length_le hle]
    rfl
  | cons e es ih =>
    intro kids result hle
    rcases lt_or_ge result.length cfg.maxPaths.toNat with hroom | hfull
    · have hone : (t.finishes src dst p [e]).length ≤ 1 := by
        unfold finishes
        rw [List.length_map]
        exact List.length_filter_le _ _
      rw [expandEdges_cons hroom, ih _ _ (by rw [List.length_append]; omega), finishes_cons e es, List.append_assoc]
    · rw [expandEdges_full hfull, ← le_antisymm hle hfull, List.take_left]

theorem expand_of_room (hroom : result.length < cfg.maxPaths.toNat) :
    t.expand src dst cfg adj result p =
      some (t.expandEdges src dst cfg adj p ((adj.find? p.cur).getD []) ([], result)) := by
  unfold expand
  rw [if_neg (not_le.mpr hroom)]
  cases adj.find? p.cur with
  | none => rfl
  | some es => rfl

end

/-- **The frontier loop is a search of the tree.** -/
theorem frontierLoop_gathers (t : FabricTopology) (src dst : DeviceId) (cfg : TraversalConfig) :
    (t.frontierLoop src dst cfg t.swEdges).Gathers cfg.maxPaths.toNat (Partial.extensions cfg t.swEdges)
      (t.arrivals src dst) where
  full := by
    intro result p hfull
    exact if_pos hfull
  more := by
    intro result p hmore
    have hroom : result.length < cfg.maxPaths.toNat := by
      rw [List.length_append] at hmore
      omega
    show t.expand src dst cfg t.swEdges result p = _
    rw [expand_of_room hroom, expandEdges_eq _ _ _ hmore]
    rfl
  last := by
    intro result p hroom _
    refine ⟨(t.expandEdges src dst cfg t.swEdges p ((t.swEdges.find? p.cur).getD []) ([], result)).1, ?_⟩
    show t.expand src dst cfg t.swEdges result p = _
    rw [expand_of_room hroom]
    exact congrArg some (Prod.ext rfl (expandEdges_result _ _ _ hroom.le))

theorem mem_through_iff {adj : SortedMap SwitchId (List Edge)} {p k : Partial} {es : List Edge} :
    k ∈ p.through cfg adj es ↔ ∃ e ∈ es, edgeUsable e = true ∧ p.goesOn cfg e = true ∧ p.extend adj e = k := by
  unfold Partial.through
  rw [List.mem_map]
  simp only [List.mem_filter, Bool.and_eq_true, and_assoc]

theorem mem_finishes_iff {p : Partial} {q : FabricPath} {es : List Edge} :
    q ∈ t.finishes src dst p es ↔ ∃ e ∈ es, edgeUsable e = true ∧ isDeviceEnd e.other = true ∧
      e.other.device = dst ∧ t.finish src dst p e = q := by
  unfold finishes
  rw [List.mem_map]
  simp only [List.mem_filter, Bool.and_eq_true, decide_eq_true_eq, and_assoc]

/-- A child has fewer switches still to go. -/
theorem extensions_shorter {p k : Partial} (hk : k ∈ p.extensions cfg t.swEdges) :
    cfg.maxDepth.toNat - k.switches.length < cfg.maxDepth.toNat - p.switches.length := by
  obtain ⟨e, _, _, hgo, rfl⟩ := mem_through_iff.mp hk
  have hdepth := (Partial.goesOn_iff.mp hgo).2.2.2
  have hlen : (p.extend t.swEdges e).switches.length = p.switches.length + 1 := List.length_append
  omega

theorem seeds_shorter (hdepth : 0 < cfg.maxDepth.toNat) (devEdges : List Edge) :
    ∀ p ∈ (devEdges.filter fun e => e.other.device = src && edgeUsable e).map Partial.seed,
      cfg.maxDepth.toNat - p.switches.length < cfg.maxDepth.toNat := by
  intro p hp
  obtain ⟨e, _, rfl⟩ := List.mem_map.mp hp
  have hlen : (Partial.seed e).switches.length = 1 := rfl
  omega

/-- The search returns the first paths of the tree, whatever the order of the device edges. -/
theorem search_eq (hdepth : 0 < cfg.maxDepth.toNat) (devEdges : List Edge) :
    t.search src dst cfg t.swEdges devEdges = (t.pathsFrom src dst cfg devEdges).take cfg.maxPaths.toNat := by
  have hrank : ∀ p : Partial, ∀ k ∈ p.extensions cfg t.swEdges,
      cfg.maxDepth.toNat - k.switches.length < cfg.maxDepth.toNat - p.switches.length :=
    fun _ _ hk => extensions_shorter hk
  exact (t.frontierLoop_gathers src dst cfg).run_eq_take hrank _ _ [] (Nat.zero_le _) (seeds_shorter hdepth devEdges)

/-- The endpoints have records in a state that enumeration accepts, and differ. -/
structure Joinable (t : FabricTopology) (src dst : DeviceId) : Prop where
  source      : ∃ s, t.devices.find? src = some s ∧ endpointState s.state = true
  destination : ∃ d, t.devices.find? dst = some d ∧ endpointState d.state = true
  distinct    : src ≠ dst

/-- The guards of `enumeratePaths`, in front of some paths. -/
def guarded (t : FabricTopology) (src dst : DeviceId) (cfg : TraversalConfig) (paths : List FabricPath) : List FabricPath :=
  if cfg.maxPaths = 0 || cfg.maxDepth = 0 then []
  else match t.lookupDevice src, t.lookupDevice dst with
    | some srec, some drec =>
      if !endpointState srec.state then []
      else if !endpointState drec.state then []
      else if src = dst then []
      else paths
    | _, _ => []

/-- The guards let the paths through where there is something to search. -/
theorem guarded_cases (t : FabricTopology) (src dst : DeviceId) (cfg : TraversalConfig) (paths : List FabricPath) :
    (t.guarded src dst cfg paths = [] ∧ (cfg.maxPaths = 0 ∨ cfg.maxDepth = 0 ∨ ¬ t.Joinable src dst)) ∨
      (t.guarded src dst cfg paths = paths ∧ 0 < cfg.maxDepth.toNat ∧ t.Joinable src dst) := by
  unfold guarded
  split
  · next hzero =>
    rw [Bool.or_eq_true, decide_eq_true_eq, decide_eq_true_eq] at hzero
    exact Or.inl ⟨rfl, hzero.imp_right Or.inl⟩
  next hnonzero =>
  rw [Bool.or_eq_true, decide_eq_true_eq, decide_eq_true_eq, not_or] at hnonzero
  have hnone : ¬ t.Joinable src dst → cfg.maxPaths = 0 ∨ cfg.maxDepth = 0 ∨ ¬ t.Joinable src dst := fun h => Or.inr (Or.inr h)
  split
  · next s d hs hd =>
    have hsource : t.Joinable src dst → endpointState s.state = true := by
      rintro ⟨⟨s', hs', hstate⟩, _, _⟩
      rwa [Option.some.inj (hs.symm.trans hs')]
    have hdest : t.Joinable src dst → endpointState d.state = true := by
      rintro ⟨_, ⟨d', hd', hstate⟩, _⟩
      rwa [Option.some.inj (hd.symm.trans hd')]
    split_ifs with hsrc hdst heq
    · exact Or.inl ⟨rfl, hnone fun h => by simp [hsource h] at hsrc⟩
    · exact Or.inl ⟨rfl, hnone fun h => by simp [hdest h] at hdst⟩
    · exact Or.inl ⟨rfl, hnone fun h => h.distinct heq⟩
    · rw [Bool.not_eq_true', Bool.not_eq_false] at hsrc hdst
      exact Or.inr ⟨rfl, Nat.pos_of_ne_zero fun hzero => hnonzero.2 (UInt32.toNat_inj.mp hzero),
        ⟨s, hs, hsrc⟩, ⟨d, hd, hdst⟩, heq⟩
  · next hmissing =>
    refine Or.inl ⟨rfl, hnone ?_⟩
    rintro ⟨⟨s, hs, _⟩, ⟨d, hd, _⟩, _⟩
    exact hmissing s d hs hd

/-- The search behind the guards returns the first paths of the tree. -/
theorem guarded_search (h : t.Joinable src dst) {devEdges : List Edge} :
    t.guarded src dst cfg (t.search src dst cfg t.swEdges devEdges) =
      (t.pathsFrom src dst cfg devEdges).take cfg.maxPaths.toNat := by
  rcases t.guarded_cases src dst cfg (t.search src dst cfg t.swEdges devEdges) with
    ⟨hnone, hzero | hzero | hno⟩ | ⟨heq, hdepth, _⟩
  · rw [hnone, hzero]
    rfl
  · rw [hnone]
    unfold pathsFrom
    rw [hzero]
    simp [Worklist.levels]
  · exact absurd h hno
  · rw [heq, search_eq hdepth]

/-- **Enumeration returns the first `maxPaths` paths**, shorter ones first. -/
theorem enumeratePaths_eq (h : t.Joinable src dst) :
    t.enumeratePaths src dst cfg = (t.pathsInOrder src dst cfg).take cfg.maxPaths.toNat :=
  guarded_search h

/-- What has an enumerated path can be joined, at some depth. -/
theorem joinable_of_enumerated {q : FabricPath} (h : q ∈ t.enumeratePaths src dst cfg) :
    t.Joinable src dst ∧ 0 < cfg.maxDepth.toNat := by
  rcases t.guarded_cases src dst cfg (t.search src dst cfg t.swEdges t.deviceEdges) with ⟨hnone, _⟩ | ⟨_, hdepth, hjoin⟩
  · have hempty : t.enumeratePaths src dst cfg = [] := hnone
    rw [hempty] at h
    exact absurd h List.not_mem_nil
  · exact ⟨hjoin, hdepth⟩

/-- A pair with an enumerated path has both endpoints in an endpoint state. -/
theorem endpoints_of_enumerated {q : FabricPath} (h : q ∈ t.enumeratePaths src dst cfg) :
    (∃ s, t.devices.find? src = some s ∧ endpointState s.state = true) ∧
      ∃ d, t.devices.find? dst = some d ∧ endpointState d.state = true :=
  have hjoin := (joinable_of_enumerated h).1
  ⟨hjoin.source, hjoin.destination⟩

/-! ## What the tree holds -/

/-- The partial paths the frontier loop may hold. -/
inductive Explored (t : FabricTopology) (src : DeviceId) (cfg : TraversalConfig) : Partial → Prop where
  | seed {e : Edge} (edge : e ∈ t.deviceEdges) (atSrc : e.other.device = src)
      (usable : edgeUsable e = true) : Explored t src cfg (.seed e)
  | extend {p : Partial} {es : List Edge} {e : Edge} (known : Explored t src cfg p)
      (here : t.swEdges.find? p.cur = some es) (edge : e ∈ es) (usable : edgeUsable e = true)
      (toSwitch : isSwitchEnd e.other = true) (allowed : cfg.allowSwitchSwitching = true)
      (fresh : e.other.sw ∉ p.visited) (depth : p.switches.length < cfg.maxDepth.toNat) :
      Explored t src cfg (p.extend t.swEdges e)

/-- The finished paths: an explored one and an edge from where it stands to the destination. -/
inductive Found (t : FabricTopology) (src dst : DeviceId) (cfg : TraversalConfig) : FabricPath → Prop where
  | finish {p : Partial} {es : List Edge} {e : Edge} (known : Explored t src cfg p)
      (here : t.swEdges.find? p.cur = some es) (edge : e ∈ es) (usable : edgeUsable e = true)
      (toDevice : isDeviceEnd e.other = true) (atDst : e.other.device = dst) :
      Found t src dst cfg (t.finish src dst p e)

/-- The seeds are explored. -/
theorem explored_seeds : ∀ p ∈ (t.deviceEdges.filter fun e => e.other.device = src && edgeUsable e).map Partial.seed,
    Explored t src cfg p := by
  intro p hp
  obtain ⟨e, he, rfl⟩ := List.mem_map.mp hp
  rw [List.mem_filter, Bool.and_eq_true, decide_eq_true_eq] at he
  exact .seed he.1 he.2.1 he.2.2

/-- So are the extensions of what is explored. -/
theorem Explored.extension {p k : Partial} (hp : Explored t src cfg p) (hk : k ∈ p.extensions cfg t.swEdges) :
    Explored t src cfg k := by
  obtain ⟨e, he, husable, hgo, rfl⟩ := mem_through_iff.mp hk
  obtain ⟨es, hes, he⟩ := mem_getD_iff.mp he
  obtain ⟨hsw, hallow, hfresh, hdeep⟩ := Partial.goesOn_iff.mp hgo
  exact .extend hp hes he husable hsw hallow hfresh hdeep

/-- **The tree holds the explored paths.** -/
theorem mem_searchTree_iff (hdepth : 0 < cfg.maxDepth.toNat) {p : Partial} :
    p ∈ t.searchTree src cfg ↔ Explored t src cfg p := by
  constructor
  · intro hp
    exact Worklist.levels_invariant (fun _ hp _ hk => hp.extension hk) _ _ explored_seeds p hp
  · intro hp
    induction hp with
    | seed edge atSrc usable =>
      apply Worklist.mem_levels_root hdepth
      refine List.mem_map_of_mem (List.mem_filter.mpr ⟨edge, ?_⟩)
      rw [atSrc, usable]
      simp
    | @extend p es e _ here edge usable toSwitch allowed fresh depth ih =>
      have hchild : p.extend t.swEdges e ∈ p.extensions cfg t.swEdges :=
        mem_through_iff.mpr ⟨e, mem_getD_iff.mpr ⟨es, here, edge⟩, usable,
          Partial.goesOn_iff.mpr ⟨toSwitch, allowed, fresh, depth⟩, rfl⟩
      exact Worklist.mem_levels_kid (fun _ _ hk => extensions_shorter hk) hchild _ _ (seeds_shorter hdepth _) ih

/-- **The paths in order are the found ones.** -/
theorem mem_pathsInOrder_iff (hdepth : 0 < cfg.maxDepth.toNat) {q : FabricPath} :
    q ∈ t.pathsInOrder src dst cfg ↔ Found t src dst cfg q := by
  unfold pathsInOrder
  rw [List.mem_flatMap]
  constructor
  · rintro ⟨p, hp, hq⟩
    obtain ⟨e, he, husable, hdev, hdst, rfl⟩ := mem_finishes_iff.mp hq
    obtain ⟨es, hes, he⟩ := mem_getD_iff.mp he
    exact .finish ((mem_searchTree_iff hdepth).mp hp) hes he husable hdev hdst
  · rintro ⟨known, here, edge, usable, toDevice, atDst⟩
    exact ⟨_, (mem_searchTree_iff hdepth).mpr known,
      mem_finishes_iff.mpr ⟨_, mem_getD_iff.mpr ⟨_, here, edge⟩, usable, toDevice, atDst, rfl⟩⟩

/-- **Every returned path is a found one.** -/
theorem enumeratePaths_found {q : FabricPath} (h : q ∈ t.enumeratePaths src dst cfg) :
    Found t src dst cfg q := by
  obtain ⟨hjoin, hdepth⟩ := joinable_of_enumerated h
  rw [enumeratePaths_eq hjoin] at h
  exact (mem_pathsInOrder_iff hdepth).mp (List.mem_of_mem_take h)

/-! ## Links of a path -/

/-- Every link an explored path has followed is usable. -/
theorem Explored.links_usable {p : Partial} (h : Explored t src cfg p) (hkeyed : t.Keyed) :
    ∀ l ∈ p.links, t.LinkUsable l := by
  induction h with
  | seed edge _ usable =>
    intro l hl
    obtain rfl := List.mem_singleton.mp hl
    obtain ⟨sw, hat⟩ := (edgeAt_of_mem_deviceEdges edge).1
    exact (hat.usable hkeyed usable).1
  | extend _ here edge usable _ _ _ _ ih =>
    intro l hl
    rcases List.mem_append.mp hl with hl | hl
    · exact ih l hl
    · obtain rfl := List.mem_singleton.mp hl
      exact ((edgeAt_of_mem_swEdges here edge).usable hkeyed usable).1

/-- **Every link of a returned path is up or degraded.** -/
theorem Found.links_usable {q : FabricPath} (h : Found t src dst cfg q) (hkeyed : t.Keyed) :
    ∀ l ∈ q.links, t.LinkUsable l := by
  cases h with
  | finish known here edge usable =>
    intro l hl
    rcases List.mem_append.mp hl with hl | hl
    · exact known.links_usable hkeyed l hl
    · obtain rfl := List.mem_singleton.mp hl
      exact ((edgeAt_of_mem_swEdges here edge).usable hkeyed usable).1

end FabricTopology

end NVSwitchFabric
