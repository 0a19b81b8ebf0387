import NVSwitchFabric.Correctness.SwitchWalks

/-!
# `Correctness.PathLayout` — how the hops and the links of a returned path fit together

The search keeps hops, links and switches in lists of their own and fills in the exit of a hop when it leaves it. `Laid`
says what a reader of a `FabricPath` relies on: each hop is entered and left over the link that stands at its place. It
is an invariant of explored paths (`LaidOut`), which the step that leaves a hop keeps because it touches the last
hop only; `Consecutive` is the part of it about neighbouring hops.
-/

namespace NVSwitchFabric

open Lib

/-! ## Neighbouring hops -/

/-- Neighbouring hops and the link between them are related: the one at the place of the later hop. -/
def Consecutive (R : PathHop → PathHop → LinkId → Prop) (hops : List PathHop) (links : List LinkId) : Prop :=
  ∀ i h h' l, hops[i]? = some h → hops[i + 1]? = some h' → links[i + 1]? = some l → R h h' l

namespace Consecutive

variable {R : PathHop → PathHop → LinkId → Prop} {hops init : List PathHop} {links : List LinkId} {last : PathHop}

theorem single (h : PathHop) (links : List LinkId) : Consecutive R [h] links := by
  intro i h₁ h₂ l _ hnext _
  exact absurd hnext (by simp)

/-- Links behind those of the hops do not matter. -/
theorem append_links (h : Consecutive R hops links) (hlen : hops.length ≤ links.length) (more : List LinkId) :
    Consecutive R hops (links ++ more) := by
  intro i h₁ h₂ l hhop hnext hlink
  obtain ⟨hlt, _⟩ := List.getElem?_eq_some_iff.mp hnext
  rw [List.getElem?_append_left (hlt.trans_le hlen)] at hlink
  exact h i h₁ h₂ l hhop hnext hlink

/-- Nor does how the last hop is left. -/
theorem modify_last (h : Consecutive R (init ++ [last]) links) (last' : PathHop)
    (hsame : ∀ h₁ l, R h₁ last l → R h₁ last' l) : Consecutive R (init ++ [last']) links := by
  intro i h₁ h₂ l hhop hnext hlink
  obtain ⟨hlt, _⟩ := List.getElem?_eq_some_iff.mp hnext
  rw [List.length_append, List.length_singleton] at hlt
  have hfront : i < init.length := by omega
  have hfront' : ∀ x, (init ++ [x])[i]? = init[i]? := fun x => List.getElem?_append_left hfront
  rw [hfront', ← hfront' last] at hhop
  rcases Nat.lt_or_ge (i + 1) init.length with hinner | houter
  · have hinner' : ∀ x, (init ++ [x])[i + 1]? = init[i + 1]? := fun x => List.getElem?_append_left hinner
    rw [hinner', ← hinner' last] at hnext
    exact h i h₁ h₂ l hhop hnext hlink
  · -- the later of the two hops is the last one
    have hlast : i + 1 = init.length := by omega
    rw [hlast, List.getElem?_concat_length] at hnext
    obtain rfl := Option.some.inj hnext
    refine hsame _ _ (h i h₁ last l hhop ?_ hlink)
    rw [hlast, List.getElem?_concat_length]

/-- One more hop is related to the last one by the link at its place. -/
theorem concat (h : Consecutive R (init ++ [last]) links) {new : PathHop}
    (hnew : ∀ l, links[init.length + 1]? = some l → R last new l) : Consecutive R (init ++ [last] ++ [new]) links := by
  intro i h₁ h₂ l hhop hnext hlink
  obtain ⟨hlt, _⟩ := List.getElem?_eq_some_iff.mp hnext
  rw [List.length_append, List.length_append, List.length_singleton, List.length_singleton] at hlt
  have hfront : i < (init ++ [last]).length := by
    rw [List.length_append, List.length_singleton]
    omega
  rw [List.getElem?_append_left hfront] at hhop
  rcases Nat.lt_or_ge (i + 1) (init ++ [last]).length with hinner | houter
  · rw [List.getElem?_append_left hinner] at hnext
    exact h i h₁ h₂ l hhop hnext hlink
  · have hlast : i = init.length := by
      rw [List.length_append, List.length_singleton] at houter
      omega
    subst hlast
    rw [List.getElem?_concat_length] at hhop
    have hend : init.length + 1 = (init ++ [last]).length := by
      rw [List.length_append, List.length_singleton]
    rw [hend, List.getElem?_concat_length] at hnext
    obtain rfl := Option.some.inj hhop
    obtain rfl := Option.some.inj hnext
    exact hnew l hlink

end Consecutive

namespace FabricTopology

variable {t : FabricTopology} {src dst : DeviceId} {cfg : TraversalConfig}

/-! ## Layout -/

/-- The link is rooted at the switch, is on the port, and ends as described. -/
def LinkOn (t : FabricTopology) (l : LinkId) (sw : SwitchId) (port : PortId) (far : LinkEnd → Prop) : Prop :=
  ∃ rec, t.links.find? l = some rec ∧ rec.rootSwitch = sw ∧ rec.port = port ∧ far rec.otherEnd

/-- The in-port of the hop is unknown, or a port of its switch that carries a link to the previous one. -/
def EnteredFrom (t : FabricTopology) (prev : SwitchId) (h : PathHop) : Prop :=
  h.inPort.isUnknown = true ∨ t.ports.contains h.inPort = true ∧ h.inPort.sw = h.sw ∧
    ∃ l, t.LinkOn l h.sw h.inPort (LinkEnd.AtSwitch prev)

/-- The link and the port it occupies are up or degraded. -/
def LinkClear (t : FabricTopology) (l : LinkId) : Prop :=
  ∃ rec, t.links.find? l = some rec ∧ usableState rec.state = true ∧ t.PortUsable rec.port

/-- Hops and links of a path fit together, and its bounds are kept. -/
structure Laid (t : FabricTopology) (src dst : DeviceId) (cfg : TraversalConfig) (q : FabricPath) : Prop where
  ends      : q.source = src ∧ q.destination = dst
  nonempty  : 1 ≤ q.hops.length
  depth     : q.hops.length ≤ cfg.maxDepth.toNat
  distinct  : (q.hops.map (·.sw)).Nodup
  sequence  : q.switchSequence = q.hops.map (·.sw)
  linkCount : q.links.length = q.hops.length + 1
  first     : ∃ h l, q.hops.head? = some h ∧ q.links.head? = some l ∧ t.LinkOn l h.sw h.inPort (LinkEnd.AtDevice src)
  between   : Consecutive (fun h h' l => t.LinkOn l h.sw h.outPort (LinkEnd.AtSwitch h'.sw)) q.hops q.links
  last      : ∃ h l, q.hops.getLast? = some h ∧ q.links.getLast? = some l ∧
                t.LinkOn l h.sw h.outPort (LinkEnd.AtDevice dst)
  clear     : ∀ l ∈ q.links, t.LinkClear l
  inPorts   : Consecutive (fun h h' _ => t.EnteredFrom h.sw h') q.hops q.links
  direct    : cfg.allowSwitchSwitching = false → q.hops.length = 1

/-- The same of a path that is still to go on. -/
structure LaidOut (t : FabricTopology) (src : DeviceId) (p : Partial) : Prop where
  linkCount : p.links.length = p.hops.length
  standsAt  : ∃ init last, p.hops = init ++ [last] ∧ last.sw = p.cur
  first     : ∃ h l, p.hops.head? = some h ∧ p.links.head? = some l ∧ t.LinkOn l h.sw h.inPort (LinkEnd.AtDevice src)
  between   : Consecutive (fun h h' l => t.LinkOn l h.sw h.outPort (LinkEnd.AtSwitch h'.sw)) p.hops p.links
  clear     : ∀ l ∈ p.links, t.LinkClear l
  inPorts   : Consecutive (fun h h' _ => t.EnteredFrom h.sw h') p.hops p.links

/-! ## Edges -/

theorem EdgeAt.linkOn {sw : SwitchId} {e : Edge} (h : t.EdgeAt sw e) (hkeyed : t.Keyed) {far : LinkEnd → Prop}
    (hfar : far e.other) : t.LinkOn e.link sw e.port far := by
  obtain ⟨id, rec, hrec, hroot, rfl⟩ := h
  have hkey : rec.id = id := hkeyed.links hrec
  refine ⟨rec, ?_, hroot, rfl, hfar⟩
  show t.links.find? rec.id = some rec
  rw [hkey, hrec]

theorem EdgeAt.linkClear {sw : SwitchId} {e : Edge} (h : t.EdgeAt sw e) (hkeyed : t.Keyed)
    (husable : edgeUsable e = true) : t.LinkClear e.link := by
  have hleads : t.Leads LinkRecord.Usable sw e.link fun _ => True := h.leads hkeyed husable trivial
  obtain ⟨rec, hrec, _, _, hup, hport⟩ := hleads
  exact ⟨rec, hrec, hup, hport⟩

/-- A reverse port carries a link back, if there is one. -/
theorem reversePort_enteredFrom (hkeyed : t.Keyed) (hint : t.Integral) {prev : SwitchId} {h : PathHop}
    (hin : h.inPort = reversePort t.swEdges prev h.sw) : t.EnteredFrom prev h := by
  unfold EnteredFrom
  rw [hin]
  unfold reversePort
  split
  · next e he =>
    have hat := mem_swEdges_iff.mp (List.mem_of_find?_eq_some he)
    have hback : isSwitchEnd e.other = true ∧ e.other.sw = prev := by
      have hfound := List.find?_some he
      rwa [Bool.and_eq_true, decide_eq_true_eq] at hfound
    refine Or.inr ⟨?_, hat.port_sw hint, e.link, hat.linkOn hkeyed (atSwitch_iff.mpr hback)⟩
    obtain ⟨id, rec, hrec, _, rfl⟩ := hat
    exact hint.linkPort hrec
  · exact Or.inl rfl

/-! ## The search keeps the layout -/

theorem laidOut_seed {e : Edge} (hkeyed : t.Keyed) (hint : t.Integral) (edge : e ∈ t.deviceEdges)
    (atSrc : e.other.device = src) (usable : edgeUsable e = true) : t.LaidOut src (.seed e) := by
  obtain ⟨⟨sw, hat⟩, hdev⟩ := mem_deviceEdges_iff.mp edge
  obtain rfl := hat.port_sw hint
  refine ⟨rfl, ⟨[], _, rfl, rfl⟩, ⟨_, _, rfl, rfl, ?_⟩, Consecutive.single _ _, ?_, Consecutive.single _ _⟩
  · exact hat.linkOn hkeyed (atDevice_iff.mpr ⟨hdev, atSrc⟩)
  · intro l hl
    obtain rfl := List.mem_singleton.mp hl
    exact hat.linkClear hkeyed usable

/-- The first hop of a path and how it is entered stay when its last hop is modified and others follow. -/
theorem head?_modified {init : List PathHop} {last : PathHop} {f : PathHop → PathHop} (hsw : (f last).sw = last.sw)
    (hin : (f last).inPort = last.inPort) (rest : List PathHop) {h : PathHop} (hhead : (init ++ [last]).head? = some h) :
    ∃ h', (init ++ [f last] ++ rest).head? = some h' ∧ h'.sw = h.sw ∧ h'.inPort = h.inPort := by
  cases init with
  | nil =>
    obtain rfl := Option.some.inj hhead
    exact ⟨f last, rfl, hsw, hin⟩
  | cons h₀ init =>
    obtain rfl := Option.some.inj hhead
    exact ⟨h₀, rfl, rfl, rfl⟩

theorem head?_append_of_some {α : Type} {l : List α} {a : α} (h : l.head? = some a) (more : List α) :
    (l ++ more).head? = some a := by
  rw [List.head?_append, h]
  rfl

theorem LaidOut.clear_concat {p : Partial} {e : Edge} (h : t.LaidOut src p) (hkeyed : t.Keyed)
    (edge : t.EdgeAt p.cur e) (usable : edgeUsable e = true) : ∀ l ∈ p.links ++ [e.link], t.LinkClear l := by
  intro l hl
  rcases List.mem_append.mp hl with hl | hl
  · exact h.clear l hl
  · obtain rfl := List.mem_singleton.mp hl
    exact edge.linkClear hkeyed usable

/-- **Following an edge to the next switch keeps the layout.** -/
theorem LaidOut.extend {p : Partial} {e : Edge} (h : t.LaidOut src p) (hkeyed : t.Keyed) (hint : t.Integral)
    (edge : t.EdgeAt p.cur e) (usable : edgeUsable e = true) (toSwitch : isSwitchEnd e.other = true) :
    t.LaidOut src (p.extend t.swEdges e) := by
  have hclear := h.clear_concat hkeyed edge usable
  obtain ⟨hcount, ⟨init, last, hhops, hcur⟩, ⟨h₀, l₀, hh₀, hl₀, hfirst⟩, hbetween, -, hin⟩ := h
  let leave (h : PathHop) : PathHop := { h with outPort := e.port, exitToSwitch := true }
  let new : PathHop := { sw := e.other.sw, inPort := reversePort t.swEdges p.cur e.other.sw }
  have hext : (p.extend t.swEdges e).hops = init ++ [leave last] ++ [new] := by
    show modifyBack leave p.hops ++ [new] = _
    rw [hhops, modifyBack_concat]
  have hplace : (p.links ++ [e.link])[init.length + 1]? = some e.link := by
    rw [hhops, List.length_append, List.length_singleton] at hcount
    rw [← hcount, List.getElem?_concat_length]
  rw [hhops] at hh₀ hbetween hin hcount
  have hle : (init ++ [last]).length ≤ p.links.length := hcount.ge
  refine ⟨?_, ⟨init ++ [leave last], new, hext, rfl⟩, ?_, ?_, ?_, ?_⟩
  · show (p.links ++ [e.link]).length = _
    simp only [hext, hcount, List.length_append, List.length_singleton]
  · obtain ⟨h', hh', hsw, hport⟩ := head?_modified (f := leave) rfl rfl [new] hh₀
    rw [hext]
    refine ⟨h', l₀, hh', head?_append_of_some hl₀ _, ?_⟩
    rwa [hsw, hport]
  · rw [hext]
    refine ((hbetween.append_links hle [e.link]).modify_last (leave last) fun _ _ hl => hl).concat ?_
    intro l hl
    obtain rfl := Option.some.inj (hplace.symm.trans hl)
    show t.LinkOn e.link last.sw e.port _
    rw [hcur]
    exact edge.linkOn hkeyed (atSwitch_iff.mpr ⟨toSwitch, rfl⟩)
  · exact hclear
  · rw [hext]
    refine ((hin.append_links hle [e.link]).modify_last (leave last) fun _ _ hl => hl).concat ?_
    intro l _
    show t.EnteredFrom last.sw new
    rw [hcur]
    exact reversePort_enteredFrom hkeyed hint rfl

/-- **Explored paths are laid out.** -/
theorem Explored.laidOut {p : Partial} (h : Explored t src cfg p) (hkeyed : t.Keyed) (hint : t.Integral) :
    t.LaidOut src p := by
  induction h with
  | seed edge atSrc usable => exact laidOut_seed hkeyed hint edge atSrc usable
  | extend _ here edge usable toSwitch _ _ _ ih =>
    exact ih.extend hkeyed hint (edgeAt_of_mem_swEdges here edge) usable toSwitch

/-- **Following an edge to the destination finishes the layout.** -/
theorem LaidOut.finish {p : Partial} {e : Edge} (h : t.LaidOut src p) (hkeyed : t.Keyed) (edge : t.EdgeAt p.cur e)
    (usable : edgeUsable e = true) (hfar : e.other.AtDevice dst) (hsequence : p.switches = p.hops.map (·.sw))
    (hdistinct : p.switches.Nodup) (hdepth : p.switches.length ≤ cfg.maxDepth.toNat)
    (hdirect : cfg.allowSwitchSwitching = true ∨ p.switches.length = 1) : t.Laid src dst cfg (t.finish src dst p e) := by
  have hclear := h.clear_concat hkeyed edge usable
  obtain ⟨hcount, ⟨init, last, hhops, hcur⟩, ⟨h₀, l₀, hh₀, hl₀, hfirst⟩, hbetween, -, hin⟩ := h
  let leave (h : PathHop) : PathHop := { h with outPort := e.port, exitToDevice := true }
  have hfin : (t.finish src dst p e).hops = init ++ [leave last] := by
    show modifyBack leave p.hops = _
    rw [hhops, modifyBack_concat]
  have hsws : p.switches = (init ++ [leave last]).map (·.sw) := by
    rw [hsequence, hhops, List.map_append, List.map_append]
    rfl
  have hlen : p.switches.length = (init ++ [leave last]).length := by rw [hsws, List.length_map]
  rw [hhops] at hh₀ hbetween hin hcount
  have hle : (init ++ [last]).length ≤ p.links.length := hcount.ge
  have hsame : (init ++ [last]).length = (init ++ [leave last]).length := by
    rw [List.length_append, List.length_append]
    rfl
  constructor
  · exact ⟨rfl, rfl⟩
  · rw [hfin, List.length_append]
    exact Nat.le_add_left 1 _
  · rw [hfin, ← hlen]
    exact hdepth
  · rw [hfin, ← hsws]
    exact hdistinct
  · rw [hfin]
    exact hsws
  · show (p.links ++ [e.link]).length = _
    rw [hfin, List.length_append, hcount, hsame]
    rfl
  · obtain ⟨h', hh', hsw, hport⟩ := head?_modified (f := leave) rfl rfl [] hh₀
    rw [List.append_nil] at hh'
    rw [hfin]
    refine ⟨h', l₀, hh', head?_append_of_some hl₀ _, ?_⟩
    rwa [hsw, hport]
  · rw [hfin]
    exact (hbetween.append_links hle [e.link]).modify_last (leave last) fun _ _ hl => hl
  · rw [hfin]
    refine ⟨leave last, e.link, List.getLast?_concat, List.getLast?_concat, ?_⟩
    show t.LinkOn e.link last.sw e.port _
    rw [hcur]
    exact edge.linkOn hkeyed hfar
  · exact hclear
  · rw [hfin]
    exact (hin.append_links hle [e.link]).modify_last (leave last) fun _ _ hl => hl
  · intro hno
    rw [hfin, ← hlen]
    refine hdirect.resolve_left ?_
    rw [hno]
    exact Bool.false_ne_true

/-- **Path enumeration is sound.** On a topology that passes the integrity check, at most `maxPaths` paths are returned,
    and all of them are laid out. -/
theorem enumeratePaths_sound (hkeyed : t.Keyed) (hint : t.checkIntegrity = []) (src dst : DeviceId)
    (cfg : TraversalConfig) :
    (t.enumeratePaths src dst cfg).length ≤ cfg.maxPaths.toNat ∧
      ∀ q ∈ t.enumeratePaths src dst cfg, t.Laid src dst cfg q := by
  have hint := checkIntegrity_eq_nil_iff.mp hint
  constructor
  · cases hpaths : t.enumeratePaths src dst cfg with
    | nil => exact Nat.zero_le _
    | cons q qs =>
      have hjoin := (joinable_of_enumerated (q := q) (hpaths ▸ List.mem_cons_self)).1
      rw [← hpaths, enumeratePaths_eq hjoin, List.length_take]
      exact Nat.min_le_left _ _
  · intro q hq
    have hdepth := (joinable_of_enumerated hq).2
    obtain ⟨hdistinct, hlen⟩ := (enumeratePaths_found hq).simple hdepth
    cases enumeratePaths_found hq with
    | finish known here edge usable toDevice atDst =>
      exact (known.laidOut hkeyed hint).finish hkeyed (edgeAt_of_mem_swEdges here edge) usable
        (atDevice_iff.mpr ⟨toDevice, atDst⟩) known.shaped.entered.hopSwitches.symm hdistinct hlen known.direct

/-- The dense scenario has more paths than asked for. -/
theorem enumeratePaths_sound_dense :
    let t := (FabricRegistry.after [.applyBulk (buildSyntheticScan .denseMultiSwitch)]).current
    (t.enumeratePaths ⟨1⟩ ⟨2⟩ { maxPaths := 4 }).length = 4 ∧
      ∀ q ∈ t.enumeratePaths ⟨1⟩ ⟨2⟩ { maxPaths := 4 }, t.Laid ⟨1⟩ ⟨2⟩ { maxPaths := 4 } q := by
  intro t
  have hwf := (FabricRegistry.reachable_after [.applyBulk (buildSyntheticScan .denseMultiSwitch)]).wellFormed
  refine ⟨by decide +kernel, ?_⟩
  exact (enumeratePaths_sound hwf.keyed (checkIntegrity_eq_nil_iff.mpr hwf.integral) ⟨1⟩ ⟨2⟩ _).2

end FabricTopology

end NVSwitchFabric
