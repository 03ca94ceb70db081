import AudioGraph.Engine.Partition
import AudioGraph.Properties.Bridge
import AudioGraph.Properties.Confluence

namespace AudioGraph

open BoundedFifo Dependency Handoff

namespace Cut

variable {cut : Cut} {edges edges' : List Edge}

theorem crosses_iff {e : Edge} :
    cut.crosses e = true ↔
      ∃ src dst, cut.place e.src.1 = some (.a src) ∧ cut.place e.dst.1 = some (.b dst) := by
  unfold crosses
  split
  · rename_i src dst hsrc hdst
    simp [hsrc, hdst]
  · rename_i h
    constructor
    · intro hfalse
      cases hfalse
    · rintro ⟨src, dst, hsrc, hdst⟩
      exact absurd hdst (h src dst hsrc)

theorem mem_crossings {link : Edge × Nat} :
    link ∈ cut.crossings edges ↔ link ∈ edges.zipIdx ∧ cut.crosses link.1 = true :=
  List.mem_filter

theorem mem_of_zipIdx {link : Edge × Nat} (h : link ∈ edges.zipIdx) : link.1 ∈ edges :=
  List.mem_of_getElem? (List.mem_zipIdx_iff_getElem?.mp h)

theorem linkA_eq_some {link : Edge × Nat} {e : Edge} (h : cut.linkA link = some e) :
    ∃ src, cut.place link.1.src.1 = some (.a src) ∧ e.src = (src, link.1.src.2) ∧
      ((∃ dst, cut.place link.1.dst.1 = some (.a dst) ∧ e.dst = (dst, link.1.dst.2)) ∨
        cut.crosses link.1 = true ∧ e.dst = ((cut.wire link.2).sink, 0)) := by
  unfold linkA at h
  split at h
  · rename_i src dst hsrc hdst
    cases h
    exact ⟨src, hsrc, rfl, Or.inl ⟨dst, hdst, rfl⟩⟩
  · rename_i src dst hsrc hdst
    cases h
    exact ⟨src, hsrc, rfl, Or.inr ⟨crosses_iff.mpr ⟨src, dst, hsrc, hdst⟩, rfl⟩⟩
  · cases h

theorem linkB_eq_some {link : Edge × Nat} {e : Edge} (h : cut.linkB link = some e) :
    ∃ dst, cut.place link.1.dst.1 = some (.b dst) ∧ e.dst = (dst, link.1.dst.2) ∧
      ((∃ src, cut.place link.1.src.1 = some (.b src) ∧ e.src = (src, link.1.src.2)) ∨
        cut.crosses link.1 = true ∧ e.src = ((cut.wire link.2).source, 0)) := by
  unfold linkB at h
  split at h
  · rename_i src dst hsrc hdst
    cases h
    exact ⟨dst, hdst, rfl, Or.inl ⟨src, hsrc, rfl⟩⟩
  · rename_i src dst hsrc hdst
    cases h
    exact ⟨dst, hdst, rfl, Or.inr ⟨crosses_iff.mpr ⟨src, dst, hsrc, hdst⟩, rfl⟩⟩
  · cases h

theorem SameLinks.mem_iff (h : SameLinks edges edges') (e : Edge) : e ∈ edges' ↔ e ∈ edges := by
  have hmem := congrArg (e ∈ ·) (h e.dst)
  simpa using hmem

theorem SameLinks.fed (h : SameLinks edges edges') (source : NodeId × PortIdx → Option AudioFrame)
    (target : NodeId × PortIdx) : fed edges' source target = fed edges source target := by
  unfold AudioGraph.fed
  rw [← List.head?_filter, ← List.head?_filter, h target]

theorem fed_filterMap {link : Edge × Nat → Option Edge}
    {source source' : NodeId × PortIdx → Option AudioFrame} {target target' : NodeId × PortIdx}
    (hto : ∀ x ∈ edges.zipIdx, x.1.dst = target →
      ∃ e, link x = some e ∧ e.dst = target' ∧ source' e.src = source x.1.src)
    (hback : ∀ x ∈ edges.zipIdx, ∀ e, link x = some e → e.dst = target' → x.1.dst = target) :
    fed (edges.zipIdx.filterMap link) source' target' = fed edges source target := by
  have hfind : edges.zipIdx.find? (fun x => (link x).any fun e => e.dst = target') =
      edges.zipIdx.find? (fun x => x.1.dst = target) := by
    rw [← List.head?_filter, ← List.head?_filter]
    congr 1
    refine List.filter_congr fun x hx => ?_
    rw [Bool.eq_iff_iff]
    simp only [Option.any_eq_true, decide_eq_true_eq]
    constructor
    · rintro ⟨e, he, hdst⟩
      exact hback x hx e he hdst
    · intro hdst
      obtain ⟨e, he, hdst', -⟩ := hto x hx hdst
      exact ⟨e, he, hdst'⟩
  have hwhole : edges.find? (fun e => e.dst = target) =
      (edges.zipIdx.find? (fun x => x.1.dst = target)).map Prod.fst := by
    conv_lhs => rw [← List.zipIdx_map_fst 0 edges]
    rw [List.find?_map]
    rfl
  unfold fed
  rw [List.find?_filterMap, hfind, hwhole]
  cases hx : edges.zipIdx.find? (fun x => x.1.dst = target) with
  | none => rfl
  | some x =>
    have hdst : x.1.dst = target := by simpa using List.find?_some hx
    obtain ⟨e, he, -, hsource⟩ := hto x (List.mem_of_find?_eq_some hx) hdst
    simp [he, hsource]

end Cut

section

variable [AudioCore] {Q R : Type} [AudioNode Q] [SinkNode R] {config : GraphConfig} {cut : Cut}
  {g a b ready readyA readyB : Graph (DynNode Q) (DynSink R)}

namespace Cut

open AudioGraph.Graph

omit [AudioNode Q] [SinkNode R] in
theorem Splits.sink_inj (h : cut.Splits config g a b) {link link' : Edge × Nat}
    (hl : link ∈ cut.crossings g.edges) (hl' : link' ∈ cut.crossings g.edges)
    (heq : (cut.wire link.2).sink = (cut.wire link'.2).sink) : link = link' := by
  have hnodup := h.separate.sinks
  rw [wires, List.map_map] at hnodup
  exact List.inj_on_of_nodup_map hnodup hl hl' heq

theorem Splits.place_src (h : cut.Splits config g a b) (hg : Built g) {link : Edge × Nat}
    (hl : link ∈ g.edges.zipIdx) :
    ∃ p, cut.place link.1.src.1 = some p := by
  have hrange := (checkLink_range (hg.wired.links _ (mem_of_zipIdx hl))).1
  exact Option.isSome_iff_exists.mp ((h.placed _).mpr hrange)

omit [AudioNode Q] [SinkNode R] in
theorem Splits.acyclicA (h : cut.Splits config g a b) (hg : Acyclic (Feeds g.edges)) :
    Acyclic (Feeds a.edges) := by
  refine hg.of_inner (r := fun n x => cut.place n = some (.a x))
    (fun m n x hm hn => h.injective m n _ hm hn) ?_
  rintro x y ⟨e, he, rfl, rfl⟩ - ⟨z, e', he', hsrc', -⟩
  obtain ⟨link, hl, hlink⟩ := List.mem_filterMap.mp ((h.linksA.mem_iff e).mp he)
  obtain ⟨link', -, hlink'⟩ := List.mem_filterMap.mp ((h.linksA.mem_iff e').mp he')
  obtain ⟨src, hsrc, heq, hdst | ⟨hcross, hdst⟩⟩ := linkA_eq_some hlink
  · obtain ⟨dst, hdst, heq'⟩ := hdst
    rw [heq, heq']
    exact ⟨_, _, hsrc, hdst, link.1, mem_of_zipIdx hl, rfl, rfl⟩
  · obtain ⟨src', hplace, heq', -⟩ := linkA_eq_some hlink'
    rw [heq', hdst] at hsrc'
    simp only at hsrc'
    rw [hsrc'] at hplace
    exact absurd hplace (h.sink_new link (mem_crossings.mpr ⟨hl, hcross⟩) _)

omit [AudioNode Q] [SinkNode R] in
theorem Splits.acyclicB (h : cut.Splits config g a b) (hg : Acyclic (Feeds g.edges)) :
    Acyclic (Feeds b.edges) := by
  refine hg.of_inner (r := fun n x => cut.place n = some (.b x))
    (fun m n x hm hn => h.injective m n _ hm hn) ?_
  rintro x y ⟨e, he, rfl, rfl⟩ ⟨z, e', he', -, hdst'⟩ -
  obtain ⟨link, hl, hlink⟩ := List.mem_filterMap.mp ((h.linksB.mem_iff e).mp he)
  obtain ⟨link', -, hlink'⟩ := List.mem_filterMap.mp ((h.linksB.mem_iff e').mp he')
  obtain ⟨dst, hdst, heq, hsrc | ⟨hcross, hsrc⟩⟩ := linkB_eq_some hlink
  · obtain ⟨src, hsrc, heq'⟩ := hsrc
    rw [heq, heq']
    exact ⟨_, _, hsrc, hdst, link.1, mem_of_zipIdx hl, rfl, rfl⟩
  · obtain ⟨dst', hplace, heq', -⟩ := linkB_eq_some hlink'
    rw [heq', hsrc] at hdst'
    simp only at hdst'
    rw [hdst'] at hplace
    exact absurd hplace (h.source_new link (mem_crossings.mpr ⟨hl, hcross⟩) _)

theorem Splits.compiles (h : cut.Splits config g a b) (hg : Built g) (ha : Built a)
    (hb : Built b) (hready : g.compile config = (ready, .ok ())) :
    ∃ readyA readyB, a.compile config = (readyA, .ok ()) ∧ b.compile config = (readyB, .ok ()) := by
  have hlin := (compiled_of_compile hready).linearizes
    fun e he => (checkLink_range (hg.wired.links e he)).2
  have hacyclic := hlin.acyclic
  rw [(compiled_of_compile hready).edges] at hacyclic
  obtain ⟨readyA, hreadyA⟩ := compile_of_acyclic ha.wired.compiled
    (fun e he => (checkLink_range (ha.wired.links e he)).1) (h.acyclicA hacyclic) config
  obtain ⟨readyB, hreadyB⟩ := compile_of_acyclic hb.wired.compiled
    (fun e he => (checkLink_range (hb.wired.links e he)).1) (h.acyclicB hacyclic) config
  exact ⟨readyA, readyB, hreadyA, hreadyB⟩

structure Parted (cut : Cut) (config : GraphConfig)
    (g a b ready readyA readyB : Graph (DynNode Q) (DynSink R)) : Prop where
  splits : cut.Splits config g a b
  built : Built g
  builtA : Built a
  builtB : Built b
  compile : g.compile config = (ready, .ok ())
  compileA : a.compile config = (readyA, .ok ())
  compileB : b.compile config = (readyB, .ok ())

section Parted

variable {h : Graph (DynNode Q) (DynSink R)} {st : Bridge (DynNode Q) R Q (DynSink R)}

theorem Parted.running (h : cut.Parted config g a b ready readyA readyB) :
    Running config ready ready := .refl h.built h.compile

theorem Parted.runningA (h : cut.Parted config g a b ready readyA readyB) :
    Running config readyA readyA := .refl h.builtA h.compileA

theorem Parted.runningB (h : cut.Parted config g a b ready readyA readyB) :
    Running config readyB readyB := .refl h.builtB h.compileB

theorem Parted.edges (h : cut.Parted config g a b ready readyA readyB) :
    ready.edges = g.edges ∧ readyA.edges = a.edges ∧ readyB.edges = b.edges :=
  ⟨(compiled_of_compile h.compile).edges, (compiled_of_compile h.compileA).edges,
    (compiled_of_compile h.compileB).edges⟩

theorem mem_order_of_node {g ready : Graph (DynNode Q) (DynSink R)} {n : NodeId}
    {slot : NodeSlot (DynNode Q) (DynSink R)} (h : Built g)
    (hready : g.compile config = (ready, .ok ())) (hn : g.scratch.nodes[n]? = some slot) :
    n ∈ ready.executionOrder := by
  rw [(Running.refl h hready).linearizes.perm.mem_iff, List.mem_range, nodeCount,
    (compiled_of_compile hready).nodes]
  exact (List.getElem?_eq_some_iff.mp hn).1

omit [AudioNode Q] [SinkNode R] in
theorem Splits.node_some (h : cut.Splits config g a b) {n : NodeId} {p : Place}
    (hn : cut.place n = some p) : ∃ slot, g.scratch.nodes[n]? = some slot := by
  have hlt := (h.placed n).mp (by rw [hn]; rfl)
  exact ⟨_, List.getElem?_eq_getElem hlt⟩

theorem Parted.mem_order (h : cut.Parted config g a b ready readyA readyB) {n : NodeId}
    {p : Place} (hn : cut.place n = some p) : n ∈ ready.executionOrder := by
  obtain ⟨slot, hslot⟩ := h.splits.node_some hn
  exact mem_order_of_node h.built h.compile hslot

theorem Parted.mem_orderA (h : cut.Parted config g a b ready readyA readyB) {n m : NodeId}
    (hn : cut.place n = some (.a m)) : m ∈ readyA.executionOrder := by
  obtain ⟨slot, hslot⟩ := h.splits.node_some hn
  exact mem_order_of_node h.builtA h.compileA ((h.splits.nodeA n m hn).trans hslot)

theorem Parted.mem_orderB (h : cut.Parted config g a b ready readyA readyB) {n m : NodeId}
    (hn : cut.place n = some (.b m)) : m ∈ readyB.executionOrder := by
  obtain ⟨slot, hslot⟩ := h.splits.node_some hn
  exact mem_order_of_node h.builtB h.compileB ((h.splits.nodeB n m hn).trans hslot)

theorem Parted.before (h : cut.Parted config g a b ready readyA readyB) {x : Edge × Nat}
    (hx : x ∈ g.edges.zipIdx) {n : NodeId} (hdst : x.1.dst.1 = n) :
    ready.executionOrder.idxOf x.1.src.1 < ready.executionOrder.idxOf n := by
  refine h.running.linearizes.before _ _ ⟨x.1, ?_, rfl, hdst⟩
  rw [h.edges.1]
  exact mem_of_zipIdx hx

variable [KeepsContext Q] [KeepsContext R]

theorem Parted.cycleA (hp : cut.Parted config g a b ready readyA readyB)
    {whole part : Graph (DynNode Q) (DynSink R)} (hwhole : Steady (fun _ => ()) ready whole)
    (hpart : Steady (fun _ => ()) readyA part)
    (hcells : ∀ n m, cut.place n = some (.a m) → whole.scratch.cells n = part.scratch.cells m)
    (ctx : ProcessContext) {n m : NodeId} (hn : cut.place n = some (.a m)) :
    (whole.processCycle ctx).1.scratch.cells n = (part.processCycle ctx).1.scratch.cells m := by
  have hs := hp.splits
  refine (hwhole.solution hp.running ctx).transfer (hpart.solution hp.runningA ctx)
    (r := fun n m => cut.place n = some (.a m))
    (fun n m hn => ⟨hp.mem_order hn, hp.mem_orderA hn⟩) (fun n m hn ih => ?_) hn
  refine (congrArg Prod.fst (visitCell_of_fed ctx ?_ fun p => ?_)).symm
  · rw [Function.update_self, Function.update_self, hcells n m hn]
  · rw [hp.edges.1, hp.edges.2.1, hs.linksA.fed]
    refine fed_filterMap (fun x hx hdst => ?_) fun x hx e hlink hdst => ?_
    · have hbefore := hp.before hx (congrArg Prod.fst hdst)
      have hne : x.1.src.1 ≠ n := fun heq => by rw [heq] at hbefore; exact Nat.lt_irrefl _ hbefore
      obtain ⟨place, hsrc⟩ := hs.place_src hp.built hx
      have hdst' : cut.place x.1.dst.1 = some (.a m) := by rw [hdst]; exact hn
      cases place with
      | b src => exact absurd ⟨hsrc, hdst'⟩ (hs.forward x.1 (mem_of_zipIdx hx) src m)
      | a src =>
        have hne' : src ≠ m := fun heq => hne (hs.injective _ _ _ hsrc (heq ▸ hn))
        refine ⟨⟨(src, x.1.src.2), (m, x.1.dst.2)⟩, by simp [linkA, hsrc, hdst'],
          by rw [hdst], ?_⟩
        rw [Cell.source_update hne', Cell.source_update hne, Cell.source, Cell.source,
          ih _ _ hbefore hsrc]
    · obtain ⟨src, -, -, ⟨dst, hplace, heq⟩ | ⟨hcross, heq⟩⟩ := linkA_eq_some hlink
      · rw [heq, Prod.mk.injEq] at hdst
        rw [hdst.1] at hplace
        exact Prod.ext (hs.injective _ _ _ hplace hn) hdst.2
      · rw [heq, Prod.mk.injEq] at hdst
        exact absurd (hdst.1 ▸ hn) (hs.sink_new x (mem_crossings.mpr ⟨hx, hcross⟩) n)

theorem Parted.cycleB (hp : cut.Parted config g a b ready readyA readyB)
    {whole part : Graph (DynNode Q) (DynSink R)} (hwhole : Steady (fun _ => ()) ready whole)
    (hpart : Steady (fun _ => ()) readyB part)
    (hcells : ∀ n m, cut.place n = some (.b m) → whole.scratch.cells n = part.scratch.cells m)
    (ctx : ProcessContext)
    (hbridge : ∀ link ∈ cut.crossings g.edges,
      (part.processCycle ctx).1.readOutput (cut.wire link.2).source 0 =
        (whole.processCycle ctx).1.readOutput link.1.src.1 link.1.src.2)
    {n m : NodeId} (hn : cut.place n = some (.b m)) :
    (whole.processCycle ctx).1.scratch.cells n = (part.processCycle ctx).1.scratch.cells m := by
  have hs := hp.splits
  refine (hwhole.solution hp.running ctx).transfer (hpart.solution hp.runningB ctx)
    (r := fun n m => cut.place n = some (.b m))
    (fun n m hn => ⟨hp.mem_order hn, hp.mem_orderB hn⟩) (fun n m hn ih => ?_) hn
  refine (congrArg Prod.fst (visitCell_of_fed ctx ?_ fun p => ?_)).symm
  · rw [Function.update_self, Function.update_self, hcells n m hn]
  · rw [hp.edges.1, hp.edges.2.2, hs.linksB.fed]
    refine fed_filterMap (fun x hx hdst => ?_) fun x hx e hlink hdst => ?_
    · have hbefore := hp.before hx (congrArg Prod.fst hdst)
      have hne : x.1.src.1 ≠ n := fun heq => by rw [heq] at hbefore; exact Nat.lt_irrefl _ hbefore
      obtain ⟨place, hsrc⟩ := hs.place_src hp.built hx
      have hdst' : cut.place x.1.dst.1 = some (.b m) := by rw [hdst]; exact hn
      cases place with
      | b src =>
        have hne' : src ≠ m := fun heq => hne (hs.injective _ _ _ hsrc (heq ▸ hn))
        refine ⟨⟨(src, x.1.src.2), (m, x.1.dst.2)⟩, by simp [linkB, hsrc, hdst'],
          by rw [hdst], ?_⟩
        rw [Cell.source_update hne', Cell.source_update hne, Cell.source, Cell.source,
          ih _ _ hbefore hsrc]
      | a src =>
        have hcross : x ∈ cut.crossings g.edges :=
          mem_crossings.mpr ⟨hx, crosses_iff.mpr ⟨src, m, hsrc, hdst'⟩⟩
        have hne' : (cut.wire x.2).source ≠ m := fun heq => hs.source_new x hcross n (heq ▸ hn)
        refine ⟨⟨((cut.wire x.2).source, 0), (m, x.1.dst.2)⟩, by simp [linkB, hsrc, hdst'],
          by rw [hdst], ?_⟩
        rw [Cell.source_update hne', Cell.source_update hne]
        exact hbridge x hcross
    · obtain ⟨dst, hplace, heq, -⟩ := linkB_eq_some hlink
      rw [heq, Prod.mk.injEq] at hdst
      rw [hdst.1] at hplace
      exact Prod.ext (hs.injective _ _ _ hplace hn) hdst.2

variable [KeepsLengths Q] [KeepsLengths R]

theorem Parted.sink_input (hp : cut.Parted config g a b ready readyA readyB)
    {whole part : Graph (DynNode Q) (DynSink R)} (hwhole : Running config ready whole)
    (hpart : Steady (fun _ => ()) readyA part)
    (hcells : ∀ n m, cut.place n = some (.a m) → whole.scratch.cells n = part.scratch.cells m)
    (ctx : ProcessContext) {link : Edge × Nat} (hlink : link ∈ cut.crossings g.edges)
    {n : RingSink} (hsink : SinkSide readyA (cut.wire link.2).sink config.frameLen part n) :
    (part.processCycle ctx).1.readInput (cut.wire link.2).sink 0 =
      (whole.processCycle ctx).1.readOutput link.1.src.1 link.1.src.2 := by
  have hs := hp.splits
  obtain ⟨hmem, hcross⟩ := mem_crossings.mp hlink
  have hedge : link.1 ∈ (whole.processCycle ctx).1.edges := by
    rw [(hwhole.after_cycle ctx).edges, hp.edges.1]
    exact mem_of_zipIdx hmem
  obtain ⟨frame, -, hframe, -, hlen, -⟩ := (hwhole.after_cycle ctx).edge_frames hedge
  obtain ⟨slot, hslot, hslotLen⟩ := hsink.input
  have hlt : (cut.wire link.2).sink < readyA.nodeCount := by
    have hcount : part.scratch.nodes.length = readyA.nodeCount :=
      congrArg Shape.nodes hsink.steady.shape
    rw [← hcount]
    exact (List.getElem?_eq_some_iff.mp hsink.node).1
  have hinputs := hpart.inputs hp.runningA ctx hlt hslot
  have hfed : fed readyA.edges (frameAt (part.processCycle ctx).1.scratch.outputScratch)
      ((cut.wire link.2).sink, 0) = some (some frame) := by
    rw [hp.edges.2.1, hs.linksA.fed]
    obtain ⟨src, dst, hsrc, hdst⟩ := crosses_iff.mp hcross
    refine fed_eq_some ?_ fun e he hdst' => ?_
    · refine ⟨⟨(src, link.1.src.2), ((cut.wire link.2).sink, 0)⟩, ?_, rfl⟩
      exact List.mem_filterMap.mpr ⟨link, hmem, by simp [linkA, hsrc, hdst]⟩
    · obtain ⟨link', hmem', hlinkA⟩ := List.mem_filterMap.mp he
      obtain ⟨src', hsrc', heq, ⟨dst', hplace, hport⟩ | ⟨hcross', hport⟩⟩ := linkA_eq_some hlinkA
      · rw [hport, Prod.mk.injEq] at hdst'
        rw [hdst'.1] at hplace
        exact absurd hplace (hs.sink_new link hlink _)
      · rw [hport, Prod.mk.injEq] at hdst'
        have hsame := hs.sink_inj (mem_crossings.mpr ⟨hmem', hcross'⟩) hlink hdst'.1
        subst hsame
        have hcell := hp.cycleA (hwhole.steady measured_unit) hpart hcells ctx hsrc'
        have houts := congrArg Cell.outFrames hcell
        simp only [GraphScratch.cells] at houts
        rw [heq, frameAt, ← houts]
        exact hframe
  have hfill := fillSlot_eq_fed readyA.edges
    (frameAt (part.processCycle ctx).1.scratch.outputScratch) ((cut.wire link.2).sink, 0) slot
  rw [hfed] at hfill
  simp only [AudioFrame.copyFrom_of_len_eq (hlen.trans hslotLen.symm)] at hfill
  simp only [readInput, readOutput, hframe]
  rw [frameAt, hinputs, Option.bind_some, getElem?_fillSlots]
  simpa using hfill

end Parted

end Cut

end

end AudioGraph
