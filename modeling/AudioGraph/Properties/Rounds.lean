import AudioGraph.Properties.Partition

namespace AudioGraph

open BoundedFifo Handoff

section

variable {P R Q S : Type} {base g : Graph (DynNode Q) S} {base' g' : Graph P (DynSink R)}

namespace Graph

theorem handRight_keeps (a : Graph P (DynSink R)) (hg : Steady (fun _ => ()) base g)
    (wires : List Wire) :
    Steady (fun _ => ()) base (wires.foldl (handRight a) g) ∧
      ∀ m : NodeId, (∀ w ∈ wires, w.source ≠ m) →
        (wires.foldl (handRight a) g).scratch.cells m = g.scratch.cells m := by
  induction wires generalizing g with
  | nil => exact ⟨hg, fun _ _ => rfl⟩
  | cons w wires ih =>
    have hstep : Steady (fun _ => ()) base (handRight a g w) ∧
        ∀ m : NodeId, w.source ≠ m → (handRight a g w).scratch.cells m = g.scratch.cells m := by
      unfold handRight
      split
      · refine ⟨hg.setNodes (by simp), fun m hm => ?_⟩
        simp [setConsumer, GraphScratch.cells, hm]
      · exact ⟨hg, fun _ _ => rfl⟩
    obtain ⟨hsteady, hcells⟩ := ih hstep.1
    refine ⟨hsteady, fun m hm => ?_⟩
    rw [List.foldl_cons, hcells m fun v hv => hm v (by simp [hv]), hstep.2 m (hm w (by simp))]

theorem handLeft_keeps (b : Graph (DynNode Q) S) (hg : Steady (fun _ => ()) base' g')
    (wires : List Wire) :
    Steady (fun _ => ()) base' (wires.foldl (handLeft b) g') ∧
      ∀ m : NodeId, (∀ w ∈ wires, w.sink ≠ m) →
        (wires.foldl (handLeft b) g').scratch.cells m = g'.scratch.cells m := by
  induction wires generalizing g' with
  | nil => exact ⟨hg, fun _ _ => rfl⟩
  | cons w wires ih =>
    have hstep : Steady (fun _ => ()) base' (handLeft b g' w) ∧
        ∀ m : NodeId, w.sink ≠ m → (handLeft b g' w).scratch.cells m = g'.scratch.cells m := by
      unfold handLeft
      split
      · refine ⟨hg.setNodes (by simp), fun m hm => ?_⟩
        simp [setProducer, GraphScratch.cells, hm]
      · exact ⟨hg, fun _ _ => rfl⟩
    obtain ⟨hsteady, hcells⟩ := ih hstep.1
    refine ⟨hsteady, fun m hm => ?_⟩
    rw [List.foldl_cons, hcells m fun v hv => hm v (by simp [hv]), hstep.2 m (hm w (by simp))]

end Graph

end

section

variable [AudioCore] {P S : Type} [AudioNode P] [SinkNode S] {config : GraphConfig}

namespace Graph

theorem Compiled.cells {built ready : Graph P S} (h : Compiled config built ready) (n : NodeId) :
    ready.scratch.cells n =
      ⟨built.scratch.nodes[n]?,
        built.scratch.nodes[n]?.map fun m => portFrames config (AudioNode.inputs m),
        built.scratch.nodes[n]?.map fun m => portFrames config (AudioNode.outputs m)⟩ := by
  simp [GraphScratch.cells, h.nodes, h.inputs, h.outputs]

theorem drive_append (g : Graph P S) (ds ds' : List Drive) :
    (g.drive (ds ++ ds')).1 = ((g.drive ds).1.drive ds').1 := by
  simp [drive, Transition.run_append]

theorem drive_flush_cells {ids : List NodeId} (hd : ids.Nodup) (g : Graph P S) (n : NodeId) :
    (g.drive (ids.map .flushSink)).1.scratch.cells n =
      if n ∈ ids then (g.scratch.cells n).flushed else g.scratch.cells n := by
  induction ids generalizing g with
  | nil => rfl
  | cons id ids ih =>
    obtain ⟨hid, hd⟩ := List.nodup_cons.mp hd
    change ((g.flushSink id).1.drive (ids.map .flushSink)).1.scratch.cells n = _
    rw [ih hd, flushSink_cells]
    by_cases hn : n = id
    · subst hn
      simp [hid]
    · simp [hn]

theorem Running.drive {ready g : Graph P S} (h : Running config ready g) {ds : List Drive}
    (hds : ∀ d ∈ ds, (d.op : Op P S).runs) : Running config ready (g.drive ds).1 :=
  Transition.run_invariant (fun _ _ hd hg => hg.step hd) hds h

end Graph

end

section

variable [AudioCore] {Q R : Type} [AudioNode Q] [SinkNode R] {config : GraphConfig} {cut : Cut}
  {g a b ready readyA readyB whole : Graph (DynNode Q) (DynSink R)}
  {st : Bridge (DynNode Q) R Q (DynSink R)}

namespace Cut

open AudioGraph.Graph

structure Matched (cut : Cut) (config : GraphConfig)
    (g ready readyA readyB whole : Graph (DynNode Q) (DynSink R))
    (st : Bridge (DynNode Q) R Q (DynSink R)) : Prop where
  running : Running config ready whole
  steadyA : Steady (fun _ => ()) readyA st.a
  steadyB : Steady (fun _ => ()) readyB st.b
  cellA : ∀ n m, cut.place n = some (.a m) → whole.scratch.cells n = st.a.scratch.cells m
  cellB : ∀ n m, cut.place n = some (.b m) → whole.scratch.cells n = st.b.scratch.cells m
  idle : ∀ w ∈ cut.wires g.edges, ∃ n k,
    Bridge.Joined readyA readyB w config.frameLen st n k ∧ n.producer.frames = [] ∧
      0 < n.producer.capacity

omit [AudioNode Q] [SinkNode R] in
theorem Splits.wire_new (h : cut.Splits config g a b) {w : Wire} (hw : w ∈ cut.wires g.edges)
    {n m : NodeId} :
    (cut.place n = some (.a m) → w.sink ≠ m) ∧ (cut.place n = some (.b m) → w.source ≠ m) := by
  obtain ⟨link, hlink, rfl⟩ := List.mem_map.mp hw
  constructor
  · rintro hn rfl
    exact h.sink_new link hlink n hn
  · rintro hn rfl
    exact h.source_new link hlink n hn

theorem Parted.matched (hp : cut.Parted config g a b ready readyA readyB) :
    cut.Matched config g ready readyA readyB ready ⟨readyA, readyB⟩ where
  running := hp.running
  steadyA := Steady.refl _ _
  steadyB := Steady.refl _ _
  cellA n m hn := by
    rw [(compiled_of_compile hp.compile).cells, (compiled_of_compile hp.compileA).cells,
      hp.splits.nodeA n m hn]
  cellB n m hn := by
    rw [(compiled_of_compile hp.compile).cells, (compiled_of_compile hp.compileB).cells,
      hp.splits.nodeB n m hn]
  idle w hw := by
    obtain ⟨link, hlink, rfl⟩ := List.mem_map.mp hw
    refine ⟨cut.ringSink config link.2, cut.ringSource config link.2, ?_, rfl,
      hp.splits.capacity link hlink⟩
    refine Bridge.Joined.start hp.runningA hp.runningB ?_ ?_ rfl rfl (silence_len _ _ _)
      (silence_len _ _ _) rfl
    · rw [(compiled_of_compile hp.compileA).nodes]
      exact hp.splits.sink link hlink
    · rw [(compiled_of_compile hp.compileB).nodes]
      exact hp.splits.source link hlink

omit [AudioCore] [AudioNode Q] [SinkNode R] in
theorem feed_other {id : NodeId} {place : Place}
    (hid : cut.place id = some place) (port : PortIdx) (src : AudioFrame) {n : NodeId} {p : Place}
    (hn : cut.place n = some p) (hne : p ≠ place) :
    (whole.feed id port src).scratch.cells n = whole.scratch.cells n := by
  rw [feed_cells, if_neg]
  rintro rfl
  exact hne (Option.some.inj (hn.symm.trans hid))

theorem Matched.feedA (hp : cut.Parted config g a b ready readyA readyB)
    (h : cut.Matched config g ready readyA readyB whole st) {id : NodeId} {m : NodeId}
    (hid : cut.place id = some (.a m)) (port : PortIdx) (src : AudioFrame) :
    cut.Matched config g ready readyA readyB (whole.feed id port src)
      (Bridge.run (cut.wires g.edges) st [.a (.feed m port src)]).1 := by
  have hs := hp.splits
  have hop : (Op.feed id port src : Op (DynNode Q) (DynSink R)).runs := trivial
  obtain ⟨hsteadyB, hcellsB⟩ :=
    handRight_keeps (st.a.feed m port src) h.steadyB (cut.wires g.edges)
  refine ⟨h.running.step hop,
    h.steadyA.step_drive measured_unit hp.runningA.compiled (.feed m port src), hsteadyB,
    fun n k hn => ?_, fun n k hn => ?_, fun w hw => ?_⟩
  · change _ = (st.a.feed m port src).scratch.cells k
    by_cases hk : k = m
    · subst hk
      rw [feed_cells, feed_cells, if_pos (hs.injective _ _ _ hn hid), if_pos rfl, h.cellA n k hn]
    · rw [feed_other hid port src hn fun heq => hk (Place.a.inj heq), feed_cells, if_neg hk]
      exact h.cellA n k hn
  · rw [feed_other hid port src hn (by simp)]
    exact (h.cellB n k hn).trans (hcellsB k fun w hw => (hs.wire_new hw).2 hn).symm
  · obtain ⟨n, k, hj, hempty, hcapacity⟩ := h.idle w hw
    exact ⟨n, _, hj.turnA hs.separate hw (hj.sink.feed hp.runningA.compiled _ _ _) hj.frames,
      hempty, hcapacity⟩

theorem Matched.feedB (hp : cut.Parted config g a b ready readyA readyB)
    (h : cut.Matched config g ready readyA readyB whole st) {id : NodeId} {m : NodeId}
    (hid : cut.place id = some (.b m)) (port : PortIdx) (src : AudioFrame) :
    cut.Matched config g ready readyA readyB (whole.feed id port src)
      (Bridge.run (cut.wires g.edges) st [.b (.feed m port src)]).1 := by
  have hs := hp.splits
  have hop : (Op.feed id port src : Op (DynNode Q) (DynSink R)).runs := trivial
  obtain ⟨hsteadyA, hcellsA⟩ :=
    handLeft_keeps (st.b.feed m port src) h.steadyA (cut.wires g.edges)
  refine ⟨h.running.step hop, hsteadyA,
    h.steadyB.step_drive measured_unit hp.runningB.compiled (.feed m port src),
    fun n k hn => ?_, fun n k hn => ?_, fun w hw => ?_⟩
  · rw [feed_other hid port src hn (by simp)]
    exact (h.cellA n k hn).trans (hcellsA k fun w hw => (hs.wire_new hw).1 hn).symm
  · change _ = (st.b.feed m port src).scratch.cells k
    by_cases hk : k = m
    · subst hk
      rw [feed_cells, feed_cells, if_pos (hs.injective _ _ _ hn hid), if_pos rfl, h.cellB n k hn]
    · rw [feed_other hid port src hn fun heq => hk (Place.b.inj heq), feed_cells, if_neg hk]
      exact h.cellB n k hn
  · obtain ⟨n, k, hj, hempty, hcapacity⟩ := h.idle w hw
    -- The source of a wire stands for no node of the whole, so no feed is placed on it.
    have hne : ¬ (m = w.source ∧ port = 0) := fun heq => (hs.wire_new hw).2 hid heq.1.symm
    have hframes : ∀ f ∈ k.consumer.frames, f.len = config.frameLen := by
      rw [← hj.ring]
      exact hj.frames
    refine ⟨_, k, hj.turnB hs.separate hw (hj.source.feed hp.runningB.compiled hne _) hframes,
      ?_, ?_⟩
    · change k.consumer.frames = []
      rw [← hj.ring]
      exact hempty
    · change 0 < k.consumer.capacity
      rw [← hj.ring]
      exact hcapacity

theorem Matched.feed (hp : cut.Parted config g a b ready readyA readyB)
    (h : cut.Matched config g ready readyA readyB whole st) (f : NodeId × PortIdx × AudioFrame) :
    cut.Matched config g ready readyA readyB (whole.feed f.1 f.2.1 f.2.2)
      (Bridge.run (cut.wires g.edges) st (cut.feed f).toList).1 := by
  cases hplace : cut.place f.1 with
  | none =>
    have hturn : cut.feed f = none := by simp [Cut.feed, hplace]
    have hop : (Op.feed f.1 f.2.1 f.2.2 : Op (DynNode Q) (DynSink R)).runs := trivial
    have hother : ∀ n p, cut.place n = some p →
        (whole.feed f.1 f.2.1 f.2.2).scratch.cells n = whole.scratch.cells n := by
      intro n p hn
      rw [feed_cells, if_neg]
      rintro rfl
      rw [hplace] at hn
      cases hn
    rw [hturn]
    exact ⟨h.running.step hop, h.steadyA, h.steadyB,
      fun n m hn => (hother n _ hn).trans (h.cellA n m hn),
      fun n m hn => (hother n _ hn).trans (h.cellB n m hn), h.idle⟩
  | some place =>
    cases place with
    | a m =>
      have hturn : cut.feed f = some (.a (.feed m f.2.1 f.2.2)) := by simp [Cut.feed, hplace]
      rw [hturn]
      exact h.feedA hp hplace f.2.1 f.2.2
    | b m =>
      have hturn : cut.feed f = some (.b (.feed m f.2.1 f.2.2)) := by simp [Cut.feed, hplace]
      rw [hturn]
      exact h.feedB hp hplace f.2.1 f.2.2

theorem Matched.feeds (hp : cut.Parted config g a b ready readyA readyB)
    (h : cut.Matched config g ready readyA readyB whole st)
    (fs : List (NodeId × PortIdx × AudioFrame)) :
    cut.Matched config g ready readyA readyB
      (whole.drive (fs.map fun f => .feed f.1 f.2.1 f.2.2)).1
      (Bridge.run (cut.wires g.edges) st (fs.filterMap cut.feed)).1 := by
  induction fs generalizing whole st with
  | nil => exact h
  | cons f fs ih =>
    have hrest := ih (h.feed hp f)
    rw [List.filterMap_cons]
    cases hturn : cut.feed f with
    | none =>
      rw [hturn] at hrest
      exact hrest
    | some t =>
      rw [hturn] at hrest
      exact hrest

omit [AudioCore] [AudioNode Q] [SinkNode R] in
theorem mem_ownSinks {n : NodeId} :
    n ∈ cut.ownSinks g ↔
      ∃ m s, cut.place n = some (.a m) ∧ g.scratch.nodes[n]? = some (.sink s) := by
  simp only [ownSinks, List.mem_filter, List.mem_range]
  constructor
  · rintro ⟨-, hown⟩
    split at hown
    · rename_i m s hplace hnode
      exact ⟨m, s, hplace, hnode⟩
    · cases hown
  · rintro ⟨m, s, hplace, hnode⟩
    exact ⟨(List.getElem?_eq_some_iff.mp hnode).1, by simp [hplace, hnode]⟩

theorem Parted.plain (hp : cut.Parted config g a b ready readyA readyB)
    (h : Running config ready whole) {n m : NodeId} (hn : cut.place n = some (.a m))
    (hown : n ∉ cut.ownSinks g) {slot : NodeSlot (DynNode Q) (DynSink R)}
    (hslot : whole.scratch.nodes[n]? = some slot) : ∃ q, slot = .plain q := by
  cases slot with
  | plain q => exact ⟨q, rfl⟩
  | sink s =>
    obtain ⟨s', hat⟩ := NodeSlot.exists_sink h.isSink.symm hslot
    rw [(compiled_of_compile hp.compile).nodes] at hat
    exact absurd (mem_ownSinks.mpr ⟨m, s', hn, hat⟩) hown

theorem Parted.flushed_self (hp : cut.Parted config g a b ready readyA readyB)
    (h : Running config ready whole) {n m : NodeId} (hn : cut.place n = some (.a m))
    (hown : n ∉ cut.ownSinks g) : (whole.scratch.cells n).flushed = whole.scratch.cells n := by
  have hnode : whole.scratch.nodes[n]?.map (·.flushed) = whole.scratch.nodes[n]? := by
    cases hslot : whole.scratch.nodes[n]? with
    | none => rfl
    | some slot =>
      obtain ⟨q, rfl⟩ := hp.plain h hn hown hslot
      rfl
  simp [Cell.flushed, GraphScratch.cells, hnode]

variable [KeepsContext Q] [KeepsContext R] [KeepsLengths Q] [KeepsLengths R]

theorem Matched.wires (hp : cut.Parted config g a b ready readyA readyB)
    (h : cut.Matched config g ready readyA readyB whole st) (ctx : ProcessContext) {w : Wire}
    (hw : w ∈ cut.wires g.edges) :
    ∃ (m n' : RingSink) (k' : RingSource),
      (st.a.processCycle ctx).1.sinkAt w.sink = some m ∧ m.flush.2 = .ok () ∧
      (∀ link ∈ cut.crossings g.edges, cut.wire link.2 = w →
        (Bridge.run (cut.wires g.edges) st (Turn.pass ctx)).1.b.readOutput w.source 0 =
          (whole.processCycle ctx).1.readOutput link.1.src.1 link.1.src.2) ∧
      Bridge.Joined readyA readyB w config.frameLen
        (Bridge.run (cut.wires g.edges) st (Turn.pass ctx)).1 n' k' ∧
      n'.producer.frames = [] ∧ 0 < n'.producer.capacity ∧
      refused (Bridge.history (cut.wires g.edges) w st (Turn.pass ctx)) = [] := by
  obtain ⟨n, k, hj, hempty, hcapacity⟩ := h.idle w hw
  obtain ⟨f, m, n', k', hin, hm, hflush, hout, hj', hempty', hcapacity', hrefused⟩ :=
    hj.pass hp.runningA hp.runningB hp.splits.separate hw hempty hcapacity ctx
  refine ⟨m, n', k', hm, hflush, ?_, hj', hempty', hcapacity'.symm ▸ hcapacity, hrefused⟩
  rintro link hlink rfl
  have hinput := hp.sink_input h.running h.steadyA h.cellA ctx hlink hj.sink
  rw [hout, ← hin, hinput]

theorem Matched.clean (hp : cut.Parted config g a b ready readyA readyB)
    (h : cut.Matched config g ready readyA readyB whole st) (ctx : ProcessContext)
    (hown : cut.ownSinks g = []) {m : NodeId} {slot : NodeSlot (DynNode Q) (DynSink R)}
    (hslot : (st.a.processCycle ctx).1.scratch.nodes[m]? = some slot) : slot.flushError = none := by
  have hsteady := h.steadyA.step_drive measured_unit hp.runningA.compiled (.processCycle ctx)
  have hlt : m < a.scratch.nodes.length := by
    have hcount : (st.a.processCycle ctx).1.scratch.nodes.length = readyA.nodeCount :=
      congrArg Shape.nodes hsteady.shape
    rw [nodeCount, (compiled_of_compile hp.compileA).nodes] at hcount
    rw [← hcount]
    exact (List.getElem?_eq_some_iff.mp hslot).1
  rcases hp.splits.allA m hlt with ⟨n, hn⟩ | ⟨w, hw, rfl⟩
  · have hcell := hp.cycleA (h.running.steady measured_unit) h.steadyA h.cellA ctx hn
    have hnode := (congrArg Cell.node hcell).trans hslot
    obtain ⟨q, rfl⟩ := hp.plain (h.running.after_cycle ctx) hn (by simp [hown]) hnode
    rfl
  · obtain ⟨k, -, -, hk, hflush, -⟩ := h.wires hp ctx hw
    rw [sinkAt, hslot] at hk
    split at hk
    · rename_i heq
      cases heq
      cases hk
      exact NodeSlot.flushError_of_ok hflush
    · cases hk

theorem Matched.pass (hp : cut.Parted config g a b ready readyA readyB)
    (h : cut.Matched config g ready readyA readyB whole st) (ctx : ProcessContext) :
    cut.Matched config g ready readyA readyB
      (whole.drive (.processCycle ctx :: (cut.ownSinks g).map .flushSink)).1
      (Bridge.run (cut.wires g.edges) st (Turn.pass ctx)).1 := by
  have hs := hp.splits
  have hsteady := h.running.steady measured_unit
  have hsteadyA := h.steadyA.step_drive measured_unit hp.runningA.compiled (.processCycle ctx)
  have hflushedA := hsteadyA.step_drive measured_unit hp.runningA.compiled .flushSinks
  obtain ⟨hsteadyB, hkeptB⟩ :=
    handRight_keeps (st.a.processCycle ctx).1 h.steadyB (cut.wires g.edges)
  obtain ⟨hloadedB, hkeptB'⟩ :=
    handRight_keeps (st.a.processCycle ctx).1.flushSinks.1 hsteadyB (cut.wires g.edges)
  have hcycledB := hloadedB.step_drive measured_unit hp.runningB.compiled (.processCycle ctx)
  obtain ⟨hdrainedA, hkeptA⟩ := handLeft_keeps
    (Bridge.run (cut.wires g.edges) st (Turn.pass ctx)).1.b hflushedA (cut.wires g.edges)
  have hbefore : ∀ n m, cut.place n = some (.b m) → whole.scratch.cells n = _ := fun n m hn =>
    (h.cellB n m hn).trans ((hkeptB' m fun w hw => (hs.wire_new hw).2 hn).trans
      (hkeptB m fun w hw => (hs.wire_new hw).2 hn)).symm
  have hnodup : (cut.ownSinks g).Nodup := List.nodup_range.filter _
  have hflushed := drive_flush_cells hnodup (whole.processCycle ctx).1
  have hflush : ∀ d ∈ (cut.ownSinks g).map Drive.flushSink,
      (d.op : Op (DynNode Q) (DynSink R)).runs := by
    intro d hd
    obtain ⟨n, -, rfl⟩ := List.mem_map.mp hd
    trivial
  refine ⟨(h.running.after_cycle ctx).drive hflush, hdrainedA, hcycledB, fun n m hn => ?_,
    fun n m hn => ?_, fun w hw => ?_⟩
  · have hcell := hp.cycleA hsteady h.steadyA h.cellA ctx hn
    have hpart := (hkeptA m fun w hw => (hs.wire_new hw).1 hn).trans
      (flushSinks_cells (st.a.processCycle ctx).1 m)
    refine Eq.trans ?_ ((congrArg Cell.flushed hcell).trans hpart.symm)
    refine (hflushed n).trans ?_
    by_cases hown : n ∈ cut.ownSinks g
    · rw [if_pos hown]
    · rw [if_neg hown]
      exact (hp.flushed_self (h.running.after_cycle ctx) hn hown).symm
  · have hown : n ∉ cut.ownSinks g := by
      intro hown
      obtain ⟨k, s, hk, -⟩ := mem_ownSinks.mp hown
      rw [hn] at hk
      cases hk
    refine ((hflushed n).trans (if_neg hown)).trans ?_
    refine hp.cycleB hsteady hloadedB hbefore ctx (fun link hlink => ?_) hn
    have hw : cut.wire link.2 ∈ cut.wires g.edges := List.mem_map.mpr ⟨link, hlink, rfl⟩
    obtain ⟨-, -, -, -, -, hout, -⟩ := h.wires hp ctx hw
    exact hout link hlink rfl
  · obtain ⟨-, n', k', -, -, -, hj, hempty, hcapacity, -⟩ := h.wires hp ctx hw
    exact ⟨n', k', hj, hempty, hcapacity⟩

omit [KeepsContext Q] [KeepsContext R] [KeepsLengths Q] [KeepsLengths R] in
theorem feeds_quiet (cut : Cut) (wires : List Wire) (st : Bridge (DynNode Q) R Q (DynSink R))
    (fs : List (NodeId × PortIdx × AudioFrame)) :
    (∀ w, refused (Bridge.history wires w st (fs.filterMap cut.feed)) = []) ∧
      ∀ o ∈ (Bridge.run wires st (fs.filterMap cut.feed)).2, o.flushFailed = false := by
  induction fs generalizing st with
  | nil => exact ⟨fun _ => rfl, fun o ho => absurd ho List.not_mem_nil⟩
  | cons f fs ih =>
    rw [List.filterMap_cons]
    cases hplace : cut.place f.1 with
    | none =>
      have hturn : cut.feed f = none := by simp [Cut.feed, hplace]
      rw [hturn]
      exact ih st
    | some place =>
      cases place with
      | a m =>
        have hturn : cut.feed f = some (.a (.feed m f.2.1 f.2.2)) := by simp [Cut.feed, hplace]
        rw [hturn]
        obtain ⟨hrefused, hclean⟩ := ih (Bridge.step wires st (.a (.feed m f.2.1 f.2.2))).1
        refine ⟨hrefused, fun o ho => ?_⟩
        rcases List.mem_cons.mp ho with rfl | ho
        · rfl
        · exact hclean o ho
      | b m =>
        have hturn : cut.feed f = some (.b (.feed m f.2.1 f.2.2)) := by simp [Cut.feed, hplace]
        rw [hturn]
        obtain ⟨hrefused, hclean⟩ := ih (Bridge.step wires st (.b (.feed m f.2.1 f.2.2))).1
        refine ⟨hrefused, fun o ho => ?_⟩
        rcases List.mem_cons.mp ho with rfl | ho
        · rfl
        · exact hclean o ho

structure Kept (cut : Cut) (config : GraphConfig)
    (g ready readyA readyB whole : Graph (DynNode Q) (DynSink R))
    (st : Bridge (DynNode Q) R Q (DynSink R)) (turns : List Turn) : Prop where
  matched : cut.Matched config g ready readyA readyB whole
    (Bridge.run (cut.wires g.edges) st turns).1
  accepted : ∀ w ∈ cut.wires g.edges,
    refused (Bridge.history (cut.wires g.edges) w st turns) = []
  clean : cut.ownSinks g = [] →
    ∀ o ∈ (Bridge.run (cut.wires g.edges) st turns).2, o.flushFailed = false

omit [KeepsContext Q] [KeepsContext R] [KeepsLengths Q] [KeepsLengths R] in
theorem Kept.append {whole' : Graph (DynNode Q) (DynSink R)} {ts us : List Turn}
    (h : cut.Kept config g ready readyA readyB whole st ts)
    (h' : cut.Kept config g ready readyA readyB whole'
      (Bridge.run (cut.wires g.edges) st ts).1 us) :
    cut.Kept config g ready readyA readyB whole' st (ts ++ us) := by
  have hrun := Transition.run_append (Bridge.step (cut.wires g.edges)) st ts us
  refine ⟨?_, fun w hw => ?_, fun hown o ho => ?_⟩
  · rw [Bridge.run, hrun]
    exact h'.matched
  · rw [Bridge.history_append, refused_append, h.accepted w hw, h'.accepted w hw]
    rfl
  · rw [Bridge.run, hrun] at ho
    rcases List.mem_append.mp ho with ho | ho
    · exact h.clean hown o ho
    · exact h'.clean hown o ho

theorem Matched.passed (hp : cut.Parted config g a b ready readyA readyB)
    (h : cut.Matched config g ready readyA readyB whole st) (ctx : ProcessContext) :
    cut.Kept config g ready readyA readyB
      (whole.drive (.processCycle ctx :: (cut.ownSinks g).map .flushSink)).1 st
      (Turn.pass ctx) := by
  refine ⟨h.pass hp ctx, fun w hw => ?_, fun hown o ho => ?_⟩
  · obtain ⟨-, -, -, -, -, -, -, -, -, hrefused⟩ := h.wires hp ctx hw
    exact hrefused
  · have hnone : (st.a.processCycle ctx).1.flushSinks.2.2 = none := by
      rw [flushSinks_eq]
      refine List.findSome?_eq_none_iff.mpr fun slot hslot => ?_
      obtain ⟨m, hm⟩ := List.getElem?_of_mem hslot
      exact h.clean hp ctx hown hm
    obtain ⟨outA, outB, resultA, resultB, houts⟩ : ∃ outA outB resultA resultB,
        (Bridge.run (cut.wires g.edges) st (Turn.pass ctx)).2 =
          [.cycled outA resultA, .flushedAll (st.a.processCycle ctx).1.flushSinks.2.1
            (st.a.processCycle ctx).1.flushSinks.2.2, .cycled outB resultB] := ⟨_, _, _, _, rfl⟩
    rw [houts, hnone] at ho
    simp only [List.mem_cons, List.not_mem_nil, or_false] at ho
    rcases ho with rfl | rfl | rfl <;> rfl

theorem Matched.round (hp : cut.Parted config g a b ready readyA readyB)
    (h : cut.Matched config g ready readyA readyB whole st) (r : Round) :
    cut.Kept config g ready readyA readyB
      (whole.drive (r.drives ++ (cut.ownSinks g).map .flushSink)).1 st (cut.turns r) := by
  have hfed := h.feeds hp r.feeds
  obtain ⟨hquiet, hclean⟩ := cut.feeds_quiet (cut.wires g.edges) st r.feeds
  rw [Round.drives, List.append_assoc, drive_append]
  exact Kept.append ⟨hfed, fun w _ => hquiet w, fun _ => hclean⟩ (hfed.passed hp r.ctx)

theorem Matched.rounds (hp : cut.Parted config g a b ready readyA readyB)
    (h : cut.Matched config g ready readyA readyB whole st) (rs : List Round) :
    cut.Kept config g ready readyA readyB
      (whole.drive (rs.flatMap fun r => r.drives ++ (cut.ownSinks g).map .flushSink)).1 st
      (rs.flatMap cut.turns) := by
  induction rs generalizing whole st with
  | nil => exact ⟨h, fun w _ => rfl, fun _ o ho => absurd ho List.not_mem_nil⟩
  | cons r rs ih =>
    have hround := h.round hp r
    rw [List.flatMap_cons, List.flatMap_cons, drive_append]
    exact hround.append (ih hround.matched)

theorem partitioned_run (hg : Built g) (ha : Built a) (hb : Built b)
    (hs : cut.Splits config g a b) (hready : g.compile config = (ready, .ok ())) :
    ∃ readyA readyB, a.compile config = (readyA, .ok ()) ∧ b.compile config = (readyB, .ok ()) ∧
      ∀ (rounds : List Round) (whole : Graph (DynNode Q) (DynSink R))
        (parts : Bridge (DynNode Q) R Q (DynSink R)) (outs : List Outcome),
        whole =
          (ready.drive (rounds.flatMap fun r =>
            r.drives ++ (cut.ownSinks g).map .flushSink)).1 →
        (parts, outs) =
          Bridge.run (cut.wires g.edges) ⟨readyA, readyB⟩ (rounds.flatMap cut.turns) →
        (∀ n m, cut.place n = some (.a m) →
          parts.a.scratch.cells m = whole.scratch.cells n) ∧
        (∀ n m, cut.place n = some (.b m) →
          parts.b.scratch.cells m = whole.scratch.cells n) ∧
        (∀ w ∈ cut.wires g.edges,
          refused (Bridge.history (cut.wires g.edges) w ⟨readyA, readyB⟩
            (rounds.flatMap cut.turns)) = []) ∧
        (cut.ownSinks g = [] → ∀ o ∈ outs, o.flushFailed = false) := by
  obtain ⟨readyA, readyB, hreadyA, hreadyB⟩ := hs.compiles hg ha hb hready
  have hp : cut.Parted config g a b ready readyA readyB :=
    ⟨hs, hg, ha, hb, hready, hreadyA, hreadyB⟩
  refine ⟨readyA, readyB, hreadyA, hreadyB, ?_⟩
  rintro rounds whole parts outs rfl hrun
  have hkept := hp.matched.rounds hp rounds
  have hparts := congrArg Prod.fst hrun
  have houts := congrArg Prod.snd hrun
  simp only at hparts houts
  rw [hparts, houts]
  exact ⟨fun n m hn => (hkept.matched.cellA n m hn).symm,
    fun n m hn => (hkept.matched.cellB n m hn).symm, hkept.accepted, hkept.clean⟩

end Cut

end

namespace Sample

open PlainCore

abbrev Whole := Graph (DynNode RingSource) (DynSink RingSink)

def wholeOps : List (Op (DynNode RingSource) (DynSink RingSink)) :=
  [.addNode (.ringSource source), .addSink (.ringSink sink), .addNode (.ringSink sink),
    .link (0, 0) (1, 0), .link (0, 0) (2, 0)]

def partOpsA : List (Op (DynNode RingSource) (DynSink RingSink)) :=
  [.addNode (.ringSource source), .addSink (.ringSink sink), .addSink (.ringSink sink),
    .link (0, 0) (1, 0), .link (0, 0) (2, 0)]

def partOpsB : List (Op (DynNode RingSource) (DynSink RingSink)) :=
  [.addNode (.ringSource (RingSource.new (RingBuffer.new 1) 1 48000 2)), .addNode (.ringSink sink),
    .link (0, 0) (1, 0)]

def whole : Whole := (Graph.new.run wholeOps).1

def partA : Whole := (Graph.new.run partOpsA).1

def partB : Whole := (Graph.new.run partOpsB).1

def cut : Cut where
  place
    | 0 => some (.a 0)
    | 1 => some (.a 1)
    | 2 => some (.b 1)
    | _ => none
  wire _ := ⟨2, 0⟩
  capacity _ := 1

theorem cut_place {n : NodeId} {p : Place} (h : cut.place n = some p) :
    (n = 0 ∧ p = .a 0) ∨ (n = 1 ∧ p = .a 1) ∨ (n = 2 ∧ p = .b 1) := by
  match n with
  | 0 => exact Or.inl ⟨rfl, (Option.some.inj h).symm⟩
  | 1 => exact Or.inr (Or.inl ⟨rfl, (Option.some.inj h).symm⟩)
  | 2 => exact Or.inr (Or.inr ⟨rfl, (Option.some.inj h).symm⟩)
  | n + 3 => cases h

theorem cut_splits : cut.Splits config whole partA partB where
  placed n := by
    match n with
    | 0 | 1 | 2 => decide
    | n + 3 =>
      have hlen : whole.scratch.nodes.length = 3 := rfl
      have hnone : cut.place (n + 3) = none := rfl
      simp [hlen, hnone]
  injective m n p hm hn := by
    rcases cut_place hm with ⟨rfl, rfl⟩ | ⟨rfl, rfl⟩ | ⟨rfl, rfl⟩
    all_goals rcases cut_place hn with ⟨rfl, h⟩ | ⟨rfl, h⟩ | ⟨rfl, h⟩
    all_goals first | rfl | cases h
  forward e he src dst h := by
    have hedges : whole.edges = [⟨(0, 0), (1, 0)⟩, ⟨(0, 0), (2, 0)⟩] := rfl
    simp only [hedges, List.mem_cons, List.not_mem_nil, or_false] at he
    rcases he with rfl | rfl <;> cases h.1
  nodeA n m hn := by
    rcases cut_place hn with ⟨rfl, h⟩ | ⟨rfl, h⟩ | ⟨-, h⟩
    · cases h
      rfl
    · cases h
      rfl
    · cases h
  nodeB n m hn := by
    rcases cut_place hn with ⟨-, h⟩ | ⟨-, h⟩ | ⟨rfl, h⟩
    · cases h
    · cases h
    · cases h
      rfl
  capacity := by decide
  sink := by decide
  source := by decide
  separate := ⟨by decide, by decide⟩
  sink_new link _ n hn := by
    rcases cut_place hn with ⟨-, h⟩ | ⟨-, h⟩ | ⟨-, h⟩ <;> cases h
  source_new link _ n hn := by
    rcases cut_place hn with ⟨-, h⟩ | ⟨-, h⟩ | ⟨-, h⟩ <;> cases h
  allA m hm := by
    match m, hm with
    | 0, _ => exact Or.inl ⟨0, rfl⟩
    | 1, _ => exact Or.inl ⟨1, rfl⟩
    | 2, _ => exact Or.inr ⟨⟨2, 0⟩, by decide, rfl⟩
  allB m hm := by
    match m, hm with
    | 0, _ => exact Or.inr ⟨⟨2, 0⟩, by decide, rfl⟩
    | 1, _ => exact Or.inl ⟨2, rfl⟩
  linksA target := rfl
  linksB target := rfl

theorem whole_built : Graph.Built whole := ⟨wholeOps, by simp [wholeOps, Op.builds], rfl⟩

theorem partA_built : Graph.Built partA := ⟨partOpsA, by simp [partOpsA, Op.builds], rfl⟩

theorem partB_built : Graph.Built partB := ⟨partOpsB, by simp [partOpsB, Op.builds], rfl⟩

def rounds : List Round := [⟨[], ()⟩, ⟨[], ()⟩]

end Sample

open PlainCore Sample in
theorem partitioned_run_sample :
    ∃ (readyA readyB : Whole)
      (parts : Bridge (DynNode RingSource) RingSink RingSource (DynSink RingSink)),
      partA.compile config = (readyA, .ok ()) ∧ partB.compile config = (readyB, .ok ()) ∧
      parts = (Bridge.run [⟨2, 0⟩] ⟨readyA, readyB⟩ (rounds.flatMap cut.turns)).1 ∧
      parts.b.scratch.cells 1 = ((whole.compile config).1.drive (rounds.flatMap fun r =>
        r.drives ++ [.flushSink 1])).1.scratch.cells 2 := by
  obtain ⟨readyA, readyB, hreadyA, hreadyB, hrun⟩ :=
    Cut.partitioned_run whole_built partA_built partB_built cut_splits rfl
  obtain ⟨-, hcells, -⟩ := hrun rounds _ _ _ rfl rfl
  exact ⟨readyA, readyB, _, hreadyA, hreadyB, rfl, hcells 2 1 rfl⟩

open PlainCore Sample in
theorem own_sink_refuses_second_flush :
    ¬ ∀ (config : GraphConfig) (cut : Cut) (g a b ready readyA readyB : Whole),
      Graph.Built g → Graph.Built a → Graph.Built b → cut.Splits config g a b →
      g.compile config = (ready, .ok ()) → a.compile config = (readyA, .ok ()) →
      b.compile config = (readyB, .ok ()) →
      ∀ rounds : List Round,
        let run := Bridge.run (cut.wires g.edges) ⟨readyA, readyB⟩ (rounds.flatMap cut.turns)
        let whole := (ready.drive (rounds.flatMap Round.drives)).1
        (∀ n m, cut.place n = some (.a m) → run.1.a.scratch.cells m = whole.scratch.cells n) ∧
        (∀ n m, cut.place n = some (.b m) → run.1.b.scratch.cells m = whole.scratch.cells n) ∧
        ∀ o ∈ run.2, o.flushFailed = false := by
  intro h
  obtain ⟨-, -, hclean⟩ := h config cut whole partA partB _ _ _ whole_built partA_built
    partB_built cut_splits rfl rfl rfl rounds
  exact absurd hclean (by decide)

end AudioGraph
