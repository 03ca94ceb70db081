import AudioGraph.Engine.Pipeline
import AudioGraph.Properties.Flushing
import AudioGraph.Properties.Rounds

namespace AudioGraph

open BoundedFifo Handoff

section

variable [AudioCore] {Q R : Type} [AudioNode Q] [SinkNode R] {config : GraphConfig} {cut : Cut}
  {g a b ready readyA readyB wholeA wholeB : Graph (DynNode Q) (DynSink R)}
  {st : Bridge (DynNode Q) R Q (DynSink R)} {queue : Edge × Nat → List (Option AudioFrame)}

namespace Cut

open AudioGraph.Graph

structure Staged (cut : Cut) (config : GraphConfig)
    (g ready readyA readyB wholeA wholeB : Graph (DynNode Q) (DynSink R))
    (queue : Edge × Nat → List (Option AudioFrame))
    (st : Bridge (DynNode Q) R Q (DynSink R)) : Prop where
  runningA : Running config ready wholeA
  runningB : Running config ready wholeB
  steadyA : Steady (fun _ => ()) readyA st.a
  steadyB : Steady (fun _ => ()) readyB st.b
  cellA : ∀ n m, cut.place n = some (.a m) → wholeA.scratch.cells n = st.a.scratch.cells m
  cellB : ∀ n m, cut.place n = some (.b m) → wholeB.scratch.cells n = st.b.scratch.cells m
  rings : ∀ link ∈ cut.crossings g.edges, ∃ n k,
    Bridge.Joined readyA readyB (cut.wire link.2) config.frameLen st n k ∧
      n.producer.frames.map some = queue link ∧ n.producer.capacity = cut.capacity link.2

omit [AudioCore] [AudioNode Q] [SinkNode R] in
theorem mem_wires {link : Edge × Nat} (h : link ∈ cut.crossings g.edges) :
    cut.wire link.2 ∈ cut.wires g.edges :=
  List.mem_map.mpr ⟨link, h, rfl⟩

theorem Parted.staged (hp : cut.Parted config g a b ready readyA readyB) :
    cut.Staged config g ready readyA readyB ready ready (fun _ => []) ⟨readyA, readyB⟩ where
  runningA := hp.running
  runningB := hp.running
  steadyA := hp.matched.steadyA
  steadyB := hp.matched.steadyB
  cellA := hp.matched.cellA
  cellB := hp.matched.cellB
  rings link hlink := by
    refine ⟨cut.ringSink config link.2, cut.ringSource config link.2, ?_, rfl, rfl⟩
    refine Bridge.Joined.start hp.runningA hp.runningB ?_ ?_ rfl rfl (silence_len _ _ _)
      (silence_len _ _ _) rfl
    · rw [(compiled_of_compile hp.compileA).nodes]
      exact hp.splits.sink link hlink
    · rw [(compiled_of_compile hp.compileB).nodes]
      exact hp.splits.source link hlink

theorem Staged.quietA (hp : cut.Parted config g a b ready readyA readyB)
    (h : cut.Staged config g ready readyA readyB wholeA wholeB queue st)
    {whole' : Graph (DynNode Q) (DynSink R)} (hrunning : Running config ready whole') {d : Drive}
    (hcells : ∀ n m, cut.place n = some (.a m) →
      whole'.scratch.cells n = (st.a.step d.op).1.scratch.cells m)
    (hsinks : ∀ link ∈ cut.crossings g.edges, ∀ n,
      SinkSide readyA (cut.wire link.2).sink config.frameLen st.a n →
        SinkSide readyA (cut.wire link.2).sink config.frameLen (st.a.step d.op).1 n) :
    cut.Staged config g ready readyA readyB whole' wholeB queue
      (Bridge.step (cut.wires g.edges) st (.a d)).1 := by
  have hs := hp.splits
  obtain ⟨hsteadyB, hcellsB⟩ := handRight_keeps (st.a.step d.op).1 h.steadyB (cut.wires g.edges)
  refine ⟨hrunning, h.runningB, h.steadyA.step_drive measured_unit hp.runningA.compiled d, hsteadyB,
    hcells, fun n m hn => ?_, fun link hlink => ?_⟩
  · exact (h.cellB n m hn).trans (hcellsB m fun w hw => (hs.wire_new hw).2 hn).symm
  · obtain ⟨n, k, hj, hframes, hcapacity⟩ := h.rings link hlink
    exact ⟨n, _, hj.turnA hs.separate (mem_wires hlink) (hsinks link hlink n hj.sink) hj.frames,
      hframes, hcapacity⟩

theorem running_feed (h : Running config ready wholeA) (id : NodeId) (port : PortIdx)
    (src : AudioFrame) : Running config ready (wholeA.feed id port src) := by
  have hop : (Op.feed id port src : Op (DynNode Q) (DynSink R)).runs := trivial
  exact h.step hop

omit [AudioCore] [AudioNode Q] [SinkNode R] in
theorem feed_placed {part : Graph (DynNode Q) (DynSink R)} {id m : NodeId}
    {place : NodeId → Place} (hplace : Function.Injective place)
    (hinj : ∀ n, cut.place n = some (place m) → n = id) (hid : cut.place id = some (place m))
    (port : PortIdx) (src : AudioFrame) {n k : NodeId} (hn : cut.place n = some (place k))
    (hcell : wholeA.scratch.cells n = part.scratch.cells k) :
    (wholeA.feed id port src).scratch.cells n = (part.feed m port src).scratch.cells k := by
  by_cases hk : k = m
  · subst hk
    rw [feed_cells, feed_cells, if_pos (hinj n hn), if_pos rfl, hcell]
  · rw [feed_other hid port src hn fun heq => hk (hplace heq), feed_cells, if_neg hk, hcell]

theorem Staged.feedA (hp : cut.Parted config g a b ready readyA readyB)
    (h : cut.Staged config g ready readyA readyB wholeA wholeB queue st) {id m : NodeId}
    (hid : cut.place id = some (.a m)) (port : PortIdx) (src : AudioFrame) :
    cut.Staged config g ready readyA readyB (wholeA.feed id port src) wholeB queue
      (Bridge.step (cut.wires g.edges) st (.a (.feed m port src))).1 :=
  h.quietA hp (running_feed h.runningA id port src)
    (fun n k hn => feed_placed (fun _ _ => Place.a.inj)
      (fun _ hn => hp.splits.injective _ _ _ hn hid) hid port src hn (h.cellA n k hn))
    fun _ _ _ hsink => hsink.feed hp.runningA.compiled m port src

theorem Staged.feedB (hp : cut.Parted config g a b ready readyA readyB)
    (h : cut.Staged config g ready readyA readyB wholeA wholeB queue st) {id m : NodeId}
    (hid : cut.place id = some (.b m)) (port : PortIdx) (src : AudioFrame) :
    cut.Staged config g ready readyA readyB wholeA (wholeB.feed id port src) queue
      (Bridge.step (cut.wires g.edges) st (.b (.feed m port src))).1 := by
  have hs := hp.splits
  obtain ⟨hsteadyA, hcellsA⟩ :=
    handLeft_keeps (st.b.feed m port src) h.steadyA (cut.wires g.edges)
  refine ⟨h.runningA, running_feed h.runningB id port src, hsteadyA,
    h.steadyB.step_drive measured_unit hp.runningB.compiled (.feed m port src),
    fun n k hn => ?_, fun n k hn => ?_, fun link hlink => ?_⟩
  · exact (h.cellA n k hn).trans (hcellsA k fun w hw => (hs.wire_new hw).1 hn).symm
  · exact feed_placed (fun _ _ => Place.b.inj) (fun _ hn => hs.injective _ _ _ hn hid) hid port src
      hn (h.cellB n k hn)
  · obtain ⟨n, k, hj, hframes, hcapacity⟩ := h.rings link hlink
    -- The source of a wire stands for no node of the whole, so no feed is placed on it.
    have hne : ¬ (m = (cut.wire link.2).source ∧ port = 0) :=
      fun heq => (hs.wire_new (mem_wires hlink)).2 hid heq.1.symm
    have hlens : ∀ f ∈ k.consumer.frames, f.len = config.frameLen := by
      rw [← hj.ring]
      exact hj.frames
    rw [hj.ring] at hframes hcapacity
    exact ⟨_, k, hj.turnB hs.separate (mem_wires hlink)
      (hj.source.feed hp.runningB.compiled hne src) hlens, hframes, hcapacity⟩

omit [AudioCore] [AudioNode Q] [SinkNode R] in
theorem feed_misses {id n : NodeId} {p : Place} (hn : cut.place n = some p)
    (hid : cut.place id ≠ some p) (port : PortIdx) (src : AudioFrame) :
    (wholeA.feed id port src).scratch.cells n = wholeA.scratch.cells n := by
  rw [feed_cells, if_neg]
  rintro rfl
  exact hid hn

theorem Staged.missA (h : cut.Staged config g ready readyA readyB wholeA wholeB queue st)
    {id : NodeId} (hid : ∀ m, cut.place id ≠ some (.a m)) (port : PortIdx) (src : AudioFrame) :
    cut.Staged config g ready readyA readyB (wholeA.feed id port src) wholeB queue st :=
  { h with
    runningA := running_feed h.runningA id port src
    cellA := fun n m hn => (feed_misses hn (hid m) port src).trans (h.cellA n m hn) }

theorem Staged.missB (h : cut.Staged config g ready readyA readyB wholeA wholeB queue st)
    {id : NodeId} (hid : ∀ m, cut.place id ≠ some (.b m)) (port : PortIdx) (src : AudioFrame) :
    cut.Staged config g ready readyA readyB wholeA (wholeB.feed id port src) queue st :=
  { h with
    runningB := running_feed h.runningB id port src
    cellB := fun n m hn => (feed_misses hn (hid m) port src).trans (h.cellB n m hn) }

theorem Staged.feedsA (hp : cut.Parted config g a b ready readyA readyB)
    (h : cut.Staged config g ready readyA readyB wholeA wholeB queue st)
    (fs : List (NodeId × PortIdx × AudioFrame)) :
    cut.Staged config g ready readyA readyB
      (wholeA.drive (fs.map fun f => .feed f.1 f.2.1 f.2.2)).1 wholeB queue
      (Bridge.run (cut.wires g.edges) st ((fs.filterMap cut.feed).filter (Turn.on .a))).1 := by
  induction fs generalizing wholeA st with
  | nil => exact h
  | cons f fs ih =>
    cases hplace : cut.place f.1 with
    | none =>
      have hturn : cut.feed f = none := by simp [Cut.feed, hplace]
      rw [List.filterMap_cons, hturn]
      exact ih (h.missA (by simp [hplace]) f.2.1 f.2.2)
    | some place =>
      cases place with
      | a m =>
        have hturn : cut.feed f = some (.a (.feed m f.2.1 f.2.2)) := by simp [Cut.feed, hplace]
        rw [List.filterMap_cons, hturn]
        exact ih (h.feedA hp hplace f.2.1 f.2.2)
      | b m =>
        have hturn : cut.feed f = some (.b (.feed m f.2.1 f.2.2)) := by simp [Cut.feed, hplace]
        rw [List.filterMap_cons, hturn]
        exact ih (h.missA (by simp [hplace]) f.2.1 f.2.2)

theorem Staged.feedsB (hp : cut.Parted config g a b ready readyA readyB)
    (h : cut.Staged config g ready readyA readyB wholeA wholeB queue st)
    (fs : List (NodeId × PortIdx × AudioFrame)) :
    cut.Staged config g ready readyA readyB wholeA
      (wholeB.drive (fs.map fun f => .feed f.1 f.2.1 f.2.2)).1 queue
      (Bridge.run (cut.wires g.edges) st ((fs.filterMap cut.feed).filter (Turn.on .b))).1 := by
  induction fs generalizing wholeB st with
  | nil => exact h
  | cons f fs ih =>
    cases hplace : cut.place f.1 with
    | none =>
      have hturn : cut.feed f = none := by simp [Cut.feed, hplace]
      rw [List.filterMap_cons, hturn]
      exact ih (h.missB (by simp [hplace]) f.2.1 f.2.2)
    | some place =>
      cases place with
      | a m =>
        have hturn : cut.feed f = some (.a (.feed m f.2.1 f.2.2)) := by simp [Cut.feed, hplace]
        rw [List.filterMap_cons, hturn]
        exact ih (h.missB (by simp [hplace]) f.2.1 f.2.2)
      | b m =>
        have hturn : cut.feed f = some (.b (.feed m f.2.1 f.2.2)) := by simp [Cut.feed, hplace]
        rw [List.filterMap_cons, hturn]
        exact ih (h.feedB hp hplace f.2.1 f.2.2)

omit [AudioNode Q] [SinkNode R] in
theorem flushes_run (ids : List NodeId) :
    ∀ d ∈ ids.map Drive.flushSink, (d.op : Op (DynNode Q) (DynSink R)).runs := by
  intro d hd
  obtain ⟨n, -, rfl⟩ := List.mem_map.mp hd
  trivial

omit [AudioCore] [AudioNode Q] [SinkNode R] in
theorem readOutput_cells (whole : Graph (DynNode Q) (DynSink R)) (n : NodeId) (p : PortIdx) :
    whole.readOutput n p = Cell.source whole.scratch.cells (n, p) := rfl

theorem flushes_readOutput (whole : Graph (DynNode Q) (DynSink R)) {ids : List NodeId}
    (hd : ids.Nodup) (n : NodeId) (p : PortIdx) :
    (whole.drive (ids.map .flushSink)).1.readOutput n p = whole.readOutput n p := by
  rw [readOutput_cells, readOutput_cells, Cell.source, Cell.source, drive_flush_cells hd]
  split <;> rfl

theorem Parted.flushed_own (hp : cut.Parted config g a b ready readyA readyB)
    (h : Running config ready wholeA) {part : Graph (DynNode Q) (DynSink R)} {n m : NodeId}
    (hn : cut.place n = some (.a m)) (hcell : wholeA.scratch.cells n = part.scratch.cells m) :
    (wholeA.drive ((cut.ownSinks g).map .flushSink)).1.scratch.cells n =
      part.flushSinks.1.scratch.cells m := by
  have hnodup : (cut.ownSinks g).Nodup := List.nodup_range.filter _
  rw [drive_flush_cells hnodup, flushSinks_cells, ← hcell]
  by_cases hown : n ∈ cut.ownSinks g
  · rw [if_pos hown]
  · rw [if_neg hown]
    exact (hp.flushed_self h hn hown).symm

theorem flushed_other {n m : NodeId} (hn : cut.place n = some (.b m)) :
    (wholeB.drive ((cut.ownSinks g).map .flushSink)).1.scratch.cells n =
      wholeB.scratch.cells n := by
  have hnodup : (cut.ownSinks g).Nodup := List.nodup_range.filter _
  rw [drive_flush_cells hnodup, if_neg]
  intro hown
  obtain ⟨k, s, hk, -⟩ := mem_ownSinks.mp hown
  rw [hn] at hk
  cases hk

omit [AudioCore] [AudioNode Q] [SinkNode R] in
theorem pushed_ring {n : RingSink} {f : AudioFrame} {ring : List (Option AudioFrame)} {c : Nat}
    (hframes : n.producer.frames.map some = ring) (hcapacity : n.producer.capacity = c)
    (hroom : ring.length < c) :
    (({ n with stash := f } : RingSink).flush.1.producer.frames = n.producer.frames ++ [f]) ∧
      ({ n with stash := f } : RingSink).flush.1.producer.capacity = c := by
  have henters := RingSink.flush_enters { n with stash := f }
  have hlt : n.producer.frames.length < n.producer.capacity := by
    rw [hcapacity, ← List.length_map (f := some), hframes]
    exact hroom
  refine ⟨?_, henters.capacity.trans hcapacity⟩
  have hpushed := henters.frames
  rwa [if_pos hlt] at hpushed

variable [KeepsContext Q] [KeepsContext R] [KeepsLengths Q] [KeepsLengths R]

theorem Staged.passA (hp : cut.Parted config g a b ready readyA readyB)
    (h : cut.Staged config g ready readyA readyB wholeA wholeB queue st) (ctx : ProcessContext)
    (hroom : ∀ link ∈ cut.crossings g.edges, (queue link).length < cut.capacity link.2) :
    cut.Staged config g ready readyA readyB
      (wholeA.drive (.processCycle ctx :: (cut.ownSinks g).map .flushSink)).1 wholeB
      (fun link => queue link ++
        [(wholeA.processCycle ctx).1.readOutput link.1.src.1 link.1.src.2])
      (Bridge.run (cut.wires g.edges) st [.a (.processCycle ctx), .a .flushSinks]).1 := by
  have hs := hp.splits
  have hc := hp.runningA.compiled
  have hcycled := h.steadyA.step_drive measured_unit hc (.processCycle ctx)
  obtain ⟨hsteadyB, hkeptB⟩ :=
    handRight_keeps (st.a.processCycle ctx).1 h.steadyB (cut.wires g.edges)
  obtain ⟨hloadedB, hkeptB'⟩ :=
    handRight_keeps (st.a.processCycle ctx).1.flushSinks.1 hsteadyB (cut.wires g.edges)
  refine ⟨(h.runningA.after_cycle ctx).drive (flushes_run _), h.runningB,
    hcycled.step_drive measured_unit hc .flushSinks, hloadedB, fun n m hn => ?_, fun n m hn => ?_,
    fun link hlink => ?_⟩
  · exact hp.flushed_own (h.runningA.after_cycle ctx) hn
      (hp.cycleA (h.runningA.steady measured_unit) h.steadyA h.cellA ctx hn)
  · exact (h.cellB n m hn).trans ((hkeptB' m fun w hw => (hs.wire_new hw).2 hn).trans
      (hkeptB m fun w hw => (hs.wire_new hw).2 hn)).symm
  · have hw := mem_wires hlink
    obtain ⟨n, k, hj, hframes, hcapacity⟩ := h.rings link hlink
    obtain ⟨f, hread, hsink⟩ := hj.sink.cycle hp.runningA ctx
    obtain ⟨hpushed, hcapacity'⟩ := pushed_ring (f := f) hframes hcapacity (hroom link hlink)
    have hstored := hj.turnA hs.separate hw hsink hj.frames
    have hflushed := hstored.sink.flushSinks hc
    have hlens : ∀ x ∈ ({ n with stash := f } : RingSink).flush.1.producer.frames,
        x.len = config.frameLen := by
      intro x hx
      rw [hpushed] at hx
      rcases List.mem_append.mp hx with hx | hx
      · exact hj.frames x hx
      · rw [List.mem_singleton.mp hx]
        exact hsink.stash
    refine ⟨_, _, hstored.turnA hs.separate hw hflushed hlens, ?_, hcapacity'⟩
    rw [hpushed, List.map_append, hframes,
      ← hp.sink_input h.runningA h.steadyA h.cellA ctx hlink hj.sink, hread]
    rfl

omit [KeepsLengths Q] [KeepsLengths R] in
theorem Staged.passB (hp : cut.Parted config g a b ready readyA readyB)
    (h : cut.Staged config g ready readyA readyB wholeA wholeB queue st) (ctx : ProcessContext)
    (rest : Edge × Nat → List (Option AudioFrame))
    (hnext : ∀ link ∈ cut.crossings g.edges, queue link =
      (wholeB.processCycle ctx).1.readOutput link.1.src.1 link.1.src.2 :: rest link) :
    cut.Staged config g ready readyA readyB wholeA
      (wholeB.drive (.processCycle ctx :: (cut.ownSinks g).map .flushSink)).1 rest
      (Bridge.run (cut.wires g.edges) st [.b (.processCycle ctx)]).1 := by
  have hs := hp.splits
  have hc := hp.runningB.compiled
  have hcycled := h.steadyB.step_drive measured_unit hc (.processCycle ctx)
  obtain ⟨hsteadyA, hkeptA⟩ :=
    handLeft_keeps (st.b.processCycle ctx).1 h.steadyA (cut.wires g.edges)
  have hpop : ∀ link ∈ cut.crossings g.edges, ∃ n k,
      Bridge.Joined readyA readyB (cut.wire link.2) config.frameLen
        (Bridge.run (cut.wires g.edges) st [.b (.processCycle ctx)]).1 n k ∧
      n.producer.frames.map some = rest link ∧ n.producer.capacity = cut.capacity link.2 ∧
      (st.b.processCycle ctx).1.readOutput (cut.wire link.2).source 0 =
        (wholeB.processCycle ctx).1.readOutput link.1.src.1 link.1.src.2 := by
    intro link hlink
    obtain ⟨n, k, hj, hframes, hcapacity⟩ := h.rings link hlink
    have hlens : ∀ f ∈ k.consumer.frames, f.len = config.frameLen := by
      rw [← hj.ring]
      exact hj.frames
    rw [hj.ring] at hframes hcapacity
    rw [hnext link hlink] at hframes
    obtain ⟨f, fs, hfs, hf, hrest⟩ := List.map_eq_cons_iff.mp hframes
    rcases hj.source.cycle hp.runningB hlens ctx with
      ⟨f', ring, hpopped, hread, hsource⟩ | ⟨hempty, -, -⟩
    · obtain ⟨hcapacity', hcons⟩ := RingBuffer.pop_eq_some hpopped
      rw [hfs, List.cons.injEq] at hcons
      obtain ⟨rfl, rfl⟩ := hcons
      refine ⟨_, _, hj.turnB hs.separate (mem_wires hlink) hsource fun x hx => ?_, hrest,
        hcapacity'.trans hcapacity, hread.trans hf⟩
      exact hlens x (by rw [hfs]; exact List.mem_cons_of_mem _ hx)
    · rw [(RingBuffer.pop_eq_none_iff _).mp hempty] at hfs
      cases hfs
  refine ⟨h.runningA, (h.runningB.after_cycle ctx).drive (flushes_run _), hsteadyA, hcycled,
    fun n m hn => ?_, fun n m hn => ?_, fun link hlink => ?_⟩
  · exact (h.cellA n m hn).trans (hkeptA m fun w hw => (hs.wire_new hw).1 hn).symm
  · refine (flushed_other hn).trans ?_
    refine hp.cycleB (h.runningB.steady measured_unit) h.steadyB h.cellB ctx (fun link hlink => ?_)
      hn
    obtain ⟨-, -, -, -, -, hread⟩ := hpop link hlink
    exact hread
  · obtain ⟨n, k, hj, hframes, hcapacity, -⟩ := hpop link hlink
    exact ⟨n, k, hj, hframes, hcapacity⟩

def inFlight (whole : Nat → Graph (DynNode Q) (DynSink R)) (i j : Nat) (link : Edge × Nat) :
    List (Option AudioFrame) :=
  (List.range' (j + 1) (i - j)).map fun t => (whole t).readOutput link.1.src.1 link.1.src.2

omit [AudioCore] [AudioNode Q] [SinkNode R] [KeepsContext Q] [KeepsContext R] [KeepsLengths Q]
  [KeepsLengths R] in
theorem inFlight_push {whole : Nat → Graph (DynNode Q) (DynSink R)} {i j : Nat} (h : j ≤ i)
    (link : Edge × Nat) :
    inFlight whole (i + 1) j link =
      inFlight whole i j link ++ [(whole (i + 1)).readOutput link.1.src.1 link.1.src.2] := by
  have hlen : i + 1 - j = i - j + 1 := by omega
  have hlast : j + 1 + (i - j) = i + 1 := by omega
  simp [inFlight, hlen, List.range'_concat, hlast]

omit [AudioCore] [AudioNode Q] [SinkNode R] [KeepsContext Q] [KeepsContext R] [KeepsLengths Q]
  [KeepsLengths R] in
theorem inFlight_pop {whole : Nat → Graph (DynNode Q) (DynSink R)} {i j : Nat} (h : j < i)
    (link : Edge × Nat) :
    inFlight whole i j link =
      (whole (j + 1)).readOutput link.1.src.1 link.1.src.2 :: inFlight whole i (j + 1) link := by
  have hlen : i - j = i - (j + 1) + 1 := by omega
  simp [inFlight, hlen, List.range'_succ]

section Rounds

variable {rounds : Nat → Round}

omit [KeepsContext Q] [KeepsContext R] [KeepsLengths Q] [KeepsLengths R] in
theorem wholeAt_succ (t : Nat) :
    cut.wholeAt g ready rounds (t + 1) =
      (((cut.wholeAt g ready rounds t).drive
        ((rounds t).feeds.map fun f => .feed f.1 f.2.1 f.2.2)).1.drive
          (.processCycle (rounds t).ctx :: (cut.ownSinks g).map .flushSink)).1 := by
  rw [wholeAt, Round.drives, List.append_assoc, drive_append]
  rfl

omit [KeepsContext Q] [KeepsContext R] [KeepsLengths Q] [KeepsLengths R] in
theorem wholeAt_output (t : Nat) (n : NodeId) (p : PortIdx) :
    (cut.wholeAt g ready rounds (t + 1)).readOutput n p =
      (((cut.wholeAt g ready rounds t).drive
        ((rounds t).feeds.map fun f => .feed f.1 f.2.1 f.2.2)).1.processCycle
          (rounds t).ctx).1.readOutput n p := by
  have hnodup : (cut.ownSinks g).Nodup := List.nodup_range.filter _
  rw [wholeAt_succ]
  exact flushes_readOutput _ hnodup n p

omit [KeepsContext Q] [KeepsContext R] [KeepsLengths Q] [KeepsLengths R] in
theorem Staged.congr {queue' : Edge × Nat → List (Option AudioFrame)}
    (h : cut.Staged config g ready readyA readyB wholeA wholeB queue st)
    (hq : ∀ link ∈ cut.crossings g.edges, queue link = queue' link) :
    cut.Staged config g ready readyA readyB wholeA wholeB queue' st :=
  { h with rings := fun link hlink => hq link hlink ▸ h.rings link hlink }

theorem Staged.roundA (hp : cut.Parted config g a b ready readyA readyB) {i j : Nat}
    (h : cut.Staged config g ready readyA readyB (cut.wholeAt g ready rounds i)
      (cut.wholeAt g ready rounds j) (inFlight (cut.wholeAt g ready rounds) i j) st)
    (hj : ∀ link ∈ cut.crossings g.edges, j ≤ i ∧ i < j + cut.capacity link.2) :
    cut.Staged config g ready readyA readyB (cut.wholeAt g ready rounds (i + 1))
      (cut.wholeAt g ready rounds j) (inFlight (cut.wholeAt g ready rounds) (i + 1) j)
      (Bridge.run (cut.wires g.edges) st (cut.share (rounds i) .a)).1 := by
  have hfed := h.feedsA hp (rounds i).feeds
  have hpass := hfed.passA hp (rounds i).ctx fun link hlink => by
    have hroom := hj link hlink
    simp only [inFlight, List.length_map, List.length_range']
    omega
  rw [← wholeAt_succ] at hpass
  rw [share, Bridge.run, Transition.run_append]
  refine hpass.congr fun link hlink => ?_
  rw [inFlight_push (hj link hlink).1, wholeAt_output]

omit [KeepsLengths Q] [KeepsLengths R] in
theorem Staged.roundB (hp : cut.Parted config g a b ready readyA readyB) {i j : Nat}
    (h : cut.Staged config g ready readyA readyB (cut.wholeAt g ready rounds i)
      (cut.wholeAt g ready rounds j) (inFlight (cut.wholeAt g ready rounds) i j) st)
    (hj : ∀ link ∈ cut.crossings g.edges, j < i) :
    cut.Staged config g ready readyA readyB (cut.wholeAt g ready rounds i)
      (cut.wholeAt g ready rounds (j + 1)) (inFlight (cut.wholeAt g ready rounds) i (j + 1))
      (Bridge.run (cut.wires g.edges) st (cut.share (rounds j) .b)).1 := by
  have hfed := h.feedsB hp (rounds j).feeds
  have hpass := hfed.passB hp (rounds j).ctx (inFlight (cut.wholeAt g ready rounds) i (j + 1))
    fun link hlink => by rw [inFlight_pop (hj link hlink), wholeAt_output]
  rw [← wholeAt_succ] at hpass
  rw [share, Bridge.run, Transition.run_append]
  exact hpass

theorem Staged.pipeline (hp : cut.Parted config g a b ready readyA readyB) {sides : List Side}
    {i j : Nat} (h : cut.Staged config g ready readyA readyB (cut.wholeAt g ready rounds i)
      (cut.wholeAt g ready rounds j) (inFlight (cut.wholeAt g ready rounds) i j) st)
    (hj : ∀ link ∈ cut.crossings g.edges, j ≤ i)
    (hsides : ∀ link ∈ cut.crossings g.edges, Within (cut.capacity link.2) i j sides) :
    cut.Staged config g ready readyA readyB
      (cut.wholeAt g ready rounds (i + sides.count .a))
      (cut.wholeAt g ready rounds (j + sides.count .b))
      (inFlight (cut.wholeAt g ready rounds) (i + sides.count .a) (j + sides.count .b))
      (Bridge.run (cut.wires g.edges) st (cut.pipeline rounds i j sides)).1 := by
  induction sides generalizing i j st with
  | nil => exact h
  | cons side sides ih =>
    cases side with
    | a =>
      have hround := h.roundA hp fun link hlink => ⟨hj link hlink, (hsides link hlink).1⟩
      have hrest := ih hround (fun link hlink => Nat.le_succ_of_le (hj link hlink))
        fun link hlink => (hsides link hlink).2
      have hcount : i + (Side.a :: sides).count .a = i + 1 + sides.count .a := by
        rw [List.count_cons_self]
        omega
      have hcount' : (Side.a :: sides).count .b = sides.count .b :=
        List.count_cons_of_ne (by decide)
      rw [hcount, hcount', Cut.pipeline, Bridge.run, Transition.run_append]
      exact hrest
    | b =>
      have hround := h.roundB hp fun link hlink => (hsides link hlink).1
      have hrest := ih hround (fun link hlink => (hsides link hlink).1)
        fun link hlink => (hsides link hlink).2
      have hcount : j + (Side.b :: sides).count .b = j + 1 + sides.count .b := by
        rw [List.count_cons_self]
        omega
      have hcount' : (Side.b :: sides).count .a = sides.count .a :=
        List.count_cons_of_ne (by decide)
      rw [hcount, hcount', Cut.pipeline, Bridge.run, Transition.run_append]
      exact hrest

theorem pipelined_run (hg : Built g) (ha : Built a) (hb : Built b)
    (hs : cut.Splits config g a b) (hready : g.compile config = (ready, .ok ())) :
    ∃ readyA readyB, a.compile config = (readyA, .ok ()) ∧ b.compile config = (readyB, .ok ()) ∧
      ∀ (rounds : Nat → Round) (sides : List Side),
        (∀ link ∈ cut.crossings g.edges, Within (cut.capacity link.2) 0 0 sides) →
        let parts := (Bridge.run (cut.wires g.edges) ⟨readyA, readyB⟩
          (cut.pipeline rounds 0 0 sides)).1
        (∀ n m, cut.place n = some (.a m) → parts.a.scratch.cells m =
          (cut.wholeAt g ready rounds (sides.count .a)).scratch.cells n) ∧
        (∀ n m, cut.place n = some (.b m) → parts.b.scratch.cells m =
          (cut.wholeAt g ready rounds (sides.count .b)).scratch.cells n) ∧
        ∀ link ∈ cut.crossings g.edges, ∃ n k,
          parts.a.sinkAt (cut.wire link.2).sink = some n ∧
          parts.b.sourceAt (cut.wire link.2).source = some k ∧ n.producer = k.consumer ∧
          n.producer.frames.map some =
            inFlight (cut.wholeAt g ready rounds) (sides.count .a) (sides.count .b) link := by
  obtain ⟨readyA, readyB, hreadyA, hreadyB⟩ := hs.compiles hg ha hb hready
  have hp : cut.Parted config g a b ready readyA readyB :=
    ⟨hs, hg, ha, hb, hready, hreadyA, hreadyB⟩
  refine ⟨readyA, readyB, hreadyA, hreadyB, fun rounds sides hsides => ?_⟩
  have hstart : cut.Staged config g ready readyA readyB (cut.wholeAt g ready rounds 0)
      (cut.wholeAt g ready rounds 0) (inFlight (cut.wholeAt g ready rounds) 0 0)
      ⟨readyA, readyB⟩ := hp.staged
  have hend := hstart.pipeline hp (fun _ _ => Nat.le_refl 0) hsides
  simp only [Nat.zero_add] at hend
  refine ⟨fun n m hn => (hend.cellA n m hn).symm, fun n m hn => (hend.cellB n m hn).symm,
    fun link hlink => ?_⟩
  obtain ⟨n, k, hj, hframes, -⟩ := hend.rings link hlink
  exact ⟨n, k, sinkAt_eq_some.mpr hj.sink.node, sourceAt_eq_some.mpr hj.source.node, hj.ring,
    hframes⟩

end Rounds

end Cut

end

namespace Sample

-- `a` is a round ahead when the run ends, so one frame is left on the way.
def sides : List Side := [.a, .b, .a]

end Sample

open PlainCore Sample in
theorem pipelined_run_sample :
    ∃ (readyA readyB : Whole)
      (parts : Bridge (DynNode RingSource) RingSink RingSource (DynSink RingSink)) (n : RingSink),
      partA.compile config = (readyA, .ok ()) ∧ partB.compile config = (readyB, .ok ()) ∧
      parts = (Bridge.run [⟨2, 0⟩] ⟨readyA, readyB⟩
        (cut.pipeline (fun _ => ⟨[], ()⟩) 0 0 sides)).1 ∧
      parts.b.scratch.cells 1 = (cut.wholeAt whole (whole.compile config).1
        (fun _ => ⟨[], ()⟩) 1).scratch.cells 2 ∧
      parts.a.sinkAt 2 = some n ∧ n.producer.frames.length = 1 := by
  have hsides : ∀ link ∈ cut.crossings whole.edges, Cut.Within (cut.capacity link.2) 0 0 sides :=
    fun _ _ => ⟨Nat.zero_lt_one, Nat.zero_lt_one, Nat.lt_succ_self 1, trivial⟩
  obtain ⟨readyA, readyB, hreadyA, hreadyB, hrun⟩ :=
    Cut.pipelined_run whole_built partA_built partB_built cut_splits rfl
  obtain ⟨-, hcells, hrings⟩ := hrun (fun _ => ⟨[], ()⟩) sides hsides
  have hcross : (⟨⟨(0, 0), (2, 0)⟩, 1⟩ : Edge × Nat) ∈ cut.crossings whole.edges := by decide
  obtain ⟨n, k, hn, -, -, hframes⟩ := hrings _ hcross
  refine ⟨readyA, readyB, _, n, hreadyA, hreadyB, rfl, hcells 2 1 rfl, hn, ?_⟩
  have hlen := congrArg List.length hframes
  simpa [Cut.inFlight, sides] using hlen

end AudioGraph
