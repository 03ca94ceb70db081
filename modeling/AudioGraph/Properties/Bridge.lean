import AudioGraph.Engine.Bridge
import AudioGraph.Properties.Dataflow

namespace AudioGraph

open BoundedFifo Handoff

section

variable [AudioCore] {P R Q S : Type} [AudioNode P] [SinkNode R] [AudioNode Q] [SinkNode S]

namespace Graph

structure SinkSide (ready : Graph P (DynSink R)) (sink : NodeId) (len : Nat)
    (g : Graph P (DynSink R)) (n : RingSink) : Prop where
  steady : Steady (fun _ => ()) ready g
  node : g.scratch.nodes[sink]? = some (.sink (.ringSink n))
  input : ∃ f, g.scratch.inputScratch[sink]? = some [f] ∧ f.len = len
  stash : n.stash.len = len

structure SourceSide (ready : Graph (DynNode Q) S) (source : NodeId) (len : Nat)
    (g : Graph (DynNode Q) S) (n : RingSource) : Prop where
  steady : Steady (fun _ => ()) ready g
  node : g.scratch.nodes[source]? = some (.plain (.ringSource n))
  output : ∃ f, g.scratch.outputScratch[source]? = some [f] ∧ f.len = len
  last : n.last.len = len

section Sink

variable {config : GraphConfig} {ready g : Graph P (DynSink R)} {sink : NodeId} {len : Nat}
  {n : RingSink}

theorem SinkSide.cycle (hr : Running config ready ready) (h : SinkSide ready sink len g n)
    (ctx : ProcessContext) :
    ∃ f, (g.processCycle ctx).1.readInput sink 0 = some f ∧
      SinkSide ready sink len (g.processCycle ctx).1 { n with stash := f } := by
  obtain ⟨built, -, hc⟩ := hr.built
  have hlt : sink < g.nodeCount := (List.getElem?_eq_some_iff.mp h.node).1
  obtain ⟨c, rfl, hsync⟩ := h.steady.exists_call hc ctx hlt
  obtain ⟨f₀, hin, hlen⟩ := h.input
  have hslot : c.slot = .sink (.ringSink n) := Option.some.inj (hsync.state.symm.trans h.node)
  have hlens := congrArg (fun t => t[c.node]?) (processCycle_input_lens g ctx)
  simp only [getElem?_rows, hin, hsync.received, Option.map_some, List.map_cons, List.map_nil,
    hlen, Option.some.injEq, List.map_eq_cons_iff, List.map_eq_nil_iff] at hlens
  obtain ⟨f, _, hins, hflen, rfl⟩ := hlens
  have hnext := hsync.next_state
  rw [Call.result, hslot, hins] at hnext
  have hcopy : n.stash.copyFrom f = f :=
    AudioFrame.copyFrom_of_len_eq (hflen.trans h.stash.symm)
  have hreceived := hsync.received
  rw [hins] at hreceived
  refine ⟨f, ?_, h.steady.step_drive measured_unit hr.compiled (.processCycle ctx), ?_,
    ⟨f, hreceived, hflen⟩, hflen⟩
  · simp [readInput, frameAt, hreceived]
  · rw [← hcopy]
    exact hnext

theorem SinkSide.feed (h : SinkSide ready sink len g n) (hc : ready.compiled = true)
    (node : NodeId) (port : PortIdx) (src : AudioFrame) :
    SinkSide ready sink len (g.feed node port src) n := by
  have hins : (g.feed node port src).scratch.inputScratch = g.scratch.inputScratch := by
    unfold Graph.feed
    split
    · rfl
    · split <;> rfl
  refine ⟨h.steady.step_drive measured_unit hc (.feed node port src), ?_, ?_, h.stash⟩
  · rw [feed_nodes]
    exact h.node
  · rw [hins]
    exact h.input

theorem SinkSide.flushSinks (h : SinkSide ready sink len g n) (hc : ready.compiled = true) :
    SinkSide ready sink len g.flushSinks.1 n.flush.1 := by
  refine ⟨h.steady.step_drive measured_unit hc .flushSinks, ?_, ?_, ?_⟩
  · rw [flushSinks_eq]
    simp only [List.getElem?_map, h.node]
    rfl
  · rw [flushSinks_eq]
    exact h.input
  · rw [RingSink.flush_stash]
    exact h.stash

theorem SinkSide.flushSink (h : SinkSide ready sink len g n) (hc : ready.compiled = true)
    (node : NodeId) :
    SinkSide ready sink len (g.flushSink node).1 (if node = sink then n.flush.1 else n) := by
  have hsteady := h.steady.step_drive measured_unit hc (.flushSink node)
  have hins : (g.flushSink node).1.scratch.inputScratch = g.scratch.inputScratch := by
    rw [flushSink_eq]
  refine ⟨hsteady, ?_, by rw [hins]; exact h.input, ?_⟩
  · rw [flushSink_nodes]
    by_cases hnode : node = sink
    · subst hnode
      rw [List.getElem?_modify_eq, h.node, if_pos rfl]
      rfl
    · rw [List.getElem?_modify_ne _ _ hnode, if_neg hnode]
      exact h.node
  · by_cases hnode : node = sink
    · rw [if_pos hnode, RingSink.flush_stash]
      exact h.stash
    · rw [if_neg hnode]
      exact h.stash

omit [AudioCore] [AudioNode P] [SinkNode R] in
theorem SinkSide.setProducer (h : SinkSide ready sink len g n) (id : NodeId)
    (ring : RingBuffer AudioFrame) :
    SinkSide ready sink len (g.setProducer id ring)
      (if id = sink then { n with producer := ring } else n) := by
  have hnode : (g.setProducer id ring).scratch.nodes[sink]? =
      some (.sink (.ringSink (if id = sink then { n with producer := ring } else n))) := by
    by_cases hid : id = sink
    · subst hid
      simp [Graph.setProducer, h.node]
    · simp [Graph.setProducer, hid, h.node]
  refine ⟨h.steady.setNodes (by simp), hnode, h.input, ?_⟩
  split <;> exact h.stash

omit [AudioCore] [AudioNode P] [SinkNode R] in
theorem SinkSide.handLeft (h : SinkSide ready sink len g n) (b : Graph (DynNode Q) S) (w : Wire)
    (hw : w.sink ≠ sink) : SinkSide ready sink len (handLeft b g w) n := by
  unfold AudioGraph.handLeft
  split
  · have hset := h.setProducer w.sink
    simpa [hw] using hset _
  · exact h

omit [AudioCore] [AudioNode P] [SinkNode R] in
theorem SinkSide.handLeft_all {wires : List Wire} {w : Wire} {b : Graph (DynNode Q) S}
    {k : RingSource} (h : SinkSide ready w.sink len g n) (hs : Separate wires) (hw : w ∈ wires)
    (hk : b.scratch.nodes[w.source]? = some (.plain (.ringSource k))) :
    SinkSide ready w.sink len (wires.foldl (AudioGraph.handLeft b) g)
      { n with producer := k.consumer } := by
  have hother : ∀ m g', ∀ v ∈ wires, v ≠ w → SinkSide ready w.sink len g' m →
      SinkSide ready w.sink len (AudioGraph.handLeft b g' v) m :=
    fun m g' v hv hne hg => hg.handLeft b v (hs.sink_ne hv hw hne)
  have hself : ∀ g', SinkSide ready w.sink len g' n →
      SinkSide ready w.sink len (AudioGraph.handLeft b g' w) { n with producer := k.consumer } := by
    intro g' hg
    have hset := hg.setProducer w.sink k.consumer
    simpa [AudioGraph.handLeft, sourceAt_eq_some.mpr hk] using hset
  exact Transition.foldl_once (p := fun g' => SinkSide ready w.sink len g' n)
    (q := fun g' => SinkSide ready w.sink len g' { n with producer := k.consumer })
    hs.nodup hw (hother _) hself (hother _) h

theorem SinkSide.compile (h : SinkSide ready sink len g n) (hc : ready.compiled = true)
    (config : GraphConfig) : SinkSide ready sink len (g.compile config).1 n := by
  rw [compile_of_compiled (h.steady.compiled hc)]
  exact h

end Sink

section Source

variable {config : GraphConfig} {ready g : Graph (DynNode Q) S} {source : NodeId} {len : Nat}
  {n : RingSource}

theorem SourceSide.cycle (hr : Running config ready ready) (h : SourceSide ready source len g n)
    (hring : ∀ f ∈ n.consumer.frames, f.len = len) (ctx : ProcessContext) :
    (∃ f ring, n.consumer.pop = some (f, ring) ∧
      (g.processCycle ctx).1.readOutput source 0 = some f ∧
      SourceSide ready source len (g.processCycle ctx).1
        { n with consumer := ring, last := f }) ∨
    n.consumer.pop = none ∧ (g.processCycle ctx).1.readOutput source 0 = some n.last ∧
      SourceSide ready source len (g.processCycle ctx).1 n := by
  obtain ⟨built, -, hc⟩ := hr.built
  have hlt : source < g.nodeCount := (List.getElem?_eq_some_iff.mp h.node).1
  obtain ⟨c, rfl, hsync⟩ := h.steady.exists_call hc ctx hlt
  obtain ⟨out, hout, hlen⟩ := h.output
  have hslot : c.slot = .plain (.ringSource n) := Option.some.inj (hsync.state.symm.trans h.node)
  have houts : c.outFrames = [out] := Option.some.inj (hsync.outputs.symm.trans hout)
  have hsteady := h.steady.step_drive measured_unit hr.compiled (.processCycle ctx)
  have hnext := hsync.next_state
  have hnextOut := hsync.next_outputs
  have hresult : c.result = ((n.process c.ctx c.inFrames [out]).map .ringSource).map .plain := by
    rw [Call.result, hslot, houts]
    rfl
  rw [hresult] at hnext hnextOut
  cases hpop : n.consumer.pop with
  | some popped =>
    obtain ⟨f, ring⟩ := popped
    have hf : f.len = len := by
      refine hring f ?_
      rw [(RingBuffer.pop_eq_some hpop).2]
      exact List.mem_cons_self
    rw [RingSource.process_of_pop hpop] at hnext hnextOut
    simp only [Processed.map, AudioFrame.copyFrom_of_len_eq (hf.trans hlen.symm),
      AudioFrame.copyFrom_of_len_eq (hf.trans h.last.symm)] at hnext hnextOut
    refine Or.inl ⟨f, ring, rfl, ?_, hsteady, hnext, ⟨f, hnextOut, hf⟩, hf⟩
    simp [readOutput, frameAt, hnextOut]
  | none =>
    rw [RingSource.process_of_empty hpop] at hnext hnextOut
    simp only [Processed.map, AudioFrame.copyFrom_of_len_eq (h.last.trans hlen.symm)]
      at hnext hnextOut
    refine Or.inr ⟨rfl, ?_, hsteady, hnext, ⟨n.last, hnextOut, h.last⟩, h.last⟩
    simp [readOutput, frameAt, hnextOut]

theorem SourceSide.compile (h : SourceSide ready source len g n) (hc : ready.compiled = true)
    (config : GraphConfig) : SourceSide ready source len (g.compile config).1 n := by
  rw [compile_of_compiled (h.steady.compiled hc)]
  exact h

theorem SourceSide.feed (h : SourceSide ready source len g n) (hc : ready.compiled = true)
    {node : NodeId} {port : PortIdx} (hne : ¬ (node = source ∧ port = 0)) (src : AudioFrame) :
    SourceSide ready source len (g.feed node port src) n := by
  refine ⟨h.steady.step_drive measured_unit hc (.feed node port src), ?_, ?_, h.last⟩
  · rw [feed_nodes]
    exact h.node
  · obtain ⟨f, hf, hlen⟩ := h.output
    refine ⟨f, ?_, hlen⟩
    by_cases hnode : node = source
    · subst hnode
      have hport : [f][port]? = none := by
        cases port with
        | zero => exact absurd ⟨rfl, rfl⟩ hne
        | succ port => rfl
      simp [Graph.feed, hf, hport]
    · unfold Graph.feed
      split
      · exact hf
      · split
        · exact hf
        · simpa [List.getElem?_set_ne hnode] using hf

theorem SourceSide.flushSinks (h : SourceSide ready source len g n)
    (hc : ready.compiled = true) : SourceSide ready source len g.flushSinks.1 n := by
  have houts : g.flushSinks.1.scratch.outputScratch = g.scratch.outputScratch := by
    rw [flushSinks_eq]
  refine ⟨h.steady.step_drive measured_unit hc .flushSinks, ?_, by rw [houts]; exact h.output,
    h.last⟩
  rw [flushSinks_eq]
  simp only [List.getElem?_map, h.node]
  rfl

theorem SourceSide.flushSink (h : SourceSide ready source len g n) (hc : ready.compiled = true)
    (node : NodeId) : SourceSide ready source len (g.flushSink node).1 n := by
  have houts : (g.flushSink node).1.scratch.outputScratch = g.scratch.outputScratch := by
    rw [flushSink_eq]
  refine ⟨h.steady.step_drive measured_unit hc (.flushSink node), ?_, by rw [houts]; exact h.output,
    h.last⟩
  rw [flushSink_nodes, List.getElem?_modify, h.node]
  split <;> rfl

omit [AudioCore] [AudioNode Q] [SinkNode S] in
theorem SourceSide.setConsumer (h : SourceSide ready source len g n) (id : NodeId)
    (ring : RingBuffer AudioFrame) :
    SourceSide ready source len (g.setConsumer id ring)
      (if id = source then { n with consumer := ring } else n) := by
  have hnode : (g.setConsumer id ring).scratch.nodes[source]? =
      some (.plain (.ringSource (if id = source then { n with consumer := ring } else n))) := by
    by_cases hid : id = source
    · subst hid
      simp [Graph.setConsumer, h.node]
    · simp [Graph.setConsumer, hid, h.node]
  refine ⟨h.steady.setNodes (by simp), hnode, h.output, ?_⟩
  split <;> exact h.last

omit [AudioCore] [AudioNode Q] [SinkNode S] in
theorem SourceSide.handRight (h : SourceSide ready source len g n) (a : Graph P (DynSink R))
    (w : Wire) (hw : w.source ≠ source) : SourceSide ready source len (handRight a g w) n := by
  unfold AudioGraph.handRight
  split
  · have hset := h.setConsumer w.source
    simpa [hw] using hset _
  · exact h

omit [AudioCore] [AudioNode Q] [SinkNode S] in
theorem SourceSide.handRight_all {wires : List Wire} {w : Wire} {a : Graph P (DynSink R)}
    {k : RingSink} (h : SourceSide ready w.source len g n) (hs : Separate wires) (hw : w ∈ wires)
    (hk : a.scratch.nodes[w.sink]? = some (.sink (.ringSink k))) :
    SourceSide ready w.source len (wires.foldl (AudioGraph.handRight a) g)
      { n with consumer := k.producer } := by
  have hother : ∀ m g', ∀ v ∈ wires, v ≠ w → SourceSide ready w.source len g' m →
      SourceSide ready w.source len (AudioGraph.handRight a g' v) m :=
    fun m g' v hv hne hg => hg.handRight a v (hs.source_ne hv hw hne)
  have hself : ∀ g', SourceSide ready w.source len g' n →
      SourceSide ready w.source len (AudioGraph.handRight a g' w)
        { n with consumer := k.producer } := by
    intro g' hg
    have hset := hg.setConsumer w.source k.producer
    simpa [AudioGraph.handRight, sinkAt_eq_some.mpr hk] using hset
  exact Transition.foldl_once (p := fun g' => SourceSide ready w.source len g' n)
    (q := fun g' => SourceSide ready w.source len g' { n with consumer := k.producer })
    hs.nodup hw (hother _) hself (hother _) h

end Source

end Graph

def Turn.feeds (source : NodeId) : Turn → Prop
  | .b (.feed node port _) => node = source ∧ port = 0
  | _ => False

namespace Bridge

open AudioGraph.Graph

structure Joined (readyA : Graph P (DynSink R)) (readyB : Graph (DynNode Q) S) (w : Wire)
    (len : Nat) (st : Bridge P R Q S) (n : RingSink) (k : RingSource) : Prop where
  sink : SinkSide readyA w.sink len st.a n
  source : SourceSide readyB w.source len st.b k
  ring : n.producer = k.consumer
  frames : ∀ f ∈ n.producer.frames, f.len = len

section Step

variable {configA configB : GraphConfig} {readyA : Graph P (DynSink R)}
  {readyB : Graph (DynNode Q) S} {wires : List Wire} {w : Wire} {len : Nat}
  {st : Bridge P R Q S} {n n' : RingSink} {k k' : RingSource}

omit [AudioCore] [AudioNode P] [SinkNode R] [AudioNode Q] [SinkNode S] in
theorem Joined.turnA (hs : Separate wires) (hw : w ∈ wires) (h : Joined readyA readyB w len st n k)
    {a : Graph P (DynSink R)} (ha : SinkSide readyA w.sink len a n')
    (hframes : ∀ f ∈ n'.producer.frames, f.len = len) :
    Joined readyA readyB w len ⟨a, wires.foldl (handRight a) st.b⟩ n'
      { k with consumer := n'.producer } :=
  ⟨ha, h.source.handRight_all hs hw ha.node, rfl, hframes⟩

omit [AudioCore] [AudioNode P] [SinkNode R] [AudioNode Q] [SinkNode S] in
theorem Joined.turnB (hs : Separate wires) (hw : w ∈ wires) (h : Joined readyA readyB w len st n k)
    {b : Graph (DynNode Q) S} (hb : SourceSide readyB w.source len b k')
    (hframes : ∀ f ∈ k'.consumer.frames, f.len = len) :
    Joined readyA readyB w len ⟨wires.foldl (handLeft b) st.a, b⟩
      { n with producer := k'.consumer } k' :=
  ⟨h.sink.handLeft_all hs hw hb.node, hb, rfl, hframes⟩

def handoff (n : RingSink) (k : RingSource) : Handoff.State AudioFrame :=
  ⟨n.producer, n.stash, k.last⟩

structure Moves (readyA : Graph P (DynSink R)) (readyB : Graph (DynNode Q) S) (w : Wire)
    (len : Nat) (st : Bridge P R Q S) (n : RingSink) (k : RingSource)
    (es : List (Event AudioFrame FlushError)) (kinds : List Kind) : Prop where
  moved : ∃ n' k', Joined readyA readyB w len st n' k' ∧
    Trace (.ringFull 1) (handoff n k) es (handoff n' k')
  kinds : es.map Event.kind = kinds

omit [AudioCore] [AudioNode P] [SinkNode R] [AudioNode Q] [SinkNode S] in
theorem Joined.flushed (hs : Separate wires) (hw : w ∈ wires)
    (h : Joined readyA readyB w len st n k) {a : Graph P (DynSink R)}
    (ha : SinkSide readyA w.sink len a n.flush.1) :
    Moves readyA readyB w len ⟨a, wires.foldl (handRight a) st.b⟩ n k
      [.flushed n.stash n.flush.2] [.flush] := by
  refine ⟨?_, rfl⟩
  rcases n.flush_cases with ⟨ring, hpush, heq⟩ | ⟨hpush, heq⟩
  · rw [heq] at ha ⊢
    refine ⟨_, _, h.turnA hs hw ha fun f hf => ?_, (Step.flush hpush).trace⟩
    rw [(RingBuffer.push_eq_some hpush).2] at hf
    rcases List.mem_append.mp hf with hf | hf
    · exact h.frames f hf
    · rw [List.mem_singleton.mp hf]
      exact h.sink.stash
  · rw [heq] at ha ⊢
    exact ⟨_, _, h.turnA hs hw ha h.frames, (Step.refuse hpush).trace⟩

theorem Joined.stepA (hr : Running configA readyA readyA) (hs : Separate wires) (hw : w ∈ wires)
    (h : Joined readyA readyB w len st n k) (d : Drive) :
    Moves readyA readyB w len (step wires st (.a d)).1 n k
      (sinkEvents w.sink st.a (step wires st (.a d)).1.a d) (Turn.kind w (.a d)).toList := by
  have hidle : ∀ {a : Graph P (DynSink R)}, SinkSide readyA w.sink len a n →
      Moves readyA readyB w len ⟨a, wires.foldl (handRight a) st.b⟩ n k [] [] :=
    fun ha => ⟨⟨_, _, h.turnA hs hw ha h.frames, .nil _⟩, rfl⟩
  have hat := sinkAt_eq_some.mpr h.sink.node
  cases d with
  | compile config => exact hidle (h.sink.compile hr.compiled config)
  | feed node port src => exact hidle (h.sink.feed hr.compiled node port src)
  | flushSinks =>
    simp only [sinkEvents, hat, Option.toList_some, List.map_cons, List.map_nil]
    exact h.flushed hs hw (h.sink.flushSinks hr.compiled)
  | flushSink node =>
    have hsink := h.sink.flushSink hr.compiled node
    by_cases hnode : node = w.sink
    · rw [if_pos hnode] at hsink
      simp only [sinkEvents, hat, Turn.kind, if_pos hnode, Option.toList_some, List.map_cons,
        List.map_nil]
      exact h.flushed hs hw hsink
    · rw [if_neg hnode] at hsink
      simp only [sinkEvents, Turn.kind, if_neg hnode, Option.toList_none]
      exact hidle hsink
  | processCycle ctx =>
    obtain ⟨f, hread, hsink⟩ := h.sink.cycle hr ctx
    have hmoved : Moves readyA readyB w len (step wires st (.a (.processCycle ctx))).1 n k
        [.stored f] [.store] :=
      ⟨⟨_, _, h.turnA hs hw hsink h.frames, (Step.store (handoff n k) f).trace⟩, rfl⟩
    have hevents : sinkEvents w.sink st.a (step wires st (.a (.processCycle ctx))).1.a
        (.processCycle ctx) = [.stored f] := by
      change ((st.a.processCycle ctx).1.readInput w.sink 0).toList.map _ = _
      rw [hread]
      rfl
    rw [hevents]
    exact hmoved

theorem Joined.stepB (hr : Running configB readyB readyB) (hs : Separate wires) (hw : w ∈ wires)
    (h : Joined readyA readyB w len st n k) {d : Drive} (hd : ¬ Turn.feeds w.source (.b d)) :
    Moves readyA readyB w len (step wires st (.b d)).1 n k
      (sourceEvents w.source st.b (step wires st (.b d)).1.b d) (Turn.kind w (.b d)).toList := by
  have hframes : ∀ f ∈ k.consumer.frames, f.len = len := by
    rw [← h.ring]
    exact h.frames
  have hidle : ∀ {b : Graph (DynNode Q) S}, SourceSide readyB w.source len b k →
      Moves readyA readyB w len ⟨wires.foldl (handLeft b) st.a, b⟩ n k [] [] := by
    intro b hb
    refine ⟨⟨_, _, h.turnB hs hw hb hframes, ?_⟩, rfl⟩
    rw [← h.ring]
    exact .nil _
  have hat := sourceAt_eq_some.mpr h.source.node
  cases d with
  | compile config => exact hidle (h.source.compile hr.compiled config)
  | feed node port src => exact hidle (h.source.feed hr.compiled hd src)
  | flushSinks => exact hidle (h.source.flushSinks hr.compiled)
  | flushSink node => exact hidle (h.source.flushSink hr.compiled node)
  | processCycle ctx =>
    have hevents : ∀ {f}, (st.b.processCycle ctx).1.readOutput w.source 0 = some f →
        sourceEvents w.source st.b (step wires st (.b (.processCycle ctx))).1.b
          (.processCycle ctx) = [.played f k.consumer.pop.isSome] := by
      intro f hf
      change ((st.b.processCycle ctx).1.readOutput w.source 0).toList.map _ = _
      rw [hf, hat]
      rfl
    rcases h.source.cycle hr hframes ctx with
      ⟨f, ring, hpop, hread, hsource⟩ | ⟨hpop, hread, hsource⟩
    · rw [hevents hread, hpop]
      refine ⟨⟨_, _, h.turnB hs hw hsource fun g hg => hframes g ?_, ?_⟩, rfl⟩
      · rw [(RingBuffer.pop_eq_some hpop).2]
        exact List.mem_cons_of_mem _ hg
      · rw [← h.ring] at hpop
        exact (Step.pop (s := handoff n k) hpop).trace
    · rw [hevents hread, hpop]
      refine ⟨⟨_, _, h.turnB hs hw hsource hframes, ?_⟩, rfl⟩
      rw [← h.ring] at hpop
      have hstep : Step (FlushError.ringFull 1) (handoff n k) (.played k.last false)
          (handoff n k) := .hold hpop
      rw [← h.ring]
      exact hstep.trace

theorem history_append (st : Bridge P R Q S) (ts us : List Turn) :
    history wires w st (ts ++ us) =
      history wires w st ts ++ history wires w (run wires st ts).1 us := by
  induction ts generalizing st with
  | nil => rfl
  | cons t ts ih =>
    rw [List.cons_append, history, ih, history, List.append_assoc]
    rfl

theorem Joined.run (hrA : Running configA readyA readyA) (hrB : Running configB readyB readyB)
    (hs : Separate wires) (hw : w ∈ wires) (h : Joined readyA readyB w len st n k)
    {turns : List Turn} (hturns : ∀ t ∈ turns, ¬ t.feeds w.source) :
    Moves readyA readyB w len (run wires st turns).1 n k (history wires w st turns)
      (turns.filterMap (Turn.kind w)) := by
  induction turns generalizing st n k with
  | nil => exact ⟨⟨n, k, h, .nil _⟩, rfl⟩
  | cons t turns ih =>
    have hstep : Moves readyA readyB w len (step wires st t).1 n k
        (events w st (step wires st t).1 t) (t.kind w).toList := by
      cases t with
      | a d => exact h.stepA hrA hs hw d
      | b d => exact h.stepB hrB hs hw (hturns _ (by simp))
    obtain ⟨⟨n₁, k₁, hjoined, htrace⟩, hkinds⟩ := hstep
    obtain ⟨⟨n₂, k₂, hend, hrest⟩, hkinds'⟩ := ih hjoined fun u hu => hturns u (by simp [hu])
    refine ⟨⟨n₂, k₂, hend, htrace.append hrest⟩, ?_⟩
    rw [history, List.map_append, hkinds, hkinds', List.filterMap_cons]
    cases t.kind w <;> rfl

theorem Joined.pass (hrA : Running configA readyA readyA) (hrB : Running configB readyB readyB)
    (hs : Separate wires) (hw : w ∈ wires) (h : Joined readyA readyB w len st n k)
    (hempty : n.producer.frames = []) (hcapacity : 0 < n.producer.capacity) (ctx : ProcessContext) :
    ∃ (f : AudioFrame) (m n' : RingSink) (k' : RingSource),
      (st.a.processCycle ctx).1.readInput w.sink 0 = some f ∧
      (st.a.processCycle ctx).1.sinkAt w.sink = some m ∧ m.flush.2 = .ok () ∧
      (Bridge.run wires st (Turn.pass ctx)).1.b.readOutput w.source 0 = some f ∧
      Joined readyA readyB w len (Bridge.run wires st (Turn.pass ctx)).1 n' k' ∧
      n'.producer.frames = [] ∧ n'.producer.capacity = n.producer.capacity ∧
      refused (history wires w st (Turn.pass ctx)) = [] := by
  have hturns : ∀ t ∈ Turn.pass ctx, ¬ t.feeds w.source := by simp [Turn.pass, Turn.feeds]
  obtain ⟨⟨n', k', hjoined, htrace⟩, hkinds⟩ := h.run hrA hrB hs hw hturns
  obtain ⟨popped, hhistory⟩ : ∃ popped : Bool, history wires w st (Turn.pass ctx) =
      ((st.a.processCycle ctx).1.readInput w.sink 0).toList.map .stored ++
        (((st.a.processCycle ctx).1.sinkAt w.sink).toList.map
            (fun m => .flushed m.stash m.flush.2) ++
          (((Bridge.run wires st (Turn.pass ctx)).1.b.readOutput w.source 0).toList.map
            (fun f => .played f popped) ++ [])) := ⟨_, rfl⟩
  rw [hhistory] at hkinds htrace
  have hthree : (Turn.pass ctx).filterMap (Turn.kind w) = [.store, .flush, .play] := rfl
  rw [hthree] at hkinds
  cases hin : (st.a.processCycle ctx).1.readInput w.sink 0 <;>
  cases hsink : (st.a.processCycle ctx).1.sinkAt w.sink <;>
  cases hout : (Bridge.run wires st (Turn.pass ctx)).1.b.readOutput w.source 0 <;>
  simp [hin, hsink, hout, Event.kind] at hkinds
  rename_i f m played
  simp only [hin, hsink, hout, Option.toList_some, List.map_cons, List.map_nil, List.cons_append,
    List.nil_append] at htrace hhistory
  obtain ⟨hflush, hplayed, hempty', hcapacity'⟩ := htrace.round hempty hcapacity
  refine ⟨f, m, n', k', rfl, rfl, hflush, by rw [hplayed], hjoined, hempty', hcapacity', ?_⟩
  rw [hhistory, hflush]
  rfl

theorem Joined.start (hrA : Running configA readyA readyA) (hrB : Running configB readyB readyB)
    (hsink : readyA.scratch.nodes[w.sink]? = some (.sink (.ringSink n)))
    (hsource : readyB.scratch.nodes[w.source]? = some (.plain (.ringSource k)))
    (hring : n.producer = k.consumer) (hempty : n.producer.frames = [])
    (hstash : n.stash.len = configA.frameLen) (hlast : k.last.len = configA.frameLen)
    (hsame : configB.frameLen = configA.frameLen) :
    Joined readyA readyB w configA.frameLen ⟨readyA, readyB⟩ n k := by
  refine ⟨⟨Steady.refl _ _, hsink, ?_, hstash⟩, ⟨Steady.refl _ _, hsource, ?_, hlast⟩, hring, ?_⟩
  · obtain ⟨built, -, hc⟩ := hrA.built
    rw [hc.nodes] at hsink
    refine ⟨silence configA.channels configA.numFrames configA.sampleRate, ?_, silence_len _ _ _⟩
    rw [hc.inputs, List.getElem?_map, hsink]
    rfl
  · obtain ⟨built, -, hc⟩ := hrB.built
    rw [hc.nodes] at hsource
    rw [← hsame]
    refine ⟨silence configB.channels configB.numFrames configB.sampleRate, ?_, silence_len _ _ _⟩
    rw [hc.outputs, List.getElem?_map, hsource]
    rfl
  · rw [hempty]
    exact fun f hf => absurd hf List.not_mem_nil

theorem bridge_lossless (hrA : Running configA readyA readyA)
    (hrB : Running configB readyB readyB) (hs : Separate wires) (hw : w ∈ wires) {c : Nat}
    {channelsA channelsB : UInt16} {rateA rateB : UInt32} {framesA framesB : Nat}
    (hsink : readyA.scratch.nodes[w.sink]? =
      some (.sink (.ringSink (RingSink.new (RingBuffer.new c) channelsA rateA framesA))))
    (hsource : readyB.scratch.nodes[w.source]? =
      some (.plain (.ringSource (RingSource.new (RingBuffer.new c) channelsB rateB framesB))))
    (hstash : channelsA.toNat * framesA = configA.frameLen)
    (hlast : channelsB.toNat * framesB = configA.frameLen)
    (hsame : configB.frameLen = configA.frameLen) {turns : List Turn}
    (hturns : ∀ t ∈ turns, ¬ t.feeds w.source) :
    ∃ n k, (run wires ⟨readyA, readyB⟩ turns).1.a.sinkAt w.sink = some n ∧
      (run wires ⟨readyA, readyB⟩ turns).1.b.sourceAt w.source = some k ∧
      n.producer = k.consumer ∧
      (history wires w ⟨readyA, readyB⟩ turns).map Event.kind = turns.filterMap (Turn.kind w) ∧
      Lossless (.ringFull 1) c (silence channelsB framesB rateB) n.producer
        (history wires w ⟨readyA, readyB⟩ turns) := by
  have hstart := Joined.start hrA hrB hsink hsource rfl rfl
    ((silence_len _ _ _).trans hstash) ((silence_len _ _ _).trans hlast) hsame
  obtain ⟨⟨n, k, hjoined, htrace⟩, hkinds⟩ := hstart.run hrA hrB hs hw hturns
  exact ⟨n, k, sinkAt_eq_some.mpr hjoined.sink.node, sourceAt_eq_some.mpr hjoined.source.node,
    hjoined.ring, hkinds, htrace.lossless rfl⟩

end Step

end Bridge

end

namespace Sample

open PlainCore

def sender : List (Op RingSource (DynSink RingSink)) :=
  [.addNode source, .addSink (.ringSink (RingSink.new (RingBuffer.new 1) 1 48000 2)),
    .link (0, 0) (1, 0)]

def senderReady : Graph RingSource (DynSink RingSink) :=
  ((Graph.new.run sender).1.compile config).1

def receiver : List (Op (DynNode RingSource) RingSink) :=
  [.addNode (.ringSource (RingSource.new (RingBuffer.new 1) 1 48000 2)), .addSink sink,
    .link (0, 0) (1, 0)]

def receiverReady : Graph (DynNode RingSource) RingSink :=
  ((Graph.new.run receiver).1.compile config).1

theorem sender_running : Graph.Running config senderReady senderReady :=
  .refl ⟨sender, by simp [sender, Op.builds], rfl⟩ rfl

theorem receiver_running : Graph.Running config receiverReady receiverReady :=
  .refl ⟨receiver, by simp [receiver, Op.builds], rfl⟩ rfl

-- The second flush finds the ring full, the second cycle of the receiver finds it empty.
def turns : List Turn :=
  [.a (.processCycle ()), .a .flushSinks, .a (.flushSink 1), .b (.processCycle ()),
    .b (.processCycle ())]

end Sample

open PlainCore Sample in
theorem bridge_lossless_sample :
    ∃ n : RingSink,
      (Bridge.run [⟨1, 0⟩] ⟨senderReady, receiverReady⟩ turns).1.a.sinkAt 1 = some n ∧
        Lossless (.ringFull 1) 1 (silence 1 2 48000) n.producer
          (Bridge.history [⟨1, 0⟩] ⟨1, 0⟩ ⟨senderReady, receiverReady⟩ turns) ∧
        pushed (Bridge.history [⟨1, 0⟩] ⟨1, 0⟩ ⟨senderReady, receiverReady⟩ turns) = [frame] := by
  have hs : Separate [⟨1, 0⟩] := ⟨by decide, by decide⟩
  have hturns : ∀ t ∈ turns, ¬ t.feeds 0 := by simp [turns, Turn.feeds]
  obtain ⟨n, -, hn, -, -, -, hlossless⟩ := Bridge.bridge_lossless (w := ⟨1, 0⟩) (c := 1)
    sender_running receiver_running hs (by simp) rfl rfl rfl rfl rfl hturns
  exact ⟨n, hn, hlossless, by decide⟩

end AudioGraph
