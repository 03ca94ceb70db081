import AudioGraph.Engine.Ring
import AudioGraph.Properties.Wiring

namespace AudioGraph

open Dependency

def GraphConfig.frameLen (config : GraphConfig) : Nat := config.channels.toNat * config.numFrames

section

variable [AudioCore] {P S τ : Type} [AudioNode P] [SinkNode S] {measure : AudioFrame → τ}
  {config : GraphConfig}

namespace Graph

variable {ready g : Graph P S}

theorem Running.built (h : Running config ready g) :
    ∃ built : Graph P S, Wired built ∧ Compiled config built ready := by
  obtain ⟨built, hbuilt, hcompile⟩ := h.compiles
  exact ⟨built, hbuilt.wired, compiled_of_compile hcompile⟩

theorem Running.steady (hm : Measured measure P S) (h : Running config ready g) :
    Steady measure ready g := by
  obtain ⟨ops, hops, rfl⟩ := h.runs
  exact Steady.run hm ready hops

theorem Running.refl {built : Graph P S} (hb : Built built)
    (h : built.compile config = (ready, .ok ())) : Running config ready ready :=
  ⟨⟨built, hb, h⟩, [], by simp, rfl⟩

theorem Running.step (h : Running config ready g) {op : Op P S} (hop : op.runs) :
    Running config ready (g.step op).1 := by
  obtain ⟨ops, hops, rfl⟩ := h.runs
  refine ⟨h.compiles, ops ++ [op], ?_, ?_⟩
  · intro o ho
    rcases List.mem_append.mp ho with ho | ho
    · exact hops o ho
    · rw [List.mem_singleton.mp ho]
      exact hop
  · simp [Graph.run, Transition.run_append]

theorem Running.edges (h : Running config ready g) : g.edges = ready.edges := by
  rw [(h.steady measured_unit).eq]

theorem Running.order (h : Running config ready g) : g.executionOrder = ready.executionOrder := by
  rw [(h.steady measured_unit).eq]

theorem Running.nodeCount (h : Running config ready g) : g.nodeCount = ready.nodeCount :=
  congrArg Shape.nodes (h.steady measured_unit).shape

theorem Running.compiled (h : Running config ready g) : g.compiled = true := by
  obtain ⟨built, -, hc⟩ := h.built
  rw [(h.steady measured_unit).eq]
  exact hc.compiled

theorem Running.reads {read : NodeSlot P S → τ}
    (hprocess : ∀ n ctx i o, read (process n ctx i o).node = read n)
    (hflush : ∀ n, read n.flushed = read n) (h : Running config ready g) :
    g.scratch.nodes.map read = ready.scratch.nodes.map read := by
  obtain ⟨ops, hops, rfl⟩ := h.runs
  have hstep : ∀ (s : Graph P S) (op : Op P S), op.runs →
      s.scratch.nodes.map read = ready.scratch.nodes.map read →
      (s.step op).1.scratch.nodes.map read = ready.scratch.nodes.map read :=
    fun s op hop hs => (step_runs_reads hprocess hflush s hop).trans hs
  exact Transition.run_invariant hstep hops rfl

theorem Running.isSink (h : Running config ready g) :
    g.scratch.nodes.map NodeSlot.isSink = ready.scratch.nodes.map NodeSlot.isSink :=
  h.reads (fun n ctx i o => by cases n <;> rfl) (fun n => by cases n <;> rfl)

theorem Running.links (h : Running config ready g) :
    ∀ e ∈ g.edges, checkLink ready.scratch.nodes e.src e.dst = .ok () := by
  obtain ⟨built, hw, hc⟩ := h.built
  rw [h.edges, hc.edges, hc.nodes]
  exact hw.links

theorem Running.linearizes (h : Running config ready g) :
    Linearizes (List.range g.nodeCount) (Feeds g.edges) g.executionOrder := by
  obtain ⟨built, hw, hc⟩ := h.built
  rw [h.nodeCount, h.edges, h.order]
  exact hc.linearizes fun e he => (checkLink_range (hw.links e he)).2

theorem Compiled.aligned {built : Graph P S} (h : Compiled config built ready) :
    Aligned ready.scratch where
  inputs := by rw [h.inputs, h.nodes, List.length_map]
  outputs := by rw [h.outputs, h.nodes, List.length_map]

theorem Running.aligned (h : Running config ready g) : Aligned g.scratch := by
  obtain ⟨built, -, hc⟩ := h.built
  exact aligned_of_shape (h.steady measured_unit).shape hc.aligned

omit [AudioNode P] [SinkNode S] in
theorem frame_of_port {table : List (List AudioFrame)} {nodes : List (NodeSlot P S)}
    {ports : NodeSlot P S → List PortDescriptor} {n : NodeId} {node : NodeSlot P S} {p : PortIdx}
    (htable : rows AudioFrame.len table =
      rows AudioFrame.len (nodes.map fun m => portFrames config (ports m)))
    (hn : nodes[n]? = some node) (hp : p < (ports node).length) :
    ∃ frame, frameAt table (n, p) = some frame ∧ frame.len = config.frameLen := by
  have hat : (frameAt table (n, p)).map AudioFrame.len = some config.frameLen := by
    rw [← frameAt_rows, htable, getElem?_rows, List.getElem?_map, hn]
    simp [portFrames_len, hp, GraphConfig.frameLen]
  exact Option.map_eq_some_iff.mp hat

section Lengths

variable [KeepsLengths P] [KeepsLengths S]

theorem Running.input_at (h : Running config ready g) {n : NodeId} {node : NodeSlot P S}
    (hn : ready.scratch.nodes[n]? = some node) {p : PortIdx}
    (hp : p < (AudioNode.inputs node).length) :
    ∃ frame, frameAt g.scratch.inputScratch (n, p) = some frame ∧
      frame.len = config.frameLen := by
  obtain ⟨built, -, hc⟩ := h.built
  have hshape := congrArg Shape.inputs (h.steady measured_len).shape
  simp only [GraphScratch.shape, hc.inputs, ← hc.nodes] at hshape
  exact frame_of_port hshape hn hp

theorem Running.output_at (h : Running config ready g) {n : NodeId} {node : NodeSlot P S}
    (hn : ready.scratch.nodes[n]? = some node) {p : PortIdx}
    (hp : p < (AudioNode.outputs node).length) :
    ∃ frame, frameAt g.scratch.outputScratch (n, p) = some frame ∧
      frame.len = config.frameLen := by
  obtain ⟨built, -, hc⟩ := h.built
  have hshape := congrArg Shape.outputs (h.steady measured_len).shape
  simp only [GraphScratch.shape, hc.outputs, ← hc.nodes] at hshape
  exact frame_of_port hshape hn hp

theorem Running.edge_frames (h : Running config ready g) {e : Edge} (he : e ∈ g.edges) :
    ∃ srcFrame dstFrame, frameAt g.scratch.outputScratch e.src = some srcFrame ∧
      frameAt g.scratch.inputScratch e.dst = some dstFrame ∧
      srcFrame.len = config.frameLen ∧ dstFrame.len = config.frameLen := by
  obtain ⟨fromNode, toNode, fromDesc, toDesc, ha⟩ := checkLink_ok_iff.mp (h.links e he)
  have hsrc := (List.getElem?_eq_some_iff.mp ha.fromDesc_at).1
  have hdst := (List.getElem?_eq_some_iff.mp ha.toDesc_at).1
  obtain ⟨srcFrame, hsrcAt, hsrcLen⟩ := h.output_at ha.fromNode_at hsrc
  obtain ⟨dstFrame, hdstAt, hdstLen⟩ := h.input_at ha.toNode_at hdst
  exact ⟨srcFrame, dstFrame, hsrcAt, hdstAt, hsrcLen, hdstLen⟩

end Lengths

theorem Running.after_cycle (h : Running config ready g) (ctx : ProcessContext) :
    Running config ready (g.processCycle ctx).1 := by
  have hop : (Op.processCycle ctx : Op P S).runs := trivial
  exact h.step hop

theorem Running.processCycle_eq (h : Running config ready g) (ctx : ProcessContext) :
    g.processCycle ctx =
      ({ g with scratch := (cycle g.edges g.executionOrder (g.scratch, ctx)).1 },
        (cycle g.edges g.executionOrder (g.scratch, ctx)).2, .ok ()) := by
  simp [Graph.processCycle, h.compiled]

end Graph

end

namespace Sample

open BoundedFifo PlainCore

def config : GraphConfig := ⟨2, 48000, 1⟩

def frame : AudioFrame := ⟨1, 48000, [⟨1⟩, ⟨2⟩]⟩

def source : RingSource := RingSource.new ⟨2, [frame], by decide⟩ 1 48000 2

def sink : RingSink := RingSink.new (RingBuffer.new 1) 1 48000 2

def build : List (Op RingSource RingSink) := [.addNode source, .addSink sink, .link (0, 0) (1, 0)]

def session : List (Op RingSource RingSink) := build ++ [.compile config]

def empty : Graph RingSource RingSink := Graph.new

def built : Graph RingSource RingSink := (Graph.new.run build).1

def ready : Graph RingSource RingSink := (built.compile config).1

theorem build_builds : ∀ op ∈ build, Op.builds op := by
  simp [build, Op.builds]

theorem ready_running : Graph.Running config ready ready :=
  .refl ⟨build, build_builds, rfl⟩ rfl

end Sample

end AudioGraph
