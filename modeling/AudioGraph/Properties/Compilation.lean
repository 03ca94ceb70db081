import AudioGraph.Properties.Running
import Mathlib.Data.List.Induction

namespace AudioGraph

open Dependency

section

variable [AudioCore] {P S : Type} [AudioNode P] [SinkNode S]

namespace Graph

def InRange (g : Graph P S) : Prop :=
  ∀ e ∈ g.edges, e.src.1 < g.nodeCount ∧ e.dst.1 < g.nodeCount

theorem InRange.change {g g' : Graph P S} {op : Op P S} (h : InRange g) (hc : Change g op g') :
    InRange g' := by
  cases hc with
  | run hop =>
    have hcount := congrArg Shape.nodes (step_runs_shape measured_unit g hop)
    rw [step_runs_eq g hop]
    intro e he
    have hcount' : (g.step op).1.scratch.nodes.length = g.nodeCount := hcount
    simp only [nodeCount, hcount']
    exact h e he
  | add _ slot =>
    intro e he
    rw [addSlot_eq] at he ⊢
    obtain ⟨hsrc, hdst⟩ := h e he
    simp only [nodeCount, emitEvent, pushed, List.length_append, List.length_singleton]
    exact ⟨Nat.lt_succ_of_lt hsrc, Nat.lt_succ_of_lt hdst⟩
  | link _ src dst hcheck =>
    intro e he
    rcases List.mem_append.mp he with he | he
    · exact h e he
    · rw [List.mem_singleton.mp he]
      exact checkLink_range hcheck
  | compile _ hready =>
    intro e he
    rw [hready.edges] at he
    simp only [nodeCount, hready.nodes]
    exact h e he
  | listen _ => exact h

theorem inRange_run (ops : List (Op P S)) : InRange ((new : Graph P S).run ops).1 := by
  have hnew : InRange (new : Graph P S) := fun _ he => absurd he List.not_mem_nil
  exact Transition.run_always (fun g op h => h.change (step_change g op)) hnew ops

structure Grown (base g : Graph P S) : Prop where
  compiled : g.compiled = true
  order : g.executionOrder = base.executionOrder
  edges : base.edges <+: g.edges
  count : ∃ k, g.scratch.shape (fun _ => ()) =
    ⟨base.nodeCount + k,
      rows (fun _ => ()) base.scratch.inputScratch ++ List.replicate k [],
      rows (fun _ => ()) base.scratch.outputScratch ++ List.replicate k []⟩

omit [AudioCore] [AudioNode P] [SinkNode S] in
theorem Grown.refl {g : Graph P S} (h : g.compiled = true) : Grown g g :=
  ⟨h, rfl, List.prefix_rfl, 0, by simp [GraphScratch.shape, nodeCount]⟩

theorem Grown.addSlot {base g : Graph P S} (h : Grown base g) (slot : NodeSlot P S) :
    Grown base (g.addSlot slot).1 := by
  obtain ⟨k, hk⟩ := h.count
  simp only [GraphScratch.shape, Shape.mk.injEq] at hk
  obtain ⟨hnodes, hins, houts⟩ := hk
  have hmore : List.replicate (k + 1) ([] : List Unit) = List.replicate k [] ++ [[]] :=
    List.replicate_succ'
  rw [addSlot_eq]
  refine ⟨h.compiled, h.order, h.edges, k + 1, ?_⟩
  simp [GraphScratch.shape, emitEvent, pushed, rows_append, hins, houts, hnodes, hmore]
  simp [rows]
  omega

theorem Grown.change {base g g' : Graph P S} {op : Op P S} (h : Grown base g)
    (hc : Change g op g') : Grown base g' := by
  cases hc with
  | run hop =>
    have hshape := step_runs_shape measured_unit g hop
    rw [step_runs_eq g hop]
    refine ⟨h.compiled, h.order, h.edges, ?_⟩
    simp only [hshape]
    exact h.count
  | add _ slot => exact h.addSlot slot
  | link _ src dst _ =>
    exact ⟨h.compiled, h.order, h.edges.trans (List.prefix_append _ _), h.count⟩
  | compile hfalse _ => exact absurd (hfalse.symm.trans h.compiled) (by decide)
  | listen _ => exact ⟨h.compiled, h.order, h.edges, h.count⟩

theorem Change.compiles {g g' : Graph P S} {op : Op P S} (h : Change g op g')
    (hg : g.compiled = false) (hg' : g'.compiled = true) : ∃ config, op = .compile config := by
  cases h with
  | run hop =>
    rw [step_runs_eq g hop] at hg'
    exact absurd (hg.symm.trans hg') (by decide)
  | add _ slot =>
    rw [addSlot_eq] at hg'
    exact absurd (hg.symm.trans hg') (by decide)
  | link _ src dst _ => exact absurd (hg.symm.trans hg') (by decide)
  | compile _ _ => exact ⟨_, rfl⟩
  | listen _ => exact absurd (hg.symm.trans hg') (by decide)

theorem run_concat (g : Graph P S) (ops : List (Op P S)) (op : Op P S) :
    (g.run (ops ++ [op])).1 = ((g.run ops).1.step op).1 := by
  simp [Graph.run, Transition.run_append]

theorem exists_compile {ops : List (Op P S)}
    (h : ((new : Graph P S).run ops).1.compiled = true) :
    ∃ before config after ready, ops = before ++ .compile config :: after ∧
      ((new : Graph P S).run before).1.compile config = (ready, .ok ()) ∧
      Grown ready ((new : Graph P S).run ops).1 := by
  induction ops using List.reverseRecOn with
  | nil => cases h
  | append_singleton ops op ih =>
    rw [run_concat] at h ⊢
    cases hc : ((new : Graph P S).run ops).1.compiled with
    | true =>
      obtain ⟨before, config, after, ready, hops, hcompile, hgrown⟩ := ih hc
      exact ⟨before, config, after ++ [op], ready, by simp [hops], hcompile,
        hgrown.change (step_change _ op)⟩
    | false =>
      obtain ⟨config, rfl⟩ := (step_change _ op).compiles hc h
      rcases compile_cases ((new : Graph P S).run ops).1 config with ⟨e, heq⟩ | ⟨ready, heq, -, hr⟩
      · simp only [Graph.step, heq, hc] at h
        cases h
      · refine ⟨ops, config, [], ready, rfl, heq, ?_⟩
        simp only [Graph.step, heq]
        exact Grown.refl hr.compiled

omit [AudioCore] [AudioNode P] [SinkNode S] in
theorem Grown.row_old {base g : Graph P S} (h : Grown base g) {n : Nat}
    (hn : n < base.nodeCount) (hb : Aligned base.scratch) :
    g.scratch.inputScratch[n]?.map List.length =
        base.scratch.inputScratch[n]?.map List.length ∧
      g.scratch.outputScratch[n]?.map List.length =
        base.scratch.outputScratch[n]?.map List.length := by
  obtain ⟨k, hk⟩ := h.count
  simp only [GraphScratch.shape, Shape.mk.injEq] at hk
  obtain ⟨-, hins, houts⟩ := hk
  have hrow : ∀ {table base' : List (List AudioFrame)},
      rows (fun _ => ()) table = rows (fun _ => ()) base' ++ List.replicate k [] →
      n < base'.length → table[n]?.map List.length = base'[n]?.map List.length := by
    intro table base' htable hlt
    have hat := congrArg (fun l => l[n]?.map List.length) htable
    simp only [List.getElem?_append_left (show n < (rows (fun _ => ()) base').length by
      simpa [rows] using hlt), getElem?_rows, Option.map_map] at hat
    simpa [Function.comp_def] using hat
  exact ⟨hrow hins (hb.inputs ▸ hn), hrow houts (hb.outputs ▸ hn)⟩

omit [AudioCore] [AudioNode P] [SinkNode S] in
theorem Grown.row_new {base g : Graph P S} (h : Grown base g) {n : Nat}
    (hn : base.nodeCount ≤ n) (hg : n < g.nodeCount) (hb : Aligned base.scratch) :
    g.scratch.inputScratch[n]? = some [] ∧ g.scratch.outputScratch[n]? = some [] := by
  obtain ⟨k, hk⟩ := h.count
  simp only [GraphScratch.shape, Shape.mk.injEq] at hk
  obtain ⟨hnodes, hins, houts⟩ := hk
  have hrow : ∀ {table base' : List (List AudioFrame)},
      rows (fun _ => ()) table = rows (fun _ => ()) base' ++ List.replicate k [] →
      base'.length = base.nodeCount → table[n]? = some [] := by
    intro table base' htable hlen
    have hat := congrArg (fun l => l[n]?) htable
    have hge : (rows (fun _ => ()) base').length ≤ n := by simpa [rows, hlen] using hn
    have hlt : n - base'.length < k := by
      simp only [nodeCount] at hg hn hlen hnodes
      omega
    simp only [List.getElem?_append_right hge, getElem?_rows, List.getElem?_replicate] at hat
    simp only [rows, List.length_map, hlt, if_true, Option.map_eq_some_iff,
      List.map_eq_nil_iff] at hat
    obtain ⟨row, hrow, rfl⟩ := hat
    exact hrow
  exact ⟨hrow hins hb.inputs, hrow houts hb.outputs⟩

theorem Change.fixed {g g' : Graph P S} {op : Op P S} (hc : Change g op g')
    (h : g.compiled = true) (hop : ¬ op.builds) :
    g'.compiled = true ∧ g'.nodeCount = g.nodeCount ∧ g'.edges = g.edges := by
  cases hc with
  | run hr =>
    have hcount := congrArg Shape.nodes (step_runs_shape measured_unit g hr)
    refine ⟨?_, hcount, ?_⟩ <;> rw [step_runs_eq g hr]
    exact h
  | add hb _ => exact absurd hb hop
  | link hb _ _ _ => exact absurd hb hop
  | compile hfalse _ => exact absurd (hfalse.symm.trans h) (by decide)
  | listen _ => exact ⟨h, rfl, rfl⟩

theorem run_fixed {g : Graph P S} {ops : List (Op P S)} (h : g.compiled = true)
    (hops : ∀ op ∈ ops, ¬ Op.builds op) :
    (g.run ops).1.nodeCount = g.nodeCount ∧ (g.run ops).1.edges = g.edges := by
  let fixed : Graph P S → Prop := fun s =>
    s.compiled = true ∧ s.nodeCount = g.nodeCount ∧ s.edges = g.edges
  have hstep : ∀ s (op : Op P S), ¬ op.builds → fixed s → fixed (s.step op).1 := by
    intro s op hop hs
    obtain ⟨hc, hn, he⟩ := (step_change s op).fixed hs.1 hop
    exact ⟨hc, hn.trans hs.2.1, he.trans hs.2.2⟩
  have hrun : fixed (g.run ops).1 := Transition.run_invariant hstep hops ⟨h, rfl, rfl⟩
  exact hrun.2

theorem compiled_run {ops : List (Op P S)} (h : ((new : Graph P S).run ops).1.compiled = true) :
    ∃ (before after : List (Op P S)) (config : GraphConfig) (built g : Graph P S),
      ops = before ++ .compile config :: after ∧ built = (new.run before).1 ∧
      (built.compile config).2 = .ok () ∧ g = (new.run ops).1 ∧
      g.executionOrder.Perm (List.range built.nodeCount) ∧
      (∀ e ∈ built.edges, e.src.1 < built.nodeCount ∧ e.dst.1 < built.nodeCount ∧
        g.executionOrder.idxOf e.src.1 < g.executionOrder.idxOf e.dst.1) ∧
      Acyclic (Feeds built.edges) ∧
      (∀ (n : NodeId) (node : NodeSlot P S), built.scratch.nodes[n]? = some node →
        g.scratch.inputScratch[n]?.map List.length = some (AudioNode.inputs node).length ∧
        g.scratch.outputScratch[n]?.map List.length = some (AudioNode.outputs node).length) ∧
      built.edges <+: g.edges ∧
      (∀ n : NodeId, built.nodeCount ≤ n → n < g.nodeCount → n ∉ g.executionOrder ∧
        g.scratch.inputScratch[n]? = some [] ∧ g.scratch.outputScratch[n]? = some []) ∧
      ((∀ op ∈ after, ¬ Op.builds op) → g.nodeCount = built.nodeCount ∧ g.edges = built.edges) := by
  obtain ⟨before, config, after, ready, hops, hcompile, hgrown⟩ := exists_compile h
  have hready := compiled_of_compile hcompile
  have hrange := inRange_run before
  have hcount : ready.nodeCount = ((new : Graph P S).run before).1.nodeCount := by
    rw [nodeCount, hready.nodes, nodeCount]
  have hlin := hready.linearizes fun e he => (hrange e he).2
  refine ⟨before, after, config, _, _, hops, rfl, by rw [hcompile], rfl, ?_, ?_, ?_, ?_, ?_, ?_, ?_⟩
  · rw [hgrown.order]
    exact hready.order_perm
  · intro e he
    obtain ⟨hsrc, hdst⟩ := hrange e he
    rw [hgrown.order]
    exact ⟨hsrc, hdst, hready.order_before e he hdst⟩
  · have hacyclic := hlin.acyclic
    rwa [hready.edges] at hacyclic
  · intro n node hn
    have hlt : n < ready.nodeCount := hcount ▸ (List.getElem?_eq_some_iff.mp hn).1
    obtain ⟨hins, houts⟩ := hgrown.row_old hlt hready.aligned
    rw [hins, houts, hready.inputs, hready.outputs, List.getElem?_map, List.getElem?_map, hn]
    simp [portFrames]
  · rw [← hready.edges]
    exact hgrown.edges
  · intro n hn hlt
    have hnotin : n ∉ ready.executionOrder := fun hmem =>
      Nat.not_lt.mpr hn (List.mem_range.mp (hready.order_perm.mem_iff.mp hmem))
    rw [hgrown.order]
    exact ⟨hnotin, hgrown.row_new (hcount ▸ hn) hlt hready.aligned⟩
  · intro hafter
    obtain ⟨hn, he⟩ := run_fixed hready.compiled hafter
    have hrun : ((new : Graph P S).run ops).1 = (ready.run after).1 := by
      rw [hops]
      simp only [Graph.run] at hcompile
      simp only [Graph.run, Transition.run_append, Transition.run_cons, Graph.step, hcompile]
    rw [hrun, hn, he, hcount, hready.edges]
    exact ⟨rfl, rfl⟩

end Graph

end

open PlainCore Sample in
theorem session_compiled :
    ((Graph.new : Graph RingSource RingSink).run session).1.compiled = true := rfl

open PlainCore Sample in
theorem compiled_run_sample :
    ∃ built g : Graph RingSource RingSink, g = (Graph.new.run session).1 ∧
      g.executionOrder.Perm (List.range built.nodeCount) ∧ Acyclic (Feeds built.edges) := by
  obtain ⟨_, _, _, built, g, -, -, -, hg, hperm, -, hacyclic, -⟩ :=
    Graph.compiled_run session_compiled
  exact ⟨built, g, hg, hperm, hacyclic⟩

open PlainCore Sample in
theorem node_added_after_compile_not_ordered :
    ¬ ∀ ops : List (Op RingSource RingSink),
      ((Graph.new : Graph RingSource RingSink).run ops).1.compiled = true →
        (Graph.new.run ops).1.executionOrder.Perm
          (List.range (Graph.new.run ops).1.nodeCount) := by
  intro h
  have hperm := h [.compile Sample.config, .addNode source] rfl
  exact absurd hperm.length_eq (by decide)

section

variable [AudioCore] {P S : Type} [AudioNode P] [SinkNode S]

namespace Graph

def Honours (g : Graph P S) : Prop :=
  ∀ (n : NodeId) node, g.scratch.nodes[n]? = some node →
    g.scratch.inputScratch[n]?.map (·.map AudioFrame.channels) =
        some ((AudioNode.inputs node).map PortDescriptor.channels) ∧
      g.scratch.outputScratch[n]?.map (·.map AudioFrame.channels) =
        some ((AudioNode.outputs node).map PortDescriptor.channels)

theorem portFrames_honour_iff (config : GraphConfig) (ports : List PortDescriptor) :
    (portFrames config ports).map AudioFrame.channels = ports.map PortDescriptor.channels ↔
      ∀ d ∈ ports, d.channels = config.channels := by
  have hframes : (portFrames config ports).map AudioFrame.channels =
      ports.map fun _ => config.channels := by
    rw [portFrames, List.map_map]
    exact List.map_congr_left fun _ _ => AudioCore.silence_channels _ _ _
  rw [hframes, List.map_inj_left]
  exact ⟨fun h d hd => (h d hd).symm, fun h d hd => (h d hd).symm⟩

theorem compile_channels {built ready : Graph P S} {config : GraphConfig}
    (hcompile : built.compile config = (ready, .ok ())) :
    (∀ (n : NodeId) node, ready.scratch.nodes[n]? = some node →
      ready.scratch.inputScratch[n]? = some (portFrames config (AudioNode.inputs node)) ∧
        ready.scratch.outputScratch[n]? = some (portFrames config (AudioNode.outputs node))) ∧
    (∀ ports, ∀ f ∈ portFrames config ports,
      f.channels = config.channels ∧ f.len = config.frameLen) ∧
    (ready.Honours ↔ ∀ node ∈ built.scratch.nodes,
      ∀ d ∈ AudioNode.inputs node ++ AudioNode.outputs node, d.channels = config.channels) := by
  have hc := compiled_of_compile hcompile
  have hrows : ∀ (n : NodeId) node, ready.scratch.nodes[n]? = some node →
      ready.scratch.inputScratch[n]? = some (portFrames config (AudioNode.inputs node)) ∧
        ready.scratch.outputScratch[n]? = some (portFrames config (AudioNode.outputs node)) := by
    intro n node hn
    rw [hc.nodes] at hn
    rw [hc.inputs, hc.outputs, List.getElem?_map, List.getElem?_map, hn]
    exact ⟨rfl, rfl⟩
  have hnode : ∀ (n : NodeId) node, ready.scratch.nodes[n]? = some node →
      ((ready.scratch.inputScratch[n]?.map (·.map AudioFrame.channels) =
          some ((AudioNode.inputs node).map PortDescriptor.channels) ∧
        ready.scratch.outputScratch[n]?.map (·.map AudioFrame.channels) =
          some ((AudioNode.outputs node).map PortDescriptor.channels)) ↔
      ∀ d ∈ AudioNode.inputs node ++ AudioNode.outputs node, d.channels = config.channels) := by
    intro n node hn
    obtain ⟨hins, houts⟩ := hrows n node hn
    rw [hins, houts, Option.map_some, Option.map_some, Option.some_inj, Option.some_inj,
      portFrames_honour_iff, portFrames_honour_iff, List.forall_mem_append]
  refine ⟨hrows, fun ports f hf => ?_, fun h node hmem => ?_, fun h n node hn => ?_⟩
  · obtain ⟨_, -, rfl⟩ := List.mem_map.mp hf
    exact ⟨AudioCore.silence_channels _ _ _, silence_len _ _ _⟩
  · rw [← hc.nodes] at hmem
    obtain ⟨n, hn⟩ := List.mem_iff_getElem?.mp hmem
    exact (hnode n node hn).mp (h n node hn)
  · have hmem := List.mem_of_getElem? hn
    rw [hc.nodes] at hmem
    exact (hnode n node hn).mpr (h node hmem)

end Graph

end

open PlainCore Sample in
theorem compile_channels_sample : ready.Honours := by
  have hcompile : built.compile Sample.config = (ready, .ok ()) := rfl
  exact (Graph.compile_channels hcompile).2.2.mpr (by decide)

open PlainCore Sample in
theorem stereo_port_gets_mono :
    ¬ ∀ (config : GraphConfig) (built ready : Graph RingSource RingSink), Graph.Built built →
      built.compile config = (ready, .ok ()) → ready.Honours := by
  intro h
  let stereo : Graph RingSource RingSink :=
    (Graph.new.run [.addNode (RingSource.new (BoundedFifo.RingBuffer.new 1) 2 48000 2)]).1
  have hbuilt : Graph.Built stereo := ⟨_, by simp [Op.builds], rfl⟩
  have hhonours := h Sample.config stereo _ hbuilt rfl
  have houts := (hhonours 0 _ rfl).2
  cases houts

end AudioGraph
