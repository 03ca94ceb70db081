import AudioGraph.Engine.Ring
import AudioGraph.Properties.Cells
import AudioGraph.Properties.Running

namespace AudioGraph

open Dependency

section

variable [AudioCore] {P S τ : Type} {measure : AudioFrame → τ}

structure Call (P S : Type) where
  node : NodeId
  slot : NodeSlot P S
  ctx : ProcessContext
  inFrames : List AudioFrame
  outFrames : List AudioFrame

def callAt (edges : List Edge) (st : GraphScratch P S × ProcessContext) (n : NodeId) :
    Option (Call P S) :=
  match st.1.inputScratch[n]?, st.1.outputScratch[n]?, st.1.nodes[n]? with
  | some slots, some outSlots, some node =>
    some ⟨n, node, st.2, fillSlots edges (frameAt st.1.outputScratch) n slots, outSlots⟩
  | _, _, _ => none

theorem callAt_eq_some (edges : List Edge) {st : GraphScratch P S × ProcessContext} {n : NodeId}
    {slots outSlots : List AudioFrame} {node : NodeSlot P S}
    (hin : st.1.inputScratch[n]? = some slots)
    (hout : st.1.outputScratch[n]? = some outSlots) (hnode : st.1.nodes[n]? = some node) :
    callAt edges st n =
      some ⟨n, node, st.2, fillSlots edges (frameAt st.1.outputScratch) n slots, outSlots⟩ := by
  simp [callAt, hin, hout, hnode]

theorem callAt_spec {edges : List Edge} {st : GraphScratch P S × ProcessContext} {n : NodeId}
    {c : Call P S} (h : callAt edges st n = some c) :
    c.node = n ∧ c.ctx = st.2 ∧
      (∃ slots, st.1.inputScratch[n]? = some slots ∧
        c.inFrames = fillSlots edges (frameAt st.1.outputScratch) n slots) ∧
      st.1.outputScratch[n]? = some c.outFrames ∧ st.1.nodes[n]? = some c.slot := by
  unfold callAt at h
  split at h
  · rename_i slots outSlots node hin hout hnode
    cases h
    exact ⟨rfl, rfl, ⟨slots, hin, rfl⟩, hout, hnode⟩
  · cases h

variable [AudioNode P] [SinkNode S]

def Call.result (c : Call P S) : Processed (NodeSlot P S) :=
  process c.slot c.ctx c.inFrames c.outFrames

def calls (edges : List Edge) :
    List NodeId → GraphScratch P S × ProcessContext → List (Call P S)
  | [], _ => []
  | n :: order, st => (callAt edges st n).toList ++ calls edges order (visit edges st n)

def Threads : ProcessContext → List (Call P S) → ProcessContext → Prop
  | ctx, [], final => final = ctx
  | ctx, c :: rest, final => c.ctx = ctx ∧ Threads c.result.ctx rest final

theorem visit_of_callAt {edges : List Edge} {st : GraphScratch P S × ProcessContext} {n : NodeId}
    {c : Call P S} (h : callAt edges st n = some c) :
    visit edges st n =
      (⟨st.1.nodes.set n c.result.node, st.1.inputScratch.set n c.inFrames,
        st.1.outputScratch.set n c.result.outputs⟩, c.result.ctx) := by
  obtain ⟨hc, hctx, ⟨slots, hin, hins⟩, hout, hnode⟩ := callAt_spec h
  obtain ⟨s, ctx⟩ := st
  rw [visit_called hin hout hnode, Call.result, hctx, hins]

theorem visit_of_callAt_none {edges : List Edge} {st : GraphScratch P S × ProcessContext}
    {n : NodeId} (h : callAt edges st n = none) : (visit edges st n).2 = st.2 := by
  obtain ⟨s, ctx⟩ := st
  rcases visit_cases edges s ctx n with ⟨-, heq⟩ | ⟨slots, -, -, heq⟩ |
    ⟨slots, outSlots, node, hin, hout, hnode, -⟩
  · rw [heq]
  · rw [heq]
  · simp [callAt, hin, hout, hnode] at h

theorem mem_calls {edges : List Edge} {order : List NodeId}
    {st : GraphScratch P S × ProcessContext} {c : Call P S} (h : c ∈ calls edges order st) :
    ∃ pre post, order = pre ++ c.node :: post ∧
      callAt edges (cycle edges pre st) c.node = some c := by
  induction order generalizing st with
  | nil => cases h
  | cons n order ih =>
    rcases List.mem_append.mp h with h | h
    · have hc : callAt edges st n = some c := Option.mem_toList.mp h
      have hn : c.node = n := (callAt_spec hc).1
      exact ⟨[], order, by rw [hn, List.nil_append], by rw [hn]; exact hc⟩
    · obtain ⟨pre, post, hsplit, hc⟩ := ih h
      exact ⟨n :: pre, post, by rw [hsplit, List.cons_append], hc⟩

theorem calls_threads (edges : List Edge) (order : List NodeId)
    (st : GraphScratch P S × ProcessContext) :
    Threads st.2 (calls edges order st) (cycle edges order st).2 := by
  induction order generalizing st with
  | nil => rfl
  | cons n order ih =>
    have hrest := ih (visit edges st n)
    change Threads st.2 _ (cycle edges order (visit edges st n)).2
    cases hc : callAt edges st n with
    | none =>
      rw [visit_of_callAt_none hc] at hrest
      simpa [calls, hc] using hrest
    | some c =>
      have hctx : (visit edges st n).2 = c.result.ctx := by rw [visit_of_callAt hc]
      rw [hctx] at hrest
      simp only [calls, hc, Option.toList_some, List.singleton_append]
      exact ⟨(callAt_spec hc).2.1, hrest⟩

theorem calls_nodes {edges : List Edge} {order : List NodeId}
    {st : GraphScratch P S × ProcessContext} (hs : Aligned st.1)
    (hrange : ∀ n ∈ order, n < st.1.nodes.length) :
    (calls edges order st).map (·.node) = order := by
  induction order generalizing st with
  | nil => rfl
  | cons n order ih =>
    have hn : n < st.1.nodes.length := hrange n (by simp)
    have hin := List.getElem?_eq_getElem (hs.inputs ▸ hn)
    have hout := List.getElem?_eq_getElem (hs.outputs ▸ hn)
    have hnode := List.getElem?_eq_getElem hn
    have hc := callAt_eq_some edges hin hout hnode
    have hshape := visit_shape measured_unit edges st n
    have hlen : (visit edges st n).1.nodes.length = st.1.nodes.length :=
      congrArg Shape.nodes hshape
    have hrest := ih (aligned_of_shape hshape hs) fun m hm => hlen ▸ hrange m (by simp [hm])
    simp [calls, hc, hrest]

variable {edges : List Edge} {pre post order : List NodeId}

theorem cycle_frame {n : NodeId} (hn : n ∉ order) (st : GraphScratch P S × ProcessContext) :
    (cycle edges order st).1.cells n = st.1.cells n := by
  have h := congrArg Prod.fst (cycle_cells edges order st)
  simp only at h
  rw [h, Schedule.run_frame hn]

theorem cycle_append (edges : List Edge) (pre post : List NodeId)
    (st : GraphScratch P S × ProcessContext) :
    cycle edges (pre ++ post) st = cycle edges post (cycle edges pre st) := by
  simp [cycle, List.foldl_append]

structure Synchronous (before after : GraphScratch P S) (c : Call P S) : Prop where
  state : before.nodes[c.node]? = some c.slot
  outputs : before.outputScratch[c.node]? = some c.outFrames
  received : after.inputScratch[c.node]? = some c.inFrames
  next_state : after.nodes[c.node]? = some c.result.node
  next_outputs : after.outputScratch[c.node]? = some c.result.outputs

theorem synchronous_of_mem_calls {st : GraphScratch P S × ProcessContext} {c : Call P S}
    (hd : order.Nodup) (h : c ∈ calls edges order st) :
    Synchronous st.1 (cycle edges order st).1 c := by
  obtain ⟨pre, post, rfl, hc⟩ := mem_calls h
  obtain ⟨-, hpost, hdisj⟩ := List.nodup_append.mp hd
  have hpre : c.node ∉ pre := fun hm => hdisj c.node hm c.node (by simp) rfl
  have hbefore : (cycle edges pre st).1.cells c.node = st.1.cells c.node := cycle_frame hpre st
  obtain ⟨-, -, ⟨slots, hin, -⟩, hout, hnode⟩ := callAt_spec hc
  have hafter : (cycle edges (pre ++ c.node :: post) st).1.cells c.node =
      (visit edges (cycle edges pre st) c.node).1.cells c.node := by
    rw [cycle_append]
    exact cycle_frame (List.nodup_cons.mp hpost).1 _
  have hilt := (List.getElem?_eq_some_iff.mp hin).1
  have holt := (List.getElem?_eq_some_iff.mp hout).1
  have hnlt := (List.getElem?_eq_some_iff.mp hnode).1
  rw [visit_of_callAt hc] at hafter
  have hstate := congrArg Cell.node hbefore
  have houtputs := congrArg Cell.outFrames hbefore
  have hreceived := congrArg Cell.inFrames hafter
  have hnext := congrArg Cell.node hafter
  have hnextOut := congrArg Cell.outFrames hafter
  simp only [GraphScratch.cells] at hstate houtputs hreceived hnext hnextOut
  exact ⟨hstate.symm.trans hnode, houtputs.symm.trans hout, hreceived.trans (by simp [hilt]),
    hnext.trans (by simp [hnlt]), hnextOut.trans (by simp [holt])⟩

theorem visitCell_inFrames {n : NodeId} {cells : NodeId → Cell P S} {ctx : ProcessContext}
    {slots : List AudioFrame} (h : (cells n).inFrames = some slots) :
    (visitCell edges n cells ctx).1.inFrames =
      some (fillSlots edges (Cell.source cells) n slots) := by
  rcases (cells n).called_or_not with hin | ⟨slots', hin, hmissing | ⟨outSlots, node, hout,
    hnode⟩⟩
  · cases h.symm.trans hin
  · rw [visitCell_uncalled h hmissing]
  · rw [visitCell_called h hout hnode]

theorem cycle_inputs {st : GraphScratch P S × ProcessContext} {n : NodeId}
    {slots : List AudioFrame} (hd : order.Nodup) (hn : n ∈ order)
    (hbefore : ∀ a b, Feeds edges a b → order.idxOf a < order.idxOf b)
    (hin : st.1.inputScratch[n]? = some slots) :
    (cycle edges order st).1.inputScratch[n]? =
      some (fillSlots edges (frameAt (cycle edges order st).1.outputScratch) n slots) := by
  obtain ⟨pre, post, rfl⟩ := List.append_of_mem hn
  have hpre : n ∉ pre := fun hm => (List.nodup_append.mp hd).2.2 n hm n (by simp) rfl
  have hmem : ∀ m, Feeds edges m n → m ∈ pre := fun m hm => mem_of_idxOf_lt hpre (hbefore m n hm)
  have hsolved := Schedule.run_solved (visitCell_readsOnly edges) hd hmem (st.1.cells, st.2)
  rw [← cycle_cells, ← cycle_cells] at hsolved
  have hslots : (Function.update (cycle edges (pre ++ n :: post) st).1.cells n
      (st.1.cells n) n).inFrames = some slots := by
    rw [Function.update_self]
    exact hin
  have hcell := congrArg Cell.inFrames hsolved
  simp only [visitCell_inFrames hslots] at hcell
  refine hcell.trans (congrArg some ?_)
  refine fillSlots_congr slots (fun _ => rfl) fun e he hdst => ?_
  have hne : e.src.1 ≠ n := fun heq => hpre (heq ▸ hmem e.src.1 ⟨e, he, rfl, hdst⟩)
  rw [Cell.source, Function.update_of_ne hne]
  rfl

namespace Graph

theorem Steady.exists_call {config : GraphConfig} {built ready g : Graph P S}
    (hc : Compiled config built ready) (h : Steady measure ready g) (ctx : ProcessContext)
    {n : NodeId} (hn : n < g.nodeCount) :
    ∃ c : Call P S, c.node = n ∧ Synchronous g.scratch (g.processCycle ctx).1.scratch c := by
  have hcompiled : g.compiled = true := h.compiled hc.compiled
  have hcount : built.nodeCount = g.scratch.nodes.length := by
    rw [nodeCount, ← hc.nodes]
    exact (congrArg Shape.nodes h.shape).symm
  have hperm : g.executionOrder.Perm (List.range g.scratch.nodes.length) := by
    rw [← hcount, h.eq]
    exact hc.order_perm
  have hrange : ∀ m ∈ g.executionOrder, m < g.scratch.nodes.length :=
    fun m hm => List.mem_range.mp (hperm.mem_iff.mp hm)
  have hnodes : (calls g.edges g.executionOrder (g.scratch, ctx)).map (·.node) =
      g.executionOrder := calls_nodes (aligned_of_shape h.shape hc.aligned) hrange
  have hmem : n ∈ g.executionOrder := hperm.mem_iff.mpr (List.mem_range.mpr hn)
  rw [← hnodes] at hmem
  obtain ⟨c, hcall, rfl⟩ := List.mem_map.mp hmem
  refine ⟨c, rfl, ?_⟩
  have hsync := synchronous_of_mem_calls (hperm.nodup_iff.mpr List.nodup_range) hcall
  simpa [processCycle, hcompiled] using hsync

theorem Steady.solution [KeepsContext P] [KeepsContext S] {config : GraphConfig}
    {ready g : Graph P S} (hr : Running config ready ready) (h : Steady (fun _ => ()) ready g)
    (ctx : ProcessContext) :
    Schedule.Solution (visitCell ready.edges) ready.executionOrder ctx g.scratch.cells
      (g.processCycle ctx).1.scratch.cells := by
  have hlin := hr.linearizes
  have hrun := Schedule.run_solution (visitCell_readsOnly (P := P) (S := S) ready.edges)
    (visitCell_keepsAmbient ready.edges) (hlin.perm.nodup_iff.mpr List.nodup_range) hlin.before
    g.scratch.cells ctx
  have hcycle : (g.processCycle ctx).1.scratch =
      (cycle ready.edges ready.executionOrder (g.scratch, ctx)).1 := by
    rw [processCycle, if_pos (h.compiled hr.compiled)]
    rw [h.eq]
  rw [hcycle]
  have hcells := congrArg Prod.fst (cycle_cells ready.edges ready.executionOrder (g.scratch, ctx))
  simp only at hcells
  rw [hcells]
  exact hrun

theorem Steady.inputs {config : GraphConfig} {ready g : Graph P S}
    (hr : Running config ready ready) (h : Steady (fun _ => ()) ready g) (ctx : ProcessContext)
    {n : NodeId} (hn : n < ready.nodeCount) {slots : List AudioFrame}
    (hin : g.scratch.inputScratch[n]? = some slots) :
    (g.processCycle ctx).1.scratch.inputScratch[n]? =
      some (fillSlots ready.edges
        (frameAt (g.processCycle ctx).1.scratch.outputScratch) n slots) := by
  have hlin := hr.linearizes
  have hcycle : (g.processCycle ctx).1.scratch =
      (cycle ready.edges ready.executionOrder (g.scratch, ctx)).1 := by
    rw [processCycle, if_pos (h.compiled hr.compiled)]
    rw [h.eq]
  rw [hcycle]
  exact cycle_inputs (hlin.perm.nodup_iff.mpr List.nodup_range)
    (hlin.perm.mem_iff.mpr (List.mem_range.mpr hn)) hlin.before hin

variable [KeepsLengths P] [KeepsLengths S] {config : GraphConfig} {ready g : Graph P S}

theorem Running.delivers (h : Running config ready g) (ctx : ProcessContext) {n : NodeId}
    {node : NodeSlot P S} (hn : ready.scratch.nodes[n]? = some node) {p : PortIdx}
    (hp : p < (AudioNode.inputs node).length) :
    ∃ frame, (g.processCycle ctx).1.readInput n p = some frame ∧
      (∀ e, g.edges.find? (fun e => e.dst = (n, p)) = some e →
        (g.processCycle ctx).1.readOutput e.src.1 e.src.2 = some frame) ∧
      (g.edges.find? (fun e => e.dst = (n, p)) = none → ∀ x ∈ frame.samples, x = 0) := by
  have hnlt : n < g.nodeCount := by
    rw [h.nodeCount]
    exact (List.getElem?_eq_some_iff.mp hn).1
  have hlin := h.linearizes
  have hmem : n ∈ g.executionOrder := hlin.perm.mem_iff.mpr (List.mem_range.mpr hnlt)
  have hnodup := hlin.perm.nodup_iff.mpr List.nodup_range
  obtain ⟨slot, hslot, hslotLen⟩ := h.input_at hn hp
  obtain ⟨slots, hslots, hslotsAt⟩ := Option.bind_eq_some_iff.mp hslot
  have hinputs : (cycle g.edges g.executionOrder (g.scratch, ctx)).1.inputScratch[n]? = _ :=
    cycle_inputs hnodup hmem hlin.before hslots
  have hread : (g.processCycle ctx).1.readInput n p =
      some (fillSlot g.edges (frameAt (g.processCycle ctx).1.scratch.outputScratch) (n, p)
        slot) := by
    rw [h.processCycle_eq]
    simp only [readInput, frameAt, hinputs, Option.bind_some, getElem?_fillSlots, hslotsAt,
      Option.map_some]
  refine ⟨_, hread, ?_, ?_⟩
  · intro e hfirst
    have hedge : e ∈ (g.processCycle ctx).1.edges := by
      rw [h.processCycle_eq]
      exact List.mem_of_find?_eq_some hfirst
    obtain ⟨srcFrame, -, hsrc, -, hsrcLen, -⟩ := (h.after_cycle ctx).edge_frames hedge
    have hfill : fillSlot g.edges (frameAt (g.processCycle ctx).1.scratch.outputScratch) (n, p)
        slot = srcFrame := by
      simp only [fillSlot, hfirst, hsrc]
      exact AudioFrame.copyFrom_of_len_eq (hsrcLen.trans hslotLen.symm)
    rw [hfill]
    exact hsrc
  · intro hnone
    simp only [fillSlot, hnone]
    exact AudioFrame.silenced_samples slot

theorem processCycle_synchronous (h : Running config ready g) (ctx : ProcessContext) :
    (g.processCycle ctx).2.2 = .ok () ∧
      ∃ made : List (Call P S), made = calls g.edges g.executionOrder (g.scratch, ctx) ∧
        (made.map (·.node)).Perm (List.range g.nodeCount) ∧
        Threads ctx made (g.processCycle ctx).2.1 ∧
        (∀ c ∈ made, Synchronous g.scratch (g.processCycle ctx).1.scratch c) ∧
        ∀ n node, ready.scratch.nodes[n]? = some node → ∀ p < (AudioNode.inputs node).length,
          ∃ frame, (g.processCycle ctx).1.readInput n p = some frame ∧
            (∀ e, g.edges.find? (fun e => e.dst = (n, p)) = some e →
              (g.processCycle ctx).1.readOutput e.src.1 e.src.2 = some frame) ∧
            (g.edges.find? (fun e => e.dst = (n, p)) = none → ∀ x ∈ frame.samples, x = 0) := by
  have hlin := h.linearizes
  have hnodup := hlin.perm.nodup_iff.mpr List.nodup_range
  have hrange : ∀ n ∈ g.executionOrder, n < g.scratch.nodes.length :=
    fun n hn => List.mem_range.mp (hlin.perm.mem_iff.mp hn)
  refine ⟨by rw [h.processCycle_eq], _, rfl, ?_, ?_, ?_, fun n node hn p hp => h.delivers ctx hn hp⟩
  · rw [calls_nodes h.aligned hrange]
    exact hlin.perm
  · rw [h.processCycle_eq]
    exact calls_threads g.edges g.executionOrder (g.scratch, ctx)
  · rw [h.processCycle_eq]
    exact fun c hc => synchronous_of_mem_calls hnodup hc

theorem processCycle_delivers_first (h : Running config ready g) (ctx : ProcessContext) :
    (∀ e ∈ g.edges, ∃ first ∈ g.edges, g.edges.find? (fun e' => e'.dst = e.dst) = some first ∧
      ∃ frame, (g.processCycle ctx).1.readInput e.dst.1 e.dst.2 = some frame ∧
        (g.processCycle ctx).1.readOutput first.src.1 first.src.2 = some frame) ∧
    ((g.edges.map Edge.dst).Nodup → ∀ e ∈ g.edges,
      ∃ frame, (g.processCycle ctx).1.readInput e.dst.1 e.dst.2 = some frame ∧
        (g.processCycle ctx).1.readOutput e.src.1 e.src.2 = some frame) := by
  have hfirst : ∀ e ∈ g.edges, ∃ first ∈ g.edges,
      g.edges.find? (fun e' => e'.dst = e.dst) = some first ∧
        ∃ frame, (g.processCycle ctx).1.readInput e.dst.1 e.dst.2 = some frame ∧
          (g.processCycle ctx).1.readOutput first.src.1 first.src.2 = some frame := by
    intro e he
    obtain ⟨_, toNode, _, toDesc, ha⟩ := checkLink_ok_iff.mp (h.links e he)
    have hp := (List.getElem?_eq_some_iff.mp ha.toDesc_at).1
    obtain ⟨frame, hread, hdelivers, -⟩ := h.delivers ctx ha.toNode_at hp
    have hsome : (g.edges.find? (fun e' => e'.dst = e.dst)).isSome :=
      List.find?_isSome.mpr ⟨e, he, by simp⟩
    obtain ⟨first, hfind⟩ := Option.isSome_iff_exists.mp hsome
    exact ⟨first, List.mem_of_find?_eq_some hfind, hfind, frame, hread, hdelivers first hfind⟩
  refine ⟨hfirst, fun hnodup e he => ?_⟩
  obtain ⟨first, hmem, hfind, hframe⟩ := hfirst e he
  have hdst : first.dst = e.dst := by simpa using List.find?_some hfind
  rwa [List.inj_on_of_nodup_map hnodup hmem he hdst] at hframe

end Graph

end

open PlainCore Sample in
theorem processCycle_synchronous_sample :
    (Sample.ready.processCycle ()).2.2 = .ok () ∧
      ∃ frame, (Sample.ready.processCycle ()).1.readInput 1 0 = some frame ∧
        (Sample.ready.processCycle ()).1.readOutput 0 0 = some frame := by
  obtain ⟨hok, made, -, -, -, -, hdelivers⟩ := Graph.processCycle_synchronous ready_running ()
  obtain ⟨frame, hread, hfirst, -⟩ := hdelivers 1 (.sink sink) rfl 0 (by decide)
  exact ⟨hok, frame, hread, hfirst ⟨(0, 0), (1, 0)⟩ rfl⟩

open PlainCore Sample in
theorem processCycle_delivers_first_sample :
    ∃ frame, (Sample.ready.processCycle ()).1.readInput 1 0 = some frame ∧
      (Sample.ready.processCycle ()).1.readOutput 0 0 = some frame :=
  (Graph.processCycle_delivers_first ready_running ()).2 (by decide) ⟨(0, 0), (1, 0)⟩ (by decide)

namespace Sample

open BoundedFifo PlainCore

def doubled : List (Op RingSource RingSink) :=
  build ++ [.addNode (RingSource.new (RingBuffer.new 2) 1 48000 2), .link (2, 0) (1, 0)]

def doubledReady : Graph RingSource RingSink := ((Graph.new.run doubled).1.compile config).1

theorem doubled_running : Graph.Running config doubledReady doubledReady :=
  .refl ⟨doubled, by simp [doubled, build, Op.builds], rfl⟩ rfl

end Sample

open PlainCore Sample in
theorem second_link_not_delivered :
    ¬ ∀ (config : GraphConfig) (ready g : Graph RingSource RingSink),
      Graph.Running config ready g → ∀ e ∈ g.edges,
        ((g.processCycle ()).1.readInput e.dst.1 e.dst.2).map (·.samples) =
          ((g.processCycle ()).1.readOutput e.src.1 e.src.2).map (·.samples) := by
  intro h
  have hmem : (⟨(2, 0), (1, 0)⟩ : Edge) ∈ doubledReady.edges := by decide
  have heq := h config doubledReady doubledReady doubled_running ⟨(2, 0), (1, 0)⟩ hmem
  exact absurd heq (by decide)

end AudioGraph
