import AudioGraph.Properties.Cells
import AudioGraph.Properties.Running

namespace AudioGraph

open Dependency

theorem find?_dst_eq_some_iff {edges : List Edge} (hn : (edges.map Edge.dst).Nodup)
    {target : NodeId × PortIdx} {e : Edge} :
    edges.find? (fun e => e.dst = target) = some e ↔ e ∈ edges ∧ e.dst = target := by
  constructor
  · intro h
    exact ⟨List.mem_of_find?_eq_some h, by simpa using List.find?_some h⟩
  · rintro ⟨he, rfl⟩
    have hsome : (edges.find? (fun e' => e'.dst = e.dst)).isSome :=
      List.find?_isSome.mpr ⟨e, he, by simp⟩
    obtain ⟨first, hfirst⟩ := Option.isSome_iff_exists.mp hsome
    have hmem := List.mem_of_find?_eq_some hfirst
    have hdst : first.dst = e.dst := by simpa using List.find?_some hfirst
    rw [hfirst, List.inj_on_of_nodup_map hn hmem he hdst]

theorem find?_dst_of_perm {edges edges' : List Edge} (hp : edges'.Perm edges)
    (hn : (edges.map Edge.dst).Nodup) (target : NodeId × PortIdx) :
    edges'.find? (fun e => e.dst = target) = edges.find? (fun e => e.dst = target) := by
  have hn' : (edges'.map Edge.dst).Nodup := (hp.map Edge.dst).nodup_iff.mpr hn
  refine Option.ext fun e => ?_
  rw [find?_dst_eq_some_iff hn, find?_dst_eq_some_iff hn', hp.mem_iff]

theorem feeds_of_perm {edges edges' : List Edge} (hp : edges'.Perm edges) :
    Feeds edges' = Feeds edges := by
  funext a b
  simp only [Feeds, hp.mem_iff]

section

variable [AudioCore] {P S : Type} [AudioNode P] [SinkNode S]

theorem visit_of_same_first {edges edges' : List Edge}
    (hfirst : ∀ target : NodeId × PortIdx,
      edges'.find? (fun e => e.dst = target) = edges.find? (fun e => e.dst = target)) :
    visit (P := P) (S := S) edges' = visit edges := by
  have hfill : fillSlots edges' = fillSlots edges := by
    funext source n slots
    simp only [fillSlots, fillSlot, hfirst]
  funext st n
  simp only [visit, hfill]

theorem cycle_of_same_first {edges edges' : List Edge}
    (hfirst : ∀ target : NodeId × PortIdx,
      edges'.find? (fun e => e.dst = target) = edges.find? (fun e => e.dst = target))
    (order : List NodeId) (st : GraphScratch P S × ProcessContext) :
    cycle edges' order st = cycle edges order st := by
  simp only [cycle, visit_of_same_first hfirst]

theorem cycle_order_independent [KeepsContext P] [KeepsContext S] {edges : List Edge}
    {nodes order order' : List NodeId} (hd : nodes.Nodup)
    (h : Linearizes nodes (Feeds edges) order) (h' : Linearizes nodes (Feeds edges) order')
    (st : GraphScratch P S × ProcessContext) : cycle edges order' st = cycle edges order st := by
  have hrun := Schedule.run_order_independent (visitCell_readsOnly (P := P) (S := S) edges)
    (visitCell_keepsAmbient edges) hd h' h st.1.cells st.2
  rw [← cycle_cells, ← cycle_cells] at hrun
  have hcells := congrArg Prod.fst hrun
  have hctx := congrArg Prod.snd hrun
  exact Prod.ext (GraphScratch.cells_injective hcells) hctx

namespace Graph

variable {config : GraphConfig}

theorem Running.reschedule [KeepsContext P] [KeepsContext S] {ready g : Graph P S}
    (h : Running config ready g) {order₂ : List NodeId} {edges₂ : List Edge}
    (horder : Linearizes (List.range g.nodeCount) (Feeds g.edges) order₂)
    (hfirst : ∀ target : NodeId × PortIdx,
      edges₂.find? (fun e => e.dst = target) = g.edges.find? (fun e => e.dst = target))
    (ctx : ProcessContext) :
    cycle edges₂ order₂ (g.scratch, ctx) = cycle g.edges g.executionOrder (g.scratch, ctx) := by
  rw [cycle_of_same_first hfirst]
  exact cycle_order_independent List.nodup_range h.linearizes horder (g.scratch, ctx)

structure Relinked (config : GraphConfig) (ready ready' g g' : Graph P S) : Prop where
  running : Running config ready g
  running' : Running config ready' g'
  edges : ready'.edges.Perm ready.edges
  nodup : (ready.edges.map Edge.dst).Nodup
  scratch : g'.scratch = g.scratch

theorem Relinked.step [KeepsContext P] [KeepsContext S] {ready ready' g g' : Graph P S}
    (h : Relinked config ready ready' g g') {op : Op P S} (hop : op.feedsOrCycles) :
    Relinked config ready ready' (g.step op).1 (g'.step op).1 ∧
      (g'.step op).2 = (g.step op).2 := by
  have hrun := h.running.step hop.runs
  have hrun' := h.running'.step hop.runs
  cases op with
  | feed node port src =>
    refine ⟨⟨hrun, hrun', h.edges, h.nodup, ?_⟩, rfl⟩
    change (g'.feed node port src).scratch = (g.feed node port src).scratch
    unfold feed
    rw [h.scratch]
    split
    · exact h.scratch
    · split
      · exact h.scratch
      · rfl
  | processCycle ctx =>
    have hperm : g'.edges.Perm g.edges := by
      rw [h.running'.edges, h.running.edges]
      exact h.edges
    have hnodup : (g.edges.map Edge.dst).Nodup := by
      rw [h.running.edges]
      exact h.nodup
    have hcount : g'.nodeCount = g.nodeCount := by rw [nodeCount, h.scratch, nodeCount]
    have horder := h.running'.linearizes
    rw [hcount, feeds_of_perm hperm] at horder
    have hcycle := h.running.reschedule horder (find?_dst_of_perm hperm hnodup) ctx
    refine ⟨⟨hrun, hrun', h.edges, h.nodup, ?_⟩, ?_⟩
    · change (g'.processCycle ctx).1.scratch = (g.processCycle ctx).1.scratch
      rw [h.running.processCycle_eq, h.running'.processCycle_eq, h.scratch, hcycle]
    · simp only [Graph.step, h.running.processCycle_eq, h.running'.processCycle_eq, h.scratch,
        hcycle]
  | _ => cases hop

theorem Relinked.run [KeepsContext P] [KeepsContext S] {ready ready' g g' : Graph P S}
    (h : Relinked config ready ready' g g') {ops : List (Op P S)}
    (hops : ∀ op ∈ ops, Op.feedsOrCycles op) :
    Relinked config ready ready' (g.run ops).1 (g'.run ops).1 ∧
      (g'.run ops).2 = (g.run ops).2 := by
  have hstep : ∀ s s' (op : Op P S), op.feedsOrCycles → Relinked config ready ready' s s' →
      Relinked config ready ready' (s.step op).1 (s'.step op).1 ∧
        (s.step op).2 = (s'.step op).2 := by
    intro s s' op hop hs
    exact ⟨(hs.step hop).1, (hs.step hop).2.symm⟩
  obtain ⟨hrel, houts⟩ := Transition.run_lockstep hstep hops h
  rw [List.forall₂_eq_eq_eq] at houts
  exact ⟨hrel, houts.symm⟩

theorem compile_of_acyclic {built : Graph P S} (hc : built.compiled = false)
    (hrange : ∀ e ∈ built.edges, e.src.1 < built.nodeCount)
    (hacyclic : Acyclic (Feeds built.edges)) (config : GraphConfig) :
    ∃ ready, built.compile config = (ready, .ok ()) := by
  obtain ⟨order, hsort⟩ := topologicalSort_complete hrange hacyclic
  simp only [nodeCount] at hsort
  simp [compile, hc, hsort]

theorem Compiled.same_scratch {config : GraphConfig} {built built' ready ready' : Graph P S}
    (hc : Compiled config built ready) (hc' : Compiled config built' ready')
    (hnodes : built'.scratch.nodes = built.scratch.nodes) : ready'.scratch = ready.scratch := by
  have hn : ready'.scratch.nodes = ready.scratch.nodes := by rw [hc'.nodes, hnodes, hc.nodes]
  have hi : ready'.scratch.inputScratch = ready.scratch.inputScratch := by
    rw [hc'.inputs, hnodes, hc.inputs]
  have ho : ready'.scratch.outputScratch = ready.scratch.outputScratch := by
    rw [hc'.outputs, hnodes, hc.outputs]
  calc ready'.scratch = ⟨ready'.scratch.nodes, ready'.scratch.inputScratch,
        ready'.scratch.outputScratch⟩ := rfl
    _ = ready.scratch := by rw [hn, hi, ho]

theorem schedule_independent [KeepsContext P] [KeepsContext S] :
    (∀ (config : GraphConfig) (ready g : Graph P S), Running config ready g →
      ∀ (order₂ : List NodeId) (edges₂ : List Edge) (ctx : ProcessContext),
        Linearizes (List.range g.nodeCount) (Feeds g.edges) order₂ → edges₂.Perm g.edges →
        (∀ target : NodeId × PortIdx,
          edges₂.find? (fun e => e.dst = target) = g.edges.find? (fun e => e.dst = target)) →
        let g₂ : Graph P S := { g with edges := edges₂, executionOrder := order₂ }
        (g₂.processCycle ctx).1.scratch = (g.processCycle ctx).1.scratch ∧
          (g₂.processCycle ctx).2 = (g.processCycle ctx).2) ∧
    (∀ (config : GraphConfig) (built built' ready : Graph P S), Built built → Built built' →
      built'.scratch.nodes = built.scratch.nodes → built'.edges.Perm built.edges →
      (built.edges.map Edge.dst).Nodup → built.compile config = (ready, .ok ()) →
      ∃ ready', built'.compile config = (ready', .ok ()) ∧
        ∀ ops : List (Op P S), (∀ op ∈ ops, Op.feedsOrCycles op) →
          (ready'.run ops).1.scratch = (ready.run ops).1.scratch ∧
            (ready'.run ops).2 = (ready.run ops).2) := by
  constructor
  · intro config ready g h order₂ edges₂ ctx horder _ hfirst
    have hcycle := h.reschedule horder hfirst ctx
    rw [h.processCycle_eq]
    simp [processCycle, h.compiled, hcycle]
  · intro config built built' ready hb hb' hnodes hperm hnodup hcompile
    have hc := compiled_of_compile hcompile
    have hw' := hb'.wired
    have hacyclic : Acyclic (Feeds built'.edges) := by
      have hlin := hc.linearizes fun e he => (checkLink_range (hb.wired.links e he)).2
      rw [feeds_of_perm hperm, ← hc.edges]
      exact hlin.acyclic
    obtain ⟨ready', hcompile'⟩ := compile_of_acyclic hw'.compiled
      (fun e he => (checkLink_range (hw'.links e he)).1) hacyclic config
    have hc' := compiled_of_compile hcompile'
    have hrel : Relinked config ready ready' ready ready' :=
      { running := .refl hb hcompile
        running' := .refl hb' hcompile'
        edges := by rw [hc'.edges, hc.edges]; exact hperm
        nodup := by rw [hc.edges]; exact hnodup
        scratch := hc.same_scratch hc' hnodes }
    refine ⟨ready', hcompile', fun ops hops => ?_⟩
    obtain ⟨hend, houts⟩ := hrel.run hops
    exact ⟨hend.scratch, houts⟩

end Graph

end

namespace Sample

open BoundedFifo PlainCore

def fork (links : List (Op RingSource RingSink)) : List (Op RingSource RingSink) :=
  .addNode source :: .addSink sink :: .addSink sink :: links

def forkBuilt (first second : NodeId) : Graph RingSource RingSink :=
  (Graph.new.run (fork [.link (0, 0) (first, 0), .link (0, 0) (second, 0)])).1

def forkReady (first second : NodeId) : Graph RingSource RingSink :=
  ((forkBuilt first second).compile config).1

theorem forkBuilt_spec (first second : NodeId) : Graph.Built (forkBuilt first second) :=
  ⟨fork [.link (0, 0) (first, 0), .link (0, 0) (second, 0)], by simp [fork, Op.builds], rfl⟩

end Sample

open PlainCore Sample in
theorem schedule_independent_fork :
    (forkReady 1 2).executionOrder ≠ (forkReady 2 1).executionOrder ∧
      ∃ ready', (forkBuilt 2 1).compile Sample.config = (ready', .ok ()) ∧
        ∀ ops : List (Op RingSource RingSink), (∀ op ∈ ops, Op.feedsOrCycles op) →
          (ready'.run ops).1.scratch = ((forkReady 1 2).run ops).1.scratch ∧
            (ready'.run ops).2 = ((forkReady 1 2).run ops).2 :=
  ⟨by decide, Graph.schedule_independent.2 Sample.config (forkBuilt 1 2) (forkBuilt 2 1)
    (forkReady 1 2) (forkBuilt_spec 1 2) (forkBuilt_spec 2 1) (by decide) (by decide)
    (by decide) rfl⟩

end AudioGraph
