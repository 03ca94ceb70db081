import AudioGraph.Properties.Shape

namespace AudioGraph

open Pointwise

variable [AudioCore] {P S P' S' : Type} [AudioNode P] [SinkNode S] [AudioNode P'] [SinkNode S']

structure Simulates (sim : NodeSlot P S → NodeSlot P' S' → Prop) : Prop where
  node : ∀ n n' ctx i o, sim n n' → sim (process n ctx i o).node (process n' ctx i o).node
  outputs : ∀ n n' ctx i o, sim n n' → (process n' ctx i o).outputs = (process n ctx i o).outputs
  ctx : ∀ n n' ctx i o, sim n n' → (process n' ctx i o).ctx = (process n ctx i o).ctx

structure Mirrored (sim : NodeSlot P S → NodeSlot P' S' → Prop) (s : GraphScratch P S)
    (s' : GraphScratch P' S') : Prop where
  nodes : List.Forall₂ sim s.nodes s'.nodes
  inputs : s'.inputScratch = s.inputScratch
  outputs : s'.outputScratch = s.outputScratch

variable {sim : NodeSlot P S → NodeSlot P' S' → Prop}

theorem mirrored_visit (hsim : Simulates sim) (edges : List Edge) {s : GraphScratch P S}
    {s' : GraphScratch P' S'} (h : Mirrored sim s s') (ctx : ProcessContext) (n : NodeId) :
    Mirrored sim (visit edges (s, ctx) n).1 (visit edges (s', ctx) n).1 ∧
      (visit edges (s', ctx) n).2 = (visit edges (s, ctx) n).2 := by
  obtain ⟨hnodes, hins, houts⟩ := h
  cases hin : s.inputScratch[n]? with
  | none =>
    rw [visit_absent hin, visit_absent (hins ▸ hin)]
    exact ⟨⟨hnodes, hins, houts⟩, rfl⟩
  | some slots =>
    have hin' : s'.inputScratch[n]? = some slots := hins ▸ hin
    cases hout : s.outputScratch[n]? with
    | none =>
      rw [visit_uncalled hin (.inl hout), visit_uncalled hin' (.inl (houts ▸ hout))]
      exact ⟨⟨hnodes, by simp only [hins, houts], houts⟩, rfl⟩
    | some outSlots =>
      have hout' : s'.outputScratch[n]? = some outSlots := houts ▸ hout
      rcases forall₂_getElem? hnodes n with ⟨hn, hn'⟩ | ⟨node, node', hn, hn', hrel⟩
      · rw [visit_uncalled hin (.inr hn), visit_uncalled hin' (.inr hn')]
        exact ⟨⟨hnodes, by simp only [hins, houts], houts⟩, rfl⟩
      · rw [visit_called hin hout hn, visit_called hin' hout' hn', houts]
        let i := fillSlots edges (frameAt s.outputScratch) n slots
        have hnode := hsim.node node node' ctx i outSlots hrel
        have hprocess := hsim.outputs node node' ctx i outSlots hrel
        exact ⟨⟨forall₂_set hnodes hnode n, by simp only [hins], by simp only [hprocess, i]⟩,
          hsim.ctx node node' ctx i outSlots hrel⟩

theorem mirrored_cycle (hsim : Simulates sim) (edges : List Edge) (order : List NodeId)
    {s : GraphScratch P S} {s' : GraphScratch P' S'} (h : Mirrored sim s s')
    (ctx : ProcessContext) :
    Mirrored sim (cycle edges order (s, ctx)).1 (cycle edges order (s', ctx)).1 ∧
      (cycle edges order (s', ctx)).2 = (cycle edges order (s, ctx)).2 := by
  induction order generalizing s s' ctx with
  | nil => exact ⟨h, rfl⟩
  | cons n order ih =>
    obtain ⟨hvisit, hctx⟩ := mirrored_visit hsim edges h ctx n
    have hrest := ih hvisit (visit edges (s, ctx) n).2
    have hstate : (visit edges (s', ctx) n) =
        ((visit edges (s', ctx) n).1, (visit edges (s, ctx) n).2) := by rw [← hctx]
    simp only [cycle, List.foldl_cons] at hrest ⊢
    rw [hstate]
    exact hrest

namespace Graph

structure Mirror (sim : NodeSlot P S → NodeSlot P' S' → Prop) (g : Graph P S)
    (g' : Graph P' S') : Prop where
  edges : g'.edges = g.edges
  order : g'.executionOrder = g.executionOrder
  compiled : g'.compiled = g.compiled
  scratch : Mirrored sim g.scratch g'.scratch

variable {g : Graph P S} {g' : Graph P' S'}

omit [AudioCore] [AudioNode P] [SinkNode S] [AudioNode P'] [SinkNode S'] in
theorem Mirror.setNodes (h : Mirror sim g g') {nodes : List (NodeSlot P S)}
    {nodes' : List (NodeSlot P' S')} (hnodes : List.Forall₂ sim nodes nodes') :
    Mirror sim { g with scratch.nodes := nodes } { g' with scratch.nodes := nodes' } :=
  ⟨h.edges, h.order, h.compiled, hnodes, h.scratch.inputs, h.scratch.outputs⟩

omit [AudioCore] [AudioNode P] [SinkNode S] [AudioNode P'] [SinkNode S'] in
theorem Mirror.feed (h : Mirror sim g g') (node : NodeId) (port : PortIdx) (src : AudioFrame) :
    Mirror sim (g.feed node port src) (g'.feed node port src) := by
  unfold Graph.feed
  rw [h.scratch.outputs]
  split
  · exact h
  · split
    · exact h
    · exact ⟨h.edges, h.order, h.compiled, h.scratch.nodes, h.scratch.inputs, rfl⟩

theorem Mirror.processCycle (hsim : Simulates sim) (h : Mirror sim g g') (ctx : ProcessContext) :
    Mirror sim (g.processCycle ctx).1 (g'.processCycle ctx).1 ∧
      (g'.processCycle ctx).2 = (g.processCycle ctx).2 := by
  unfold Graph.processCycle
  simp only [h.compiled, h.edges, h.order]
  obtain ⟨hcycle, hctx⟩ := mirrored_cycle hsim g.edges g.executionOrder h.scratch ctx
  by_cases hc : g.compiled = true
  · simp only [hc, if_true, hctx, and_true]
    exact ⟨rfl, rfl, rfl, hcycle⟩
  · simp only [hc, if_false, Bool.false_eq_true, and_true]
    exact h

theorem Mirror.step (hsim : Simulates sim) (h : Mirror sim g g') {d : Drive}
    (hd : d.feedsOrCycles) :
    Mirror sim (g.step d.op).1 (g'.step d.op).1 ∧ (g'.step d.op).2 = (g.step d.op).2 := by
  cases d with
  | feed node port src => exact ⟨h.feed node port src, rfl⟩
  | processCycle ctx =>
    obtain ⟨hcycle, hout⟩ := h.processCycle hsim ctx
    exact ⟨hcycle, by simp only [Graph.step, Drive.op, hout]⟩
  | _ => cases hd

theorem Mirror.drive (hsim : Simulates sim) (h : Mirror sim g g') {ds : List Drive}
    (hds : ∀ d ∈ ds, d.feedsOrCycles) :
    Mirror sim (g.drive ds).1 (g'.drive ds).1 ∧ (g'.drive ds).2 = (g.drive ds).2 := by
  have hstep : ∀ (s : Graph P S) (s' : Graph P' S') (d : Drive), d.feedsOrCycles → Mirror sim s s' →
      Mirror sim (s.step d.op).1 (s'.step d.op).1 ∧ (s.step d.op).2 = (s'.step d.op).2 := by
    intro s s' d hd hs
    obtain ⟨hm, hout⟩ := hs.step hsim hd
    exact ⟨hm, hout.symm⟩
  obtain ⟨hend, houts⟩ := Transition.run_lockstep hstep hds h
  rw [List.forall₂_eq_eq_eq] at houts
  exact ⟨hend, houts.symm⟩

omit [AudioCore] [AudioNode P] [SinkNode S] [AudioNode P'] [SinkNode S'] in
theorem Mirror.readOutput (h : Mirror sim g g') (node : NodeId) (port : PortIdx) :
    g'.readOutput node port = g.readOutput node port := by
  rw [Graph.readOutput, Graph.readOutput, h.scratch.outputs]

omit [AudioCore] [AudioNode P] [SinkNode S] [AudioNode P'] [SinkNode S'] in
theorem Mirror.readInput (h : Mirror sim g g') (node : NodeId) (port : PortIdx) :
    g'.readInput node port = g.readInput node port := by
  rw [Graph.readInput, Graph.readInput, h.scratch.inputs]

end Graph

end AudioGraph
