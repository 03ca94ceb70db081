import AudioGraph.Properties.Dataflow
import AudioGraph.Properties.Reload

namespace AudioGraph

namespace AudioFrame

theorem copyFrom_twice (dst src : AudioFrame) :
    (dst.copyFrom src).copyFrom src = dst.copyFrom src := by
  rw [copyFrom_overlay, copyFrom_overlay, Overlay.overlay_twice]

theorem silenced_twice (f : AudioFrame) : f.silenced.silenced = f.silenced := by
  simp [silenced]

end AudioFrame

theorem fillSlot_twice (edges : List Edge) (source : NodeId × PortIdx → Option AudioFrame)
    (target : NodeId × PortIdx) (slot : AudioFrame) :
    fillSlot edges source target (fillSlot edges source target slot) =
      fillSlot edges source target slot := by
  simp only [fillSlot_eq_fed]
  cases fed edges source target with
  | none => exact slot.silenced_twice
  | some frame =>
    cases frame with
    | none => rfl
    | some f => exact slot.copyFrom_twice f

theorem fillSlots_twice (edges : List Edge) (source : NodeId × PortIdx → Option AudioFrame)
    (n : NodeId) (slots : List AudioFrame) :
    fillSlots edges source n (fillSlots edges source n slots) = fillSlots edges source n slots := by
  refine List.ext_getElem? fun p => ?_
  simp only [getElem?_fillSlots, Option.map_map, Function.comp_def, fillSlot_twice]

section

variable [AudioCore] {P S : Type} [AudioNode P] [SinkNode S]

namespace NodeSlot

-- A no-op source: what its outputs hold was put there from outside.
def Idle (n : NodeSlot P S) : Prop :=
  ∀ ctx i o, (process n ctx i o).node = n ∧ (process n ctx i o).outputs = o

-- On inputs of these sizes a call keeps the node, and its inputs alone decide its outputs, but
-- for what it leaves alone of an output frame: the length, and it may be the metadata.
structure Determined {τ : Type} (kept : AudioFrame → τ) (n : NodeSlot P S) (ins : List Nat)
    (outs : List τ) : Prop where
  node : ∀ ctx i o, i.map AudioFrame.len = ins → o.map kept = outs → (process n ctx i o).node = n
  leaves : ∀ ctx i o, i.map AudioFrame.len = ins → o.map kept = outs →
    (process n ctx i o).outputs.map kept = outs
  outputs : ∀ ctx ctx' i o o', i.map AudioFrame.len = ins → o.map kept = outs →
    o'.map kept = outs → (process n ctx i o).outputs = (process n ctx' i o').outputs

def Settles (n : NodeSlot P S) (i o : List AudioFrame) : Prop :=
  n.Idle ∨ ∃ (τ : Type) (kept : AudioFrame → τ),
    n.Determined kept (i.map AudioFrame.len) (o.map kept)

theorem Settles.process_again {n : NodeSlot P S} {i slots o : List AudioFrame}
    (h : n.Settles slots o) (hi : i.map AudioFrame.len = slots.map AudioFrame.len)
    (ctx ctx' : ProcessContext) :
    (process n ctx i o).node = n ∧
      (process n ctx' i (process n ctx i o).outputs).node = n ∧
      (process n ctx' i (process n ctx i o).outputs).outputs = (process n ctx i o).outputs := by
  rcases h with h | ⟨τ, kept, h⟩
  · exact ⟨(h ctx i o).1, h ctx' i _⟩
  · have hkept := h.leaves ctx i o hi rfl
    exact ⟨h.node ctx i o hi rfl, h.node ctx' i _ hi hkept,
      h.outputs ctx' ctx i _ o hi hkept rfl⟩

end NodeSlot

def Cell.Settles (c : Cell P S) : Prop :=
  ∀ n i o, c.node = some n → c.inFrames = some i → c.outFrames = some o → n.Settles i o

theorem visitCell_resettles (edges : List Edge) {n : NodeId} {old : Cell P S} (h : old.Settles) :
    Schedule.Resettles (visitCell edges) (Feeds edges) n old := by
  rintro u t ctx ctx' rfl hfeeds ht
  have hsource : ∀ slots, fillSlots edges (Cell.source t) n slots =
      fillSlots edges (Cell.source u) n slots := by
    refine fun slots => fillSlots_congr slots (fun _ => rfl) fun e he hdst => ?_
    simp only [Cell.source, hfeeds e.src.1 ⟨e, he, rfl, hdst⟩]
  have hagain : ∀ slots, fillSlots edges (Cell.source t) n
      (fillSlots edges (Cell.source u) n slots) = fillSlots edges (Cell.source u) n slots :=
    fun slots => by rw [hsource, fillSlots_twice]
  rcases (u n).called_or_not with hin | ⟨slots, hin, hmissing | ⟨o, node, hout, hnode⟩⟩
  · rw [visitCell_absent hin] at ht
    rw [visitCell_absent (ht ▸ hin)]
  · rw [visitCell_uncalled hin hmissing] at ht
    have hin' := congrArg Cell.inFrames ht
    have hmissing' : (t n).outFrames = none ∨ (t n).node = none := by rw [ht]; exact hmissing
    rw [visitCell_uncalled hin' hmissing', hagain, ht]
  · rw [visitCell_called hin hout hnode] at ht
    have hlens : (fillSlots edges (Cell.source u) n slots).map AudioFrame.len =
        slots.map AudioFrame.len :=
      fillSlots_measure AudioFrame.copyFrom_len AudioFrame.silenced_len edges _ n slots
    obtain ⟨hkept, hkept', houts⟩ :=
      (h node slots o hnode hin hout).process_again hlens ctx ctx'
    simp only [hkept] at ht
    have hin' := congrArg Cell.inFrames ht
    have hout' := congrArg Cell.outFrames ht
    have hnode' := congrArg Cell.node ht
    rw [visitCell_called hin' hout' hnode', ht]
    simp only [hagain, hkept', houts]

namespace Graph

variable {config : GraphConfig} {ready g : Graph P S}

def Settles (g : Graph P S) : Prop :=
  ∀ (id : NodeId) n i o, g.scratch.nodes[id]? = some n → g.scratch.inputScratch[id]? = some i →
    g.scratch.outputScratch[id]? = some o → n.Settles i o

theorem Running.processCycle_cells (h : Running config ready g) (ctx : ProcessContext) :
    (g.processCycle ctx).1.scratch.cells =
      (Schedule.run (visitCell g.edges) g.executionOrder (g.scratch.cells, ctx)).1 := by
  have hcells := congrArg Prod.fst (cycle_cells g.edges g.executionOrder (g.scratch, ctx))
  rw [h.processCycle_eq]
  exact hcells

theorem Running.processCycle_again (h : Running config ready g) (hnodes : g.Settles)
    (ctx ctx' : ProcessContext) :
    ((g.processCycle ctx).1.processCycle ctx').1 = (g.processCycle ctx).1 := by
  have hlin := h.linearizes
  have hafter := h.after_cycle ctx
  have hedges : (g.processCycle ctx).1.edges = g.edges := hafter.edges.trans h.edges.symm
  have horder : (g.processCycle ctx).1.executionOrder = g.executionOrder :=
    hafter.order.trans h.order.symm
  have hsettles : ∀ n, (g.scratch.cells n).Settles := hnodes
  have hcells : ((g.processCycle ctx).1.processCycle ctx').1.scratch.cells =
      (g.processCycle ctx).1.scratch.cells := by
    rw [hafter.processCycle_cells, hedges, horder, h.processCycle_cells]
    exact Schedule.run_settled (hlin.perm.nodup_iff.mpr List.nodup_range) hlin.before
      (fun n _ => visitCell_resettles g.edges (hsettles n)) ctx ctx'
  have heq : ∀ g' : Graph P S, g'.scratch = (g.processCycle ctx).1.scratch →
      { (g.processCycle ctx).1 with scratch := g'.scratch } = (g.processCycle ctx).1 := by
    intro g' hscratch
    rw [hscratch]
  rw [Graph.processCycle_eq]
  exact heq _ (GraphScratch.cells_injective hcells)

theorem cycles_settled (h : Running config ready g) (hnodes : g.Settles) (ctx : ProcessContext)
    (ctxs : List ProcessContext) : g.cycles (ctx :: ctxs) = (g.processCycle ctx).1 := by
  have hfixed : ∀ ctx', ((g.processCycle ctx).1.processCycle ctx').1 = (g.processCycle ctx).1 :=
    h.processCycle_again hnodes ctx
  change (g.processCycle ctx).1.cycles ctxs = _
  induction ctxs with
  | nil => rfl
  | cons ctx' ctxs ih =>
    change ((g.processCycle ctx).1.processCycle ctx').1.cycles ctxs = _
    rw [hfixed, ih]

end Graph

end

-- The source and the pass-through of the engine's flow tests.
inductive Relay where
  | source
  | passThrough
deriving DecidableEq

namespace Relay

def relayed : List AudioFrame → List AudioFrame → List AudioFrame
  | inp :: _, out :: outs => { out with samples := (out.copyFrom inp).samples } :: outs
  | _, outs => outs

theorem relayed_length (ins outs : List AudioFrame) :
    (relayed ins outs).length = outs.length := by
  cases ins <;> cases outs <;> rfl

instance [AudioCore] : AudioNode Relay where
  inputs
    | source => []
    | passThrough => [⟨.input, 1, .f32⟩]
  outputs _ := [⟨.output, 1, .f32⟩]
  process
    | source, ctx, _, o => ⟨source, ctx, o⟩
    | passThrough, ctx, i, o => ⟨passThrough, ctx, relayed i o⟩
  process_outputs_length n _ i o := by
    cases n with
    | source => rfl
    | passThrough => exact relayed_length i o

def metadata (f : AudioFrame) : UInt16 × UInt32 × Nat := (f.channels, f.sampleRate, f.len)

theorem relayed_single {i o : List AudioFrame} {k : Nat} {c : UInt16} {r : UInt32}
    (hi : i.map AudioFrame.len = [k]) (ho : o.map metadata = [(c, r, k)]) :
    ∃ inp, i = [inp] ∧ inp.len = k ∧ relayed i o = [⟨c, r, inp.samples⟩] := by
  obtain ⟨inp, rfl, hinp⟩ := List.map_eq_singleton_iff.mp hi
  obtain ⟨out, rfl, hout⟩ := List.map_eq_singleton_iff.mp ho
  simp only [metadata, Prod.mk.injEq] at hout
  obtain ⟨rfl, rfl, hlen⟩ := hout
  refine ⟨inp, rfl, hinp, ?_⟩
  simp only [relayed, AudioFrame.copyFrom_of_len_eq (hinp.trans hlen.symm)]

theorem passThrough_determined [AudioCore] {S : Type} [SinkNode S] (k : Nat) (c : UInt16)
    (r : UInt32) :
    NodeSlot.Determined metadata (.plain passThrough : NodeSlot Relay S) [k] [(c, r, k)] where
  node _ _ _ _ _ := rfl
  leaves ctx i o hi ho := by
    obtain ⟨inp, rfl, hinp, heq⟩ := relayed_single hi ho
    change (relayed [inp] o).map metadata = _
    rw [heq]
    simp only [List.map_singleton, metadata, ← hinp]
    rfl
  outputs ctx ctx' i o o' hi ho ho' := by
    obtain ⟨inp, rfl, -, heq⟩ := relayed_single hi ho
    obtain ⟨inp', hsame, -, heq'⟩ := relayed_single hi ho'
    cases hsame
    exact heq.trans heq'.symm

end Relay

namespace Sample

open PlainCore

def relayBuild : List (Op Relay RingSink) :=
  [.addNode .source, .addNode .passThrough, .link (0, 0) (1, 0)]

def relayReady : Graph Relay RingSink := ((Graph.new.run relayBuild).1.compile config).1

def relayFed : Graph Relay RingSink := relayReady.feed 0 0 frame

theorem relayFed_running : Graph.Running config relayReady relayFed where
  compiles := ⟨_, ⟨relayBuild, by simp [relayBuild, Op.builds], rfl⟩, rfl⟩
  runs := ⟨[.feed 0 0 frame], by simp [Op.runs], rfl⟩

theorem relayFed_settles : relayFed.Settles := by
  intro id n i o hn hi ho
  match id with
  | 0 =>
    cases hn
    exact .inl fun _ _ _ => ⟨rfl, rfl⟩
  | 1 =>
    cases hn
    cases hi
    cases ho
    exact .inr ⟨_, Relay.metadata, Relay.passThrough_determined 2 1 48000⟩
  | id + 2 => cases hn

end Sample

open PlainCore Sample in
theorem cycles_settled_relay :
    relayFed.cycles [(), (), ()] = (relayFed.processCycle ()).1 :=
  Graph.cycles_settled relayFed_running relayFed_settles () [(), ()]

end AudioGraph
