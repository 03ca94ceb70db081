import AudioGraph.Properties.Cells
import AudioGraph.Properties.Running

namespace AudioGraph

open Relation

def Op.feedsTo {P S : Type} [AudioCore] (a : NodeId) : Op P S → Bool
  | .feed node _ _ => node = a
  | _ => false

section

variable {P S : Type}

namespace Graph

structure SameExcept (a : NodeId) (g g' : Graph P S) : Prop where
  eq : g' = { g with scratch := g'.scratch }
  others : ∀ m, m ≠ a → g'.scratch.cells m = g.scratch.cells m

structure Isolated (edges : List Edge) (a : NodeId) (g g' : Graph P S) : Prop where
  wired : g.edges = edges
  wired' : g'.edges = edges
  order : g'.executionOrder = g.executionOrder
  compiled : g'.compiled = g.compiled
  cells : ∀ m, ¬ ReflTransGen (Feeds edges) a m → g'.scratch.cells m = g.scratch.cells m

variable {edges : List Edge} {a : NodeId} {g g' g'' : Graph P S}

theorem SameExcept.isolated (h : SameExcept a g g') : Isolated g.edges a g g' where
  wired := rfl
  wired' := by rw [h.eq]
  order := by rw [h.eq]
  compiled := by rw [h.eq]
  cells m hm := h.others m fun heq => hm (heq ▸ .refl)

theorem Isolated.symm (h : Isolated edges a g g') : Isolated edges a g' g :=
  ⟨h.wired', h.wired, h.order.symm, h.compiled.symm,
    fun m hm => (h.cells m hm).symm⟩

theorem Isolated.trans (h : Isolated edges a g g') (h' : Isolated edges a g' g'') :
    Isolated edges a g g'' :=
  ⟨h.wired, h'.wired', h'.order.trans h.order, h'.compiled.trans h.compiled,
    fun m hm => (h'.cells m hm).trans (h.cells m hm)⟩

theorem Isolated.feed (h : Isolated edges a g g') (node : NodeId) (port : PortIdx)
    (src : AudioFrame) : Isolated edges a (g.feed node port src) (g'.feed node port src) := by
  rw [feed_eq g, feed_eq g']
  refine ⟨h.wired, h.wired', h.order, h.compiled, fun m hm => ?_⟩
  simp only [feed_cells, h.cells m hm]

theorem Isolated.feed_hidden (h : Isolated edges a g g') (port : PortIdx) (src : AudioFrame) :
    Isolated edges a (g.feed a port src) g' := by
  rw [feed_eq g]
  refine ⟨h.wired, h.wired', h.order, h.compiled, fun m hm => ?_⟩
  have hne : m ≠ a := fun heq => hm (heq ▸ .refl)
  simp only [feed_cells, if_neg hne, h.cells m hm]

variable [AudioCore] [AudioNode P] [SinkNode S] [KeepsContext P] [KeepsContext S]

theorem Isolated.processCycle (h : Isolated edges a g g') (ctx : ProcessContext) :
    Isolated edges a (g.processCycle ctx).1 (g'.processCycle ctx).1 := by
  have hclosed : ∀ k m, Feeds edges k m → ¬ ReflTransGen (Feeds edges) a m →
      ¬ ReflTransGen (Feeds edges) a k := fun k m hkm hm hk => hm (hk.tail hkm)
  have hcompiled := h.compiled
  cases hc : g.compiled with
  | false =>
    rw [hc] at hcompiled
    simpa [Graph.processCycle, hc, hcompiled] using h
  | true =>
    rw [hc] at hcompiled
    have hcells := congrArg Prod.fst (cycle_cells g.edges g.executionOrder (g.scratch, ctx))
    have hcells' := congrArg Prod.fst (cycle_cells g'.edges g'.executionOrder (g'.scratch, ctx))
    simp only [Graph.processCycle, hc, hcompiled, if_true]
    refine ⟨h.wired, h.wired', h.order, rfl, fun m hm => ?_⟩
    simp only [h.wired, h.wired', h.order] at hcells hcells' ⊢
    rw [hcells, hcells']
    exact Schedule.run_agrees (visitCell_readsOnly edges) (visitCell_keepsAmbient edges) hclosed
      g.executionOrder ctx h.cells hm

theorem Isolated.step (h : Isolated edges a g g') {op : Op P S} (hop : op.feedsOrCycles) :
    Isolated edges a (g.step op).1 (g'.step op).1 := by
  cases op with
  | feed node port src => exact h.feed node port src
  | processCycle ctx => exact h.processCycle ctx
  | _ => cases hop

omit [KeepsContext P] [KeepsContext S] in
theorem Isolated.step_hidden (h : Isolated edges a g g') {op : Op P S}
    (hop : op.feedsTo a = true) : Isolated edges a (g.step op).1 g' := by
  cases op with
  | feed node port src =>
    have hnode : node = a := by simpa [Op.feedsTo] using hop
    rw [hnode]
    exact h.feed_hidden port src
  | _ => cases hop

theorem Isolated.erase (h : Isolated edges a g g') {ops : List (Op P S)}
    (hops : ∀ op ∈ ops, Op.feedsOrCycles op) :
    Isolated edges a (g.run ops).1 (g'.run (ops.filter fun op => !op.feedsTo a)).1 := by
  let any : Outcome → Outcome → Prop := fun _ _ => True
  have hvisible : ∀ (s t : Graph P S) (op : Op P S), op.feedsOrCycles → op.feedsTo a = false →
      Isolated edges a s t →
        Isolated edges a (s.step op).1 (t.step op).1 ∧ any (s.step op).2 (t.step op).2 :=
    fun _ _ _ hop _ hs => ⟨hs.step hop, trivial⟩
  exact (Transition.run_erase (fun _ _ _ _ hop hs => hs.step_hidden hop) hvisible hops h).1

theorem signal_isolation (h : SameExcept a g g') (ops ops' : List (Op P S))
    (hops : ∀ op ∈ ops, Op.feedsOrCycles op) (hops' : ∀ op ∈ ops', Op.feedsOrCycles op)
    (hcommon : ops'.filter (fun op => !op.feedsTo a) = ops.filter fun op => !op.feedsTo a)
    (m : NodeId) (hne : m ≠ a) (hm : ¬ TransGen (Feeds g.edges) a m) :
    (g'.run ops').1.scratch.nodes[m]? = (g.run ops).1.scratch.nodes[m]? ∧
      (g'.run ops').1.scratch.inputScratch[m]? = (g.run ops).1.scratch.inputScratch[m]? ∧
      (g'.run ops').1.scratch.outputScratch[m]? = (g.run ops).1.scratch.outputScratch[m]? := by
  have hunreached : ¬ ReflTransGen (Feeds g.edges) a m := by
    rw [reflTransGen_iff_eq_or_transGen]
    exact not_or.mpr ⟨hne, hm⟩
  have hself : Isolated g.edges a g' g' := h.isolated.symm.trans h.isolated
  have hrun := h.isolated.erase hops
  have hrun' := hself.erase hops'
  rw [hcommon] at hrun'
  have hcell := (hrun.trans hrun'.symm).cells m hunreached
  exact ⟨congrArg Cell.node hcell, congrArg Cell.inFrames hcell, congrArg Cell.outFrames hcell⟩

end Graph

end

namespace Sample

open PlainCore

def lanes : Graph RingSource RingSink :=
  (Graph.new.run [.addNode source, .addNode source, .addSink sink, .addSink sink,
    .link (0, 0) (2, 0), .link (1, 0) (3, 0), .compile config]).1

theorem lanes_apart {m : NodeId} (h : TransGen (Feeds lanes.edges) 0 m) : m = 2 := by
  have hedges : lanes.edges = [⟨(0, 0), (2, 0)⟩, ⟨(1, 0), (3, 0)⟩] := rfl
  have hfirst : ∀ b, Feeds lanes.edges 0 b → b = 2 := by
    rintro b ⟨e, he, hsrc, hdst⟩
    simp only [hedges, List.mem_cons, List.not_mem_nil, or_false] at he
    rcases he with rfl | rfl
    · exact hdst.symm
    · cases hsrc
  induction h with
  | single hab => exact hfirst _ hab
  | tail _ hbc ih =>
    subst ih
    obtain ⟨e, he, hsrc, -⟩ := hbc
    simp only [hedges, List.mem_cons, List.not_mem_nil, or_false] at he
    rcases he with rfl | rfl <;> cases hsrc

end Sample

open PlainCore Sample in
theorem signal_isolation_lanes :
    (lanes.run [.feed 0 0 Sample.frame, .processCycle ()]).1.scratch.outputScratch[1]? =
      (lanes.run [.processCycle ()]).1.scratch.outputScratch[1]? := by
  have hsame : Graph.SameExcept 0 lanes lanes := ⟨rfl, fun _ _ => rfl⟩
  have hunreached : ¬ TransGen (Feeds lanes.edges) 0 1 := fun h => by cases lanes_apart h
  exact (Graph.signal_isolation hsame [.processCycle ()]
    [.feed 0 0 Sample.frame, .processCycle ()] (by simp [Op.feedsOrCycles])
    (by simp [Op.feedsOrCycles]) (by simp [Op.feedsTo]) 1 (by decide) hunreached).2.2

end AudioGraph
