import AudioGraph.Properties.Rebuild

namespace AudioGraph

open BoundedFifo Pointwise

section

variable [AudioCore] {Q : Type} [AudioNode Q]

-- The factory hands out `Box<dyn AudioNode>`: a sink can only come back as an ordinary node.
def NodeSlot.asPlain : NodeSlot (DynNode Q) RingSink → DynNode Q
  | .plain n => n
  | .sink n => .ringSink n

def NodeSlot.heldRing : NodeSlot (DynNode Q) RingSink → Option (RingBuffer AudioFrame)
  | .plain (.ringSink n) => some n.producer
  | .sink n => some n.producer
  | _ => none

inductive Demotes : NodeSlot (DynNode Q) RingSink → NodeSlot (DynNode Q) RingSink → Prop
  | plain (n : DynNode Q) : Demotes (.plain n) (.plain n)
  | sink (n : RingSink) (producer : RingBuffer AudioFrame) :
      Demotes (.sink n) (.plain (.ringSink { n with producer := producer }))

omit [AudioCore] [AudioNode Q] in
theorem demotes_asPlain (n : NodeSlot (DynNode Q) RingSink) : Demotes n (.plain n.asPlain) := by
  cases n with
  | plain n => exact .plain n
  | sink n => exact .sink n n.producer

theorem Demotes.simulates : Simulates (Demotes (Q := Q)) where
  node n n' ctx i o h := by
    cases h with
    | plain n => exact .plain _
    | sink n producer =>
      cases i with
      | nil => exact .sink n producer
      | cons inp rest => exact .sink { n with stash := n.stash.copyFrom inp } producer
  outputs n n' ctx i o h := by
    cases h with
    | plain n => rfl
    | sink n producer => cases i <;> rfl
  ctx n n' ctx i o h := by
    cases h with
    | plain n => rfl
    | sink n producer => cases i <;> rfl

theorem Demotes.ports {n n' : NodeSlot (DynNode Q) RingSink} (h : Demotes n n') :
    n'.ports = n.ports := by
  cases h <;> rfl

omit [AudioNode Q] in
theorem Demotes.flushed {n n' : NodeSlot (DynNode Q) RingSink} (h : Demotes n n') :
    Demotes n.flushed n' := by
  cases h with
  | plain n => exact .plain n
  | sink n producer =>
    change Demotes (.sink n.flush.1) _
    unfold RingSink.flush
    split
    · exact .sink { n with producer := _ } producer
    · exact .sink n producer

omit [AudioCore] [AudioNode Q] in
theorem Demotes.isSink {n n' : NodeSlot (DynNode Q) RingSink} (h : Demotes n n') :
    n'.isSink = false := by
  cases h <;> rfl

theorem process_heldRing (n : NodeSlot (DynNode Q) RingSink) (ctx : ProcessContext)
    (i o : List AudioFrame) : (process n ctx i o).node.heldRing = n.heldRing := by
  cases n with
  | plain n =>
    cases n with
    | ringSource n => rfl
    | ringSink n => cases i <;> rfl
    | other n => rfl
  | sink n => cases i <;> rfl

theorem flushed_of_isSink {P S : Type} [SinkNode S] {nodes : List (NodeSlot P S)}
    (h : ∀ n ∈ nodes, n.isSink = false) :
    nodes.map (·.flushed) = nodes ∧ nodes.countP (·.isSink) = 0 ∧
      nodes.findSome? (·.flushError) = none := by
  refine ⟨?_, ?_, ?_⟩
  · refine (List.map_congr_left fun n hn => ?_).trans (List.map_id nodes)
    cases n with
    | plain n => rfl
    | sink n => cases h _ hn
  · exact List.countP_eq_zero.mpr fun n hn => by simp [h n hn]
  · refine List.findSome?_eq_none_iff.mpr fun n hn => ?_
    cases n with
    | plain n => rfl
    | sink n => cases h _ hn

namespace Graph

variable {g g' : Graph (DynNode Q) RingSink}

structure Demoted (rings : List (Option (RingBuffer AudioFrame)))
    (g g' : Graph (DynNode Q) RingSink) : Prop where
  mirror : Mirror Demotes g g'
  pristine : g.compiled = false → Pristine g
  pristine' : g'.compiled = false → Pristine g'
  rings : g'.scratch.nodes.map NodeSlot.heldRing = rings

omit [AudioCore] [AudioNode Q] in
theorem Demoted.isSink {rings : List (Option (RingBuffer AudioFrame))} (h : Demoted rings g g') :
    ∀ n ∈ g'.scratch.nodes, n.isSink = false := by
  intro n hn
  obtain ⟨k, hk, rfl⟩ := List.mem_iff_getElem.mp hn
  rcases forall₂_getElem? h.mirror.scratch.nodes k with ⟨-, hnone⟩ | ⟨a, b, -, hb, hab⟩
  · rw [List.getElem?_eq_getElem hk] at hnone
    cases hnone
  · rw [List.getElem?_eq_getElem hk, Option.some.injEq] at hb
    rw [hb]
    exact hab.isSink

omit [AudioNode Q] in
theorem Demoted.flushSinks {rings : List (Option (RingBuffer AudioFrame))}
    (h : Demoted rings g g') :
    g'.flushSinks = (g', 0, none) := by
  obtain ⟨hmap, hcount, hnone⟩ := flushed_of_isSink h.isSink
  rw [flushSinks_eq, hmap, hcount, hnone]

theorem Demoted.ports {rings : List (Option (RingBuffer AudioFrame))} (h : Demoted rings g g') :
    g'.scratch.nodes.map NodeSlot.ports = g.scratch.nodes.map NodeSlot.ports := by
  have hports : List.Forall₂ (fun n' n => NodeSlot.ports n' = NodeSlot.ports n)
      g'.scratch.nodes g.scratch.nodes :=
    h.mirror.scratch.nodes.flip.imp fun _ _ hab => Demotes.ports hab
  rw [← List.forall₂_eq_eq_eq]
  exact List.forall₂_map_left_iff.mpr (List.forall₂_map_right_iff.mpr hports)

theorem Demoted.compile {rings : List (Option (RingBuffer AudioFrame))} (h : Demoted rings g g')
    (config : GraphConfig) : Mirror Demotes (g.compile config).1 (g'.compile config).1 := by
  have hsame := h.mirror.compiled
  cases hc : g.compiled with
  | true =>
    rw [hc] at hsame
    simpa [Graph.compile, hc, hsame] using h.mirror
  | false =>
    rw [hc] at hsame
    have halike : Alike Demotes g g' := ⟨h.mirror.edges, h.ports, h.mirror.scratch.nodes⟩
    exact (halike.compile hc hsame (h.pristine hc) (h.pristine' hsame) config).2

omit [AudioNode Q] in
theorem Demoted.flushed {rings : List (Option (RingBuffer AudioFrame))} (h : Demoted rings g g') :
    Mirror Demotes g.flushSinks.1 g' := by
  rw [flushSinks_eq]
  exact h.mirror.setNodes
    (List.forall₂_map_left_iff.mpr (h.mirror.scratch.nodes.imp fun _ _ hab => hab.flushed))

omit [AudioNode Q] in
theorem Demoted.flushSink {rings : List (Option (RingBuffer AudioFrame))} (h : Demoted rings g g')
    (id : NodeId) :
    (g'.flushSink id).1 = g' ∧ Mirror Demotes (g.flushSink id).1 g' ∧
      ((∃ n n', g.scratch.nodes[id]? = some (.sink n) ∧
          g'.scratch.nodes[id]? = some (.plain (.ringSink n')) ∧ n'.stash = n.stash ∧
          (g'.flushSink id).2 = .error (.notFlushable id)) ∨
        ((∀ n, g.scratch.nodes[id]? ≠ some (.sink n)) ∧
          g'.scratch.nodes[id]? = g.scratch.nodes[id]? ∧
          (g'.flushSink id).2 = (g.flushSink id).2)) := by
  rcases forall₂_getElem? h.mirror.scratch.nodes id with ⟨hn, hn'⟩ | ⟨a, b, hn, hn', hab⟩
  · simpa [Graph.flushSink, hn, hn'] using h.mirror
  · cases hab with
    | plain n => simpa [Graph.flushSink, hn, hn'] using h.mirror
    | sink n producer =>
      have hset := forall₂_set h.mirror.scratch.nodes (Demotes.sink n producer).flushed id
      obtain ⟨hlt, hat⟩ := List.getElem?_eq_some_iff.mp hn'
      rw [← hat, List.set_getElem_self] at hset
      refine ⟨by simp [Graph.flushSink, hn'], ?_, Or.inl ⟨n, _, hn, hn', rfl, ?_⟩⟩
      · simp only [Graph.flushSink, hn]
        exact { h.mirror with
          scratch := ⟨hset, h.mirror.scratch.inputs, h.mirror.scratch.outputs⟩ }
      · simp [Graph.flushSink, hn']

theorem Demoted.step {rings : List (Option (RingBuffer AudioFrame))} (h : Demoted rings g g')
    (d : Drive) : Demoted rings (g.step d.op).1 (g'.step d.op).1 := by
  refine ⟨?_, fun hc => Pristine.change h.pristine (step_change g d.op) hc,
    fun hc => Pristine.change h.pristine' (step_change g' d.op) hc,
    ?_⟩
  · cases d with
    | compile config => exact h.compile config
    | feed node port src => exact h.mirror.feed node port src
    | processCycle ctx => exact (h.mirror.processCycle Demotes.simulates ctx).1
    | flushSinks =>
      change Mirror Demotes g.flushSinks.1 g'.flushSinks.1
      rw [h.flushSinks]
      exact h.flushed
    | flushSink id =>
      change Mirror Demotes (g.flushSink id).1 (g'.flushSink id).1
      rw [(h.flushSink id).1]
      exact (h.flushSink id).2.1
  · have hkept : ∀ g'' : Graph (DynNode Q) RingSink, g''.scratch.nodes = g'.scratch.nodes →
        g''.scratch.nodes.map NodeSlot.heldRing = rings := fun g'' hn => by rw [hn, h.rings]
    cases d with
    | compile config =>
      refine hkept _ ?_
      change (g'.compile config).1.scratch.nodes = _
      rcases compile_cases g' config with ⟨e, heq⟩ | ⟨ready, heq, -, hc⟩
      · rw [heq]
      · rw [heq]
        exact hc.nodes
    | feed node port src => exact hkept _ (feed_nodes g' node port src)
    | processCycle ctx => exact (processCycle_reads process_heldRing g' ctx).trans h.rings
    | flushSinks =>
      refine hkept _ ?_
      change g'.flushSinks.1.scratch.nodes = _
      rw [h.flushSinks]
    | flushSink id =>
      refine hkept _ ?_
      change (g'.flushSink id).1.scratch.nodes = _
      rw [(h.flushSink id).1]

theorem Demoted.drive {rings : List (Option (RingBuffer AudioFrame))} (h : Demoted rings g g')
    (ds : List Drive) : Demoted rings (g.drive ds).1 (g'.drive ds).1 := by
  induction ds generalizing g g' with
  | nil => exact h
  | cons d ds ih => exact ih (h.step d)

theorem demoted_rebuilt (hg : Built g) :
    Demoted (g.scratch.nodes.map NodeSlot.heldRing) g
      (rebuilt (g.scratch.nodes.map NodeSlot.asPlain) g.edges) := by
  have hreach : Reachable g := by
    obtain ⟨ops, -, heq⟩ := hg
    exact ⟨ops, heq⟩
  have hpristine := hreach.pristine hg.wired.compiled
  refine ⟨⟨rfl, ?_, ?_, ?_, ?_, ?_⟩, fun _ => hpristine, fun _ => ⟨rfl, ?_, ?_⟩, ?_⟩
  · rw [hpristine.order]
    rfl
  · rw [hg.wired.compiled]
    rfl
  · refine List.forall₂_map_right_iff.mpr (List.forall₂_map_right_iff.mpr ?_)
    exact List.forall₂_same.mpr fun n _ => demotes_asPlain n
  · rw [hpristine.inputs]
    simp [rebuilt, nodeCount]
  · rw [hpristine.outputs]
    simp [rebuilt, nodeCount]
  · rw [rebuilt_nodeCount]
    rfl
  · rw [rebuilt_nodeCount]
    rfl
  · simp only [rebuilt, List.map_map]
    refine List.map_congr_left fun n _ => ?_
    cases n with
    | plain n => rfl
    | sink n => rfl

theorem step_isSink {P S : Type} [AudioNode P] [SinkNode S] (g : Graph P S) (d : Drive) :
    (g.step d.op).1.scratch.nodes.map NodeSlot.isSink = g.scratch.nodes.map NodeSlot.isSink := by
  have hruns : (d.op : Op P S).runs → (g.step d.op).1.scratch.nodes.map NodeSlot.isSink =
      g.scratch.nodes.map NodeSlot.isSink :=
    step_runs_reads (fun n ctx i o => by cases n <;> rfl) (fun n => by cases n <;> rfl) g
  cases d with
  | compile config =>
    change (g.compile config).1.scratch.nodes.map NodeSlot.isSink = _
    rcases compile_cases g config with ⟨e, heq⟩ | ⟨ready, heq, -, hc⟩
    · rw [heq]
    · rw [heq, hc.nodes]
  | feed node port src => exact hruns trivial
  | flushSinks => exact hruns trivial
  | flushSink node => exact hruns trivial
  | processCycle ctx => exact hruns trivial

theorem drive_isSink {P S : Type} [AudioNode P] [SinkNode S] (g : Graph P S) (ds : List Drive) :
    (g.drive ds).1.scratch.nodes.map NodeSlot.isSink = g.scratch.nodes.map NodeSlot.isSink := by
  induction ds generalizing g with
  | nil => rfl
  | cons d ds ih => exact (ih (g.step d.op).1).trans (step_isSink g d)

theorem rebuilt_sinks_not_flushable {Φ : Type} (g : Graph (DynNode Q) RingSink) (hg : Built g)
    (factory : Φ → NodeId → Option (DynNode Q) × Φ) (φ φ' : Φ)
    (hs : Supplies factory (g.topologySnapshot.nodes.map (·.id)) φ
      (g.scratch.nodes.map NodeSlot.asPlain) φ') :
    ∃ g' : Graph (DynNode Q) RingSink, fromSnapshot g.topologySnapshot factory φ = (φ', .ok g') ∧
      ∀ (ds : List Drive) (h h' : Graph (DynNode Q) RingSink),
        h = (g.drive ds).1 → h' = (g'.drive ds).1 →
        (∀ id n, g.scratch.nodes[id]? = some (.sink n) →
          (h'.flushSink id).2 = .error (.notFlushable id) ∧
          ∃ m n', h.scratch.nodes[id]? = some (.sink m) ∧
            h'.scratch.nodes[id]? = some (.plain (.ringSink n')) ∧ n'.stash = m.stash ∧
            n'.producer = n.producer) ∧
        (∀ id, (∀ n, g.scratch.nodes[id]? ≠ some (.sink n)) →
          (h'.flushSink id).2 = (h.flushSink id).2 ∧
          h'.scratch.nodes[id]? = h.scratch.nodes[id]?) ∧
        h'.flushSinks = (h', 0, none) ∧
        h'.scratch.inputScratch = h.scratch.inputScratch ∧
        h'.scratch.outputScratch = h.scratch.outputScratch := by
  have hports : ((g.scratch.nodes.map NodeSlot.asPlain).map
      (.plain : DynNode Q → NodeSlot (DynNode Q) RingSink)).map NodeSlot.ports =
        g.scratch.nodes.map NodeSlot.ports := (demoted_rebuilt hg).ports
  refine ⟨_, fromSnapshot_linked hg.wired.links hs hports, ?_⟩
  rintro ds h h' rfl rfl
  have hend := (demoted_rebuilt hg).drive ds
  have hkind := drive_isSink g ds
  refine ⟨fun id n hn => ?_, fun id hn => ?_, hend.flushSinks, hend.mirror.scratch.inputs,
    hend.mirror.scratch.outputs⟩
  · rcases (hend.flushSink id).2.2 with ⟨m, n', hm, hn', hstash, hresult⟩ | ⟨hnone, -, -⟩
    · refine ⟨hresult, m, n', hm, hn', hstash, ?_⟩
      have hring := congrArg (fun l => l[id]?) hend.rings
      simp only [List.getElem?_map, hn, hn'] at hring
      simpa [NodeSlot.heldRing] using hring
    · obtain ⟨m, hm⟩ := NodeSlot.exists_sink hkind hn
      exact absurd hm (hnone m)
  · rcases (hend.flushSink id).2.2 with ⟨m, n', hm, -, -, -⟩ | ⟨-, hsame, hresult⟩
    · obtain ⟨n, hn'⟩ := NodeSlot.exists_sink hkind.symm hm
      exact absurd hn' (hn n)
    · exact ⟨hresult, hsame⟩

end Graph

end

namespace Sample

open PlainCore

def sinkBuild : List (Op (DynNode RingSource) RingSink) :=
  [.addNode (.ringSource source), .addSink sink, .link (0, 0) (1, 0)]

def sinkBuilt : Graph (DynNode RingSource) RingSink := (Graph.new.run sinkBuild).1

def sinkFactory (id : NodeId) : Option (DynNode RingSource) :=
  (sinkBuilt.scratch.nodes.map NodeSlot.asPlain)[id]?

theorem sinkBuilt_spec : Graph.Built sinkBuilt :=
  ⟨sinkBuild, by simp [sinkBuild, Op.builds], rfl⟩

theorem sinkFactory_supplies :
    Supplies (fun _ id => (sinkFactory id, ())) (sinkBuilt.topologySnapshot.nodes.map (·.id)) ()
      (sinkBuilt.scratch.nodes.map NodeSlot.asPlain) () :=
  .cons rfl (.cons rfl (.nil ()))

end Sample

open PlainCore Sample in
theorem rebuilt_sinks_not_flushable_sample :
    ∃ g' : Graph (DynNode RingSource) RingSink,
      Graph.fromSnapshot sinkBuilt.topologySnapshot (fun _ id => (sinkFactory id, ())) () =
          ((), .ok g') ∧
        (g'.flushSink 1).2 = .error (.notFlushable 1) ∧ g'.flushSinks = (g', 0, none) := by
  obtain ⟨g', hok, hrun⟩ := Graph.rebuilt_sinks_not_flushable sinkBuilt sinkBuilt_spec
    (fun _ id => (sinkFactory id, ())) () () sinkFactory_supplies
  obtain ⟨hsink, -, hflush, -, -⟩ := hrun [] sinkBuilt g' rfl rfl
  exact ⟨g', hok, (hsink 1 sink rfl).1, hflush⟩

open PlainCore Sample in
theorem rebuilt_sink_flushes_differently :
    ¬ ∀ (g g' : Graph (DynNode RingSource) RingSink)
      (factory : NodeId → Option (DynNode RingSource)),
      Graph.Built g →
      (∀ (id : NodeId) n, g.scratch.nodes[id]? = some n → factory id = some n.asPlain) →
      (Graph.fromSnapshot g.topologySnapshot (fun _ id => (factory id, ())) ()).2 = .ok g' →
      ∀ id, (g'.flushSink id).2 = (g.flushSink id).2 := by
  intro h
  have hfactory : ∀ (id : NodeId) n, sinkBuilt.scratch.nodes[id]? = some n →
      sinkFactory id = some n.asPlain := by
    intro id n hn
    rw [sinkFactory, List.getElem?_map, hn, Option.map_some]
  have hsame := h sinkBuilt (Graph.rebuilt (sinkBuilt.scratch.nodes.map NodeSlot.asPlain)
    sinkBuilt.edges) sinkFactory sinkBuilt_spec hfactory rfl 1
  exact absurd hsame (by intro heq; cases heq)

end AudioGraph
