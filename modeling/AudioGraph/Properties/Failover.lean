import AudioGraph.Properties.Compilation
import AudioGraph.Properties.Events
import AudioGraph.Properties.Rebuild
import AudioGraph.Properties.Restore

namespace AudioGraph

section

variable [AudioCore] {P S : Type} [AudioNode P] [SinkNode S]

theorem Op.events_le_one (op : Op P S) (outcome : Outcome) : (op.events outcome).length ≤ 1 := by
  unfold Op.events
  split <;> simp

theorem Op.events_compiled {op : Op P S} {outcome : Outcome}
    (h : op.events outcome = [.graphCompiled]) :
    ∃ config, op = .compile config ∧ outcome = .compiled (.ok ()) := by
  unfold Op.events at h
  split at h
  · cases h
  · cases h
  · cases h
  · exact ⟨_, rfl, rfl⟩
  · cases h

namespace Graph

variable {g₀ g : Graph P S} {rx : ReceiverId}

theorem run_append (g : Graph P S) (before after : List (Op P S)) :
    (g.run (before ++ after)).1 = ((g.run before).1.run after).1 := by
  simp [Graph.run, Transition.run_append]

theorem Informed.start (hsubscribe : g₀.subscribeTopology = (g, rx)) :
    Informed g₀.topologySnapshot rx [] g := by
  have hg : g = g₀.subscribeTopology.1 := by rw [hsubscribe]
  have hrx : rx = g₀.subscribeTopology.2 := by rw [hsubscribe]
  refine ⟨?_, ?_⟩
  · rw [hg, hrx]
    exact channel_subscribe g₀
  · rw [hg]
    rfl

theorem rebuilt_compiles {P' S' : Type} [AudioNode P'] [SinkNode S'] {built ready : Graph P S}
    {config : GraphConfig} (h : built.compile config = (ready, .ok ())) {nodes : List P'}
    (hlen : nodes.length = built.nodeCount) (config' : GraphConfig) :
    ∃ ready', (rebuilt nodes built.edges : Graph P' S').compile config' = (ready', .ok ()) ∧
      ready'.executionOrder = ready.executionOrder := by
  obtain ⟨-, order, hsort, rfl⟩ := compile_ok h
  have hsort' : topologicalSort (nodes.map (.plain : P' → NodeSlot P' S')).length built.edges =
      .ok order := by
    rw [List.length_map, hlen]
    exact hsort
  have hcompile : ((rebuilt nodes built.edges : Graph P' S').compile config').2 = .ok () ∧
      ((rebuilt nodes built.edges : Graph P' S').compile config').1.executionOrder = order := by
    simp only [Graph.compile, rebuilt, new, hsort', Bool.false_eq_true, if_false, emitEvent,
      and_self]
  exact ⟨_, Prod.ext rfl hcompile.1, hcompile.2⟩

theorem failover (P' S' : Type) [AudioNode P'] [SinkNode S'] [FixedPorts P] [FixedSinkPorts S]
    {Φ : Type} (hreach : g₀.Reachable)
    (hsubscribe : g₀.subscribeTopology = (g, rx)) {ops : List (Op P S)}
    (hlive : .dropReceiver rx ∉ ops) {queue heard : List TopologyEvent}
    (hqueue : (g.run ops).1.subscribers.filter (fun tx => tx.receiver = rx) =
      [⟨rx, queue, true⟩])
    (hheard : heard <+: queue) :
    ∃ before after, ops = before ++ after ∧
      let s := heard.foldl TopologySnapshot.replay g₀.topologySnapshot
      s = (g.run before).1.topologySnapshot ∧ queue = heard ++ (g.run before).1.events after ∧
      ∀ (factory : Φ → NodeId → Option P' × Φ) (φ φ' : Φ) (nodes : List P'),
        Supplies factory s.ids φ nodes φ' → List.Forall₂ Recorded s.nodes nodes →
        ∃ g' : Graph P' S', fromSnapshot s factory φ = (φ', .ok g') ∧ g'.topologySnapshot = s ∧
          (heard.getLast? = some .graphCompiled → ∀ config : GraphConfig,
            ∃ ready, g'.compile config = (ready, .ok ()) ∧
              ready.executionOrder = (g.run before).1.executionOrder) := by
  have hg : g = (g₀.step .subscribeTopology).1 := by
    change g = g₀.subscribeTopology.1
    rw [hsubscribe]
  have hstart := Informed.start hsubscribe
  have hall := hstart.run hlive
  rw [List.nil_append] at hall
  have hqueued : queue = g.events ops := by
    have hsender := hqueue.symm.trans hall.channel
    simpa using hsender
  rw [hqueued] at hheard
  obtain ⟨before, after, rfl, hlog, hlast⟩ := Transition.log_prefix Op.events_le_one hheard
  have hbefore := hstart.run fun hmem => hlive (List.mem_append_left after hmem)
  have hevents : g.events before = heard := hlog
  rw [List.nil_append, hevents] at hbefore
  have hlinked : Linked (g.run before).1 := by
    obtain ⟨ops, rfl⟩ := hreach
    refine Reachable.linked ⟨ops ++ .subscribeTopology :: before, ?_⟩
    rw [hg, run_append]
    rfl
  refine ⟨before, after, rfl, hbefore.replays, ?_, fun factory φ φ' nodes hs hrecorded => ?_⟩
  · rw [hqueued, ← hevents]
    exact Transition.log_append Op.events Graph.step g before after
  · rw [hbefore.replays] at hs hrecorded ⊢
    have hports : (nodes.map (.plain : P' → NodeSlot P' S')).map NodeSlot.ports =
        (g.run before).1.scratch.nodes.map NodeSlot.ports := ports_of_recorded hrecorded
    refine ⟨rebuilt nodes (g.run before).1.edges, fromSnapshot_linked hlinked hs hports,
      snapshot_of_ports rfl hports, fun hcompiled config => ?_⟩
    obtain ⟨bs, b, rfl, hb⟩ := hlast _ hcompiled
    obtain ⟨config₀, rfl, hresult⟩ := Op.events_compiled hb
    rw [run_concat] at hports ⊢
    have hcompile : (g.run bs).1.compile config₀ =
        (((g.run bs).1.step (.compile config₀)).1, .ok ()) :=
      Prod.ext rfl (Outcome.compiled.inj hresult)
    have hc := compiled_of_compile hcompile
    have hlen : nodes.length = (g.run bs).1.nodeCount := by
      have hcount := congrArg List.length hports
      rw [hc.nodes] at hcount
      simpa [nodeCount] using hcount
    rw [hc.edges]
    exact rebuilt_compiles hcompile hlen config

end Graph

end

open PlainCore Sample in
theorem failover_sample :
    ∃ (g' : Graph (NodeSlot RingSource RingSink) RingSink)
      (ready : Graph (NodeSlot RingSource RingSink) RingSink),
      Graph.fromSnapshot
          ((empty.subscribeTopology.1.events session).foldl TopologySnapshot.replay
            empty.topologySnapshot)
          (fun _ id => (built.scratch.nodes[id]?, ())) () = ((), .ok g') ∧
        g'.compile Sample.config = (ready, .ok ()) := by
  have hsupplies : Supplies (fun _ id => (built.scratch.nodes[id]?, ()))
      (TopologySnapshot.ids ((empty.subscribeTopology.1.events session).foldl
        TopologySnapshot.replay empty.topologySnapshot)) () [.plain source, .sink sink] () :=
    .cons rfl (.cons rfl (.nil ()))
  have hrecorded : List.Forall₂ Recorded ((empty.subscribeTopology.1.events session).foldl
        TopologySnapshot.replay empty.topologySnapshot).nodes
      [(.plain source : NodeSlot RingSource RingSink), .sink sink] :=
    .cons ⟨rfl, rfl⟩ (.cons ⟨rfl, rfl⟩ .nil)
  have hlive : .dropReceiver 0 ∉ session := by simp [session, build]
  have hsubscribe : empty.subscribeTopology = (empty.subscribeTopology.1, 0) := rfl
  obtain ⟨before, after, -, -, -, hrebuild⟩ :=
    Graph.failover (NodeSlot RingSource RingSink) RingSink ⟨[], rfl⟩ hsubscribe hlive rfl
      List.prefix_rfl
  obtain ⟨g', hok, -, hcompiles⟩ := hrebuild _ () () _ hsupplies hrecorded
  obtain ⟨ready, hready, -⟩ := hcompiles rfl Sample.config
  exact ⟨g', ready, hok, hready⟩

end AudioGraph
