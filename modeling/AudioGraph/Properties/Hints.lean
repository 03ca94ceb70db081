import AudioGraph.Engine.Distributed
import AudioGraph.Properties.Failover

namespace AudioGraph

def BoundaryPort.at (direction : NodeId → PortIdx → Option PortDir)
    (b : NodeId × PortIdx × RemoteNode) : Option BoundaryPort :=
  (direction b.1 b.2.1).map fun direction =>
    { node := b.1, port := b.2.1, kind := .network b.2.2, direction := direction }

section

variable {direction later : NodeId → PortIdx → Option PortDir}
  {declared : List (NodeId × PortIdx × RemoteNode)}

theorem BoundaryPort.mem_at {b : BoundaryPort}
    (h : b ∈ declared.filterMap (BoundaryPort.at direction)) :
    ∃ remote, (b.node, b.port, remote) ∈ declared ∧ b.kind = .network remote ∧
      direction b.node b.port = some b.direction := by
  obtain ⟨declaration, hmem, hat⟩ := List.mem_filterMap.mp h
  obtain ⟨d, hd, rfl⟩ := Option.map_eq_some_iff.mp hat
  exact ⟨declaration.2.2, hmem, rfl, hd⟩

theorem BoundaryPort.at_mem {node : NodeId} {port : PortIdx} {remote : RemoteNode} {d : PortDir}
    (hmem : (node, port, remote) ∈ declared) (hd : direction node port = some d) :
    ⟨node, port, .network remote, d⟩ ∈ declared.filterMap (BoundaryPort.at direction) :=
  List.mem_filterMap.mpr ⟨_, hmem, by simp [BoundaryPort.at, hd]⟩

-- What has a direction keeps it, so that a later list only has more declarations let in.
theorem BoundaryPort.at_sublist
    (h : ∀ node port d, direction node port = some d → later node port = some d) :
    (declared.filterMap (BoundaryPort.at direction)).Sublist
      (declared.filterMap (BoundaryPort.at later)) := by
  induction declared with
  | nil => exact .slnil
  | cons b declared ih =>
    cases hd : direction b.1 b.2.1 with
    | none =>
      have hskip : BoundaryPort.at direction b = none := by simp [BoundaryPort.at, hd]
      rw [List.filterMap_cons_none hskip]
      exact ih.trans ((List.sublist_cons_self b declared).filterMap _)
    | some d =>
      have hold : BoundaryPort.at direction b = some ⟨b.1, b.2.1, .network b.2.2, d⟩ := by
        simp [BoundaryPort.at, hd]
      have hnew : BoundaryPort.at later b = some ⟨b.1, b.2.1, .network b.2.2, d⟩ := by
        simp [BoundaryPort.at, h _ _ _ hd]
      rw [List.filterMap_cons_some hold, List.filterMap_cons_some hnew]
      exact ih.cons_cons _

end

namespace TopologySnapshot

def portDirection (s : TopologySnapshot) (node : NodeId) (port : PortIdx) : Option PortDir :=
  (s.node node).bind fun ns =>
    if port < ns.outputs.length then some .output
    else if port < ns.inputs.length then some .input
    else none

def partitionHint (s : TopologySnapshot) (declared : List (NodeId × PortIdx × RemoteNode)) :
    PartitionHint where
  localNodes := s.ids
  boundaryPorts := declared.filterMap (BoundaryPort.at s.portDirection)

end TopologySnapshot

section

variable [AudioCore] {P S : Type} [AudioNode P] [SinkNode S]

namespace Graph

variable {g g' : Graph P S} {declared : List (NodeId × PortIdx × RemoteNode)}

def ports (g : Graph P S) : List (List PortDescriptor × List PortDescriptor) :=
  g.scratch.nodes.map NodeSlot.ports

def portDir (ports : List PortDescriptor × List PortDescriptor) (port : PortIdx) :
    Option PortDir :=
  if port < ports.2.length then some .output
  else if port < ports.1.length then some .input
  else none

theorem boundaryPortDirection_eq (g : Graph P S) (node : NodeId) (port : PortIdx) :
    g.boundaryPortDirection node port = g.ports[node]?.bind fun ports => portDir ports port := by
  unfold boundaryPortDirection ports
  rw [List.getElem?_map]
  cases g.scratch.nodes[node]? with
  | none => rfl
  | some n => rfl

theorem partitionHints_eq (g : Graph P S) (declared : List (NodeId × PortIdx × RemoteNode)) :
    g.partitionHints declared =
      [⟨List.range g.nodeCount,
        declared.filterMap (BoundaryPort.at g.boundaryPortDirection)⟩] := rfl

theorem node_topologySnapshot (g : Graph P S) (id : NodeId) :
    g.topologySnapshot.node id = g.scratch.nodes[id]?.map (nodeSnapshot id) := by
  have hat : g.topologySnapshot.nodes[id]? = g.scratch.nodes[id]?.map (nodeSnapshot id) := by
    simp [topologySnapshot]
  have hid : ∀ (k : Nat) ns, g.topologySnapshot.nodes[k]? = some ns → ns.id = k := by
    intro k ns hk
    simp only [topologySnapshot, List.getElem?_mapIdx, Option.map_eq_some_iff] at hk
    obtain ⟨n, -, rfl⟩ := hk
    rfl
  cases hn : g.topologySnapshot.node id with
  | none =>
    rw [← hat]
    refine (List.getElem?_eq_none ?_).symm
    refine Nat.not_lt.mp fun hlt => ?_
    have hsome := List.getElem?_eq_getElem hlt
    have hnone := List.find?_eq_none.mp hn _ (List.getElem_mem hlt)
    exact hnone (by simpa using hid id _ hsome)
  | some ns =>
    obtain ⟨k, hk, hns⟩ := TopologySnapshot.node_at hn
    rw [← hat, ← hns, hid k ns hk, hk]

theorem ids_topologySnapshot (g : Graph P S) :
    g.topologySnapshot.ids = List.range g.nodeCount := by
  refine List.ext_getElem (by simp [TopologySnapshot.ids, topologySnapshot, nodeCount]) ?_
  intro n _ _
  simp [TopologySnapshot.ids, topologySnapshot, nodeSnapshot]

theorem partitionHint_topologySnapshot (g : Graph P S)
    (declared : List (NodeId × PortIdx × RemoteNode)) :
    [g.topologySnapshot.partitionHint declared] = g.partitionHints declared := by
  have hdir : g.topologySnapshot.portDirection = g.boundaryPortDirection := by
    funext node port
    rw [TopologySnapshot.portDirection, node_topologySnapshot]
    unfold boundaryPortDirection
    cases g.scratch.nodes[node]? with
    | none => rfl
    | some n => simp [nodeSnapshot]
  rw [partitionHints_eq, TopologySnapshot.partitionHint, ids_topologySnapshot, hdir]

theorem ports_length (g : Graph P S) : g.ports.length = g.nodeCount := List.length_map _

theorem direction_kept (h : g.ports <+: g'.ports) {node : NodeId} (hnode : node < g.nodeCount)
    (port : PortIdx) :
    g'.boundaryPortDirection node port = g.boundaryPortDirection node port := by
  obtain ⟨more, hmore⟩ := h
  rw [boundaryPortDirection_eq, boundaryPortDirection_eq, ← hmore,
    List.getElem?_append_left (g.ports_length ▸ hnode)]

theorem lt_of_direction {node : NodeId} {port : PortIdx} {d : PortDir}
    (h : g.boundaryPortDirection node port = some d) : node < g.nodeCount := by
  rw [boundaryPortDirection_eq] at h
  obtain ⟨ports, hat, -⟩ := Option.bind_eq_some_iff.mp h
  exact g.ports_length ▸ (List.getElem?_eq_some_iff.mp hat).1

section Run

variable [FixedPorts P] [FixedSinkPorts S]

theorem Change.ports {op : Op P S} (h : Change g op g') : g.ports <+: g'.ports := by
  cases h with
  | run hop =>
    rw [Graph.ports, Graph.ports, step_runs_ports g hop]
  | add _ slot =>
    rw [addSlot_eq]
    simp [Graph.ports, emitEvent, pushed]
  | link _ src dst _ => exact List.prefix_rfl
  | compile _ hready => rw [Graph.ports, Graph.ports, hready.nodes]
  | listen _ => exact List.prefix_rfl

theorem run_ports (g : Graph P S) (ops : List (Op P S)) : g.ports <+: (g.run ops).1.ports := by
  have hstep : ∀ (s : Graph P S) (op : Op P S), g.ports <+: s.ports →
      g.ports <+: (s.step op).1.ports := fun s op h => h.trans (step_change s op).ports
  exact Transition.run_always hstep List.prefix_rfl ops

end Run

theorem Linked.direction (h : Linked g) {e : Edge} (he : e ∈ g.edges) :
    g.boundaryPortDirection e.src.1 e.src.2 = some .output ∧
      ∃ n, g.scratch.nodes[e.dst.1]? = some n ∧ e.dst.2 < (AudioNode.inputs n).length ∧
        g.boundaryPortDirection e.dst.1 e.dst.2 =
          some (if e.dst.2 < (AudioNode.outputs n).length then .output else .input) := by
  obtain ⟨fromNode, toNode, fromDesc, toDesc, ha⟩ := checkLink_ok_iff.mp (h e he)
  have hout := (List.getElem?_eq_some_iff.mp ha.fromDesc_at).1
  have hin := (List.getElem?_eq_some_iff.mp ha.toDesc_at).1
  refine ⟨?_, toNode, ha.toNode_at, hin, ?_⟩
  · simp [boundaryPortDirection, ha.fromNode_at, hout]
  · simp only [boundaryPortDirection, ha.toNode_at, hin, if_true]
    split <;> rfl

end Graph

namespace GraphPartition

theorem step_eq (p : GraphPartition P S) (call : PartitionCall P S) :
    p.step call = (⟨(p.graph.step call.op).1, p.boundary⟩, (p.graph.step call.op).2) := by
  cases call <;> rfl

theorem run_eq (p : GraphPartition P S) (calls : List (PartitionCall P S)) :
    p.run calls = (⟨(p.graph.run (calls.map PartitionCall.op)).1, p.boundary⟩,
      (p.graph.run (calls.map PartitionCall.op)).2) := by
  induction calls generalizing p with
  | nil => rfl
  | cons call calls ih =>
    have hrest := ih (p.step call).1
    simp only [run, Transition.run_cons, step_eq] at hrest ⊢
    rw [hrest]
    rfl

variable {g₀ g : Graph P S}

theorem boundary_holds [FixedPorts P] [FixedSinkPorts S] (hreach : g₀.Reachable) {rx : ReceiverId}
    (hsubscribe : g₀.subscribeTopology = (g, rx))
    {declared : List (NodeId × PortIdx × RemoteNode)} {hint : PartitionHint}
    (hhint : g.partitionHints declared = [hint]) {calls : List (PartitionCall P S)}
    (hlive : .dropReceiver rx ∉ calls.map PartitionCall.op) :
    let p := ((new g hint.boundaryPorts).run calls).1
    ∃ heard later,
      p.graph.subscribers.filter (fun tx => tx.receiver = rx) = [⟨rx, heard, true⟩] ∧
      p.graph.partitionHints declared = [later] ∧
      (heard.foldl TopologySnapshot.replay g₀.topologySnapshot).partitionHint declared = later ∧
      p.boundary = hint.boundaryPorts ∧ p.boundary.Sublist later.boundaryPorts ∧
      (∀ b ∈ later.boundaryPorts, b ∈ p.boundary ∨ g.nodeCount ≤ b.node) ∧
      ∀ e ∈ p.graph.edges, ∀ remote,
        ((e.src.1, e.src.2, remote) ∈ declared →
          ⟨e.src.1, e.src.2, .network remote, .output⟩ ∈ later.boundaryPorts) ∧
        ((e.dst.1, e.dst.2, remote) ∈ declared →
          ∃ n, p.graph.scratch.nodes[e.dst.1]? = some n ∧
            ⟨e.dst.1, e.dst.2, .network remote,
              if e.dst.2 < (AudioNode.outputs n).length then .output else .input⟩ ∈
                later.boundaryPorts) := by
  intro p
  let ops := calls.map PartitionCall.op
  have hp : p = ⟨(g.run ops).1, hint.boundaryPorts⟩ := by
    simp only [p, run_eq, new, ops]
  have hg : g = (g₀.step .subscribeTopology).1 := by
    change g = g₀.subscribeTopology.1
    rw [hsubscribe]
  have hheard := (Graph.Informed.start hsubscribe).run hlive
  rw [List.nil_append] at hheard
  have hlinked : Graph.Linked (g.run ops).1 := by
    obtain ⟨before, rfl⟩ := hreach
    refine Graph.Reachable.linked ⟨before ++ .subscribeTopology :: ops, ?_⟩
    rw [hg]
    simp [Graph.run, Transition.run_append]
  have hports := Graph.run_ports g ops
  rw [Graph.partitionHints_eq] at hhint
  have hboundary : hint.boundaryPorts =
      declared.filterMap (BoundaryPort.at g.boundaryPortDirection) := by
    cases hhint
    rfl
  rw [hp]
  refine ⟨g.events ops, _, hheard.channel, Graph.partitionHints_eq _ _, ?_, rfl, ?_, ?_, ?_⟩
  · rw [hheard.replays]
    have hsame := Graph.partitionHint_topologySnapshot (g.run ops).1 declared
    rw [Graph.partitionHints_eq] at hsame
    exact List.head_eq_of_cons_eq hsame
  · rw [hboundary]
    refine BoundaryPort.at_sublist fun node port d hd => ?_
    rw [Graph.direction_kept hports (Graph.lt_of_direction hd), hd]
  · intro b hb
    obtain ⟨remote, hmem, hkind, hd⟩ := BoundaryPort.mem_at hb
    rcases Nat.lt_or_ge b.node g.nodeCount with hlt | hge
    · refine .inl ?_
      rw [Graph.direction_kept hports hlt] at hd
      rw [hboundary]
      have hold := BoundaryPort.at_mem hmem hd
      rwa [← hkind] at hold
    · exact .inr hge
  · intro e he remote
    obtain ⟨hsrc, n, hn, -, hdst⟩ := hlinked.direction he
    exact ⟨fun hmem => BoundaryPort.at_mem hmem hsrc,
      fun hmem => ⟨n, hn, BoundaryPort.at_mem hmem hdst⟩⟩

end GraphPartition

end

namespace Sample

open PlainCore

def remote : RemoteNode := ⟨9, "host", 5004, .aes67⟩

def declared : List (NodeId × PortIdx × RemoteNode) :=
  [(0, 0, remote), (1, 0, remote), (2, 0, remote)]

def partitionCalls : List (PartitionCall RingSource RingSink) :=
  [.graphMut (.addNode source), .compile config, .processCycle ()]

def listened : Graph RingSource RingSink := (Graph.new.run build).1.subscribeTopology.1

end Sample

open PlainCore Sample in
theorem boundary_holds_sample :
    ∃ heard : List TopologyEvent,
      (heard.foldl TopologySnapshot.replay (Graph.new.run build).1.topologySnapshot).partitionHint
          declared =
        ⟨[0, 1, 2], [⟨0, 0, .network remote, .output⟩, ⟨1, 0, .network remote, .input⟩,
          ⟨2, 0, .network remote, .output⟩]⟩ := by
  have hreach : Graph.Reachable (Graph.new.run build).1 := ⟨build, rfl⟩
  have hlive : .dropReceiver 0 ∉ partitionCalls.map PartitionCall.op := by
    simp [partitionCalls, PartitionCall.op]
  have hsubscribe : (Graph.new.run build).1.subscribeTopology = (listened, 0) := rfl
  have hhint : listened.partitionHints declared =
      [⟨[0, 1], [⟨0, 0, .network remote, .output⟩, ⟨1, 0, .network remote, .input⟩]⟩] := rfl
  obtain ⟨heard, later, -, hhints, hheard, -⟩ :=
    GraphPartition.boundary_holds hreach hsubscribe hhint hlive
  refine ⟨heard, hheard.trans ?_⟩
  exact (List.head_eq_of_cons_eq hhints).symm

end AudioGraph
