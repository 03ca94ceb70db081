import AudioGraph.Engine.Snapshot
import AudioGraph.Foundation.Transition
import AudioGraph.Properties.Log
import AudioGraph.Properties.Rebuild

namespace AudioGraph

open Pointwise KeyedLog

structure Joins (node : NodeId → Option NodeSnapshot) (e : SnapshotEdge)
    (fromNode toNode : NodeSnapshot) (fromMeta toMeta : PortMeta) : Prop where
  fromNode_at : node e.src.1 = some fromNode
  toNode_at : node e.dst.1 = some toNode
  fromMeta_at : fromNode.outputs[e.src.2]? = some fromMeta
  toMeta_at : toNode.inputs[e.dst.2]? = some toMeta
  from_output : fromMeta.direction = .output
  to_input : toMeta.direction = .input
  channels : fromMeta.channels = toMeta.channels
  format : fromMeta.sampleFormat = toMeta.sampleFormat

def SnapshotEdge.Valid (node : NodeId → Option NodeSnapshot) (e : SnapshotEdge) : Prop :=
  ∃ fromNode toNode fromMeta toMeta, Joins node e fromNode toNode fromMeta toMeta

theorem SnapshotEdge.valid_congr {node node' : NodeId → Option NodeSnapshot} {e : SnapshotEdge}
    (hsrc : node' e.src.1 = node e.src.1) (hdst : node' e.dst.1 = node e.dst.1) :
    e.Valid node' ↔ e.Valid node := by
  have hone : ∀ {node node' : NodeId → Option NodeSnapshot}, node' e.src.1 = node e.src.1 →
      node' e.dst.1 = node e.dst.1 → e.Valid node → e.Valid node' := by
    rintro node node' hsrc hdst ⟨fromNode, toNode, fromMeta, toMeta, h⟩
    exact ⟨fromNode, toNode, fromMeta, toMeta,
      { h with fromNode_at := hsrc ▸ h.fromNode_at, toNode_at := hdst ▸ h.toNode_at }⟩
  exact ⟨hone hsrc.symm hdst.symm, hone hsrc hdst⟩

namespace TopologySnapshot

structure WellFormed (s : TopologySnapshot) : Prop where
  ids : (s.nodes.map (·.id)).Nodup
  edges : ∀ e ∈ s.edges, e.Valid s.node

variable {s : TopologySnapshot}

def nodeWith (s : TopologySnapshot) (ns : NodeSnapshot) (id : NodeId) : Option NodeSnapshot :=
  if id = ns.id then some ns else s.node id

theorem apply_addNode (s : TopologySnapshot) (ns : NodeSnapshot) :
    (s.apply (.addNode ns)).node = s.nodeWith ns ∧ (s.apply (.addNode ns)).edges = s.edges := by
  refine ⟨funext fun id => ?_, apply_addNode_edges s ns⟩
  have hnode : (s.apply (.addNode ns)).node id =
      lookup NodeSnapshot.id (s.apply (.addNode ns)).nodes id := rfl
  rw [hnode, apply_nodes]
  exact (lookup_upsert ns s.nodes id).trans (if_congr eq_comm rfl rfl)

theorem apply_addNode_ids (h : (s.nodes.map (·.id)).Nodup) (ns : NodeSnapshot) :
    ((s.apply (.addNode ns)).nodes.map (·.id)).Nodup := by
  rw [apply_nodes]
  exact nodup_write h (.put ns)

theorem apply_removeNode (s : TopologySnapshot) {id id' : NodeId} (h : id' ≠ id) :
    (s.apply (.removeNode id)).node id' = s.node id' := by
  have hnode : (s.apply (.removeNode id)).node id' =
      lookup NodeSnapshot.id (s.apply (.removeNode id)).nodes id' := rfl
  rw [hnode, apply_removeNode_nodes, lookup_erase, if_neg (Ne.symm h)]
  rfl

end TopologySnapshot

namespace Mutation

def Links (s : TopologySnapshot) : Mutation → Prop
  | .addLink e => e.Valid s.node
  | _ => True

def KeepsPorts (s : TopologySnapshot) : Mutation → Prop
  | .addNode ns => ∀ e ∈ s.edges, e.src.1 = ns.id ∨ e.dst.1 = ns.id → e.Valid (s.nodeWith ns)
  | _ => True

end Mutation

namespace TopologySnapshot

variable {s : TopologySnapshot}

theorem WellFormed.addNode_iff (h : s.WellFormed) (ns : NodeSnapshot) :
    (s.apply (.addNode ns)).WellFormed ↔ (Mutation.addNode ns).KeepsPorts s := by
  obtain ⟨hnode, hedges⟩ := apply_addNode s ns
  constructor
  · intro h' e he _
    rw [← hnode]
    exact h'.edges e (hedges ▸ he)
  · intro hkeeps
    refine ⟨apply_addNode_ids h.ids ns, fun e he => ?_⟩
    rw [hedges] at he
    rw [hnode]
    by_cases htouch : e.src.1 = ns.id ∨ e.dst.1 = ns.id
    · exact hkeeps e he htouch
    · obtain ⟨hsrc, hdst⟩ := not_or.mp htouch
      exact (SnapshotEdge.valid_congr (if_neg hsrc) (if_neg hdst)).mpr (h.edges e he)

theorem WellFormed.removeNode (h : s.WellFormed) (id : NodeId) :
    (s.apply (.removeNode id)).WellFormed where
  ids := h.ids.sublist (List.filter_sublist.map _)
  edges e he := by
    obtain ⟨he, htouch⟩ := List.mem_filter.mp he
    obtain ⟨hsrc, hdst⟩ : e.src.1 ≠ id ∧ e.dst.1 ≠ id := by simpa using htouch
    exact (SnapshotEdge.valid_congr (apply_removeNode s hsrc) (apply_removeNode s hdst)).mpr
      (h.edges e he)

theorem WellFormed.addLink (h : s.WellFormed) {e : SnapshotEdge} (he : e.Valid s.node) :
    (s.apply (.addLink e)).WellFormed := by
  refine ⟨h.ids, fun e' he' => ?_⟩
  rcases List.mem_append.mp he' with he' | he'
  · exact h.edges e' he'
  · rw [List.mem_singleton.mp he']
    exact he

theorem WellFormed.removeLink (h : s.WellFormed) (linkId : LinkId) :
    (s.apply (.removeLink linkId)).WellFormed := by
  simp only [apply]
  split
  · exact ⟨h.ids, fun e he => h.edges e (List.mem_of_mem_eraseIdx he)⟩
  · exact h

theorem WellFormed.apply_iff (h : s.WellFormed) {m : Mutation} (hm : m.Links s) :
    (s.apply m).WellFormed ↔ m.KeepsPorts s := by
  cases m with
  | addNode ns => exact h.addNode_iff ns
  | removeNode id => exact ⟨fun _ => trivial, fun _ => h.removeNode id⟩
  | addLink e => exact ⟨fun _ => trivial, fun _ => h.addLink hm⟩
  | removeLink linkId => exact ⟨fun _ => trivial, fun _ => h.removeLink linkId⟩

theorem node_at {id : NodeId} {ns : NodeSnapshot} (h : s.node id = some ns) :
    ∃ k : Nat, s.nodes[k]? = some ns ∧ ns.id = id := by
  have hid : ns.id = id := by simpa using List.find?_some h
  obtain ⟨k, hk⟩ := List.mem_iff_getElem?.mp (List.mem_of_find?_eq_some h)
  exact ⟨k, hk, hid⟩

structure Places (s : TopologySnapshot) (se : SnapshotEdge) (e : Edge) : Prop where
  src : ∃ ns, s.nodes[e.src.1]? = some ns ∧ ns.id = se.src.1
  srcPort : e.src.2 = se.src.2
  dst : ∃ ns, s.nodes[e.dst.1]? = some ns ∧ ns.id = se.dst.1
  dstPort : e.dst.2 = se.dst.2

theorem Places.relabels {se : SnapshotEdge} {e : Edge} (h : s.Places se e)
    {idMap : NodeId → Option NodeId}
    (hplaced : ∀ (k : Nat) ns, s.nodes[k]? = some ns → idMap ns.id = some k) :
    Graph.Relabels idMap se e := by
  obtain ⟨⟨a, ha, hsrc⟩, hsrcPort, ⟨b, hb, hdst⟩, hdstPort⟩ := h
  exact ⟨hsrc ▸ hplaced _ a ha, hsrcPort, hdst ▸ hplaced _ b hb, hdstPort⟩

end TopologySnapshot

theorem port_of_recorded {ports : List PortDescriptor} {metas : List PortMeta} {p : PortIdx}
    {m : PortMeta} (h : ports.map PortMeta.fromDescriptor = metas) (hm : metas[p]? = some m) :
    ports[p]? = some m.toDescriptor := by
  rw [← h, List.getElem?_map] at hm
  obtain ⟨d, hd, rfl⟩ := Option.map_eq_some_iff.mp hm
  rw [hd, PortMeta.to_from_descriptor]

section

variable [AudioCore] {P' : Type} [AudioNode P']

theorem checkLink_of_valid (S' : Type) [SinkNode S'] {s : TopologySnapshot} {nodes : List P'}
    (hrecorded : List.Forall₂ Recorded s.nodes nodes) {se : SnapshotEdge} (h : se.Valid s.node) :
    ∃ e, s.Places se e ∧
      checkLink (nodes.map (.plain : P' → NodeSlot P' S')) e.src e.dst = .ok () := by
  have hnode : ∀ {k : Nat} {ns : NodeSnapshot}, s.nodes[k]? = some ns →
      ∃ n, (nodes.map (.plain : P' → NodeSlot P' S'))[k]? = some (.plain n) ∧ Recorded ns n := by
    intro k ns hk
    rcases forall₂_getElem? hrecorded k with ⟨hnone, -⟩ | ⟨ns', n, hns, hn, hrec⟩
    · rw [hk] at hnone
      cases hnone
    · rw [hk, Option.some.injEq] at hns
      exact ⟨n, by rw [List.getElem?_map, hn, Option.map_some], hns ▸ hrec⟩
  obtain ⟨fromNode, toNode, fromMeta, toMeta, h⟩ := h
  obtain ⟨k, hk, hsrc⟩ := TopologySnapshot.node_at h.fromNode_at
  obtain ⟨l, hl, hdst⟩ := TopologySnapshot.node_at h.toNode_at
  obtain ⟨n, hn, hfrom⟩ := hnode hk
  obtain ⟨n', hn', hto⟩ := hnode hl
  refine ⟨⟨(k, se.src.2), (l, se.dst.2)⟩, ⟨⟨fromNode, hk, hsrc⟩, rfl, ⟨toNode, hl, hdst⟩, rfl⟩,
    checkLink_ok_iff.mpr ⟨.plain n, .plain n', fromMeta.toDescriptor, toMeta.toDescriptor, ?_⟩⟩
  exact
    { fromNode_at := hn
      toNode_at := hn'
      fromDesc_at := port_of_recorded hfrom.outputs h.fromMeta_at
      toDesc_at := port_of_recorded hto.inputs h.toMeta_at
      from_output := by simp [PortMeta.toDescriptor, h.from_output]
      to_input := by simp [PortMeta.toDescriptor, h.to_input]
      channels := h.channels
      format := by simp [PortMeta.toDescriptor, h.format] }

namespace TopologySnapshot

def Rebuilds (Φ P' S' : Type) [AudioNode P'] [SinkNode S'] (s : TopologySnapshot) : Prop :=
  ∀ (factory : Φ → NodeId → Option P' × Φ) (φ φ' : Φ) (nodes : List P'),
    Supplies factory (s.nodes.map (·.id)) φ nodes φ' → List.Forall₂ Recorded s.nodes nodes →
    ∃ g : Graph P' S', Graph.fromSnapshot s factory φ = (φ', .ok g)

theorem WellFormed.rebuilds {s : TopologySnapshot} (h : s.WellFormed) (Φ P' S' : Type)
    [AudioNode P'] [SinkNode S'] : s.Rebuilds Φ P' S' := by
  intro factory φ φ' nodes hs hrecorded
  obtain ⟨es, hplaces, hlinks⟩ :=
    exists_forall₂ fun se hse => checkLink_of_valid S' hrecorded (h.edges se hse)
  refine ⟨Graph.rebuilt nodes es, Graph.fromSnapshot_supplied hs h.ids (fun idMap hplaced => ?_)
    hlinks⟩
  exact hplaces.imp fun _ _ hse => hse.relabels hplaced

def applied (s : TopologySnapshot) (m : Mutation) : TopologySnapshot × Unit := (s.apply m, ())

theorem replay_wellFormed_iff (Φ P' S' : Type) [AudioNode P'] [SinkNode S']
    (s : TopologySnapshot) (ms : List Mutation) (hs : s.WellFormed)
    (hlinks : Transition.EachStep applied (fun t m => m.Links t) s ms) :
    Transition.Throughout applied (fun t => t.WellFormed ∧ t.Rebuilds Φ P' S') s ms ↔
      Transition.EachStep applied (fun t m => m.KeepsPorts t) s ms := by
  have hstep : ∀ (t : TopologySnapshot) (m : Mutation), m.Links t → True →
      t.WellFormed ∧ t.Rebuilds Φ P' S' →
      ((applied t m).1.WellFormed ∧ (applied t m).1.Rebuilds Φ P' S' ↔ m.KeepsPorts t) := by
    intro t m hm _ ht
    rw [← ht.1.apply_iff hm]
    exact ⟨fun h => h.1, fun h => ⟨h, h.rebuilds Φ P' S'⟩⟩
  exact Transition.throughout_iff (fun _ _ _ _ => trivial) hstep hlinks trivial
    ⟨hs, hs.rebuilds Φ P' S'⟩

end TopologySnapshot

end

namespace Sample

def wired : TopologySnapshot where
  nodes := [⟨0, [], [⟨.output, 1, .f32⟩]⟩, ⟨1, [⟨.input, 1, .f32⟩], []⟩]
  edges := [⟨(0, 0), (1, 0)⟩]

theorem wired_wellFormed : wired.WellFormed where
  ids := by decide
  edges e he := by
    rw [List.mem_singleton.mp he]
    exact ⟨_, _, _, _, ⟨rfl, rfl, rfl, rfl, rfl, rfl, rfl, rfl⟩⟩

def fanOut : List Mutation :=
  [.addNode ⟨2, [⟨.input, 1, .f32⟩], []⟩, .addLink ⟨(0, 0), (2, 0)⟩, .removeNode 1]

end Sample

open PlainCore Sample Transition in
theorem replay_wellFormed_fanOut :
    Throughout TopologySnapshot.applied
      (fun t => t.WellFormed ∧ t.Rebuilds Unit (DynNode Gate) RingSink) wired fanOut := by
  have hlinks : EachStep TopologySnapshot.applied (fun t m => m.Links t) wired fanOut :=
    ⟨trivial, ⟨_, _, _, _, ⟨rfl, rfl, rfl, rfl, rfl, rfl, rfl, rfl⟩⟩, trivial, trivial⟩
  refine (TopologySnapshot.replay_wellFormed_iff Unit (DynNode Gate) RingSink wired fanOut
    wired_wellFormed hlinks).mpr ⟨?_, trivial, trivial, trivial⟩
  intro e he htouch
  rw [List.mem_singleton.mp he] at htouch
  exact absurd htouch (by decide)

-- The node that feeds the edge is declared again with no port: the edge is left dangling.
open PlainCore Sample Transition in
theorem redeclared_node_dangles :
    wired.WellFormed ∧
      EachStep TopologySnapshot.applied (fun t m => m.Links t) wired [.addNode ⟨0, [], []⟩] ∧
      ¬ Throughout TopologySnapshot.applied (fun t => t.WellFormed) wired
        [.addNode ⟨0, [], []⟩] ∧
      ¬ Throughout TopologySnapshot.applied
        (fun t => t.Rebuilds Unit (DynNode Gate) RingSink) wired [.addNode ⟨0, [], []⟩] := by
  refine ⟨wired_wellFormed, ⟨trivial, trivial⟩, ?_, ?_⟩
  · rintro ⟨-, hafter⟩
    obtain ⟨fromNode, _, fromMeta, _, hjoins⟩ := hafter.edges ⟨(0, 0), (1, 0)⟩ (by decide)
    have hnode : (⟨0, [], []⟩ : NodeSnapshot) = fromNode := Option.some.inj hjoins.fromNode_at
    have hport := hjoins.fromMeta_at
    rw [← hnode] at hport
    cases hport
  · rintro ⟨-, hafter⟩
    have hsupplies : Supplies (fun _ id => (gatedFactory id, ())) [0, 1] ()
        [.other ⟨true⟩, .ringSink sink] () :=
      .cons rfl (.cons rfl (.nil ()))
    have hrecorded : List.Forall₂ Recorded
        [⟨0, [], []⟩, ⟨1, [⟨.input, 1, .f32⟩], []⟩]
        [(.other ⟨true⟩ : DynNode Gate), .ringSink sink] :=
      .cons ⟨rfl, rfl⟩ (.cons ⟨rfl, rfl⟩ .nil)
    obtain ⟨g, hg⟩ := hafter _ () () _ hsupplies hrecorded
    have herror : (Graph.fromSnapshot (wired.apply (.addNode ⟨0, [], []⟩))
        (fun _ id => (gatedFactory id, ())) () :
        Unit × Except GraphError (Graph (DynNode Gate) RingSink)).2 =
          .error (.portNotFound 0 0) := rfl
    have hok := congrArg Prod.snd hg
    cases herror.symm.trans hok

end AudioGraph
