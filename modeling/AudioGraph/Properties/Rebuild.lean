import AudioGraph.Engine.Ring
import AudioGraph.Properties.Events
import AudioGraph.Properties.Mirror
import AudioGraph.Properties.Running

namespace AudioGraph

open Pointwise

section

variable [AudioCore] {P S : Type} [AudioNode P] [SinkNode S]

namespace Graph

theorem Linked.change [FixedPorts P] [FixedSinkPorts S] {g g' : Graph P S} {op : Op P S}
    (h : Linked g) (hc : Change g op g') : Linked g' := by
  cases hc with
  | run hop =>
    intro e he
    rw [checkLink_congr (step_runs_ports g hop)]
    rw [step_runs_eq g hop] at he
    exact h e he
  | add _ slot => exact h.addSlot slot
  | link _ src dst hcheck => exact h.append hcheck rfl rfl
  | compile _ hready =>
    intro e he
    rw [hready.edges] at he
    rw [hready.nodes]
    exact h e he
  | listen _ => exact h

theorem Reachable.linked [FixedPorts P] [FixedSinkPorts S] {g : Graph P S} (h : Reachable g) :
    Linked g := by
  obtain ⟨ops, rfl⟩ := h
  have hnew : Linked (new : Graph P S) := fun _ he => absurd he List.not_mem_nil
  exact Transition.run_always (fun g op h => h.change (step_change g op)) hnew ops

structure Pristine (g : Graph P S) : Prop where
  order : g.executionOrder = []
  inputs : g.scratch.inputScratch = List.replicate g.nodeCount []
  outputs : g.scratch.outputScratch = List.replicate g.nodeCount []

omit [AudioCore] in
theorem eq_replicate_of_rows {table : List (List AudioFrame)} {k : Nat}
    (h : rows (fun _ => ()) table = List.replicate k []) : table = List.replicate k [] := by
  have hlen : table.length = k := by simpa [rows] using congrArg List.length h
  refine List.eq_replicate_iff.mpr ⟨hlen, fun row hrow => ?_⟩
  have hmem : row.map (fun _ => ()) ∈ rows (fun _ => ()) table := List.mem_map_of_mem hrow
  rw [h] at hmem
  exact List.map_eq_nil_iff.mp (List.eq_of_mem_replicate hmem)

theorem Pristine.change {g g' : Graph P S} {op : Op P S} (h : g.compiled = false → Pristine g)
    (hchange : Change g op g') (hc : g'.compiled = false) : Pristine g' := by
  cases hchange with
  | run hop =>
    have heq := step_runs_eq g hop
    have hshape := step_runs_shape measured_unit g hop
    have hbefore : Pristine g := h (by rw [heq] at hc; exact hc)
    have hcount : (g.step op).1.nodeCount = g.nodeCount := congrArg Shape.nodes hshape
    have hins := congrArg Shape.inputs hshape
    have houts := congrArg Shape.outputs hshape
    simp only [GraphScratch.shape, hbefore.inputs, hbefore.outputs, ← hcount] at hins houts
    refine ⟨?_, eq_replicate_of_rows ?_, eq_replicate_of_rows ?_⟩
    · rw [heq]
      exact hbefore.order
    · simpa [rows] using hins
    · simpa [rows] using houts
  | add _ slot =>
    rw [addSlot_eq] at hc ⊢
    have hbefore : Pristine g := h hc
    refine ⟨hbefore.order, ?_, ?_⟩
    · simp [emitEvent, pushed, nodeCount, hbefore.inputs, List.replicate_succ']
    · simp [emitEvent, pushed, nodeCount, hbefore.outputs, List.replicate_succ']
  | link _ src dst _ =>
    have hbefore : Pristine g := h hc
    exact ⟨hbefore.order, hbefore.inputs, hbefore.outputs⟩
  | compile _ hready => exact absurd (hready.compiled.symm.trans hc) (by decide)
  | listen _ =>
    have hbefore : Pristine g := h hc
    exact ⟨hbefore.order, hbefore.inputs, hbefore.outputs⟩

theorem Reachable.pristine {g : Graph P S} (h : Reachable g) (hc : g.compiled = false) :
    Pristine g := by
  obtain ⟨ops, rfl⟩ := h
  let inv : Graph P S → Prop := fun g => g.compiled = false → Pristine g
  have hstep : ∀ s (op : Op P S), inv s → inv (s.step op).1 :=
    fun s op h => Pristine.change h (step_change s op)
  have hnew : inv new := fun _ => ⟨rfl, rfl, rfl⟩
  have hrun : inv (Graph.run new ops).1 := Transition.run_always hstep hnew ops
  exact hrun hc

end Graph

inductive Supplies {Φ P' : Type} (factory : Φ → NodeId → Option P' × Φ) :
    List NodeId → Φ → List P' → Φ → Prop
  | nil (φ : Φ) : Supplies factory [] φ [] φ
  | cons {id : NodeId} {ids : List NodeId} {φ φ₁ φ₂ : Φ} {n : P'} {ns : List P'}
      (hcall : factory φ id = (some n, φ₁)) (hrest : Supplies factory ids φ₁ ns φ₂) :
      Supplies factory (id :: ids) φ (n :: ns) φ₂

structure Recorded {P' : Type} [AudioNode P'] (ns : NodeSnapshot) (n : P') : Prop where
  inputs : (AudioNode.inputs n).map PortMeta.fromDescriptor = ns.inputs
  outputs : (AudioNode.outputs n).map PortMeta.fromDescriptor = ns.outputs

variable {Φ P' S' : Type} [AudioNode P'] [SinkNode S'] {factory : Φ → NodeId → Option P' × Φ}

namespace Graph

def rebuilt (nodes : List P') (edges : List Edge) : Graph P' S' :=
  { (new : Graph P' S') with
    edges := edges
    scratch := ⟨nodes.map .plain, List.replicate nodes.length [], List.replicate nodes.length []⟩ }

omit [AudioCore] [AudioNode P'] [SinkNode S'] in
theorem rebuilt_nodeCount (nodes : List P') (edges : List Edge) :
    (rebuilt nodes edges : Graph P' S').nodeCount = nodes.length := by
  simp [rebuilt, nodeCount]

theorem rebuilt_addNode (nodes : List P') (n : P') :
    (rebuilt nodes [] : Graph P' S').addNode n = (rebuilt (nodes ++ [n]) [], nodes.length) := by
  rw [addNode, addSlot_eq, rebuilt_nodeCount]
  simp [rebuilt, emitEvent, pushed, new, List.replicate_succ']

theorem rebuilt_link {nodes : List P'} {edges : List Edge} {e : Edge}
    (h : checkLink (S := S') (nodes.map .plain) e.src e.dst = .ok ()) :
    (rebuilt nodes edges : Graph P' S').link e.src e.dst =
      (rebuilt nodes (edges ++ [e]), .ok edges.length) := by
  rcases link_cases (rebuilt nodes edges : Graph P' S') e.src e.dst with ⟨err, herr, -⟩ | ⟨-, heq⟩
  · have hbad := herr.symm.trans h
    cases hbad
  · rw [heq]
    rfl

theorem rebuildNodes_supplied {nss : List NodeSnapshot} {φ φ' : Φ} {ns : List P'}
    (before : List P') (idMap : NodeId → Option NodeId)
    (hs : Supplies factory (nss.map (·.id)) φ ns φ') (hids : (nss.map (·.id)).Nodup) :
    ∃ idMap', rebuildNodes factory nss φ (rebuilt before [] : Graph P' S') idMap =
        (φ', .ok (rebuilt (before ++ ns) [], idMap')) ∧
      (∀ (k : Nat) s, nss[k]? = some s → idMap' s.id = some (before.length + k)) ∧
      ∀ id, id ∉ nss.map (·.id) → idMap' id = idMap id := by
  induction nss generalizing φ ns before idMap with
  | nil =>
    cases hs
    exact ⟨idMap, by simp [rebuildNodes], by simp, fun _ _ => rfl⟩
  | cons s nss ih =>
    cases hs with
    | @cons _ _ _ φ₁ _ n ns hcall hrest =>
      obtain ⟨hs, hids⟩ := List.nodup_cons.mp hids
      obtain ⟨idMap', hrun, hplaced, hother⟩ := ih (before ++ [n])
        (fun id => if id = s.id then some before.length else idMap id) hrest hids
      refine ⟨idMap', ?_, ?_, ?_⟩
      · simp only [rebuildNodes, hcall, rebuilt_addNode]
        simpa using hrun
      · intro k s' hk
        cases k with
        | zero =>
          cases hk
          rw [hother s.id hs, if_pos rfl]
          rfl
        | succ k =>
          rw [hplaced k s' hk, List.length_append, List.length_singleton, Nat.add_assoc,
            Nat.add_comm 1 k]
      · intro id hid
        rw [List.map_cons, List.mem_cons, not_or] at hid
        rw [hother id hid.2, if_neg hid.1]

structure Relabels (idMap : NodeId → Option NodeId) (se : SnapshotEdge) (e : Edge) : Prop where
  src : idMap se.src.1 = some e.src.1
  srcPort : e.src.2 = se.src.2
  dst : idMap se.dst.1 = some e.dst.1
  dstPort : e.dst.2 = se.dst.2

theorem rebuildEdges_relabelled {nodes : List P'} {idMap : NodeId → Option NodeId}
    {ses : List SnapshotEdge} {es : List Edge} (before : List Edge) (rest : List SnapshotEdge)
    (h : List.Forall₂ (Relabels idMap) ses es)
    (hlinks : ∀ e ∈ es, checkLink (S := S') (nodes.map .plain) e.src e.dst = .ok ()) :
    rebuildEdges idMap (ses ++ rest) (rebuilt nodes before : Graph P' S') =
      rebuildEdges idMap rest (rebuilt nodes (before ++ es)) := by
  induction h generalizing before with
  | nil => simp
  | @cons se e ses es hse _ ih =>
    have hrest := ih (before ++ [e]) fun e' he' => hlinks e' (by simp [he'])
    simp only [List.cons_append, rebuildEdges, hse.src, hse.dst, ← hse.srcPort, ← hse.dstPort]
    rw [rebuilt_link (hlinks e (by simp))]
    simpa using hrest

theorem fromSnapshot_supplied {s : TopologySnapshot} {φ φ' : Φ} {nodes : List P'} {es : List Edge}
    (hs : Supplies factory (s.nodes.map (·.id)) φ nodes φ') (hids : (s.nodes.map (·.id)).Nodup)
    (hedges : ∀ idMap : NodeId → Option NodeId,
      (∀ (k : Nat) ns, s.nodes[k]? = some ns → idMap ns.id = some k) →
        List.Forall₂ (Relabels idMap) s.edges es)
    (hlinks : ∀ e ∈ es, checkLink (S := S') (nodes.map .plain) e.src e.dst = .ok ()) :
    fromSnapshot s factory φ = (φ', .ok (rebuilt nodes es : Graph P' S')) := by
  obtain ⟨idMap, hrun, hplaced, -⟩ : ∃ idMap,
      rebuildNodes factory s.nodes φ (new : Graph P' S') (fun _ => none) =
        (φ', .ok (rebuilt nodes [], idMap)) ∧ _ ∧ _ :=
    rebuildNodes_supplied [] (fun _ => none) hs hids
  have hrelabels := hedges idMap fun k ns hk => by simpa using hplaced k ns hk
  have hedges := rebuildEdges_relabelled [] [] hrelabels hlinks
  rw [List.append_nil, List.nil_append, rebuildEdges] at hedges
  simp only [fromSnapshot, hrun]
  exact congrArg (Prod.mk φ') hedges

theorem fromSnapshot_linked {g : Graph P S} (hlinks : Linked g) {φ φ' : Φ} {nodes : List P'}
    (hs : Supplies factory (g.topologySnapshot.nodes.map (·.id)) φ nodes φ')
    (hports : (nodes.map (.plain : P' → NodeSlot P' S')).map NodeSlot.ports =
      g.scratch.nodes.map NodeSlot.ports) :
    fromSnapshot g.topologySnapshot factory φ =
      (φ', .ok (rebuilt nodes g.edges : Graph P' S')) := by
  have hids : g.topologySnapshot.nodes.map (·.id) = List.range g.topologySnapshot.nodes.length := by
    refine List.ext_getElem (by simp) fun n _ _ => ?_
    simp [topologySnapshot, nodeSnapshot]
  refine fromSnapshot_supplied hs (hids ▸ List.nodup_range) (fun idMap hplaced => ?_) fun e he => ?_
  · have hat : ∀ n : NodeId, n < g.scratch.nodes.length → idMap n = some n := by
      intro n hn
      refine hplaced n (nodeSnapshot n g.scratch.nodes[n]) ?_
      simp [topologySnapshot, hn]
    refine List.forall₂_map_left_iff.mpr (List.forall₂_same.mpr fun e he => ?_)
    obtain ⟨hsrc, hdst⟩ := checkLink_range (hlinks e he)
    exact ⟨hat e.src.1 hsrc, rfl, hat e.dst.1 hdst, rfl⟩
  · rw [checkLink_congr hports]
    exact hlinks e he

theorem ports_of_recorded {g : Graph P S} {nodes : List P'}
    (h : List.Forall₂ Recorded g.topologySnapshot.nodes nodes) :
    (nodes.map (.plain : P' → NodeSlot P' S')).map NodeSlot.ports =
      g.scratch.nodes.map NodeSlot.ports := by
  refine List.ext_getElem? fun n => ?_
  have hat : g.topologySnapshot.nodes[n]? = g.scratch.nodes[n]?.map (nodeSnapshot n) := by
    simp [topologySnapshot]
  simp only [List.getElem?_map]
  rcases forall₂_getElem? h n with ⟨hn, hn'⟩ | ⟨ns, node, hn, hn', hrec⟩
  · rw [hat, Option.map_eq_none_iff] at hn
    rw [hn, hn']
    rfl
  · rw [hat, Option.map_eq_some_iff] at hn
    obtain ⟨old, hold, rfl⟩ := hn
    rw [hold, hn', Option.map_some, Option.map_some, Option.map_some]
    have hinj := List.map_injective_iff.mpr PortMeta.fromDescriptor_injective
    have hins : AudioNode.inputs node = AudioNode.inputs old := hinj hrec.inputs
    have houts : AudioNode.outputs node = AudioNode.outputs old := hinj hrec.outputs
    exact congrArg some (Prod.ext hins houts)

structure Alike (sim : NodeSlot P S → NodeSlot P' S' → Prop) (g : Graph P S)
    (g' : Graph P' S') : Prop where
  edges : g'.edges = g.edges
  ports : g'.scratch.nodes.map NodeSlot.ports = g.scratch.nodes.map NodeSlot.ports
  nodes : List.Forall₂ sim g.scratch.nodes g'.scratch.nodes

theorem Alike.compile {sim : NodeSlot P S → NodeSlot P' S' → Prop} {g : Graph P S}
    {g' : Graph P' S'} (h : Alike sim g g') (hc : g.compiled = false) (hc' : g'.compiled = false)
    (hp : Pristine g) (hp' : Pristine g') (config : GraphConfig) :
    (g'.compile config).2 = (g.compile config).2 ∧
      Mirror sim (g.compile config).1 (g'.compile config).1 := by
  have hlen : g'.scratch.nodes.length = g.scratch.nodes.length := h.nodes.length_eq.symm
  have hcount : g'.nodeCount = g.nodeCount := hlen
  have hfill : ∀ ports : List PortDescriptor × List PortDescriptor → List PortDescriptor,
      (g'.scratch.nodes.map fun n => portFrames config (ports n.ports)) =
        g.scratch.nodes.map fun n => portFrames config (ports n.ports) := by
    intro ports
    have hmap := congrArg (List.map fun p => portFrames config (ports p)) h.ports
    simpa only [List.map_map, Function.comp_def] using hmap
  simp only [Graph.compile, hc, hc', hlen, h.edges, Bool.false_eq_true, if_false]
  cases topologicalSort g.scratch.nodes.length g.edges with
  | error remaining =>
    refine ⟨rfl, h.edges, ?_, hc'.trans hc.symm, h.nodes, ?_, ?_⟩
    · rw [hp.order, hp'.order]
    · rw [hp.inputs, hp'.inputs, hcount]
    · rw [hp.outputs, hp'.outputs, hcount]
  | ok order => exact ⟨rfl, rfl, rfl, rfl, h.nodes, hfill Prod.fst, hfill Prod.snd⟩

theorem rebuild_roundtrip (S' : Type) [SinkNode S'] [FixedPorts P] [FixedSinkPorts S]
    (g : Graph P S) (hg : Reachable g)
    (factory : Φ → NodeId → Option P' × Φ) (φ φ' : Φ) (nodes : List P')
    (hs : Supplies factory (g.topologySnapshot.nodes.map (·.id)) φ nodes φ')
    (hrecorded : List.Forall₂ Recorded g.topologySnapshot.nodes nodes) :
    ∃ g' : Graph P' S', fromSnapshot g.topologySnapshot factory φ = (φ', .ok g') ∧
      g'.topologySnapshot = g.topologySnapshot ∧
      ∀ sim : NodeSlot P S → NodeSlot P' S' → Prop, Simulates sim → g.compiled = false →
        List.Forall₂ (fun n n' => sim n (.plain n')) g.scratch.nodes nodes →
        ∀ config : GraphConfig,
          (g'.compile config).2 = (g.compile config).2 ∧
          (g'.compile config).1.executionOrder = (g.compile config).1.executionOrder ∧
          ∀ ds : List Drive, (∀ d ∈ ds, d.feedsOrCycles) →
            ((g'.compile config).1.drive ds).2 = ((g.compile config).1.drive ds).2 ∧
            ∀ node port,
              ((g'.compile config).1.drive ds).1.readInput node port =
                ((g.compile config).1.drive ds).1.readInput node port ∧
              ((g'.compile config).1.drive ds).1.readOutput node port =
                ((g.compile config).1.drive ds).1.readOutput node port := by
  have hports : (nodes.map (.plain : P' → NodeSlot P' S')).map NodeSlot.ports =
      g.scratch.nodes.map NodeSlot.ports := ports_of_recorded hrecorded
  have hrebuilt := fromSnapshot_linked hg.linked hs hports
  refine ⟨rebuilt nodes g.edges, hrebuilt, snapshot_of_ports rfl hports, ?_⟩
  intro sim hsim hc hnodes config
  have halike : Alike sim g (rebuilt nodes g.edges) :=
    ⟨rfl, hports, List.forall₂_map_right_iff.mpr hnodes⟩
  have hpristine : Pristine (rebuilt nodes g.edges : Graph P' S') :=
    ⟨rfl, by rw [rebuilt_nodeCount]; rfl, by rw [rebuilt_nodeCount]; rfl⟩
  obtain ⟨hresult, hmirror⟩ := halike.compile hc rfl (hg.pristine hc) hpristine config
  refine ⟨hresult, hmirror.order, fun ds hds => ?_⟩
  obtain ⟨hend, houts⟩ := hmirror.drive hsim hds
  exact ⟨houts, fun node port => ⟨hend.readInput node port, hend.readOutput node port⟩⟩

end Graph

end

open PlainCore Sample in
theorem rebuild_roundtrip_sample :
    ∃ g' : Graph (NodeSlot RingSource RingSink) RingSink,
      Graph.fromSnapshot built.topologySnapshot (fun _ id => (built.scratch.nodes[id]?, ())) () =
          ((), .ok g') ∧ g'.topologySnapshot = built.topologySnapshot := by
  have hsupplies : Supplies (fun _ id => (built.scratch.nodes[id]?, ()))
      (built.topologySnapshot.nodes.map (·.id)) () [.plain source, .sink sink] () :=
    .cons rfl (.cons rfl (.nil ()))
  have hrecorded : List.Forall₂ Recorded built.topologySnapshot.nodes
      [(.plain source : NodeSlot RingSource RingSink), .sink sink] :=
    .cons ⟨rfl, rfl⟩ (.cons ⟨rfl, rfl⟩ .nil)
  obtain ⟨g', hok, hsame, -⟩ := Graph.rebuild_roundtrip RingSink built ⟨build, rfl⟩ _ () ()
    [NodeSlot.plain source, NodeSlot.sink sink] hsupplies hrecorded
  exact ⟨g', hok, hsame⟩

-- A node that takes its only port back as soon as it is processed.
structure Gate where
  shut : Bool

instance [AudioCore] : AudioNode Gate where
  inputs _ := []
  outputs n := if n.shut then [] else [⟨.output, 1, .f32⟩]
  process _ ctx _ o := ⟨⟨true⟩, ctx, o⟩
  process_outputs_length _ _ _ _ := rfl

namespace Sample

open PlainCore

def gated : Graph (DynNode Gate) RingSink :=
  (Graph.new.run [.addNode (.other ⟨false⟩), .addSink sink, .link (0, 0) (1, 0),
    .compile config, .processCycle ()]).1

def gatedFactory (id : NodeId) : Option (DynNode Gate) :=
  if id = 0 then some (.other ⟨true⟩) else some (.ringSink sink)

end Sample

open PlainCore Sample in
theorem shut_gate_not_rebuilt :
    ¬ ∀ (g : Graph (DynNode Gate) RingSink) (factory : NodeId → Option (DynNode Gate)),
      Graph.Reachable g →
      (∀ ns ∈ g.topologySnapshot.nodes, ∃ node, factory ns.id = some node ∧ Recorded ns node) →
      ∃ g' : Graph (DynNode Gate) RingSink,
        (Graph.fromSnapshot g.topologySnapshot (fun _ id => (factory id, ())) ()).2 = .ok g' := by
  intro h
  have hrecorded : ∀ ns ∈ gated.topologySnapshot.nodes,
      ∃ node, gatedFactory ns.id = some node ∧ Recorded ns node := by
    intro ns hns
    have hcases : ns = ⟨0, [], []⟩ ∨ ns = ⟨1, [⟨.input, 1, .f32⟩], []⟩ := by
      have hnodes : gated.topologySnapshot.nodes =
          [⟨0, [], []⟩, ⟨1, [⟨.input, 1, .f32⟩], []⟩] := rfl
      simpa [hnodes] using hns
    rcases hcases with rfl | rfl
    · exact ⟨.other ⟨true⟩, rfl, rfl, rfl⟩
    · exact ⟨.ringSink sink, rfl, rfl, rfl⟩
  obtain ⟨g', hg'⟩ := h gated gatedFactory ⟨_, rfl⟩ hrecorded
  have herror : (Graph.fromSnapshot gated.topologySnapshot (fun _ id => (gatedFactory id, ())) () :
      Unit × Except GraphError (Graph (DynNode Gate) RingSink)).2 =
        .error (.portNotFound 0 0) := rfl
  rw [herror] at hg'
  cases hg'

end AudioGraph
