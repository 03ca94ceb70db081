import AudioGraph.Properties.Dataflow
import AudioGraph.Properties.Restore

namespace AudioGraph

open Dependency KeyedLog Relation

theorem filter_eraseIdx {α : Type} {p : α → Bool} {l : List α} {k : Nat}
    (h : ∀ x, l[k]? = some x → p x = false) : (l.eraseIdx k).filter p = l.filter p := by
  induction l generalizing k with
  | nil => rfl
  | cons x l ih =>
    cases k with
    | zero => simp [h x rfl]
    | succ k => rw [List.eraseIdx_cons_succ, List.filter_cons, List.filter_cons, ih h]

namespace TopologySnapshot

variable {s s' : TopologySnapshot} {id : NodeId} {m : Mutation}

def Leads (s : TopologySnapshot) (a b : NodeId) : Prop := ∃ e ∈ s.edges, e.src.1 = a ∧ e.dst.1 = b

def incoming (s : TopologySnapshot) (id : NodeId) : List SnapshotEdge :=
  s.edges.filter fun e => e.dst.1 = id

def touched (s : TopologySnapshot) : Mutation → List NodeId
  | .addNode ns => [ns.id]
  | .removeNode id => id :: (s.edges.filter fun e => e.src.1 = id).map fun e => e.dst.1
  | .addLink se => [se.dst.1]
  | .removeLink linkId => s.edges[linkId]?.toList.map fun e => e.dst.1

def touchedBy : TopologySnapshot → List Mutation → List NodeId
  | _, [] => []
  | s, m :: ms => s.touched m ++ (s.apply m).touchedBy ms

def Spared (s : TopologySnapshot) (ms : List Mutation) (id : NodeId) : Prop :=
  ∀ t ∈ s.touchedBy ms, ¬ ReflTransGen s.Leads t id

theorem Spared.src {ms : List Mutation} (h : s.Spared ms id) {e : SnapshotEdge} (he : e ∈ s.edges)
    (hdst : e.dst.1 = id) : s.Spared ms e.src.1 :=
  fun t ht hpath => h t ht (hpath.tail ⟨e, he, rfl, hdst⟩)

theorem mem_ids : id ∈ s.ids ↔ (s.node id).isSome := by
  simp [ids, node, List.find?_isSome]

structure Same (id : NodeId) (s s' : TopologySnapshot) : Prop where
  node : s'.node id = s.node id
  incoming : s'.incoming id = s.incoming id

-- As much of it as a node can hear: of the links into a port, the first is the one that feeds it.
structure Heard (id : NodeId) (s s' : TopologySnapshot) : Prop where
  node : s'.node id = s.node id
  first : ∀ p, (s'.incoming id).find? (fun e => e.dst.2 = p) =
    (s.incoming id).find? fun e => e.dst.2 = p

theorem Same.heard (h : Same id s s') : Heard id s s' :=
  ⟨h.node, fun p => by rw [h.incoming]⟩

theorem apply_same (h : id ∉ s.touched m) : Same id s (s.apply m) := by
  cases m with
  | addNode ns =>
    obtain ⟨hnode, hedges⟩ := apply_addNode s ns
    have hne : id ≠ ns.id := by simpa [touched] using h
    refine ⟨?_, by rw [incoming, incoming, hedges]⟩
    rw [hnode, nodeWith, if_neg hne]
  | removeNode r =>
    rw [touched, List.mem_cons, not_or] at h
    obtain ⟨hne, hnone⟩ := h
    refine ⟨apply_removeNode s hne, ?_⟩
    rw [incoming, incoming, apply_removeNode_edges, List.filter_filter]
    refine List.filter_congr fun e he => ?_
    cases hdst : decide (e.dst.1 = id) with
    | false => rfl
    | true =>
      have hid : e.dst.1 = id := of_decide_eq_true hdst
      have hsrc : e.src.1 ≠ r := by
        intro hsrc
        refine hnone (List.mem_map.mpr ⟨e, List.mem_filter.mpr ⟨he, ?_⟩, hid⟩)
        exact decide_eq_true hsrc
      simp [hsrc, hid, hne]
  | addLink se =>
    have hne : se.dst.1 ≠ id := fun heq => h (by simp [touched, heq])
    exact ⟨rfl, by simp [incoming, apply, List.filter_append, hne]⟩
  | removeLink linkId =>
    simp only [apply]
    split
    · refine ⟨rfl, filter_eraseIdx fun e he => ?_⟩
      have hne : e.dst.1 ≠ id := fun heq => h (by simp [touched, he, heq])
      exact decide_eq_false hne
    · exact ⟨rfl, rfl⟩

theorem applyAll_same {ms : List Mutation} (h : id ∉ s.touchedBy ms) :
    Same id s (s.applyAll ms) := by
  induction ms generalizing s with
  | nil => exact ⟨rfl, rfl⟩
  | cons m ms ih =>
    rw [touchedBy, List.mem_append, not_or] at h
    have hstep := apply_same h.1
    have hrest := ih h.2
    exact ⟨hrest.node.trans hstep.node, hrest.incoming.trans hstep.incoming⟩

theorem applyAll_ids_nodup (h : s.ids.Nodup) (ms : List Mutation) : (s.applyAll ms).ids.Nodup := by
  rw [ids, applyAll_nodes]
  exact nodup_replay h _

def placed (s : TopologySnapshot) (se : SnapshotEdge) : Edge :=
  ⟨(s.ids.idxOf se.src.1, se.src.2), (s.ids.idxOf se.dst.1, se.dst.2)⟩

theorem idxOf_node (hids : s.ids.Nodup) {k : Nat} {ns : NodeSnapshot}
    (hk : s.nodes[k]? = some ns) : s.ids.idxOf ns.id = k ∧ ns.id ∈ s.ids := by
  have hat : s.ids[k]? = some ns.id := by rw [ids, List.getElem?_map, hk, Option.map_some]
  obtain ⟨hlt, heq⟩ := List.getElem?_eq_some_iff.mp hat
  rw [← heq]
  exact ⟨hids.idxOf_getElem k hlt, List.getElem_mem hlt⟩

theorem Places.placed {se : SnapshotEdge} {e : Edge} (h : s.Places se e) (hids : s.ids.Nodup) :
    s.placed se = e ∧ se.src.1 ∈ s.ids ∧ se.dst.1 ∈ s.ids := by
  obtain ⟨⟨a, ha, hsrc⟩, hsrcPort, ⟨b, hb, hdst⟩, hdstPort⟩ := h
  obtain ⟨ha, hmemA⟩ := idxOf_node hids ha
  obtain ⟨hb, hmemB⟩ := idxOf_node hids hb
  rw [hsrc] at ha hmemA
  rw [hdst] at hb hmemB
  refine ⟨?_, hmemA, hmemB⟩
  rw [TopologySnapshot.placed, ha, hb, ← hsrcPort, ← hdstPort]

end TopologySnapshot

def Drive.placed [AudioCore] (s : TopologySnapshot) : Drive → Drive
  | .feed id port src => .feed (s.ids.idxOf id) port src
  | d => d

theorem Drive.feedsOrCycles.placed [AudioCore] {s : TopologySnapshot} {d : Drive}
    (h : d.feedsOrCycles) : (d.placed s).feedsOrCycles := by
  cases d <;> trivial

section

variable [AudioCore] {Φ P S : Type} [AudioNode P] [SinkNode S] {s s' : TopologySnapshot}
  {factory : Φ → NodeId → Option P × Φ} {φ φ' : Φ} {g g' ready ready' h h' : Graph P S}
  {config : GraphConfig} {keep : NodeId → Prop}

omit [AudioCore] [AudioNode P] in
theorem Supplies.length_eq {ids : List NodeId} {nodes : List P}
    (hs : Supplies factory ids φ nodes φ') : nodes.length = ids.length := by
  induction hs with
  | nil φ => rfl
  | cons _ _ ih => rw [List.length_cons, List.length_cons, ih]

namespace Graph

theorem rebuilt_addNodes (before nodes : List P) :
    ((rebuilt before [] : Graph P S).run (nodes.map .addNode)).1 =
      rebuilt (before ++ nodes) [] := by
  induction nodes generalizing before with
  | nil => rw [List.append_nil]; rfl
  | cons n nodes ih =>
    have hrest := ih (before ++ [n])
    rw [List.append_assoc, List.singleton_append] at hrest
    rw [← hrest]
    change (((rebuilt before [] : Graph P S).addNode n).1.run (nodes.map .addNode)).1 = _
    rw [rebuilt_addNode]

theorem rebuilt_links {nodes : List P} (before : List Edge) {es : List Edge}
    (hes : ∀ e ∈ es, checkLink (S := S) (nodes.map .plain) e.src e.dst = .ok ()) :
    ((rebuilt nodes before : Graph P S).run (es.map fun e => .link e.src e.dst)).1 =
      rebuilt nodes (before ++ es) := by
  induction es generalizing before with
  | nil => rw [List.append_nil]; rfl
  | cons e es ih =>
    have hrest := ih (before ++ [e]) fun e' he' => hes e' (List.mem_cons_of_mem _ he')
    rw [List.append_assoc, List.singleton_append] at hrest
    rw [← hrest]
    change (((rebuilt nodes before : Graph P S).link e.src e.dst).1.run _).1 = _
    rw [rebuilt_link (hes e List.mem_cons_self)]

theorem rebuilt_built {nodes : List P} {es : List Edge}
    (hes : ∀ e ∈ es, checkLink (S := S) (nodes.map .plain) e.src e.dst = .ok ()) :
    Built (rebuilt nodes es : Graph P S) := by
  refine ⟨nodes.map .addNode ++ es.map fun e => .link e.src e.dst, fun op hop => ?_, ?_⟩
  · rcases List.mem_append.mp hop with hop | hop
    · obtain ⟨n, -, rfl⟩ := List.mem_map.mp hop
      trivial
    · obtain ⟨e, -, rfl⟩ := List.mem_map.mp hop
      trivial
  · have hnodes : ((new : Graph P S).run (nodes.map .addNode)).1 = rebuilt nodes [] :=
      rebuilt_addNodes [] nodes
    rw [Graph.run, Transition.run_append]
    change (((new : Graph P S).run (nodes.map .addNode)).1.run _).1 = _
    rw [hnodes, rebuilt_links [] hes, List.nil_append]

structure Laid (s : TopologySnapshot) (g : Graph P S) : Prop where
  edges : g.edges = s.edges.map s.placed
  known : ∀ e ∈ s.edges, e.src.1 ∈ s.ids ∧ e.dst.1 ∈ s.ids
  count : g.nodeCount = s.ids.length

theorem laid_relinks {nodes : List (NodeSlot P S)} {ses : List SnapshotEdge} {es : List Edge}
    (hids : s.ids.Nodup) (h : List.Forall₂ (s.Relinks nodes) ses es) :
    es = ses.map s.placed ∧ (∀ e ∈ ses, e.src.1 ∈ s.ids ∧ e.dst.1 ∈ s.ids) ∧
      ∀ e ∈ es, checkLink nodes e.src e.dst = .ok () := by
  induction h with
  | nil => simp
  | cons hse _ ih =>
    obtain ⟨hedges, hknown, hlinks⟩ := ih
    obtain ⟨hplaced, hmem⟩ := hse.places.placed hids
    refine ⟨by rw [List.map_cons, hplaced, ← hedges], ?_, ?_⟩
    · exact List.forall_mem_cons.mpr ⟨hmem, hknown⟩
    · exact List.forall_mem_cons.mpr ⟨checkLink_passes.mpr hse.passes, hlinks⟩

theorem laid_of_fromSnapshot (hids : s.ids.Nodup)
    (hresult : fromSnapshot s factory φ = (φ', .ok g)) : Laid s g ∧ Built g := by
  rcases restores_or_offends S s factory φ with ⟨φ₁, nodes, g', hr⟩ | ⟨φ₁, err, hr⟩
  · cases (hr.fromSnapshot hids).symm.trans hresult
    obtain ⟨hedges, hknown, hlinks⟩ := laid_relinks hids hr.relinked
    rw [hr.nodes_eq] at hlinks
    refine ⟨⟨hedges, hknown, ?_⟩, ?_⟩
    · rw [nodeCount, hr.nodes_eq, List.length_map, hr.supplied.length_eq]
    · rw [hr.rest]
      exact rebuilt_built hlinks
  · cases (hr.fromSnapshot hids).symm.trans hresult

theorem Laid.compiled (hl : Laid s g) (hc : Compiled config g ready) : Laid s ready where
  edges := by rw [hc.edges, hl.edges]
  known := hl.known
  count := by rw [nodeCount, hc.nodes, ← hl.count, nodeCount]

omit [AudioCore] [AudioNode P] [SinkNode S] in
theorem Laid.fed (hl : Laid s g) (id : NodeId)
    (source : NodeId × PortIdx → Option AudioFrame) (p : PortIdx) :
    fed g.edges source (s.ids.idxOf id, p) =
      ((s.incoming id).find? fun e => e.dst.2 = p).map fun e => source (s.placed e).src := by
  rw [AudioGraph.fed, hl.edges, List.find?_map, Option.map_map, TopologySnapshot.incoming,
    List.find?_filter, ← List.head?_filter, ← List.head?_filter]
  refine congrArg (fun l => Option.map _ (List.head? l)) (List.filter_congr fun e he => ?_)
  have hdst : s.ids.idxOf e.dst.1 = s.ids.idxOf id ↔ e.dst.1 = id :=
    List.idxOf_inj (hl.known e he).2
  simp [TopologySnapshot.placed, hdst]

structure Edited (config : GraphConfig) (keep : NodeId → Prop) (s s' : TopologySnapshot)
    (ready ready' : Graph P S) : Prop where
  running : Running config ready ready
  running' : Running config ready' ready'
  laid : Laid s ready
  laid' : Laid s' ready'
  same : ∀ id, keep id → TopologySnapshot.Heard id s s'
  closed : ∀ e ∈ s.edges, keep e.dst.1 → keep e.src.1

structure Alongside (keep : NodeId → Prop) (s s' : TopologySnapshot)
    (ready ready' h h' : Graph P S) : Prop where
  steady : Steady (fun _ => ()) ready h
  steady' : Steady (fun _ => ()) ready' h'
  cells : ∀ id, keep id → id ∈ s.ids →
    h'.scratch.cells (s'.ids.idxOf id) = h.scratch.cells (s.ids.idxOf id)

theorem Alongside.start (hc : Compiled config g ready) (hc' : Compiled config g' ready')
    (hsame : ∀ id ∈ s.ids, keep id →
      g'.scratch.nodes[s'.ids.idxOf id]? = g.scratch.nodes[s.ids.idxOf id]?) :
    Alongside keep s s' ready ready' ready ready' :=
  ⟨Steady.refl _ _, Steady.refl _ _, fun id hk hid => by
    simp [GraphScratch.cells, hc.nodes, hc.inputs, hc.outputs, hc'.nodes, hc'.inputs,
      hc'.outputs, hsame id hid hk]⟩

theorem Edited.mem (he : Edited config keep s s' ready ready') {id : NodeId} (hk : keep id)
    (hid : id ∈ s.ids) : id ∈ s'.ids := by
  rw [TopologySnapshot.mem_ids, (he.same id hk).node, ← TopologySnapshot.mem_ids]
  exact hid

theorem Laid.mem_order (hl : Laid s ready) (hr : Running config ready ready) {id : NodeId}
    (hid : id ∈ s.ids) : s.ids.idxOf id ∈ ready.executionOrder := by
  rw [hr.linearizes.perm.mem_iff, List.mem_range, hl.count]
  exact List.idxOf_lt_length_of_mem hid

theorem Laid.before (hl : Laid s ready) (hr : Running config ready ready) {e : SnapshotEdge}
    {id : NodeId} (he : e ∈ s.incoming id) :
    ready.executionOrder.idxOf (s.placed e).src.1 <
      ready.executionOrder.idxOf (s.ids.idxOf id) := by
  obtain ⟨he, hdst⟩ := List.mem_filter.mp he
  have hdst : e.dst.1 = id := of_decide_eq_true hdst
  refine hr.linearizes.before _ _ ⟨s.placed e, ?_, rfl, ?_⟩
  · rw [hl.edges]
    exact List.mem_map_of_mem he
  · rw [TopologySnapshot.placed, hdst]

variable [KeepsContext P] [KeepsContext S]

theorem Alongside.cycle (he : Edited config keep s s' ready ready')
    (ha : Alongside keep s s' ready ready' h h') (ctx : ProcessContext) {id : NodeId}
    (hk : keep id) (hid : id ∈ s.ids) :
    (h'.processCycle ctx).1.scratch.cells (s'.ids.idxOf id) =
      (h.processCycle ctx).1.scratch.cells (s.ids.idxOf id) := by
  let stands : NodeId → NodeId → Prop := fun n m =>
    ∃ id, keep id ∧ id ∈ s.ids ∧ n = s.ids.idxOf id ∧ m = s'.ids.idxOf id
  refine ((ha.steady.solution he.running ctx).transfer (ha.steady'.solution he.running' ctx)
    (r := stands) ?_ ?_ ⟨id, hk, hid, rfl, rfl⟩).symm
  · rintro _ _ ⟨id, hk, hid, rfl, rfl⟩
    exact ⟨he.laid.mem_order he.running hid, he.laid'.mem_order he.running' (he.mem hk hid)⟩
  rintro _ _ ⟨id, hk, hid, rfl, rfl⟩ ih
  refine (congrArg Prod.fst (visitCell_of_fed ctx ?_ fun p => ?_)).symm
  · rw [Function.update_self, Function.update_self, ha.cells id hk hid]
  rw [he.laid.fed id, he.laid'.fed id, (he.same id hk).first]
  cases hfind : (s.incoming id).find? fun e => e.dst.2 = p with
  | none => rfl
  | some e =>
    have hin : e ∈ s.incoming id := List.mem_of_find?_eq_some hfind
    have hin' : e ∈ s'.incoming id :=
      List.mem_of_find?_eq_some (((he.same id hk).first p).trans hfind)
    obtain ⟨hmem, hdst⟩ := List.mem_filter.mp hin
    have hsrc : keep e.src.1 := he.closed e hmem (of_decide_eq_true hdst ▸ hk)
    have hbefore := he.laid.before he.running hin
    have hbefore' := he.laid'.before he.running' hin'
    have hne : (s.placed e).src.1 ≠ s.ids.idxOf id :=
      fun heq => hbefore.ne (congrArg ready.executionOrder.idxOf heq)
    have hne' : (s'.placed e).src.1 ≠ s'.ids.idxOf id :=
      fun heq => hbefore'.ne (congrArg ready'.executionOrder.idxOf heq)
    have hcell := ih _ _ hbefore ⟨e.src.1, hsrc, (he.laid.known e hmem).1, rfl, rfl⟩
    rw [Option.map_some, Option.map_some, Cell.source_update hne, Cell.source_update hne',
      Cell.source, Cell.source]
    simp only [TopologySnapshot.placed] at hcell ⊢
    rw [hcell]

theorem Alongside.step (he : Edited config keep s s' ready ready')
    (ha : Alongside keep s s' ready ready' h h') {d : Drive} (hd : d.feedsOrCycles) :
    Alongside keep s s' ready ready' (h.step (d.placed s).op).1 (h'.step (d.placed s').op).1 := by
  refine ⟨ha.steady.step_drive measured_unit he.running.compiled _,
    ha.steady'.step_drive measured_unit he.running'.compiled _, fun id hk hid => ?_⟩
  cases d with
  | processCycle ctx => exact ha.cycle he ctx hk hid
  | feed node port src =>
    change (h'.feed _ port src).scratch.cells _ = (h.feed _ port src).scratch.cells _
    have hat : s.ids.idxOf id = s.ids.idxOf node ↔ id = node := List.idxOf_inj hid
    have hat' : s'.ids.idxOf id = s'.ids.idxOf node ↔ id = node :=
      List.idxOf_inj (he.mem hk hid)
    simp only [feed_cells, hat, hat', ha.cells id hk hid]
  | _ => cases hd

theorem Alongside.drive (he : Edited config keep s s' ready ready')
    (ha : Alongside keep s s' ready ready' h h') {ds : List Drive}
    (hds : ∀ d ∈ ds, d.feedsOrCycles) :
    Alongside keep s s' ready ready' (h.drive (ds.map (Drive.placed s))).1
      (h'.drive (ds.map (Drive.placed s'))).1 := by
  induction ds generalizing h h' with
  | nil => exact ha
  | cons d ds ih =>
    obtain ⟨hd, hds⟩ := List.forall_mem_cons.mp hds
    exact ih (ha.step he hd) hds

theorem edit_local {Ψ : Type} {factory' : Ψ → NodeId → Option P × Ψ} {ψ ψ' : Ψ}
    (hids : s.ids.Nodup) (ms : List Mutation)
    (hg : fromSnapshot s factory φ = (φ', .ok g))
    (hg' : fromSnapshot (s.applyAll ms) factory' ψ = (ψ', .ok g'))
    (hready : g.compile config = (ready, .ok ()))
    (hready' : g'.compile config = (ready', .ok ()))
    (hsame : ∀ id ∈ s.ids, s.Spared ms id →
      g'.scratch.nodes[(s.applyAll ms).ids.idxOf id]? = g.scratch.nodes[s.ids.idxOf id]?)
    {ds : List Drive} (hds : ∀ d ∈ ds, d.feedsOrCycles) :
    ∀ id ∈ s.ids, s.Spared ms id → id ∈ (s.applyAll ms).ids ∧
      (ready'.drive (ds.map (Drive.placed (s.applyAll ms)))).1.scratch.cells
          ((s.applyAll ms).ids.idxOf id) =
        (ready.drive (ds.map (Drive.placed s))).1.scratch.cells (s.ids.idxOf id) := by
  obtain ⟨hlaid, hbuilt⟩ := laid_of_fromSnapshot hids hg
  obtain ⟨hlaid', hbuilt'⟩ := laid_of_fromSnapshot (TopologySnapshot.applyAll_ids_nodup hids ms) hg'
  have hc := compiled_of_compile hready
  have hc' := compiled_of_compile hready'
  have he : Edited config (s.Spared ms) s (s.applyAll ms) ready ready' :=
    { running := .refl hbuilt hready
      running' := .refl hbuilt' hready'
      laid := hlaid.compiled hc
      laid' := hlaid'.compiled hc'
      same := fun id hk =>
        (TopologySnapshot.applyAll_same fun hmem => hk id hmem .refl).heard
      closed := fun e hmem hk => hk.src hmem rfl }
  have hend := (Alongside.start hc hc' hsame).drive he hds
  exact fun id hid hk => ⟨he.mem hk hid, hend.cells id hk hid⟩

end Graph

end

namespace Sample

open PlainCore

def twoSources : TopologySnapshot where
  nodes := [⟨9, [], [⟨.output, 1, .f32⟩]⟩, ⟨4, [], [⟨.output, 1, .f32⟩]⟩,
    ⟨0, [⟨.input, 1, .f32⟩], []⟩]
  edges := [⟨(9, 0), (0, 0)⟩]

def twoSourcesFactory (_ : Unit) (id : NodeId) : Option (DynNode RingSource) × Unit :=
  (if id = 0 then some (.ringSink sink) else some (.ringSource source), ())

def twoSourcesGraph : Graph (DynNode RingSource) RingSink :=
  .rebuilt [.ringSource source, .ringSource source, .ringSink sink] [⟨(0, 0), (2, 0)⟩]

def trimmedGraph : Graph (DynNode RingSource) RingSink :=
  .rebuilt [.ringSource source, .ringSink sink] [⟨(0, 0), (1, 0)⟩]

def feedCycle : List Drive := [.feed 9 0 Sample.frame, .processCycle ()]

theorem twoSources_spared : twoSources.Spared [.removeNode 4] 0 := by
  intro t ht hpath
  have htouched : twoSources.touchedBy [.removeNode 4] = [4] := by decide
  rw [htouched, List.mem_singleton] at ht
  subst ht
  rcases ReflTransGen.cases_head hpath with heq | ⟨b, ⟨e, he, hsrc, -⟩, -⟩
  · cases heq
  · rw [List.mem_singleton.mp he] at hsrc
    cases hsrc

end Sample

open PlainCore Sample in
theorem edit_local_sample :
    ((trimmedGraph.compile Sample.config).1.drive
        (feedCycle.map (Drive.placed (twoSources.applyAll [.removeNode 4])))).1.scratch.cells
          ((twoSources.applyAll [.removeNode 4]).ids.idxOf 0) =
      ((twoSourcesGraph.compile Sample.config).1.drive
        (feedCycle.map (Drive.placed twoSources))).1.scratch.cells (twoSources.ids.idxOf 0) := by
  have hg : Graph.fromSnapshot twoSources twoSourcesFactory () = ((), .ok twoSourcesGraph) := rfl
  have hg' : Graph.fromSnapshot (twoSources.applyAll [.removeNode 4]) twoSourcesFactory () =
      ((), .ok trimmedGraph) := rfl
  have hready : twoSourcesGraph.compile Sample.config =
      ((twoSourcesGraph.compile Sample.config).1, .ok ()) := rfl
  have hready' : trimmedGraph.compile Sample.config =
      ((trimmedGraph.compile Sample.config).1, .ok ()) := rfl
  have hdrives : ∀ d ∈ feedCycle, d.feedsOrCycles := by simp [feedCycle, Drive.feedsOrCycles]
  have hsame : ∀ id ∈ twoSources.ids, twoSources.Spared [.removeNode 4] id →
      trimmedGraph.scratch.nodes[(twoSources.applyAll [.removeNode 4]).ids.idxOf id]? =
        twoSourcesGraph.scratch.nodes[twoSources.ids.idxOf id]? := by
    intro id hid hk
    have hne : id ≠ 4 := fun heq => hk 4 (by decide) (heq ▸ .refl)
    have hcases : id = 9 ∨ id = 4 ∨ id = 0 := by simpa [twoSources, TopologySnapshot.ids] using hid
    rcases hcases with rfl | rfl | rfl
    · rfl
    · exact absurd rfl hne
    · rfl
  have hlocal := Graph.edit_local (by decide) [.removeNode 4] hg hg' hready hready' hsame hdrives
  exact (hlocal 0 (by decide) twoSources_spared).2

end AudioGraph
