import AudioGraph.Properties.Links
import AudioGraph.Properties.Replay

namespace AudioGraph

open Pointwise

section

variable [AudioCore] {P S : Type} [AudioNode P] [SinkNode S] {s : TopologySnapshot}
  {nodes : List (NodeSlot P S)} {se : SnapshotEdge}

theorem LinkCheck.exists_first {src dst : NodeId × PortIdx}
    (h : ¬ ∀ c : LinkCheck, c.Passes nodes src dst) :
    ∃ c : LinkCheck, ¬ c.Passes nodes src dst ∧
      ∀ c' : LinkCheck, c'.rank < c.rank → c'.Passes nodes src dst := by
  obtain ⟨c, hc⟩ := not_forall.mp h
  obtain ⟨c, hc, hmin⟩ := (measure LinkCheck.rank).wf.has_min
    {c : LinkCheck | ¬ c.Passes nodes src dst} ⟨c, hc⟩
  exact ⟨c, hc, fun c' hlt => not_not.mp fun hc' => hmin c' hc' hlt⟩

namespace TopologySnapshot

def ids (s : TopologySnapshot) : List NodeId := s.nodes.map (·.id)

structure Relinks (s : TopologySnapshot) (nodes : List (NodeSlot P S)) (se : SnapshotEdge)
    (e : Edge) : Prop where
  places : s.Places se e
  passes : ∀ c : LinkCheck, c.Passes nodes e.src e.dst

-- What is wrong with the edge, in the order in which the ids are looked up and the ports checked.
inductive Offends (s : TopologySnapshot) (nodes : List (NodeSlot P S)) (se : SnapshotEdge) :
    GraphError → Prop
  | unknownSource (hsrc : se.src.1 ∉ s.ids) : Offends s nodes se (.nodeNotFound se.src.1)
  | unknownTarget (hsrc : se.src.1 ∈ s.ids) (hdst : se.dst.1 ∉ s.ids) :
      Offends s nodes se (.nodeNotFound se.dst.1)
  | check {e : Edge} (hplaces : s.Places se e) {c : LinkCheck}
      (hbefore : ∀ c' : LinkCheck, c'.rank < c.rank → c'.Passes nodes e.src e.dst)
      (hc : ¬ c.Passes nodes e.src e.dst) : Offends s nodes se (c.error e.src e.dst)

omit [AudioCore] in
theorem position_of_mem {id : NodeId} (h : id ∈ s.ids) :
    ∃ k : Nat, ∃ ns, s.nodes[k]? = some ns ∧ ns.id = id := by
  obtain ⟨ns, hns, hid⟩ := List.mem_map.mp h
  obtain ⟨k, hk⟩ := List.mem_iff_getElem?.mp hns
  exact ⟨k, ns, hk, hid⟩

theorem relinks_or_offends (s : TopologySnapshot) (nodes : List (NodeSlot P S))
    (se : SnapshotEdge) : (∃ e, s.Relinks nodes se e) ∨ ∃ err, s.Offends nodes se err := by
  by_cases hsrc : se.src.1 ∈ s.ids
  · by_cases hdst : se.dst.1 ∈ s.ids
    · obtain ⟨k, hk⟩ := position_of_mem hsrc
      obtain ⟨l, hl⟩ := position_of_mem hdst
      have hplaces : s.Places se ⟨(k, se.src.2), (l, se.dst.2)⟩ := ⟨hk, rfl, hl, rfl⟩
      by_cases hpass : ∀ c : LinkCheck, c.Passes nodes (k, se.src.2) (l, se.dst.2)
      · exact .inl ⟨_, hplaces, hpass⟩
      · obtain ⟨c, hc, hbefore⟩ := LinkCheck.exists_first hpass
        exact .inr ⟨_, .check hplaces hbefore hc⟩
    · exact .inr ⟨_, .unknownTarget hsrc hdst⟩
  · exact .inr ⟨_, .unknownSource hsrc⟩

structure Numbered (s : TopologySnapshot) (idMap : NodeId → Option NodeId) : Prop where
  placed : ∀ (k : Nat) ns, s.nodes[k]? = some ns → idMap ns.id = some k
  unknown : ∀ id, id ∉ s.ids → idMap id = none

end TopologySnapshot

end

section

variable [AudioCore] {Φ P' S' : Type} [AudioNode P'] [SinkNode S']
  {factory : Φ → NodeId → Option P' × Φ}

omit [AudioCore] [AudioNode P'] in
theorem supplies_or_refuses (factory : Φ → NodeId → Option P' × Φ) (nss : List NodeSnapshot)
    (φ : Φ) :
    (∃ given φ', Supplies factory (nss.map (·.id)) φ given φ') ∨
      ∃ before ns after given φ₁ φ₂, nss = before ++ ns :: after ∧
        Supplies factory (before.map (·.id)) φ given φ₁ ∧ factory φ₁ ns.id = (none, φ₂) := by
  induction nss generalizing φ with
  | nil => exact .inl ⟨[], φ, .nil φ⟩
  | cons ns nss ih =>
    rcases hcall : factory φ ns.id with ⟨- | n, φ₁⟩
    · exact .inr ⟨[], ns, nss, [], φ, φ₁, rfl, .nil φ, hcall⟩
    · rcases ih φ₁ with ⟨given, φ', hs⟩ | ⟨before, ns', after, given, φ₂, φ₃, rfl, hs, hrefused⟩
      · exact .inl ⟨n :: given, φ', .cons hcall hs⟩
      · exact .inr ⟨ns :: before, ns', after, n :: given, φ₂, φ₃, rfl, .cons hcall hs, hrefused⟩

namespace Graph

theorem rebuildNodes_refused {before after : List NodeSnapshot} {ns : NodeSnapshot}
    {φ φ₁ φ₂ : Φ} {given : List P'} (hs : Supplies factory (before.map (·.id)) φ given φ₁)
    (hcall : factory φ₁ ns.id = (none, φ₂)) (g : Graph P' S') (idMap : NodeId → Option NodeId) :
    rebuildNodes factory (before ++ ns :: after) φ g idMap =
      (φ₂, .error (.nodeNotFound ns.id)) := by
  induction before generalizing φ given g idMap with
  | nil =>
    cases hs
    simp [rebuildNodes, hcall]
  | cons ns' before ih =>
    cases hs with
    | cons hcall' hrest =>
      simp only [List.cons_append, rebuildNodes, hcall']
      exact ih hrest _ _

theorem rebuilt_link_fails {nodes : List P'} (edges : List Edge) {src dst : NodeId × PortIdx}
    {e : GraphError} (h : checkLink (S := S') (nodes.map .plain) src dst = .error e) :
    (rebuilt nodes edges : Graph P' S').link src dst = (rebuilt nodes edges, .error e) := by
  have hcheck : checkLink (rebuilt nodes edges : Graph P' S').scratch.nodes src dst = .error e := h
  simp [link, hcheck]

theorem rebuildEdges_offends {s : TopologySnapshot} {nodes : List P'} {edges : List Edge}
    {se : SnapshotEdge} {rest : List SnapshotEdge} {idMap : NodeId → Option NodeId}
    {err : GraphError} (hmap : s.Numbered idMap)
    (h : s.Offends (nodes.map (.plain : P' → NodeSlot P' S')) se err) :
    rebuildEdges idMap (se :: rest) (rebuilt nodes edges : Graph P' S') = .error err := by
  cases h with
  | unknownSource hsrc => simp [rebuildEdges, hmap.unknown _ hsrc]
  | unknownTarget hsrc hdst =>
    obtain ⟨k, ns, hk, hid⟩ := TopologySnapshot.position_of_mem hsrc
    have hknown : idMap se.src.1 = some k := hid ▸ hmap.placed k ns hk
    simp [rebuildEdges, hknown, hmap.unknown _ hdst]
  | check hplaces hbefore hc =>
    have hse : Relabels idMap se _ := hplaces.relabels hmap.placed
    have hfails := rebuilt_link_fails edges (checkLink_fails hbefore hc)
    simp only [rebuildEdges, hse.src, hse.dst, ← hse.srcPort, ← hse.dstPort]
    rw [hfails]

inductive FirstOffence (S' : Type) [SinkNode S'] (s : TopologySnapshot)
    (factory : Φ → NodeId → Option P' × Φ) (φ : Φ) : Φ → GraphError → Prop
  | node {before after : List NodeSnapshot} {ns : NodeSnapshot} {given : List P'} {φ₁ φ₂ : Φ}
      (hsplit : s.nodes = before ++ ns :: after)
      (hs : Supplies factory (before.map (·.id)) φ given φ₁)
      (hcall : factory φ₁ ns.id = (none, φ₂)) :
      FirstOffence S' s factory φ φ₂ (.nodeNotFound ns.id)
  | edge {nodes : List P'} {φ' : Φ} {before after : List SnapshotEdge} {se : SnapshotEdge}
      {es : List Edge} {err : GraphError} (hs : Supplies factory s.ids φ nodes φ')
      (hsplit : s.edges = before ++ se :: after)
      (hbefore : List.Forall₂
        (s.Relinks (nodes.map (.plain : P' → NodeSlot P' S'))) before es)
      (hoffends : s.Offends (nodes.map (.plain : P' → NodeSlot P' S')) se err) :
      FirstOffence S' s factory φ φ' err

structure Restores (s : TopologySnapshot) (factory : Φ → NodeId → Option P' × Φ) (φ φ' : Φ)
    (nodes : List P') (g : Graph P' S') : Prop where
  supplied : Supplies factory s.ids φ nodes φ'
  nodes_eq : g.scratch.nodes = nodes.map .plain
  relinked : List.Forall₂ (s.Relinks g.scratch.nodes) s.edges g.edges
  rest : g = rebuilt nodes g.edges

variable {s : TopologySnapshot} {φ φ' : Φ}

theorem rebuildNodes_numbered (S' : Type) [SinkNode S'] {nodes : List P'} (hids : s.ids.Nodup)
    (hs : Supplies factory s.ids φ nodes φ') :
    ∃ idMap, rebuildNodes factory s.nodes φ (new : Graph P' S') (fun _ => none) =
      (φ', .ok (rebuilt nodes [], idMap)) ∧ s.Numbered idMap := by
  obtain ⟨idMap, hrun, hplaced, hother⟩ : ∃ idMap,
      rebuildNodes factory s.nodes φ (new : Graph P' S') (fun _ => none) =
        (φ', .ok (rebuilt nodes [], idMap)) ∧ _ ∧ _ :=
    rebuildNodes_supplied [] (fun _ => none) hs hids
  exact ⟨idMap, hrun, fun k ns hk => by simpa using hplaced k ns hk, hother⟩

theorem rebuildEdges_relinked {nodes : List P'} {idMap : NodeId → Option NodeId}
    {ses : List SnapshotEdge} {es : List Edge} (rest : List SnapshotEdge)
    (hmap : s.Numbered idMap)
    (h : List.Forall₂ (s.Relinks (nodes.map (.plain : P' → NodeSlot P' S'))) ses es) :
    rebuildEdges idMap (ses ++ rest) (rebuilt nodes [] : Graph P' S') =
      rebuildEdges idMap rest (rebuilt nodes es) := by
  refine rebuildEdges_relabelled [] rest (h.imp fun _ _ hse => hse.places.relabels hmap.placed) ?_
  intro e he
  obtain ⟨n, hn⟩ := List.mem_iff_getElem?.mp he
  rcases forall₂_getElem? h n with ⟨-, hnone⟩ | ⟨se, e', -, he', hse⟩
  · cases hnone.symm.trans hn
  · cases he'.symm.trans hn
    exact checkLink_passes.mpr hse.passes

theorem Restores.fromSnapshot {nodes : List P'} {g : Graph P' S'} (hids : s.ids.Nodup)
    (h : Restores s factory φ φ' nodes g) : fromSnapshot s factory φ = (φ', .ok g) := by
  obtain ⟨idMap, hrun, hmap⟩ := rebuildNodes_numbered S' hids h.supplied
  have hedges := rebuildEdges_relinked [] hmap (h.nodes_eq ▸ h.relinked)
  rw [List.append_nil, rebuildEdges, ← h.rest] at hedges
  simp only [Graph.fromSnapshot, hrun]
  exact congrArg (Prod.mk φ') hedges

theorem FirstOffence.fromSnapshot {err : GraphError} (hids : s.ids.Nodup)
    (h : FirstOffence S' s factory φ φ' err) :
    fromSnapshot s factory φ = (φ', (.error err : Except GraphError (Graph P' S'))) := by
  cases h with
  | node hsplit hs hcall =>
    simp only [Graph.fromSnapshot, hsplit, rebuildNodes_refused hs hcall]
  | @edge _ _ _ after se _ _ hs hsplit hbefore hoffends =>
    obtain ⟨idMap, hrun, hmap⟩ := rebuildNodes_numbered S' hids hs
    have hedges := rebuildEdges_relinked (se :: after) hmap hbefore
    rw [← hsplit, rebuildEdges_offends hmap hoffends] at hedges
    simp only [Graph.fromSnapshot, hrun]
    exact congrArg (Prod.mk φ') hedges

theorem restores_or_offends (S' : Type) [SinkNode S'] (s : TopologySnapshot)
    (factory : Φ → NodeId → Option P' × Φ) (φ : Φ) :
    (∃ φ' nodes, ∃ g : Graph P' S', Restores s factory φ φ' nodes g) ∨
      ∃ φ' err, FirstOffence S' s factory φ φ' err := by
  rcases supplies_or_refuses factory s.nodes φ with
    ⟨nodes, φ', hs⟩ | ⟨before, ns, after, given, φ₁, φ₂, hsplit, hs, hcall⟩
  · rcases forall₂_or_first (s.Relinks (nodes.map (.plain : P' → NodeSlot P' S'))) s.edges with
      ⟨es, hes⟩ | ⟨before, se, after, es, hsplit, hbefore, hse⟩
    · exact .inl ⟨φ', nodes, rebuilt nodes es, hs, rfl, hes, rfl⟩
    · obtain ⟨err, herr⟩ := (s.relinks_or_offends _ se).resolve_left (not_exists.mpr hse)
      exact .inr ⟨φ', err, .edge hs hsplit hbefore herr⟩
  · exact .inr ⟨φ₂, _, .node hsplit hs hcall⟩

theorem fromSnapshot_restores (S' : Type) [SinkNode S'] (s : TopologySnapshot) (hids : s.ids.Nodup)
    (factory : Φ → NodeId → Option P' × Φ) (φ φ' : Φ) :
    (∀ g : Graph P' S', fromSnapshot s factory φ = (φ', .ok g) ↔
        ∃ nodes, Restores s factory φ φ' nodes g) ∧
      ∀ err, fromSnapshot s factory φ =
          (φ', (.error err : Except GraphError (Graph P' S'))) ↔
        FirstOffence S' s factory φ φ' err := by
  refine ⟨fun g => ⟨fun hresult => ?_, fun ⟨_, h⟩ => h.fromSnapshot hids⟩,
    fun err => ⟨fun hresult => ?_, fun h => h.fromSnapshot hids⟩⟩
  · rcases restores_or_offends S' s factory φ with ⟨φ₁, nodes, g', h⟩ | ⟨φ₁, err, h⟩
    · cases (h.fromSnapshot hids).symm.trans hresult
      exact ⟨nodes, h⟩
    · cases (h.fromSnapshot hids).symm.trans hresult
  · rcases restores_or_offends S' s factory φ with ⟨φ₁, nodes, g', h⟩ | ⟨φ₁, err', h⟩
    · cases (h.fromSnapshot hids).symm.trans hresult
    · cases (h.fromSnapshot hids).symm.trans hresult
      exact h

end Graph

end

namespace Sample

def scattered : TopologySnapshot where
  nodes := [⟨9, [], [⟨.output, 1, .f32⟩]⟩, ⟨0, [⟨.input, 1, .f32⟩], []⟩]
  edges := [⟨(9, 0), (0, 0)⟩]

def scatteredFactory (_ : Unit) (id : NodeId) : Option (DynNode Gate) × Unit :=
  (if id = 9 then some (.ringSource source) else some (.ringSink sink), ())

end Sample

open PlainCore Sample in
theorem fromSnapshot_restores_scattered :
    ∃ g : Graph (DynNode Gate) RingSink,
      Graph.fromSnapshot scattered scatteredFactory () = ((), .ok g) ∧
        g.edges = [⟨(0, 0), (1, 0)⟩] := by
  have hiff := Graph.fromSnapshot_restores RingSink scattered (by decide) scatteredFactory () ()
  let nodes : List (DynNode Gate) := [.ringSource source, .ringSink sink]
  have hpasses : ∀ c : LinkCheck, c.Passes (nodes.map (.plain : _ → NodeSlot _ RingSink))
      (0, 0) (1, 0) := checkLink_passes.mp rfl
  have hplaces : scattered.Places ⟨(9, 0), (0, 0)⟩ ⟨(0, 0), (1, 0)⟩ :=
    ⟨⟨_, rfl, rfl⟩, rfl, ⟨_, rfl, rfl⟩, rfl⟩
  refine ⟨Graph.rebuilt nodes [⟨(0, 0), (1, 0)⟩], (hiff.1 _).mpr ⟨nodes, ?_⟩, rfl⟩
  exact
    { supplied := .cons rfl (.cons rfl (.nil ()))
      nodes_eq := rfl
      relinked := .cons ⟨hplaces, hpasses⟩ .nil
      rest := rfl }

end AudioGraph
