import AudioGraph.Properties.Log
import AudioGraph.Properties.Running
import Mathlib.Data.List.InsertIdx

namespace AudioGraph

variable {f : NodeId → NodeId}

def NodeSnapshot.rename (f : NodeId → NodeId) (ns : NodeSnapshot) : NodeSnapshot :=
  { ns with id := f ns.id }

def SnapshotEdge.rename (f : NodeId → NodeId) (se : SnapshotEdge) : SnapshotEdge :=
  ⟨(f se.src.1, se.src.2), (f se.dst.1, se.dst.2)⟩

-- Links are named by their positions, which a renaming of the nodes leaves alone.
def Mutation.rename (f : NodeId → NodeId) : Mutation → Mutation
  | .addNode ns => .addNode (ns.rename f)
  | .removeNode id => .removeNode (f id)
  | .addLink se => .addLink (se.rename f)
  | .removeLink linkId => .removeLink linkId

namespace TopologySnapshot

def rename (f : NodeId → NodeId) (s : TopologySnapshot) : TopologySnapshot where
  nodes := s.nodes.map (·.rename f)
  edges := s.edges.map (·.rename f)

theorem replaceFirst_rename (hf : Function.Injective f) (ns : NodeSnapshot)
    (nodes : List NodeSnapshot) :
    replaceFirst (ns.rename f) (nodes.map (·.rename f)) =
      (replaceFirst ns nodes).map (List.map (·.rename f)) := by
  induction nodes with
  | nil => rfl
  | cons n nodes ih =>
    have hid : (n.rename f).id = (ns.rename f).id ↔ n.id = ns.id := hf.eq_iff
    rw [List.map_cons, replaceFirst, replaceFirst, ih]
    simp only [hid]
    split
    · rfl
    · cases replaceFirst ns nodes <;> rfl

theorem apply_rename (hf : Function.Injective f) (s : TopologySnapshot) (m : Mutation) :
    (s.rename f).apply (m.rename f) = (s.apply m).rename f := by
  cases m with
  | addNode ns =>
    simp only [Mutation.rename, apply, rename, replaceFirst_rename hf]
    cases replaceFirst ns s.nodes with
    | none => simp
    | some nodes => rfl
  | removeNode id =>
    simp only [Mutation.rename, apply, rename, List.filter_map, TopologySnapshot.mk.injEq]
    refine ⟨congrArg _ (List.filter_congr fun ns _ => ?_),
      congrArg _ (List.filter_congr fun se _ => ?_)⟩
    · simp [NodeSnapshot.rename, hf.eq_iff]
    · simp [SnapshotEdge.rename, hf.eq_iff]
  | addLink se => simp [Mutation.rename, apply, rename]
  | removeLink linkId =>
    simp only [Mutation.rename, apply, rename, List.length_map]
    split
    · simp [List.eraseIdx_map]
    · rfl

theorem applyAll_rename (hf : Function.Injective f) (s : TopologySnapshot) (ms : List Mutation) :
    (s.rename f).applyAll (ms.map (·.rename f)) = (s.applyAll ms).rename f := by
  induction ms generalizing s with
  | nil => rfl
  | cons m ms ih =>
    change ((s.rename f).apply (m.rename f)).applyAll (ms.map (·.rename f)) = _
    rw [apply_rename hf, ih]
    rfl

end TopologySnapshot

section

variable [AudioCore] {P S Φ : Type} [AudioNode P] [SinkNode S]
  {factory factory' : Φ → NodeId → Option P × Φ}

-- The same answer, but that a node which was not found goes by its own name on either side.
inductive Renamed {α β : Type} (f : NodeId → NodeId) (same : α → β → Prop) :
    Except GraphError α → Except GraphError β → Prop
  | ok {a : α} {b : β} (h : same a b) : Renamed f same (.ok a) (.ok b)
  | unknown (id : NodeId) :
      Renamed f same (.error (.nodeNotFound id)) (.error (.nodeNotFound (f id)))
  | error (e : GraphError) (h : ∀ id : NodeId, e ≠ .nodeNotFound id) :
      Renamed f same (.error e) (.error e)

omit [AudioCore] in
theorem Renamed.bind {α β γ δ : Type} {same : α → β → Prop} {same' : γ → δ → Prop}
    {x : Except GraphError α} {y : Except GraphError β} {k : α → Except GraphError γ}
    {k' : β → Except GraphError δ} (h : Renamed f same x y)
    (hk : ∀ a b, same a b → Renamed f same' (k a) (k' b)) :
    Renamed f same' (x.bind k) (y.bind k') := by
  cases h with
  | ok h => exact hk _ _ h
  | unknown id => exact .unknown id
  | error e h => exact .error e h

namespace Graph

def MapsInto (idMap : NodeId → Option NodeId) (g : Graph P S) : Prop :=
  ∀ id n : NodeId, idMap id = some n → n < g.nodeCount

theorem MapsInto.addNode {idMap : NodeId → Option NodeId} {g : Graph P S} (h : MapsInto idMap g)
    (id : NodeId) (node : P) :
    MapsInto (fun id' => if id' = id then some (g.addNode node).2 else idMap id')
      (g.addNode node).1 := by
  have hcount : (g.addNode node).1.nodeCount = g.nodeCount + 1 := by
    rw [Graph.addNode, addSlot_eq]
    exact List.length_append
  have hid : (g.addNode node).2 = g.nodeCount := rfl
  intro id' n hn
  rw [hcount]
  dsimp only at hn
  split at hn
  · rw [hid] at hn
    cases hn
    exact Nat.lt_succ_self _
  · exact Nat.lt_succ_of_lt (h id' n hn)

theorem checkLink_found {nodes : List (NodeSlot P S)} {src dst : NodeId × PortIdx}
    (hsrc : src.1 < nodes.length) (hdst : dst.1 < nodes.length) {e : GraphError}
    (h : checkLink nodes src dst = .error e) (id : NodeId) : e ≠ .nodeNotFound id := by
  rintro rfl
  unfold checkLink at h
  rw [List.getElem?_eq_getElem hsrc, List.getElem?_eq_getElem hdst] at h
  dsimp only at h
  cases hout : (AudioNode.outputs nodes[src.1])[src.2]? with
  | none => simp [hout] at h
  | some fromDesc =>
    cases hin : (AudioNode.inputs nodes[dst.1])[dst.2]? with
    | none => simp [hout, hin] at h
    | some toDesc =>
      simp only [hout, hin] at h
      split at h
      · cases h
      · split at h <;> cases h

theorem rebuildNodes_rename (hf : Function.Injective f)
    (hfactory : ∀ φ id, factory' φ (f id) = factory φ id) (nodes : List NodeSnapshot) (φ : Φ)
    (g : Graph P S) {idMap idMap' : NodeId → Option NodeId}
    (hmap : ∀ id, idMap' (f id) = idMap id) (hinto : MapsInto idMap g) :
    (rebuildNodes factory' (nodes.map (·.rename f)) φ g idMap').1 =
        (rebuildNodes factory nodes φ g idMap).1 ∧
      Renamed f (fun a b => b.1 = a.1 ∧ (∀ id, b.2 (f id) = a.2 id) ∧ MapsInto a.2 a.1)
        (rebuildNodes factory nodes φ g idMap).2
        (rebuildNodes factory' (nodes.map (·.rename f)) φ g idMap').2 := by
  induction nodes generalizing φ g idMap idMap' with
  | nil => exact ⟨rfl, .ok ⟨rfl, hmap, hinto⟩⟩
  | cons ns nodes ih =>
    have hcall : factory' φ (ns.rename f).id = factory φ ns.id := hfactory φ ns.id
    rw [List.map_cons, rebuildNodes, rebuildNodes, hcall]
    rcases factory φ ns.id with ⟨_ | node, φ₁⟩
    · exact ⟨rfl, .unknown ns.id⟩
    · refine ih φ₁ (g.addNode node).1 (fun id => ?_) (hinto.addNode ns.id node)
      have hid : f id = (ns.rename f).id ↔ id = ns.id := hf.eq_iff
      simp only [hid, hmap]

theorem rebuildEdges_rename {idMap idMap' : NodeId → Option NodeId}
    (hmap : ∀ id, idMap' (f id) = idMap id) (edges : List SnapshotEdge) (g : Graph P S)
    (hinto : MapsInto idMap g) :
    Renamed f Eq (rebuildEdges idMap edges g)
      (rebuildEdges idMap' (edges.map (·.rename f)) g) := by
  induction edges generalizing g with
  | nil => exact .ok rfl
  | cons se edges ih =>
    have hsrc : idMap' (se.rename f).src.1 = idMap se.src.1 := hmap se.src.1
    have hdst : idMap' (se.rename f).dst.1 = idMap se.dst.1 := hmap se.dst.1
    rw [List.map_cons, rebuildEdges, rebuildEdges, hsrc, hdst]
    cases hfrom : idMap se.src.1 with
    | none => exact .unknown se.src.1
    | some newFrom =>
      cases hto : idMap se.dst.1 with
      | none => exact .unknown se.dst.1
      | some newTo =>
        have hports : (se.rename f).src.2 = se.src.2 ∧ (se.rename f).dst.2 = se.dst.2 := ⟨rfl, rfl⟩
        simp only [hports]
        rcases link_cases g (newFrom, se.src.2) (newTo, se.dst.2) with ⟨e, he, heq⟩ | ⟨-, heq⟩
        · -- Both ends were placed, so what `link` finds wrong is never that a node is missing.
          rw [heq]
          exact .error e (checkLink_found (hinto _ _ hfrom) (hinto _ _ hto) he)
        · rw [heq]
          exact ih _ hinto

theorem fromSnapshot_bind (s : TopologySnapshot) (φ : Φ) :
    (fromSnapshot s factory φ : Φ × Except GraphError (Graph P S)) =
      let nodes := rebuildNodes factory s.nodes φ new fun _ => none
      (nodes.1, nodes.2.bind fun placed => rebuildEdges placed.2 s.edges placed.1) := by
  unfold fromSnapshot
  rcases rebuildNodes factory s.nodes φ (new : Graph P S) (fun _ => none) with ⟨φ', _ | placed⟩
  · rfl
  · rfl

theorem fromSnapshot_rename (hf : Function.Injective f)
    (hfactory : ∀ φ id, factory' φ (f id) = factory φ id) (s : TopologySnapshot) (φ : Φ) :
    (fromSnapshot (s.rename f) factory' φ : Φ × Except GraphError (Graph P S)).1 =
        (fromSnapshot s factory φ : Φ × Except GraphError (Graph P S)).1 ∧
      Renamed f Eq (fromSnapshot s factory φ : Φ × Except GraphError (Graph P S)).2
        (fromSnapshot (s.rename f) factory' φ).2 := by
  let unmapped : NodeId → Option NodeId := fun _ => none
  have hunmapped : ∀ id, unmapped (f id) = unmapped id := fun _ => rfl
  have hinto : MapsInto unmapped (new : Graph P S) := fun _ _ h => by cases h
  obtain ⟨hstate, hanswer⟩ :=
    rebuildNodes_rename hf hfactory s.nodes φ (new : Graph P S) hunmapped hinto
  rw [fromSnapshot_bind, fromSnapshot_bind]
  refine ⟨hstate, hanswer.bind ?_⟩
  rintro ⟨g, idMap⟩ ⟨g', idMap'⟩ ⟨hgraph, hmap, hplaced⟩
  obtain rfl : g' = g := hgraph
  exact rebuildEdges_rename hmap s.edges g' hplaced

theorem names_opaque (hf : Function.Injective f)
    (hfactory : ∀ φ id, factory' φ (f id) = factory φ id) (s : TopologySnapshot)
    (ms : List Mutation) (φ : Φ) :
    (s.rename f).applyAll (ms.map (·.rename f)) = (s.applyAll ms).rename f ∧
      ∃ (φ' : Φ) (answer answer' : Except GraphError (Graph P S)),
        fromSnapshot (s.applyAll ms) factory φ = (φ', answer) ∧
        fromSnapshot ((s.rename f).applyAll (ms.map (·.rename f))) factory' φ = (φ', answer') ∧
        Renamed f Eq answer answer' := by
  have hlog := TopologySnapshot.applyAll_rename hf s ms
  obtain ⟨hstate, hanswer⟩ := fromSnapshot_rename (P := P) (S := S) hf hfactory (s.applyAll ms) φ
  rw [hlog]
  exact ⟨rfl, (fromSnapshot (s.applyAll ms) factory φ).1,
    (fromSnapshot (s.applyAll ms) factory φ).2,
    (fromSnapshot ((s.applyAll ms).rename f) factory' φ).2, rfl, Prod.ext hstate rfl, hanswer⟩

end Graph

end

namespace Sample

open PlainCore

def shifted (id : NodeId) : NodeId := id + 10

def pairFactory (_ : Unit) (id : NodeId) : Option (DynNode RingSource) × Unit :=
  (if id = 7 then some (.ringSource source) else if id = 2 then some (.ringSink sink) else none, ())

def shiftedFactory (_ : Unit) (id : NodeId) : Option (DynNode RingSource) × Unit :=
  (if id = 17 then some (.ringSource source) else if id = 12 then some (.ringSink sink) else none,
    ())

end Sample

open PlainCore Sample in
theorem names_opaque_pair :
    ∃ g : Graph (DynNode RingSource) RingSink,
      Graph.fromSnapshot ((pair.rename shifted).applyAll (pairEdits.map (·.rename shifted)))
        shiftedFactory () = ((), .ok g) ∧ g.edges = [⟨(0, 0), (1, 0)⟩] := by
  have hinjective : Function.Injective shifted := fun a b h => Nat.add_right_cancel h
  have hfactory : ∀ φ id, shiftedFactory φ (shifted id) = pairFactory φ id := by
    intro φ id
    simp [shiftedFactory, pairFactory, shifted]
  obtain ⟨-, φ', answer, answer', hanswer, hanswer', hrenamed⟩ :=
    Graph.names_opaque (P := DynNode RingSource) (S := RingSink) hinjective hfactory pair
      pairEdits ()
  cases hrenamed with
  | @ok g g' hsame =>
    subst hsame
    cases hanswer
    exact ⟨_, hanswer', rfl⟩
  | unknown id => cases hanswer
  | error e h => cases hanswer

end AudioGraph
