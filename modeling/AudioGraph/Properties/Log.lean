import AudioGraph.Engine.Snapshot
import AudioGraph.Foundation.KeyedLog

namespace AudioGraph

open KeyedLog

namespace Mutation

def nodeWrite : Mutation → Option (Write NodeId NodeSnapshot)
  | .addNode ns => some (.put ns)
  | .removeNode id => some (.erase id)
  | .addLink _ => none
  | .removeLink _ => none

def touches (id : NodeId) : Mutation → Bool
  | .addNode ns => ns.id = id
  | .removeNode id' => id' = id
  | .addLink se => se.src.1 = id ∨ se.dst.1 = id
  | .removeLink _ => false

def unlinks : Mutation → Bool
  | .removeLink _ => true
  | _ => false

end Mutation

namespace TopologySnapshot

def applyAll (s : TopologySnapshot) (ms : List Mutation) : TopologySnapshot := ms.foldl apply s

variable {s : TopologySnapshot} {id : NodeId}

theorem replaceFirst_upsert (ns : NodeSnapshot) (nodes : List NodeSnapshot) :
    (replaceFirst ns nodes).getD (nodes ++ [ns]) = upsert NodeSnapshot.id ns nodes := by
  induction nodes with
  | nil => rfl
  | cons n nodes ih =>
    by_cases hn : n.id = ns.id
    · simp [replaceFirst, upsert, hn]
    · rw [upsert, if_neg hn, ← ih]
      cases h : replaceFirst ns nodes <;> simp [replaceFirst, hn, h]

theorem apply_nodes (s : TopologySnapshot) (m : Mutation) :
    (s.apply m).nodes = (m.nodeWrite.map (write NodeSnapshot.id s.nodes)).getD s.nodes := by
  cases m with
  | addNode ns =>
    have hupsert := replaceFirst_upsert ns s.nodes
    cases h : replaceFirst ns s.nodes with
    | some nodes => simpa [apply, h, Mutation.nodeWrite, write] using hupsert
    | none => simpa [apply, h, Mutation.nodeWrite, write] using hupsert
  | removeNode id => rfl
  | addLink se => rfl
  | removeLink linkId =>
    simp only [apply]
    split <;> rfl

theorem applyAll_nodes (s : TopologySnapshot) (ms : List Mutation) :
    (s.applyAll ms).nodes = replay NodeSnapshot.id s.nodes (ms.filterMap Mutation.nodeWrite) := by
  induction ms generalizing s with
  | nil => rfl
  | cons m ms ih =>
    have hcons : s.applyAll (m :: ms) = (s.apply m).applyAll ms := rfl
    rw [hcons, ih, apply_nodes, List.filterMap_cons]
    cases m.nodeWrite <;> rfl

theorem apply_addNode_edges (s : TopologySnapshot) (ns : NodeSnapshot) :
    (s.apply (.addNode ns)).edges = s.edges := by
  simp only [apply]
  split <;> rfl

theorem apply_removeNode_nodes (s : TopologySnapshot) (id : NodeId) :
    (s.apply (.removeNode id)).nodes = erase NodeSnapshot.id id s.nodes := rfl

theorem apply_removeNode_edges (s : TopologySnapshot) (id : NodeId) :
    (s.apply (.removeNode id)).edges =
      s.edges.filter fun e => e.src.1 ≠ id ∧ e.dst.1 ≠ id := rfl

theorem nodeWrite_about {m : Mutation} {w : Write NodeId NodeSnapshot} (h : m.nodeWrite = some w)
    (id : NodeId) : w.about NodeSnapshot.id id = m.touches id := by
  cases m with
  | addNode ns =>
    cases h
    by_cases hid : ns.id = id <;> simp [Write.about, Write.value, Mutation.touches, hid]
  | removeNode id' =>
    cases h
    by_cases hid : id' = id <;> simp [Write.about, Write.value, Mutation.touches, hid]
  | addLink se => cases h
  | removeLink linkId => cases h

theorem eq_of_lists {s t : TopologySnapshot} (hnodes : s.nodes = t.nodes)
    (hedges : s.edges = t.edges) : s = t := by
  cases s
  cases t
  cases hnodes
  cases hedges
  rfl

theorem removeNode_absorbs (s : TopologySnapshot) {m : Mutation} (h : m.touches id = true) :
    (s.apply m).apply (.removeNode id) = s.apply (.removeNode id) := by
  refine eq_of_lists ?_ ?_
  · rw [apply_removeNode_nodes, apply_removeNode_nodes, apply_nodes]
    cases hw : m.nodeWrite with
    | none => rfl
    | some w => exact erase_write_about ((nodeWrite_about hw id).trans h) s.nodes
  · cases m with
    | addNode ns =>
      rw [apply_removeNode_edges, apply_addNode_edges, apply_removeNode_edges]
    | removeNode id' =>
      have hid : id' = id := by simpa [Mutation.touches] using h
      subst hid
      simp [apply]
    | addLink se =>
      have hse : ¬ (se.src.1 ≠ id ∧ se.dst.1 ≠ id) := by
        simpa [Mutation.touches, or_iff_not_imp_left] using h
      simp [apply, hse]
    | removeLink linkId => cases h

theorem removeNode_passes (s : TopologySnapshot) {m : Mutation} (hlink : m.unlinks = false)
    (h : m.touches id = false) :
    (s.apply m).apply (.removeNode id) = (s.apply (.removeNode id)).apply m := by
  refine eq_of_lists ?_ ?_
  · rw [apply_removeNode_nodes, apply_nodes, apply_nodes, apply_removeNode_nodes]
    cases hw : m.nodeWrite with
    | none => rfl
    | some w => exact erase_write_other ((nodeWrite_about hw id).trans h) s.nodes
  · cases m with
    | addNode ns =>
      rw [apply_removeNode_edges, apply_addNode_edges, apply_addNode_edges,
        apply_removeNode_edges]
    | removeNode id' => simp only [apply, List.filter_filter, Bool.and_comm]
    | addLink se =>
      have hse : se.src.1 ≠ id ∧ se.dst.1 ≠ id := by simpa [Mutation.touches] using h
      simp [apply, hse]
    | removeLink linkId => cases hlink

theorem removeNode_absent (hnodes : ∀ ns ∈ s.nodes, ns.id ≠ id)
    (hedges : ∀ se ∈ s.edges, se.src.1 ≠ id ∧ se.dst.1 ≠ id) :
    s.apply (.removeNode id) = s := by
  refine eq_of_lists (List.filter_eq_self.mpr ?_) (List.filter_eq_self.mpr ?_)
  · exact fun ns hns => by simpa using hnodes ns hns
  · exact fun se hse => by simpa using hedges se hse

theorem removeNode_compacts (s : TopologySnapshot) (id : NodeId) (ms : List Mutation)
    (hms : ∀ m ∈ ms, m.unlinks = false) :
    (s.applyAll ms).apply (.removeNode id) =
        (s.apply (.removeNode id)).applyAll (ms.filter fun m => !m.touches id) ∧
      ((∀ ns ∈ s.nodes, ns.id ≠ id) → (∀ se ∈ s.edges, se.src.1 ≠ id ∧ se.dst.1 ≠ id) →
        (∀ m ∈ ms, m.touches id = true) → (s.applyAll ms).apply (.removeNode id) = s) := by
  have hcompact : (s.applyAll ms).apply (.removeNode id) =
      (s.apply (.removeNode id)).applyAll (ms.filter fun m => !m.touches id) :=
    foldl_compact (fun s m _ h => removeNode_absorbs s h) (fun s m hm h => removeNode_passes s hm h)
      hms s
  refine ⟨hcompact, fun hnodes hedges htouch => ?_⟩
  have hnone : ms.filter (fun m => !m.touches id) = [] :=
    List.filter_eq_nil_iff.mpr fun m hm => by simp [htouch m hm]
  rw [hcompact, hnone, removeNode_absent hnodes hedges]
  rfl

def writes (s : TopologySnapshot) (ms : List Mutation) : List (Write NodeId NodeSnapshot) :=
  s.nodes.map .put ++ ms.filterMap Mutation.nodeWrite

theorem applyAll_writes (hids : (s.nodes.map (·.id)).Nodup) (ms : List Mutation) :
    (s.applyAll ms).nodes = replay NodeSnapshot.id [] (s.writes ms) := by
  have hstart : replay NodeSnapshot.id [] (s.nodes.map .put) = s.nodes := replay_puts hids
  rw [applyAll_nodes, writes, replay, replay, List.foldl_append]
  exact congrArg (List.foldl _ · _) hstart.symm

theorem nodes_last_written (s : TopologySnapshot) (hids : (s.nodes.map (·.id)).Nodup)
    (ms : List Mutation) :
    (∀ before, before <+: ms → ((s.applyAll before).nodes.map (·.id)).Nodup) ∧
    (∀ id, (s.applyAll ms).node id =
      (lastWrite NodeSnapshot.id id (ms.filterMap Mutation.nodeWrite)).getD (s.node id)) ∧
    (∀ id, id ∈ (s.applyAll ms).nodes.map (·.id) ↔
      ∃! i, Born NodeSnapshot.id (s.writes ms) id i) ∧
    ((s.applyAll ms).nodes.map (·.id)).Pairwise fun id id' =>
      ∀ i j, Born NodeSnapshot.id (s.writes ms) id i → Born NodeSnapshot.id (s.writes ms) id' j →
        i < j := by
  refine ⟨fun before _ => ?_, fun id => ?_, fun id => ?_, ?_⟩
  · rw [applyAll_nodes]
    exact nodup_replay hids _
  · have hnode : (s.applyAll ms).node id = lookup NodeSnapshot.id (s.applyAll ms).nodes id := rfl
    rw [hnode, applyAll_nodes]
    exact lookup_replay s.nodes (ms.filterMap Mutation.nodeWrite) id
  · rw [applyAll_writes hids, mem_replay_iff]
    refine ⟨fun ⟨i, hborn⟩ => ⟨i, hborn, fun j hj => hj.unique hborn⟩, ?_⟩
    rintro ⟨i, hborn, -⟩
    exact ⟨i, hborn⟩
  · rw [applyAll_writes hids]
    exact replay_ordered (s.writes ms)

end TopologySnapshot

namespace Sample

def pair : TopologySnapshot where
  nodes := [⟨7, [], [⟨.output, 1, .f32⟩]⟩, ⟨4, [⟨.input, 1, .f32⟩], []⟩]
  edges := [⟨(7, 0), (4, 0)⟩]

def pairEdits : List Mutation :=
  [.addNode ⟨2, [], []⟩, .addLink ⟨(7, 0), (2, 0)⟩, .addNode ⟨2, [⟨.input, 1, .f32⟩], []⟩,
    .removeNode 4]

end Sample

open Sample in
theorem removeNode_compacts_visitor :
    (pair.applyAll pairEdits).apply (.removeNode 2) =
      (pair.apply (.removeNode 2)).applyAll [.removeNode 4] :=
  (TopologySnapshot.removeNode_compacts pair 2 pairEdits (by simp [pairEdits, Mutation.unlinks])).1

open Sample in
theorem nodes_last_written_visitor :
    (pair.applyAll pairEdits).node 2 = some ⟨2, [⟨.input, 1, .f32⟩], []⟩ ∧
      (pair.applyAll pairEdits).node 4 = none := by
  obtain ⟨-, hnode, -, -⟩ := TopologySnapshot.nodes_last_written pair (by decide) pairEdits
  exact ⟨hnode 2, hnode 4⟩

end AudioGraph
