import AudioGraph.Foundation.Reorder
import AudioGraph.Properties.Repair

namespace AudioGraph

open Dependency KeyedLog Reorder

namespace Mutation

variable {m m' : Mutation}

def onNode (id : NodeId) (cur : Option NodeSnapshot) : Mutation → Option NodeSnapshot
  | .addNode ns => if id = ns.id then some ns else cur
  | .removeNode r => if id = r then none else cur
  | _ => cur

def onWires (port : NodeId × PortIdx) (wires : List SnapshotEdge) : Mutation → List SnapshotEdge
  | .removeNode r => wires.filter fun e => e.src.1 ≠ r ∧ e.dst.1 ≠ r
  | .addLink se => if se.dst = port then wires ++ [se] else wires
  | _ => wires

def Free : Mutation → Mutation → Prop
  | .addNode ns, .addNode ns' => ns.id ≠ ns'.id
  | .addNode ns, .removeNode r => ns.id ≠ r
  | .removeNode r, .addNode ns => ns.id ≠ r
  | .removeNode r, .addLink se => se.src.1 ≠ r ∧ se.dst.1 ≠ r
  | .addLink se, .removeNode r => se.src.1 ≠ r ∧ se.dst.1 ≠ r
  | .addLink se, .addLink se' => se.dst ≠ se'.dst
  | _, _ => True

theorem onNode_comm (id : NodeId) (cur : Option NodeSnapshot) (h : Free m m') :
    onNode id (onNode id cur m) m' = onNode id (onNode id cur m') m := by
  cases m <;> cases m' <;> simp only [onNode, Free] at h ⊢ <;> split_ifs <;> grind

theorem onWires_remove_add {port : NodeId × PortIdx} {wires : List SnapshotEdge} {r : NodeId}
    {se : SnapshotEdge} (h : se.src.1 ≠ r ∧ se.dst.1 ≠ r) :
    onWires port (onWires port wires (.removeNode r)) (.addLink se) =
      onWires port (onWires port wires (.addLink se)) (.removeNode r) := by
  have hkept : decide (se.src.1 ≠ r ∧ se.dst.1 ≠ r) = true := decide_eq_true h
  simp only [onWires]
  split
  · rw [List.filter_append, List.filter_singleton, hkept, cond_true]
  · rfl

theorem onWires_comm (port : NodeId × PortIdx) (wires : List SnapshotEdge) (h : Free m m') :
    onWires port (onWires port wires m) m' = onWires port (onWires port wires m') m := by
  cases m with
  | addNode ns => cases m' <;> rfl
  | removeLink linkId => cases m' <;> rfl
  | removeNode r =>
    cases m' with
    | removeNode r' => simp only [onWires, List.filter_filter, Bool.and_comm]
    | addLink se => exact onWires_remove_add h
    | addNode ns => rfl
    | removeLink linkId => rfl
  | addLink se =>
    cases m' with
    | removeNode r => exact (onWires_remove_add h).symm
    | addLink se' =>
      simp only [onWires, Free] at h ⊢
      split_ifs with hport hport'
      · exact absurd (hport.trans hport'.symm) (Ne.symm h)
      all_goals rfl
    | addNode ns => rfl
    | removeLink linkId => rfl

end Mutation

namespace TopologySnapshot

variable {s : TopologySnapshot} {ms ms' : List Mutation}

def wires (s : TopologySnapshot) (port : NodeId × PortIdx) : List SnapshotEdge :=
  s.edges.filter fun e => e.dst = port

theorem apply_node (s : TopologySnapshot) (m : Mutation) (id : NodeId) :
    (s.apply m).node id = m.onNode id (s.node id) := by
  have hnode : (s.apply m).node id = lookup NodeSnapshot.id (s.apply m).nodes id := rfl
  cases m with
  | addNode ns => exact congrFun (apply_addNode s ns).1 id
  | removeNode r =>
    rw [hnode, apply_removeNode_nodes, lookup_erase]
    exact if_congr eq_comm rfl rfl
  | addLink se => rfl
  | removeLink linkId =>
    rw [hnode, apply_nodes]
    rfl

theorem applyAll_node (s : TopologySnapshot) (ms : List Mutation) (id : NodeId) :
    (s.applyAll ms).node id = ms.foldl (Mutation.onNode id) (s.node id) := by
  induction ms generalizing s with
  | nil => rfl
  | cons m ms ih =>
    rw [List.foldl_cons, ← apply_node]
    exact ih (s.apply m)

theorem apply_wires {m : Mutation} (h : m.unlinks = false) (s : TopologySnapshot)
    (port : NodeId × PortIdx) : (s.apply m).wires port = m.onWires port (s.wires port) := by
  cases m with
  | addNode ns =>
    rw [wires, apply_addNode_edges]
    rfl
  | removeNode r =>
    simp only [wires, apply_removeNode_edges, Mutation.onWires, List.filter_filter, Bool.and_comm]
  | addLink se =>
    simp only [wires, apply, List.filter_append, List.filter_singleton, Mutation.onWires]
    split_ifs with hport
    · rw [decide_eq_true hport, cond_true]
    · rw [decide_eq_false hport, cond_false, List.append_nil]
  | removeLink linkId => cases h

theorem applyAll_wires (h : ∀ m ∈ ms, m.unlinks = false) (s : TopologySnapshot)
    (port : NodeId × PortIdx) :
    (s.applyAll ms).wires port = ms.foldl (Mutation.onWires port) (s.wires port) := by
  induction ms generalizing s with
  | nil => rfl
  | cons m ms ih =>
    obtain ⟨hm, hms⟩ := List.forall_mem_cons.mp h
    rw [List.foldl_cons, ← apply_wires hm]
    exact ih hms (s.apply m)

theorem incoming_first (s : TopologySnapshot) (id : NodeId) (p : PortIdx) :
    (s.incoming id).find? (fun e => e.dst.2 = p) = (s.wires (id, p)).head? := by
  rw [incoming, wires, List.find?_filter, ← List.head?_filter]
  refine congrArg List.head? (List.filter_congr fun e _ => ?_)
  simp [Prod.ext_iff]

theorem leads_iff {a b : NodeId} : s.Leads a b ↔ ∃ p, ∃ e ∈ s.wires (b, p), e.src.1 = a := by
  constructor
  · rintro ⟨e, he, rfl, rfl⟩
    exact ⟨e.dst.2, e, List.mem_filter.mpr ⟨he, decide_eq_true rfl⟩, rfl⟩
  · rintro ⟨p, e, he, rfl⟩
    obtain ⟨hmem, hport⟩ := List.mem_filter.mp he
    exact ⟨e, hmem, rfl, congrArg Prod.fst (of_decide_eq_true hport)⟩

structure Alike (s s' : TopologySnapshot) : Prop where
  node : ∀ id, s'.node id = s.node id
  wires : ∀ port, s'.wires port = s.wires port

theorem Alike.heard {s s' : TopologySnapshot} (h : Alike s s') (id : NodeId) : Heard id s s' :=
  ⟨h.node id, fun p => by rw [incoming_first, incoming_first, h.wires]⟩

theorem Alike.leads {s s' : TopologySnapshot} (h : Alike s s') : s'.Leads = s.Leads := by
  funext a b
  simp only [leads_iff, h.wires]

theorem alike_of_reordered (h : Reordered Mutation.Free ms ms')
    (hms : ∀ m ∈ ms, m.unlinks = false) (s : TopologySnapshot) :
    Alike (s.applyAll ms) (s.applyAll ms') := by
  have hms' : ∀ m ∈ ms', m.unlinks = false := fun m hm => hms m (h.perm.mem_iff.mpr hm)
  constructor
  · intro id
    rw [applyAll_node, applyAll_node]
    exact (h.foldl (fun cur _ _ hab => Mutation.onNode_comm id cur hab) _).symm
  · intro port
    rw [applyAll_wires hms, applyAll_wires hms']
    exact (h.foldl (fun wires _ _ hab => Mutation.onWires_comm port wires hab) _).symm

end TopologySnapshot

section

variable [AudioCore] {Φ Ψ P S : Type} [AudioNode P] [SinkNode S] {s s' : TopologySnapshot}
  {factory : Φ → NodeId → Option P × Φ} {factory' : Ψ → NodeId → Option P × Ψ} {φ φ' : Φ}
  {ψ ψ' : Ψ} {g g' ready ready' : Graph P S} {config : GraphConfig}

namespace Graph

theorem Laid.alike (hl : Laid s g) (hb : Built g) (hl' : Laid s' g') (hb' : Built g')
    (ha : TopologySnapshot.Alike s s') (hready : g.compile config = (ready, .ok ()))
    (hready' : g'.compile config = (ready', .ok ())) :
    Edited config (fun _ => True) s s' ready ready' where
  running := .refl hb hready
  running' := .refl hb' hready'
  laid := hl.compiled (compiled_of_compile hready)
  laid' := hl'.compiled (compiled_of_compile hready')
  same := fun id _ => ha.heard id
  closed := fun _ _ _ => trivial

variable [KeepsContext P] [KeepsContext S]

theorem edits_interchange (hids : s.ids.Nodup) {ms ms' : List Mutation}
    (hms : ∀ m ∈ ms, m.unlinks = false) (hreordered : Reordered Mutation.Free ms ms')
    (hg : fromSnapshot (s.applyAll ms) factory φ = (φ', .ok g))
    (hg' : fromSnapshot (s.applyAll ms') factory' ψ = (ψ', .ok g'))
    (hsame : ∀ id ∈ (s.applyAll ms).ids,
      g'.scratch.nodes[(s.applyAll ms').ids.idxOf id]? =
        g.scratch.nodes[(s.applyAll ms).ids.idxOf id]?) (config : GraphConfig) :
    ((g.compile config).2 = .ok () ↔ (g'.compile config).2 = .ok ()) ∧
    ∀ ready ready', g.compile config = (ready, .ok ()) → g'.compile config = (ready', .ok ()) →
      ∀ ds : List Drive, (∀ d ∈ ds, d.feedsOrCycles) → ∀ id ∈ (s.applyAll ms).ids,
        id ∈ (s.applyAll ms').ids ∧
        (ready'.drive (ds.map (Drive.placed (s.applyAll ms')))).1.scratch.cells
            ((s.applyAll ms').ids.idxOf id) =
          (ready.drive (ds.map (Drive.placed (s.applyAll ms)))).1.scratch.cells
            ((s.applyAll ms).ids.idxOf id) := by
  have halike := TopologySnapshot.alike_of_reordered hreordered hms s
  have hnodup := TopologySnapshot.applyAll_ids_nodup hids
  obtain ⟨hlaid, hbuilt⟩ := laid_of_fromSnapshot (hnodup ms) hg
  obtain ⟨hlaid', hbuilt'⟩ := laid_of_fromSnapshot (hnodup ms') hg'
  constructor
  · rw [hlaid.compile_ok_iff hbuilt.wired.compiled, hlaid'.compile_ok_iff hbuilt'.wired.compiled,
      halike.leads]
  · intro ready ready' hready hready' ds hds id hid
    have he := hlaid.alike hbuilt hlaid' hbuilt' halike hready hready'
    have hstart : Alongside (fun _ => True) _ _ ready ready' ready ready' :=
      .start (compiled_of_compile hready) (compiled_of_compile hready') fun id hid _ =>
        hsame id hid
    exact ⟨he.mem trivial hid, (hstart.drive he hds).cells id trivial hid⟩

end Graph

end

namespace Sample

open PlainCore

def speaker : NodeSnapshot := ⟨0, [⟨.input, 1, .f32⟩], []⟩

def microphone : NodeSnapshot := ⟨9, [], [⟨.output, 1, .f32⟩]⟩

def microphoneFirst : List Mutation :=
  [.addNode microphone, .addNode speaker, .addLink ⟨(9, 0), (0, 0)⟩]

def speakerFirst : List Mutation :=
  [.addNode speaker, .addNode microphone, .addLink ⟨(9, 0), (0, 0)⟩]

def sourceFirstGraph : Graph (DynNode RingSource) RingSink :=
  .rebuilt [.ringSource source, .ringSink sink] [⟨(0, 0), (1, 0)⟩]

def sinkFirstGraph : Graph (DynNode RingSource) RingSink :=
  .rebuilt [.ringSink sink, .ringSource source] [⟨(1, 0), (0, 0)⟩]

end Sample

open PlainCore Sample in
theorem edits_interchange_speaker :
    ((sinkFirstGraph.compile Sample.config).1.drive
        (feedCycle.map (Drive.placed (TopologySnapshot.new.applyAll speakerFirst)))).1.scratch.cells
          ((TopologySnapshot.new.applyAll speakerFirst).ids.idxOf 0) =
      ((sourceFirstGraph.compile Sample.config).1.drive
        (feedCycle.map
          (Drive.placed (TopologySnapshot.new.applyAll microphoneFirst)))).1.scratch.cells
          ((TopologySnapshot.new.applyAll microphoneFirst).ids.idxOf 0) := by
  have hfree : microphone.id ≠ speaker.id := by decide
  have hswap : Reordered Mutation.Free microphoneFirst speakerFirst := .swap _ _ _ hfree
  have hg : Graph.fromSnapshot (TopologySnapshot.new.applyAll microphoneFirst)
      twoSourcesFactory () =
      ((), .ok sourceFirstGraph) := rfl
  have hg' : Graph.fromSnapshot (TopologySnapshot.new.applyAll speakerFirst) twoSourcesFactory () =
      ((), .ok sinkFirstGraph) := rfl
  have hdrives : ∀ d ∈ feedCycle, d.feedsOrCycles := by simp [feedCycle, Drive.feedsOrCycles]
  have hsame : ∀ id ∈ (TopologySnapshot.new.applyAll microphoneFirst).ids,
      sinkFirstGraph.scratch.nodes[(TopologySnapshot.new.applyAll speakerFirst).ids.idxOf id]? =
        sourceFirstGraph.scratch.nodes[
          (TopologySnapshot.new.applyAll microphoneFirst).ids.idxOf id]? := by
    intro id hid
    have hids : (TopologySnapshot.new.applyAll microphoneFirst).ids = [9, 0] := rfl
    have hcases : id = 9 ∨ id = 0 := by simpa [hids] using hid
    rcases hcases with rfl | rfl <;> rfl
  have hplays := (Graph.edits_interchange (by decide) (by decide) hswap hg hg' hsame
    Sample.config).2 _ _ rfl rfl feedCycle hdrives
  exact (hplays 0 (by decide)).2

end AudioGraph
